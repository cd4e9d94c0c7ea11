import FTKV.Grpc.Calls

/-!
# The status of a node

`GetStatus` of the service `Raft` reports a snapshot of the node, and
`GrpcClient::status` reads it.  The probes of `main.cpp` consist of this call.

## Moments

While a client waits, the node goes on.  The world of a status call is therefore
the present moment, and an attempt is handled at some later moment.
-/

namespace FTKV

open Foundation
open Foundation.Effect

namespace Raft

structure NodeSnapshot where
  nodeId : NodeId := 0
  state : NodeState := .follower
  currentTerm : Term := 0
  leaderId : Option NodeId := none
  commitIndex : LogIndex := 0
  lastApplied : LogIndex := 0
  lastLogIndex : LogIndex := 0
deriving DecidableEq, Repr

def RaftNode.snapshot {storage random : Type} (n : RaftNode storage random) :
    NodeSnapshot where
  nodeId := n.config.nodeId
  state := n.state
  currentTerm := n.currentTerm
  leaderId := n.leaderId
  commitIndex := n.commitIndex
  lastApplied := n.lastApplied
  lastLogIndex := n.lastLogIndexLocked

end Raft

namespace Rpc

open Raft (NodeId Term LogIndex NodeSnapshot NodeState RaftNode)

/-!
# Messages
-/

namespace V1

/-- An enumeration of protocol buffers, which may carry a number it does not name. -/
inductive NodeRole where
  | unspecified
  | follower
  | candidate
  | leader
  | unrecognized (number : Int)
deriving DecidableEq, Inhabited, Repr

structure NodeStatusRequest where
deriving DecidableEq, Inhabited, Repr

structure NodeStatusResponse where
  nodeId : NodeId := 0
  role : NodeRole := .unspecified
  currentTerm : Term := 0
  hasLeader : Bool := false
  leaderId : NodeId := 0
  commitIndex : LogIndex := 0
  lastApplied : LogIndex := 0
  lastLogIndex : LogIndex := 0
deriving DecidableEq, Inhabited, Repr

def NodeRole.ofState : NodeState -> NodeRole
  | .follower => .follower
  | .candidate => .candidate
  | .leader => .leader

def NodeRole.toState : NodeRole -> Option NodeState
  | .follower => some .follower
  | .candidate => some .candidate
  | .leader => some .leader
  | _ => none

def NodeStatusResponse.ofSnapshot (snapshot : NodeSnapshot) : NodeStatusResponse where
  nodeId := snapshot.nodeId
  role := .ofState snapshot.state
  currentTerm := snapshot.currentTerm
  hasLeader := snapshot.leaderId.isSome
  -- The field is set only when there is a leader, and is zero otherwise.
  leaderId := snapshot.leaderId.getD 0
  commitIndex := snapshot.commitIndex
  lastApplied := snapshot.lastApplied
  lastLogIndex := snapshot.lastLogIndex

def NodeStatusResponse.toSnapshot (response : NodeStatusResponse) (state : NodeState) :
    NodeSnapshot where
  nodeId := response.nodeId
  state := state
  currentTerm := response.currentTerm
  leaderId := if response.hasLeader then some response.leaderId else none
  commitIndex := response.commitIndex
  lastApplied := response.lastApplied
  lastLogIndex := response.lastLogIndex

theorem toState_ofState (state : NodeState) :
    (NodeRole.ofState state).toState = some state := by
  cases state <;> rfl

theorem toSnapshot_ofSnapshot (snapshot : NodeSnapshot) :
    (NodeStatusResponse.ofSnapshot snapshot).toSnapshot snapshot.state = snapshot := by
  rcases snapshot with ⟨_, _, _, leaderId, _, _, _⟩
  cases leaderId <;> rfl

end V1

/-!
# The service and the client
-/

def RaftService.getStatus {storage random : Type} (context : ServerContext)
    (_ : V1.NodeStatusRequest) :
    Effect (RaftNode storage random) Fault (Reply V1.NodeStatusResponse) :=
  runHandler context (do
    let n <- get
    pure (V1.NodeStatusResponse.ofSnapshot n.snapshot))

structure StatusClient (world : Type) where
  options : GrpcClientOptions
  getStatus : V1.NodeStatusRequest -> Effect world Fault (Reply V1.NodeStatusResponse)
  sleepFor : Int -> Effect world Fault Unit

def StatusClient.status {world : Type} (client : StatusClient world) :
    Effect world Fault NodeSnapshot := do
  let result <- invokeWithRetry client.options client.sleepFor (client.getStatus {})
  if result.status.code ≠ .ok then
    throw (.grpcError (grpcError "GetStatus" result.status result.attempts))
  else
    match result.response.role.toState with
    | some state => pure (result.response.toSnapshot state)
    | none =>
        throw (.grpcError (grpcError "GetStatus"
          ⟨.dataLoss, "server returned an unknown Raft role"⟩ result.attempts))

/-!
# A node that goes on
-/

/-- What happens to one attempt. -/
structure Fortune where
  /-- The time until the handler runs. -/
  delay : Nat := 0
  /-- The time from then until the client has a reply or gives up. -/
  latency : Nat := 0
  context : ServerContext := {}
  /-- How the attempt ends if its reply does not arrive. -/
  failure : Option { status : Status // status.code ≠ .ok } := none

section Watching

variable {storage random : Type}

def watch (nodes : Nat -> RaftNode storage random) (fortunes : Nat -> Fortune)
    (request : V1.NodeStatusRequest) :
    Effect Nat Fault (Reply V1.NodeStatusResponse) := do
  let now <- get
  let fortune := fortunes now
  let handled := now + fortune.delay
  set (handled + fortune.latency)
  match fortune.failure with
  | some status => pure ⟨status.val, default⟩
  | none =>
      ofExcept (outcome (RaftService.getStatus fortune.context request)
        (nodes handled)).1

def watcher (options : GrpcClientOptions) (nodes : Nat -> RaftNode storage random)
    (fortunes : Nat -> Fortune) (pauses : Nat -> Nat) : StatusClient Nat where
  options := options
  getStatus := watch nodes fortunes
  sleepFor _ := modify fun now => now + pauses now

variable {nodes : Nat -> RaftNode storage random} {fortunes : Nat -> Fortune}
  {pauses : Nat -> Nat} {options : GrpcClientOptions} {start : Nat}

theorem outcome_getStatus (context : ServerContext) (n : RaftNode storage random) :
    exists reply, outcome (RaftService.getStatus context {}) n = (.ok reply, n) ∧
      (reply.status.code = .ok -> reply.response = .ofSnapshot n.snapshot) := by
  unfold RaftService.getStatus runHandler
  split
  · refine ⟨_, rfl, ?_⟩
    intro hcode
    cases hcode
  · rw [outcome_tryCatch]
    cases hcancelled : context.cancelledAfter with
    | true =>
        refine ⟨⟨⟨.cancelled, "request deadline elapsed"⟩, .ofSnapshot n.snapshot⟩,
          rfl, ?_⟩
        intro hcode
        cases hcode
    | false => exact ⟨⟨{}, .ofSnapshot n.snapshot⟩, rfl, fun _ => rfl⟩

def FilledSince (nodes : Nat -> RaftNode storage random) (start : Nat)
    (response : V1.NodeStatusResponse) (now : Nat) : Prop :=
  exists moment, start <= moment ∧ moment <= now ∧
    response = .ofSnapshot (nodes moment).snapshot

theorem keeps_watch :
    Keeps (fun now => start <= now) (FilledSince nodes start)
      (watch nodes fortunes {}) := by
  intro now hnow
  unfold watch
  simp only [ensures_bind, ensures_get, continues_ok, ensures_set]
  split
  · rename_i failure _
    rw [ensures_pure]
    refine ⟨_, rfl, by lia, ?_⟩
    intro hcode
    exact absurd hcode failure.property
  · rw [ensures_ofExcept]
    rcases outcome_getStatus (fortunes now).context
      (nodes (now + (fortunes now).delay)) with ⟨reply, houtcome, hreply⟩
    rw [houtcome]
    refine ⟨reply, rfl, by lia, ?_⟩
    intro hcode
    exact ⟨now + (fortunes now).delay, by lia, by lia, hreply hcode⟩

theorem pauses_watcher :
    Pauses (fun now => start <= now) (watcher options nodes fortunes pauses).sleepFor := by
  intro pause now hnow
  refine ⟨rfl, ?_⟩
  show start <= now + pauses now
  lia

/--
A status call that returns has read a snapshot of the node at a moment between its
start and its end, however many attempts it took.
-/
theorem status_is_snapshot {status : NodeSnapshot} {finish : Nat}
    (h : outcome (watcher options nodes fortunes pauses).status start =
      (.ok status, finish)) :
    exists moment, start <= moment ∧ moment <= finish ∧
      status = (nodes moment).snapshot := by
  have hensures : Ensures (watcher options nodes fortunes pauses).status start
      (fun r now => forall status, r = .ok status -> exists moment,
        start <= moment ∧ moment <= now ∧ status = (nodes moment).snapshot) := by
    unfold StatusClient.status invokeWithRetry
    rw [ensures_bind]
    change Ensures (attemptFrom options _ _ options.maxAttempts 1 _) start _
    cases hattempts : options.maxAttempts with
    | zero =>
        intro status hstatus
        cases hstatus
    | succ left =>
        apply ensures_mono (ensures_attemptFrom keeps_watch pauses_watcher left 1 _
          (by lia) start (Nat.le_refl start))
        intro r now hresult
        rcases hresult with ⟨result, hr, _, hfilled⟩
        rw [hr, continues_ok]
        by_cases hcode : result.status.code = .ok
        · rw [if_neg (not_not.mpr hcode)]
          rcases hfilled hcode with ⟨moment, hstart, hmoment, hresponse⟩
          have hrole : result.response.role.toState = some (nodes moment).state := by
            rw [hresponse]
            exact V1.toState_ofState _
          rw [hrole, ensures_pure, hresponse]
          intro status hstatus
          cases hstatus
          exact ⟨moment, hstart, hmoment, V1.toSnapshot_ofSnapshot _⟩
        · rw [if_pos hcode, ensures_throw]
          intro status hstatus
          cases hstatus
  unfold Ensures at hensures
  rw [h] at hensures
  exact hensures status rfl

end Watching

end Rpc
end FTKV
