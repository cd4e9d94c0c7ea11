import FTKV.Raft.Incarnation

/-!
# Clusters

A fixed set of nodes and the messages that were sent.  Messages stay in the
network once they have been sent: a message that is never delivered was lost,
and one that is delivered again was duplicated.

## Crashes

A crash loses everything but the storage.  It may come between two operations or
in the middle of one.  Only saves change the storage, so a crash in the middle
of an operation is a crash in one of its saves: that save does not return, the
storage keeps its last saved state, and the node is rebuilt from it.
-/

namespace FTKV
namespace Raft

open Foundation
open Foundation.Effect

/-- The configurations of a fixed set of members that all name that set. -/
structure Membership where
  members : Finset NodeId
  config : NodeId -> RaftConfig
  nodeId_eq : forall id, id ∈ members -> (config id).nodeId = id
  peers_eq : forall id, id ∈ members ->
    insert id (config id).peers.toFinset = members

structure Cluster (storage random : Type) where
  nodes : NodeId -> RaftNode storage random
  network : List Message

/-- What happens in a cluster: a node operates, or it crashes and restarts. -/
inductive Event where
  | operation (id : NodeId) (op : Operation)
  | restart (id : NodeId)
deriving DecidableEq, Repr

section Steps

variable {storage random : Type}

namespace Cluster

def delivers (cluster : Cluster storage random) (op : Operation) : Bool :=
  op.inbox.all fun message => message ∈ cluster.network

theorem mem_network_of_delivers {cluster : Cluster storage random}
    {op : Operation} {message : Message} (hdelivers : cluster.delivers op)
    (hinbox : op.inbox = some message) : message ∈ cluster.network := by
  unfold delivers at hdelivers
  rw [hinbox] at hdelivers
  simpa using hdelivers

def install (cluster : Cluster storage random) (id : NodeId)
    (node : RaftNode storage random) (sent : List Message) :
    Cluster storage random where
  nodes := Function.update cluster.nodes id node
  network := cluster.network ++ sent

@[simp] theorem install_nodes_self (cluster : Cluster storage random) (id : NodeId)
    (node : RaftNode storage random) (sent : List Message) :
    (cluster.install id node sent).nodes id = node :=
  Function.update_self ..

theorem install_nodes_of_ne (cluster : Cluster storage random) {id other : NodeId}
    (node : RaftNode storage random) (sent : List Message) (hne : other ≠ id) :
    (cluster.install id node sent).nodes other = cluster.nodes other :=
  Function.update_of_ne hne ..

variable [RaftStorage storage] [RandomEngine random]

/-- Rebuild a node from its storage; a node that cannot start stays down. -/
def rebuild (membership : Membership) (cluster : Cluster storage random)
    (id : NodeId) (store : storage) : Option (Cluster storage random) :=
  match RaftNode.create (membership.config id) store with
  | .ok node => some (cluster.install id node [])
  | .error _ => none

def next (membership : Membership) (cluster : Cluster storage random) :
    Event -> Option (Cluster storage random)
  | .operation id op =>
      if id ∈ membership.members ∧ cluster.delivers op then
        match outcome op.perform (cluster.nodes id) with
        | (.error (.storage _), node) =>
            cluster.rebuild membership id node.storage
        | (r, node) => some (cluster.install id node (outputOf r).messages)
      else
        none
  | .restart id =>
      if id ∈ membership.members then
        cluster.rebuild membership id (cluster.nodes id).storage
      else
        none

theorem next_operation {membership : Membership}
    {cluster cluster' : Cluster storage random} {id : NodeId} {op : Operation}
    (hnext : cluster.next membership (.operation id op) = some cluster') :
    id ∈ membership.members ∧ cluster.delivers op ∧
      exists r node, outcome op.perform (cluster.nodes id) = (r, node) ∧
        (((exists cause, r = .error (.storage cause)) ∧
            cluster.rebuild membership id node.storage = some cluster') ∨
          ((forall cause, r ≠ .error (.storage cause)) ∧
            cluster' = cluster.install id node (outputOf r).messages)) := by
  simp only [next] at hnext
  split at hnext
  · rename_i hguard
    split at hnext
    · rename_i cause node houtcome
      exact ⟨hguard.left, hguard.right, _, _, houtcome,
        Or.inl ⟨⟨cause, rfl⟩, hnext⟩⟩
    · rename_i r node hother houtcome
      refine ⟨hguard.left, hguard.right, r, node, houtcome,
        Or.inr ⟨?_, (Option.some.inj hnext).symm⟩⟩
      rintro cause rfl
      exact hother cause rfl
  · cases hnext

theorem next_restart {membership : Membership}
    {cluster cluster' : Cluster storage random} {id : NodeId}
    (hnext : cluster.next membership (.restart id) = some cluster') :
    id ∈ membership.members ∧ cluster.rebuild membership id
      (cluster.nodes id).storage = some cluster' := by
  simp only [next] at hnext
  split at hnext
  · rename_i hid
    exact ⟨hid, hnext⟩
  · cases hnext

structure Starts (membership : Membership) (cluster : Cluster storage random) :
    Prop where
  network : cluster.network = []
  nodes : forall id, id ∈ membership.members -> exists store,
    RaftStorage.load store = .ok {} ∧
      RaftNode.create (membership.config id) store = .ok (cluster.nodes id)

end Cluster

/--
A run of a cluster, in which time may pass without an event and no member
reaches the greatest term.
-/
structure Execution (storage random : Type) [RaftStorage storage]
    [RandomEngine random] (membership : Membership) where
  states : Nat -> Cluster storage random
  starts : (states 0).Starts membership
  next : forall k, states (k + 1) = states k ∨ exists event,
    (states k).next membership event = some (states (k + 1))
  terms : forall k id, id ∈ membership.members ->
    ((states k).nodes id).currentTerm ≠ 18446744073709551615

/-!
# Runs from lists of events
-/

section Traces

variable [RaftStorage storage] [RandomEngine random]

namespace Cluster

/-- The states that a list of events leads through; impossible events are skipped. -/
def trace (membership : Membership) (cluster : Cluster storage random)
    (events : List Event) : Nat -> Cluster storage random
  | 0 => cluster
  | k + 1 =>
      let current := trace membership cluster events k
      match events[k]? with
      | some event => (current.next membership event).getD current
      | none => current

variable {membership : Membership} {cluster : Cluster storage random}
  {events : List Event}

theorem trace_succ (k : Nat) :
    cluster.trace membership events (k + 1) =
        cluster.trace membership events k ∨
      exists event, (cluster.trace membership events k).next membership event =
        some (cluster.trace membership events (k + 1)) := by
  cases hevent : events[k]? with
  | none =>
      left
      simp [trace, hevent]
  | some event =>
      cases hnext : (cluster.trace membership events k).next membership event with
      | none =>
          left
          simp [trace, hevent, hnext]
      | some cluster' =>
          right
          exact ⟨event, by simp [trace, hevent, hnext]⟩

theorem trace_of_length_le {k : Nat} (hk : events.length <= k) :
    cluster.trace membership events k =
      cluster.trace membership events events.length := by
  induction hk with
  | refl => rfl
  | step hle ih =>
      rw [← ih]
      simp [trace, List.getElem?_eq_none hle]

end Cluster

def Execution.ofEvents (membership : Membership)
    (cluster : Cluster storage random) (events : List Event)
    (hstarts : cluster.Starts membership)
    (hterms : forall k, k <= events.length -> forall id,
      id ∈ membership.members ->
        ((cluster.trace membership events k).nodes id).currentTerm ≠
          18446744073709551615) : Execution storage random membership where
  states := cluster.trace membership events
  starts := hstarts
  next := Cluster.trace_succ
  terms := by
    intro k id hid
    rcases Nat.le_total k events.length with hle | hle
    · exact hterms k hle id hid
    · rw [Cluster.trace_of_length_le hle]
      exact hterms _ (Nat.le_refl _) id hid

end Traces

end Steps

/-!
# A run of three members

Member 1 is elected in term 1 with the vote of member 2 and replicates a command
there.  Both commit it.  Member 2 is then elected in term 2 with the vote of
member 3, and restarts.
-/

def threeMembers : Membership where
  members := {1, 2, 3}
  config := fun id =>
    { nodeId := id, peers := [1, 2, 3].filter fun peer => peer ≠ id }
  nodeId_eq := fun _ _ => rfl
  peers_eq := by
    intro id hid
    have hcases : id = 1 ∨ id = 2 ∨ id = 3 := by
      simpa using hid
    rcases hcases with rfl | rfl | rfl <;> decide

theorem mem_threeMembers {id : NodeId} (hid : id ∈ threeMembers.members) :
    id = 1 ∨ id = 2 ∨ id = 3 := by
  simpa [threeMembers] using hid

def threeNodes : Cluster InMemoryRaftStorage LeastEngine where
  nodes := fun id =>
    match RaftNode.create (threeMembers.config id) {} with
    | .ok node => node
    | .error _ =>
        { config := threeMembers.config id, storage := {}, random := {} }
  network := []

def firstEntries : Message where
  fromNode := 1
  toNode := 2
  rpc := .appendEntriesRequest {
    term := 1
    leaderId := 1
    entries := [{ term := 1, isNoOp := true }, { term := 1, command := [42] }]
    requestId := 2 }

def firstReceipt : Message where
  fromNode := 2
  toNode := 1
  rpc := .appendEntriesResponse {
    term := 1
    success := true
    matchIndex := 2
    conflictIndex := 3
    requestId := 2 }

def firstCommit : Message where
  fromNode := 1
  toNode := 2
  rpc := .appendEntriesRequest {
    term := 1
    leaderId := 1
    previousLogIndex := 2
    previousLogTerm := 1
    leaderCommit := 2
    requestId := 3 }

def twoElections : List Event := [
  .operation 1 (.tick 150),
  .operation 1 .takeMessages,
  .operation 2 (.handleRequest
    ⟨1, 2, .requestVoteRequest { term := 1, candidateId := 1 }⟩),
  .operation 1 (.step
    ⟨2, 1, .requestVoteResponse { term := 1, voteGranted := true }⟩),
  .operation 1 (.propose [42]),
  .operation 1 .takeMessages,
  .operation 2 (.handleRequest firstEntries),
  .operation 1 (.step firstReceipt),
  .operation 1 .takeMessages,
  .operation 2 (.handleRequest firstCommit),
  .operation 2 (.tick 150),
  .operation 2 .takeMessages,
  .operation 3 (.handleRequest ⟨2, 3, .requestVoteRequest {
    term := 2, candidateId := 2, lastLogIndex := 2, lastLogTerm := 1 }⟩),
  .operation 2 (.step
    ⟨3, 2, .requestVoteResponse { term := 2, voteGranted := true }⟩),
  .restart 2]

theorem starts_threeNodes : threeNodes.Starts threeMembers := by
  refine ⟨rfl, ?_⟩
  intro id hid
  rcases mem_threeMembers hid with rfl | rfl | rfl
  · exact ⟨{}, rfl, rfl⟩
  · exact ⟨{}, rfl, rfl⟩
  · exact ⟨{}, rfl, rfl⟩

theorem terms_twoElections (k : Nat) (hk : k <= twoElections.length)
    (id : NodeId) (hid : id ∈ threeMembers.members) :
    ((threeNodes.trace threeMembers twoElections k).nodes id).currentTerm ≠
      18446744073709551615 := by
  rcases mem_threeMembers hid with rfl | rfl | rfl
  · revert k
    decide +kernel
  · revert k
    decide +kernel
  · revert k
    decide +kernel

def threeRun : Execution InMemoryRaftStorage LeastEngine threeMembers :=
  .ofEvents threeMembers threeNodes twoElections starts_threeNodes
    terms_twoElections

end Raft
end FTKV
