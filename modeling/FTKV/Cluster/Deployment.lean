import FTKV.Cluster.Model
import FTKV.Node.Threads

/-!
# Deployed processes

The members of a cluster as the processes that `main` runs: every process has a
node, its threads and a server, and the processes reach one another through RPC
calls only.  A call is attempted again when its status allows it.

## Assumptions about gRPC

Each endpoint belongs to the peer it is listed for.  The handler of an attempt
runs at most once, at any time after the attempt has begun, also after the
client has given the attempt up; its reply may be lost.  An attempt without a
reply ends with a status that is not ok.

## Exceptions

An exception that leaves a thread of the runtime ends the process.  An exception
in a handler becomes the status of the call, and the process goes on.
-/

namespace FTKV
namespace Node

open Foundation
open Foundation.Effect
open Raft (NodeId Message RaftNode RaftStorage RandomEngine Operation Output Membership)

structure Deployment where
  members : Finset NodeId
  config : NodeId -> NodeRuntimeConfig
  nodeId_eq : forall id, id ∈ members -> (config id).nodeId = id
  peers_eq : forall id, id ∈ members ->
    insert id (raftConfig (config id)).peers.toFinset = members

def Deployment.membership (deployment : Deployment) : Membership where
  members := deployment.members
  config id := raftConfig (deployment.config id)
  nodeId_eq := deployment.nodeId_eq
  peers_eq := deployment.peers_eq

/-!
# The service behind a call
-/

namespace RaftCall

def sender : RaftCall -> NodeId
  | .requestVote request => request.candidateId
  | .appendEntries request => request.leaderId

def toRpc : RaftCall -> Raft.Rpc
  | .requestVote request => .requestVoteRequest request.toRequest
  | .appendEntries request => .appendEntriesRequest request.toRequest

def handle {storage random : Type} [RaftStorage storage] [RandomEngine random]
    (context : Rpc.ServerContext) :
    RaftCall -> Effect (RaftNode storage random) Rpc.Fault (Rpc.Reply RaftAnswer)
  | .requestVote request => do
      let reply <- Rpc.RaftService.requestVote context request
      pure ⟨reply.status, .requestVote reply.response⟩
  | .appendEntries request => do
      let reply <- Rpc.RaftService.appendEntries context request
      pure ⟨reply.status, .appendEntries reply.response⟩

end RaftCall

/-!
# States
-/

/-- A process; one that is down has no threads, and of its node only the storage
is left. -/
structure Machine (storage random : Type) where
  node : RaftNode storage random
  threads : Option Threads

/-- An attempt of a call, as it is on its way. -/
structure Parcel where
  ticket : Nat
  receiver : NodeId
  call : RaftCall
deriving DecidableEq, Repr

def Parcel.message (parcel : Parcel) : Message where
  fromNode := parcel.call.sender
  toNode := parcel.receiver
  rpc := parcel.call.toRpc

structure System (storage random : Type) where
  machines : NodeId -> Machine storage random
  /-- Attempts that no handler has run for yet. -/
  requests : List Parcel
  replies : List (Parcel × Rpc.Reply RaftAnswer)
  issued : Nat

/-- What happens in a deployment. -/
inductive Deed where
  | act (id : NodeId) (action : Action)
  | tick (id : NodeId) (elapsed : Int)
  | take (id : NodeId)
  | call (id : NodeId) (i : Nat)
  | serve (index : Nat) (context : Rpc.ServerContext)
  | answer (id : NodeId) (i index : Nat)
  | giveUp (id : NodeId) (i : Nat) (status : Rpc.Status)
  | respond (id : NodeId) (i : Nat)
  | kill (id : NodeId)
  | restart (id : NodeId)

def Action.internal : Action -> Bool
  | .start => true
  | .stop => true
  | .control => true
  | .fail => true
  | .ticker => true
  | .worker _ => true
  | .wake _ => true
  | _ => false

section Steps

variable {storage random : Type}

namespace System

def put (s : System storage random) (id : NodeId) (machine : Machine storage random) :
    System storage random :=
  { s with machines := Function.update s.machines id machine }

def post (s : System storage random) (receiver : NodeId) (call : RaftCall) :
    System storage random :=
  { s with requests := s.requests ++ [⟨s.issued, receiver, call⟩]
           issued := s.issued + 1 }

@[simp] theorem put_machines_self (s : System storage random) (id : NodeId)
    (machine : Machine storage random) : (s.put id machine).machines id = machine :=
  Function.update_self ..

theorem put_machines_of_ne (s : System storage random) {id other : NodeId}
    (machine : Machine storage random) (hne : other ≠ id) :
    (s.put id machine).machines other = s.machines other :=
  Function.update_of_ne hne ..

end System

variable [RaftStorage storage] [RandomEngine random]

def Machine.operate (machine : Machine storage random) (op : Operation)
    (resume : Output -> Option Threads) : Option (Machine storage random) :=
  match outcome op.perform machine.node with
  | (.ok output, node) => (resume output).map fun threads => ⟨node, some threads⟩
  | (.error _, node) => some ⟨node, none⟩

namespace System

def callFrom (s : System storage random) (config : NodeRuntimeConfig) (id : NodeId)
    (t : Threads) (i : Nat) : Option (System storage random) :=
  let node := (s.machines id).node
  match t.workers[i]? with
  | some (.sending message .calling) =>
      match prepare config message with
      | .error _ => some (s.put id ⟨node, none⟩)
      | .ok none => (t.stepCall config i s.issued).map fun t' => s.put id ⟨node, some t'⟩
      | .ok (some call) => (t.stepCall config i s.issued).map fun t' =>
          (s.put id ⟨node, some t'⟩).post message.toNode call
  | some (.sending message (.pausing _ call)) =>
      (t.stepCall config i s.issued).map fun t' =>
        (s.put id ⟨node, some t'⟩).post message.toNode call
  | _ => none

def serveParcel (s : System storage random) (index : Nat) (parcel : Parcel)
    (context : Rpc.ServerContext) (t : Threads) : System storage random :=
  match outcome (parcel.call.handle context) (s.machines parcel.receiver).node with
  | (.ok reply, node) =>
      { s.put parcel.receiver ⟨node, some t⟩ with
        requests := s.requests.eraseIdx index
        replies := s.replies ++ [(parcel, reply)] }
  -- What no clause of `run_handler` catches.
  | (.error _, node) =>
      { s.put parcel.receiver ⟨node, none⟩ with
        requests := s.requests.eraseIdx index }

def concludeWith (s : System storage random) (config : NodeRuntimeConfig) (id : NodeId)
    (t : Threads) (i : Nat) (reply : Rpc.Reply RaftAnswer) :
    Option (System storage random) :=
  (t.next config (.conclude i reply)).map fun t' =>
    s.put id ⟨(s.machines id).node, some t'⟩

def next (deployment : Deployment) (s : System storage random) :
    Deed -> Option (System storage random)
  | .act id action => do
      guard (id ∈ deployment.members ∧ action.internal)
      let t <- (s.machines id).threads
      let t' <- t.next (deployment.config id) action
      pure (s.put id ⟨(s.machines id).node, some t'⟩)
  | .tick id elapsed => do
      guard (id ∈ deployment.members)
      let t <- (s.machines id).threads
      guard (t.ticker = .ticking)
      let machine <- (s.machines id).operate (.tick elapsed) fun _ =>
        t.next (deployment.config id) .ticked
      pure (s.put id machine)
  | .take id => do
      guard (id ∈ deployment.members)
      let t <- (s.machines id).threads
      guard (t.ticker = .taking)
      let machine <- (s.machines id).operate .takeMessages fun output =>
        t.next (deployment.config id) (.taken output.messages)
      pure (s.put id machine)
  | .call id i => do
      guard (id ∈ deployment.members)
      let t <- (s.machines id).threads
      s.callFrom (deployment.config id) id t i
  | .serve index context => do
      let parcel <- s.requests[index]?
      guard (parcel.receiver ∈ deployment.members)
      let t <- (s.machines parcel.receiver).threads
      guard t.serving
      pure (s.serveParcel index parcel context t)
  | .answer id i index => do
      guard (id ∈ deployment.members)
      let t <- (s.machines id).threads
      let (parcel, reply) <- s.replies[index]?
      match t.workers[i]? with
      | some (.sending message (.attempting _ ticket call)) =>
          guard (parcel = ⟨ticket, message.toNode, call⟩)
          s.concludeWith (deployment.config id) id t i reply
      | _ => none
  | .giveUp id i status => do
      guard (id ∈ deployment.members ∧ status.code ≠ .ok)
      let t <- (s.machines id).threads
      s.concludeWith (deployment.config id) id t i ⟨status, .requestVote {}⟩
  | .respond id i => do
      guard (id ∈ deployment.members)
      let t <- (s.machines id).threads
      match t.workers[i]? with
      | some (.sending message (.responding rpc)) =>
          let machine <- (s.machines id).operate
            (.step ⟨message.toNode, (deployment.config id).nodeId, rpc⟩) fun _ =>
              t.next (deployment.config id) (.responded i)
          pure (s.put id machine)
      | _ => none
  | .kill id => do
      guard (id ∈ deployment.members)
      pure (s.put id ⟨(s.machines id).node, none⟩)
  | .restart id => do
      guard (id ∈ deployment.members ∧ (s.machines id).threads = none)
      match RaftNode.create (raftConfig (deployment.config id))
          (s.machines id).node.storage with
      | .ok node => pure (s.put id ⟨node, some {}⟩)
      | .error _ => none

structure Starts (deployment : Deployment) (s : System storage random) : Prop where
  requests : s.requests = []
  replies : s.replies = []
  machines : forall id, id ∈ deployment.members ->
    (s.machines id).threads = some {} ∧ exists store,
      RaftStorage.load store = .ok {} ∧
        RaftNode.create (raftConfig (deployment.config id)) store =
          .ok (s.machines id).node

end System

end Steps

/-!
# One handler
-/

section Services

variable {storage random : Type} [RaftStorage storage] [RandomEngine random]

def RaftCall.delivery (call : RaftCall) (receiver : NodeId) : Operation :=
  .handleRequest ⟨call.sender, receiver, call.toRpc⟩

/-- The handler was cancelled before it did anything, or it delivered the request;
a reply that is ok carries the answer that the node has handed over. -/
def Handles (context : Rpc.ServerContext) (call : RaftCall) (n : RaftNode storage random)
    (r : Except Rpc.Fault (Rpc.Reply RaftAnswer)) (n' : RaftNode storage random) :
    Prop :=
  (n' = n ∧ forall reply, r = .ok reply -> reply.status.code ≠ .ok) ∨
    (context.cancelledBefore = false ∧
      n' = (outcome (call.delivery n.config.nodeId).perform n).2 ∧
      forall reply, r = .ok reply -> reply.status.code = .ok ->
        ⟨n.config.nodeId, call.sender, reply.response.toRpc⟩ ∈
          (Raft.outputOf (outcome (call.delivery n.config.nodeId).perform n).1).messages)

theorem outcome_delivery (message : Message) (n : RaftNode storage random) :
    outcome (Operation.handleRequest message).perform n =
      ((outcome (RaftNode.handleRequest message) n).1.map fun answer =>
          { messages := answer.toList },
        (outcome (RaftNode.handleRequest message) n).2) :=
  outcome_bind_pure _ _

section Handlers

variable {response : Type} {message : Message} {notMember : String}
  {convert : Raft.Rpc -> Except Rpc.Fault response} {n : RaftNode storage random}

def Converts (message : Message) (convert : Raft.Rpc -> Except Rpc.Fault response)
    (n : RaftNode storage random) (value : response) : Prop :=
  exists answer, (outcome (RaftNode.handleRequest message) n).1 =
      .ok (some ⟨message.toNode, message.fromNode, answer⟩) ∧
    convert answer = .ok value

def Delivers (message : Message) (convert : Raft.Rpc -> Except Rpc.Fault response)
    (n : RaftNode storage random) (r : Except Rpc.Fault (Rpc.Reply response))
    (n' : RaftNode storage random) : Prop :=
  n' = (outcome (RaftNode.handleRequest message) n).2 ∧
    forall reply, r = .ok reply -> reply.status.code = .ok ->
      Converts message convert n reply.response

theorem delivers_of_fault {n' : RaftNode storage random} {fault : Rpc.Fault}
    (hn' : n' = (outcome (RaftNode.handleRequest message) n).2) :
    Delivers message convert n (.error fault) n' := by
  refine ⟨hn', ?_⟩
  intro reply hreply
  cases hreply

theorem delivers_of_status {n' : RaftNode storage random} {reply : Rpc.Reply response}
    (hn' : n' = (outcome (RaftNode.handleRequest message) n).2)
    (hcode : reply.status.code ≠ .ok) : Delivers message convert n (.ok reply) n' := by
  refine ⟨hn', ?_⟩
  intro other hother hok
  cases hother
  exact absurd hok hcode

theorem ensures_handle_converts (hreceiver : message.toNode = n.config.nodeId)
    (hrequest : RaftNode.isRequest message = true) :
    Ensures (Rpc.RaftService.handle message.fromNode message.rpc notMember convert) n
      (fun r n' => n' = (outcome (RaftNode.handleRequest message) n).2 ∧
        forall value, r = .ok value -> Converts message convert n value) := by
  have hmessage : message = ⟨message.fromNode, n.config.nodeId, message.rpc⟩ := by
    rw [← hreceiver]
  have hrequested : Ensures (RaftNode.handleRequest message) n (fun r n' =>
      Raft.Requested message n r n' ∧
        outcome (RaftNode.handleRequest message) n = (r, n')) :=
    ⟨Raft.ensures_handleRequest_requested hrequest n, rfl⟩
  unfold Rpc.RaftService.handle
  simp only [ensures_bind, ensures_get, continues_ok, ensures_raising]
  rw [← hmessage]
  refine ensures_mono hrequested ?_
  rintro r n' ⟨hrequested, houtcome⟩
  unfold Converts
  rw [houtcome]
  cases hrequested with
  | ignored hstep =>
      refine ⟨rfl, ?_⟩
      intro value hvalue
      cases hvalue
  | thrown hstep houtbox =>
      refine ⟨rfl, ?_⟩
      intro value hvalue
      cases hvalue
  | @answered n' answer hstep hanswer houtbox =>
      simp only [Except.mapError, continues_ok, ensures_ofExcept]
      exact ⟨trivial, fun value hvalue => ⟨answer, rfl, hvalue⟩⟩

theorem ensures_runHandler_context [Inhabited response] (context : Rpc.ServerContext)
    (notMember : String) (convert : Raft.Rpc -> Except Rpc.Fault response)
    (hreceiver : message.toNode = n.config.nodeId)
    (hrequest : RaftNode.isRequest message = true) :
    Ensures (Rpc.runHandler context (Rpc.RaftService.handle message.fromNode message.rpc
      notMember convert)) n (fun r n' =>
        (n' = n ∧ forall reply, r = .ok reply -> reply.status.code ≠ .ok) ∨
          context.cancelledBefore = false ∧ Delivers message convert n r n') := by
  have hhandle : Ensures (do
      let value <- Rpc.RaftService.handle message.fromNode message.rpc notMember convert
      if context.cancelledAfter then
        pure (⟨⟨.cancelled, "request deadline elapsed"⟩, value⟩ : Rpc.Reply response)
      else
        pure ⟨{}, value⟩) n (Delivers message convert n) := by
    refine ensures_bind_of (ensures_handle_converts hreceiver hrequest) ?_ ?_
    · rintro value n' ⟨hn', hvalue⟩
      split
      · exact delivers_of_status hn' (by simp)
      · refine ⟨hn', ?_⟩
        intro reply hreply hcode
        cases hreply
        exact hvalue value rfl
    · rintro fault n' ⟨hn', -⟩
      exact delivers_of_fault hn'
  unfold Rpc.runHandler
  split
  · left
    refine ⟨rfl, ?_⟩
    intro reply hreply
    cases hreply
    simp
  · rename_i hruns
    have hstarts : context.cancelledBefore = false := Bool.eq_false_iff.mpr hruns
    refine ensures_tryCatch hhandle ?_ ?_
    · intro reply n' hdelivers
      exact Or.inr ⟨hstarts, hdelivers⟩
    · rintro fault n' ⟨hn', -⟩
      refine Or.inr ⟨hstarts, ?_⟩
      cases hstatus : Rpc.caughtStatus context.outOfRangeText fault with
      | none => exact delivers_of_fault hn'
      | some status =>
          exact delivers_of_status hn' (Rpc.caughtStatus_final hstatus).left

end Handlers

theorem ensures_service {response : Type} [Inhabited response]
    (context : Rpc.ServerContext) (call : RaftCall) (notMember : String)
    {convert : Raft.Rpc -> Except Rpc.Fault response} (wrap : response -> RaftAnswer)
    (hwrap : forall answer value, convert answer = .ok value ->
      (wrap value).toRpc = answer) (n : RaftNode storage random) :
    Ensures (do
      let reply <- Rpc.runHandler context
        (Rpc.RaftService.handle call.sender call.toRpc notMember convert)
      pure ⟨reply.status, wrap reply.response⟩) n (Handles context call n) := by
  have hrequest : RaftNode.isRequest
      ⟨call.sender, n.config.nodeId, call.toRpc⟩ = true := by
    cases call <;> rfl
  have hhandler := ensures_runHandler_context (n := n) context notMember convert rfl
    hrequest
  unfold Handles RaftCall.delivery
  rw [outcome_delivery]
  refine ensures_bind_of hhandler ?_ ?_
  · rintro reply n' (⟨rfl, hcode⟩ | ⟨hstarts, hn', hreply⟩)
    · left
      refine ⟨rfl, ?_⟩
      intro other hother
      cases hother
      exact hcode reply rfl
    · right
      refine ⟨hstarts, hn', ?_⟩
      intro other hother hcode
      cases hother
      rcases hreply reply rfl hcode with ⟨answer, hanswer, hconvert⟩
      rw [hanswer, hwrap answer reply.response hconvert]
      exact List.mem_cons_self ..
  · rintro fault n' (⟨rfl, hcode⟩ | ⟨hstarts, hn', -⟩)
    · left
      refine ⟨rfl, ?_⟩
      intro other hother
      cases hother
    · right
      refine ⟨hstarts, hn', ?_⟩
      intro other hother
      cases hother

theorem ensures_handle_call (context : Rpc.ServerContext) (call : RaftCall)
    (n : RaftNode storage random) :
    Ensures (call.handle context) n (Handles context call n) := by
  cases call with
  | requestVote request =>
      refine ensures_service context (.requestVote request) _ .requestVote ?_ n
      intro answer value hconvert
      unfold Rpc.RaftService.convertVote at hconvert
      cases answer <;> cases hconvert
      rfl
  | appendEntries request =>
      refine ensures_service context (.appendEntries request) _ .appendEntries ?_ n
      intro answer value hconvert
      unfold Rpc.RaftService.convertAppend at hconvert
      cases answer <;> cases hconvert
      exact congrArg Raft.Rpc.appendEntriesResponse (toResponse_ofResponse _)

end Services

/-!
# What a deed can do
-/

inductive Calls (config : NodeRuntimeConfig) (t : Threads) :
    Operation -> (Output -> Action) -> Prop where
  | tick (elapsed : Int) (hticker : t.ticker = .ticking) :
      Calls config t (.tick elapsed) fun _ => .ticked
  | take (hticker : t.ticker = .taking) :
      Calls config t .takeMessages fun output => .taken output.messages
  | respond {i : Nat} {message : Message} {rpc : Raft.Rpc}
      (hworker : t.workers[i]? = some (.sending message (.responding rpc))) :
      Calls config t (.step ⟨message.toNode, config.nodeId, rpc⟩) fun _ => .responded i

inductive Attempts (config : NodeRuntimeConfig) (message : Message) (call : RaftCall) :
    Nat -> Worker -> Prop where
  | first (hprepare : prepare config message = .ok (some call)) :
      Attempts config message call 1 (.sending message .calling)
  | again (number : Nat) :
      Attempts config message call (number + 1) (.sending message (.pausing number call))

section Deeds

variable {storage random : Type} [RaftStorage storage] [RandomEngine random]
  {deployment : Deployment} {s s' : System storage random} {deed : Deed}

inductive System.Happens (deployment : Deployment) (s : System storage random) :
    Deed -> System storage random -> Prop where
  | acts {id : NodeId} {action : Action} {t t' : Threads}
      (hid : id ∈ deployment.members) (hup : (s.machines id).threads = some t)
      (hinternal : action.internal = true)
      (hnext : t.next (deployment.config id) action = some t') :
      System.Happens deployment s (.act id action)
        (s.put id ⟨(s.machines id).node, some t'⟩)
  | operates {deed : Deed} {id : NodeId} {t t' : Threads} {op : Operation}
      {resume : Output -> Action} {output : Output} {node : RaftNode storage random}
      (hid : id ∈ deployment.members) (hup : (s.machines id).threads = some t)
      (hcalls : Calls (deployment.config id) t op resume)
      (houtcome : outcome op.perform (s.machines id).node = (.ok output, node))
      (hnext : t.next (deployment.config id) (resume output) = some t') :
      System.Happens deployment s deed (s.put id ⟨node, some t'⟩)
  | throws {deed : Deed} {id : NodeId} {t : Threads} {op : Operation}
      {resume : Output -> Action} {fault : Raft.Fault} {node : RaftNode storage random}
      (hid : id ∈ deployment.members) (hup : (s.machines id).threads = some t)
      (hcalls : Calls (deployment.config id) t op resume)
      (houtcome : outcome op.perform (s.machines id).node = (.error fault, node)) :
      System.Happens deployment s deed (s.put id ⟨node, none⟩)
  | refuses {id : NodeId} {t : Threads} {i : Nat} {message : Message} {fault : Rpc.Fault}
      (hid : id ∈ deployment.members) (hup : (s.machines id).threads = some t)
      (hworker : t.workers[i]? = some (.sending message .calling))
      (hprepare : prepare (deployment.config id) message = .error fault) :
      System.Happens deployment s (.call id i)
        (s.put id ⟨(s.machines id).node, none⟩)
  | skips {id : NodeId} {t : Threads} {i : Nat} {message : Message}
      (hid : id ∈ deployment.members) (hup : (s.machines id).threads = some t)
      (hworker : t.workers[i]? = some (.sending message .calling))
      (hprepare : prepare (deployment.config id) message = .ok none) :
      System.Happens deployment s (.call id i)
        (s.put id ⟨(s.machines id).node, some (t.put i .locking)⟩)
  | posts {id : NodeId} {t : Threads} {i : Nat} {message : Message} {call : RaftCall}
      {worker : Worker} {number : Nat}
      (hid : id ∈ deployment.members) (hup : (s.machines id).threads = some t)
      (hworker : t.workers[i]? = some worker)
      (hattempts : Attempts (deployment.config id) message call number worker) :
      System.Happens deployment s (.call id i)
        ((s.put id ⟨(s.machines id).node,
          some (t.put i (.sending message (.attempting number s.issued call)))⟩).post
            message.toNode call)
  | serves {index : Nat} {context : Rpc.ServerContext} {parcel : Parcel} {t : Threads}
      (hparcel : s.requests[index]? = some parcel)
      (hid : parcel.receiver ∈ deployment.members)
      (hup : (s.machines parcel.receiver).threads = some t) (hserving : t.serving = true) :
      System.Happens deployment s (.serve index context)
        (s.serveParcel index parcel context t)
  | answers {id : NodeId} {t : Threads} {i index : Nat} {message : Message}
      {number ticket : Nat} {call : RaftCall} {reply : Rpc.Reply RaftAnswer}
      (hid : id ∈ deployment.members) (hup : (s.machines id).threads = some t)
      (hworker : t.workers[i]? = some (.sending message (.attempting number ticket call)))
      (hreply : s.replies[index]? = some (⟨ticket, message.toNode, call⟩, reply)) :
      System.Happens deployment s (.answer id i index)
        (s.put id ⟨(s.machines id).node,
          some (t.put i (Sending.conclude message number call reply))⟩)
  | givesUp {id : NodeId} {t : Threads} {i : Nat} {status : Rpc.Status}
      {message : Message} {number ticket : Nat} {call : RaftCall}
      (hid : id ∈ deployment.members) (hup : (s.machines id).threads = some t)
      (hcode : status.code ≠ .ok)
      (hworker : t.workers[i]? =
        some (.sending message (.attempting number ticket call))) :
      System.Happens deployment s (.giveUp id i status)
        (s.put id ⟨(s.machines id).node,
          some (t.put i (Sending.conclude message number call
            ⟨status, .requestVote {}⟩))⟩)
  | dies {id : NodeId} (hid : id ∈ deployment.members) :
      System.Happens deployment s (.kill id) (s.put id ⟨(s.machines id).node, none⟩)
  | restarts {id : NodeId} {node : RaftNode storage random}
      (hid : id ∈ deployment.members) (hdown : (s.machines id).threads = none)
      (hcreate : RaftNode.create (raftConfig (deployment.config id))
        (s.machines id).node.storage = .ok node) :
      System.Happens deployment s (.restart id) (s.put id ⟨node, some {}⟩)

namespace System

theorem happens_operate {id : NodeId} {t : Threads} {op : Operation}
    {resume : Output -> Action} {machine : Machine storage random}
    (hid : id ∈ deployment.members) (hup : (s.machines id).threads = some t)
    (hcalls : Calls (deployment.config id) t op resume)
    (hmachine : (s.machines id).operate op (fun output =>
      t.next (deployment.config id) (resume output)) = some machine) :
    Happens deployment s deed (s.put id machine) := by
  unfold Machine.operate at hmachine
  rcases houtcome : outcome op.perform (s.machines id).node with ⟨r, node⟩
  rw [houtcome] at hmachine
  cases r with
  | error fault =>
      cases hmachine
      exact .throws hid hup hcalls houtcome
  | ok output =>
      rcases Option.map_eq_some_iff.mp hmachine with ⟨t', hnext, rfl⟩
      exact .operates hid hup hcalls houtcome hnext

theorem happens_callFrom {id : NodeId} {t : Threads} {i : Nat}
    (hid : id ∈ deployment.members) (hup : (s.machines id).threads = some t)
    (hnext : s.callFrom (deployment.config id) id t i = some s') :
    Happens deployment s (.call id i) s' := by
  unfold callFrom at hnext
  cases hworker : t.workers[i]? with
  | none => simp [hworker] at hnext
  | some worker =>
      cases worker with
      | sending message phase =>
          cases phase with
          | calling =>
              simp only [hworker] at hnext
              cases hprepare : prepare (deployment.config id) message with
              | error fault =>
                  simp only [hprepare, Option.some.injEq] at hnext
                  rw [← hnext]
                  exact .refuses hid hup hworker hprepare
              | ok call? =>
                  cases call? with
                  | none =>
                      simp only [hprepare, Threads.stepCall, hworker, Option.map_some,
                        Option.some.injEq] at hnext
                      rw [← hnext]
                      exact .skips hid hup hworker hprepare
                  | some call =>
                      simp only [hprepare, Threads.stepCall, hworker, Option.map_some,
                        Option.some.injEq] at hnext
                      rw [← hnext]
                      exact .posts hid hup hworker (.first hprepare)
          | pausing number call =>
              simp only [hworker, Threads.stepCall, Option.map_some,
                Option.some.injEq] at hnext
              rw [← hnext]
              exact .posts hid hup hworker (.again number)
          | attempting number ticket call => simp [hworker] at hnext
          | responding rpc => simp [hworker] at hnext
      | locking => simp [hworker] at hnext
      | testing => simp [hworker] at hnext
      | suspending => simp [hworker] at hnext
      | waiting => simp [hworker] at hnext
      | returned => simp [hworker] at hnext

omit [RaftStorage storage] [RandomEngine random] in
theorem exists_attempt_of_concludeWith {config : NodeRuntimeConfig} {id : NodeId}
    {t : Threads} {i : Nat} {reply : Rpc.Reply RaftAnswer}
    (hnext : s.concludeWith config id t i reply = some s') :
    exists message number ticket call,
      t.workers[i]? = some (.sending message (.attempting number ticket call)) ∧
        s' = s.put id ⟨(s.machines id).node,
          some (t.put i (Sending.conclude message number call reply))⟩ := by
  rcases Option.map_eq_some_iff.mp hnext with ⟨t', hnext, hs'⟩
  rcases Threads.next_eq_some_iff.mp hnext with ⟨_, hstep⟩
  simp only [Threads.step] at hstep
  split at hstep
  · rename_i message number ticket call hworker
    cases hstep
    exact ⟨message, number, ticket, call, hworker, hs'.symm⟩
  · cases hstep

theorem happens_of_next (hnext : s.next deployment deed = some s') :
    Happens deployment s deed s' := by
  cases deed with
  | act id action =>
      simp only [next, Option.bind_eq_bind, Option.bind_eq_some_iff, Option.guard_eq_some',
        Option.pure_def, Option.some.injEq] at hnext
      rcases hnext with ⟨-, ⟨hid, hinternal⟩, t, hup, t', hnext, rfl⟩
      exact .acts hid hup hinternal hnext
  | tick id elapsed =>
      simp only [next, Option.bind_eq_bind, Option.bind_eq_some_iff, Option.guard_eq_some',
        Option.pure_def, Option.some.injEq] at hnext
      rcases hnext with ⟨-, hid, t, hup, -, hticker, machine, hmachine, rfl⟩
      exact happens_operate hid hup (.tick elapsed hticker) hmachine
  | take id =>
      simp only [next, Option.bind_eq_bind, Option.bind_eq_some_iff, Option.guard_eq_some',
        Option.pure_def, Option.some.injEq] at hnext
      rcases hnext with ⟨-, hid, t, hup, -, hticker, machine, hmachine, rfl⟩
      exact happens_operate hid hup (.take hticker) hmachine
  | call id i =>
      simp only [next, Option.bind_eq_bind, Option.bind_eq_some_iff,
        Option.guard_eq_some'] at hnext
      rcases hnext with ⟨-, hid, t, hup, hnext⟩
      exact happens_callFrom hid hup hnext
  | serve index context =>
      simp only [next, Option.bind_eq_bind, Option.bind_eq_some_iff, Option.guard_eq_some',
        Option.pure_def, Option.some.injEq] at hnext
      rcases hnext with ⟨parcel, hparcel, -, hid, t, hup, -, hserving, rfl⟩
      exact .serves hparcel hid hup hserving
  | answer id i index =>
      simp only [next, Option.bind_eq_bind, Option.bind_eq_some_iff,
        Option.guard_eq_some', Prod.exists] at hnext
      rcases hnext with ⟨-, hid, t, hup, parcel, reply, hreply, hnext⟩
      split at hnext
      · rename_i message number ticket call hworker
        simp only [Option.bind_eq_some_iff, Option.guard_eq_some'] at hnext
        rcases hnext with ⟨-, rfl, hnext⟩
        rcases exists_attempt_of_concludeWith hnext with
          ⟨message', number', ticket', call', hworker', rfl⟩
        rw [hworker] at hworker'
        cases hworker'
        exact .answers hid hup hworker hreply
      · cases hnext
  | giveUp id i status =>
      simp only [next, Option.bind_eq_bind, Option.bind_eq_some_iff,
        Option.guard_eq_some'] at hnext
      rcases hnext with ⟨-, ⟨hid, hcode⟩, t, hup, hnext⟩
      rcases exists_attempt_of_concludeWith hnext with
        ⟨message, number, ticket, call, hworker, rfl⟩
      exact .givesUp hid hup hcode hworker
  | respond id i =>
      simp only [next, Option.bind_eq_bind, Option.bind_eq_some_iff,
        Option.guard_eq_some'] at hnext
      rcases hnext with ⟨-, hid, t, hup, hnext⟩
      split at hnext
      · rename_i message rpc hworker
        simp only [Option.bind_eq_some_iff, Option.pure_def, Option.some.injEq] at hnext
        rcases hnext with ⟨machine, hmachine, rfl⟩
        exact happens_operate hid hup (.respond hworker) hmachine
      · cases hnext
  | kill id =>
      simp only [next, Option.bind_eq_bind, Option.bind_eq_some_iff, Option.guard_eq_some',
        Option.pure_def, Option.some.injEq] at hnext
      rcases hnext with ⟨-, hid, rfl⟩
      exact .dies hid
  | restart id =>
      simp only [next, Option.bind_eq_bind, Option.bind_eq_some_iff,
        Option.guard_eq_some'] at hnext
      rcases hnext with ⟨-, ⟨hid, hdown⟩, hnext⟩
      split at hnext
      · rename_i node hcreate
        cases hnext
        exact .restarts hid hdown hcreate
      · cases hnext

end System

end Deeds

/-!
# Runs
-/

section Runs

variable {storage random : Type} [RaftStorage storage] [RandomEngine random]

/-- A run of a deployment, in which time may pass without a deed. -/
structure Operating (storage random : Type) [RaftStorage storage]
    [RandomEngine random] (deployment : Deployment) where
  states : Nat -> System storage random
  deeds : Nat -> Option Deed
  starts : (states 0).Starts deployment
  next : forall k, match deeds k with
    | none => states (k + 1) = states k
    | some deed => (states k).next deployment deed = some (states (k + 1))

/-- The handler of the deed, if one runs, saves what it has to save. -/
def System.HandlerSaves (s : System storage random) : Deed -> Prop
  | .serve index context => context.cancelledBefore = false ->
      forall parcel, s.requests[index]? = some parcel -> forall cause,
        (outcome (RaftNode.handleRequest parcel.message)
          (s.machines parcel.receiver).node).1 ≠ .error (.storage cause)
  | _ => True

def System.Bounded (deployment : Deployment) (s : System storage random) : Prop :=
  forall id, id ∈ deployment.members ->
    (s.machines id).node.currentTerm ≠ 18446744073709551615 ∧
      forall state, RaftStorage.load (s.machines id).node.storage = .ok state ->
        state.currentTerm ≠ 18446744073709551615

variable {deployment : Deployment}

/-- No handler of the run fails to save, and no member reaches the greatest term. -/
structure Operating.Regular (run : Operating storage random deployment) : Prop where
  saves : forall k deed, run.deeds k = some deed -> (run.states k).HandlerSaves deed
  bounded : forall k, (run.states k).Bounded deployment

def Operating.Up (run : Operating storage random deployment) (k : Nat) (id : NodeId) :
    Prop :=
  id ∈ deployment.members ∧ ((run.states k).machines id).threads ≠ none

def Operating.node (run : Operating storage random deployment) (k : Nat) (id : NodeId) :
    RaftNode storage random :=
  ((run.states k).machines id).node

end Runs

/-!
# A run of two processes

The two processes start, the ticker of the first sees its election timeout pass,
its worker asks the second for its vote, and the first becomes the leader.
-/

section Traces

variable {storage random : Type} [RaftStorage storage] [RandomEngine random]

/-- The states that a list of deeds leads through; impossible deeds are skipped. -/
def System.trace (deployment : Deployment) (s : System storage random)
    (deeds : List Deed) : Nat -> System storage random
  | 0 => s
  | k + 1 =>
      let current := trace deployment s deeds k
      match deeds[k]? with
      | some deed => (current.next deployment deed).getD current
      | none => current

def System.happening (deployment : Deployment) (s : System storage random)
    (deeds : List Deed) (k : Nat) : Option Deed :=
  deeds[k]?.filter fun deed => ((s.trace deployment deeds k).next deployment deed).isSome

theorem System.trace_succ {deployment : Deployment} {s : System storage random}
    {deeds : List Deed} (k : Nat) :
    match s.happening deployment deeds k with
    | none => s.trace deployment deeds (k + 1) = s.trace deployment deeds k
    | some deed => (s.trace deployment deeds k).next deployment deed =
        some (s.trace deployment deeds (k + 1)) := by
  unfold happening
  cases hdeed : deeds[k]? with
  | none => simp [trace, hdeed]
  | some deed =>
      cases hnext : (s.trace deployment deeds k).next deployment deed with
      | none =>
          rw [Option.filter_some, hnext]
          simp [trace, hdeed, hnext]
      | some s' =>
          rw [Option.filter_some, hnext]
          simp [trace, hdeed, hnext]

theorem System.trace_of_length_le {deployment : Deployment} {s : System storage random}
    {deeds : List Deed} {k : Nat} (hk : deeds.length <= k) :
    s.trace deployment deeds k = s.trace deployment deeds deeds.length := by
  induction hk with
  | refl => rfl
  | step hle ih =>
      rw [← ih]
      simp [trace, List.getElem?_eq_none hle]

def Operating.ofDeeds (deployment : Deployment) (s : System storage random)
    (deeds : List Deed) (hstarts : s.Starts deployment) :
    Operating storage random deployment where
  states := s.trace deployment deeds
  deeds := s.happening deployment deeds
  starts := hstarts
  next := System.trace_succ

theorem regular_ofDeeds {deployment : Deployment} {s : System storage random}
    {deeds : List Deed} {hstarts : s.Starts deployment}
    (hsaves : forall k deed, deeds[k]? = some deed ->
      (s.trace deployment deeds k).HandlerSaves deed)
    (hbounded : forall k, k <= deeds.length ->
      (s.trace deployment deeds k).Bounded deployment) :
    (Operating.ofDeeds deployment s deeds hstarts).Regular := by
  constructor
  · intro k deed hdeed
    rcases Option.filter_eq_some_iff.mp hdeed with ⟨hmem, -⟩
    exact hsaves k deed hmem
  · intro k
    change (s.trace deployment deeds k).Bounded deployment
    rcases Nat.le_total k deeds.length with hle | hle
    · exact hbounded k hle
    · rw [System.trace_of_length_le hle]
      exact hbounded _ (Nat.le_refl _)

end Traces

def twoProcesses : Deployment where
  members := {1, 2}
  config := fun id => if id = 1 then pairRuntime.config else {
    nodeId := id
    peers := ⟨[(1, "node1:50051")], List.pairwise_singleton ..⟩ }
  nodeId_eq := by
    intro id hid
    have hcases : id = 1 ∨ id = 2 := by simpa using hid
    rcases hcases with rfl | rfl <;> rfl
  peers_eq := by
    intro id hid
    have hcases : id = 1 ∨ id = 2 := by simpa using hid
    rcases hcases with rfl | rfl <;> decide

def twoMachines : System Raft.InMemoryRaftStorage Raft.LeastEngine where
  machines := fun id => {
    node := match RaftNode.create (raftConfig (twoProcesses.config id)) {} with
      | .ok node => node
      | .error _ =>
          { config := raftConfig (twoProcesses.config id), storage := {}, random := {} }
    threads := some {} }
  requests := []
  replies := []
  issued := 0

def firstElection : List Deed := [
  .act 1 .start, .act 1 .control, .act 1 .control, .act 1 .control, .act 1 .control,
  .act 2 .start, .act 2 .control,
  .act 1 .ticker, .act 1 .ticker, .tick 1 300, .take 1, .act 1 .ticker, .act 1 .ticker,
  .act 1 (.worker 0), .act 1 (.worker 0), .call 1 0, .serve 0 {}, .answer 1 0 0,
  .respond 1 0]

theorem starts_twoMachines : twoMachines.Starts twoProcesses := by
  refine ⟨rfl, rfl, ?_⟩
  intro id hid
  have hcases : id = 1 ∨ id = 2 := by simpa [twoProcesses] using hid
  rcases hcases with rfl | rfl
  · exact ⟨rfl, {}, rfl, rfl⟩
  · exact ⟨rfl, {}, rfl, rfl⟩

def electing : Operating Raft.InMemoryRaftStorage Raft.LeastEngine twoProcesses :=
  .ofDeeds twoProcesses twoMachines firstElection starts_twoMachines

def System.returns (s : System Raft.InMemoryRaftStorage Raft.LeastEngine) : Deed -> Bool
  | .serve index _ => s.requests[index]?.all fun parcel =>
      (outcome (RaftNode.handleRequest parcel.message)
        (s.machines parcel.receiver).node).1.isOk
  | _ => true

theorem handlerSaves_of_returns
    {s : System Raft.InMemoryRaftStorage Raft.LeastEngine} {deed : Deed}
    (h : s.returns deed = true) : s.HandlerSaves deed := by
  cases deed with
  | serve index context =>
      intro _ parcel hparcel cause heq
      simp [System.returns, hparcel, heq, Except.isOk, Except.toBool] at h
  | act id action => trivial
  | tick id elapsed => trivial
  | take id => trivial
  | call id i => trivial
  | answer id i index => trivial
  | giveUp id i status => trivial
  | respond id i => trivial
  | kill id => trivial
  | restart id => trivial

theorem bounded_inMemory {deployment : Deployment}
    {s : System Raft.InMemoryRaftStorage Raft.LeastEngine}
    (h : forall id, id ∈ deployment.members ->
      (s.machines id).node.currentTerm ≠ 18446744073709551615 ∧
        (s.machines id).node.storage.state.currentTerm ≠ 18446744073709551615) :
    s.Bounded deployment := by
  intro id hid
  refine ⟨(h id hid).left, ?_⟩
  intro state hload
  cases hload
  exact (h id hid).right

theorem regular_electing : electing.Regular := by
  have hsaves : forall k, k < 19 -> firstElection[k]?.all (fun deed =>
      (twoMachines.trace twoProcesses firstElection k).returns deed) = true := by
    decide +kernel
  have hfirst : forall k, k < 20 ->
      let node := ((twoMachines.trace twoProcesses firstElection k).machines 1).node
      node.currentTerm ≠ 18446744073709551615 ∧
        node.storage.state.currentTerm ≠ 18446744073709551615 := by
    decide +kernel
  have hsecond : forall k, k < 20 ->
      let node := ((twoMachines.trace twoProcesses firstElection k).machines 2).node
      node.currentTerm ≠ 18446744073709551615 ∧
        node.storage.state.currentTerm ≠ 18446744073709551615 := by
    decide +kernel
  refine regular_ofDeeds ?_ ?_
  · intro k deed hdeed
    have hreturns := hsaves k (List.getElem?_eq_some_iff.mp hdeed).choose
    rw [hdeed] at hreturns
    exact handlerSaves_of_returns hreturns
  · intro k hk
    refine bounded_inMemory ?_
    intro id hid
    have hcases : id = 1 ∨ id = 2 := by simpa [twoProcesses] using hid
    rcases hcases with rfl | rfl
    · exact hfirst k (Nat.lt_succ_of_le hk)
    · exact hsecond k (Nat.lt_succ_of_le hk)

theorem up_electing {id : NodeId} (hid : id = 1 ∨ id = 2) : electing.Up 19 id := by
  rcases hid with rfl | rfl
  · exact ⟨by decide, by decide +kernel⟩
  · exact ⟨by decide, by decide +kernel⟩

end Node
end FTKV
