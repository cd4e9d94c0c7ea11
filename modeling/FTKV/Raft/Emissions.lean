import FTKV.Raft.Durability

/-!
# Where messages come from

Every message that an operation queues was sent by one action, in a state with
the persistent state in which the operation ends: nothing is saved any more once
a message has been sent.
-/

namespace FTKV
namespace Raft

open Foundation
open Foundation.Effect

section Paths

variable {storage random : Type} {n n' : RaftNode storage random} {call : Call}

inductive Sends (call : Call) (n : RaftNode storage random) : Message -> Prop where
  | emit {peer : NodeId} {rpc : Rpc} (hemit : MayEmit call n peer rpc) :
      Sends call n ⟨n.config.nodeId, peer, rpc⟩
  | replicate {peer : NodeId} {previous : LogIndex} {previousTerm : Term}
      {requestId : UInt64} (hstate : n.state = .leader)
      (hpeer : peer ∈ n.config.peers)
      (hprevious : previous <= n.log.entries.length)
      (hterm : (n.log.at? previous).map LogEntry.term = some previousTerm)
      (hcall : ¬ call.Appends) :
      Sends call n ⟨n.config.nodeId, peer, .appendEntriesRequest {
        term := n.currentTerm
        leaderId := n.config.nodeId
        previousLogIndex := previous
        previousLogTerm := previousTerm
        entries := n.log.entries.drop previous
        leaderCommit := n.commitIndex
        requestId := requestId }⟩

def NamesSender (message : Message) : Prop :=
  match message.rpc with
  | .requestVoteRequest request => request.candidateId = message.fromNode
  | .appendEntriesRequest request => request.leaderId = message.fromNode
  | _ => True

theorem sends_namesSender {message : Message} (hsends : Sends call n message)
    (hrequest : RaftNode.isRequest message = true) :
    message.fromNode = n.config.nodeId ∧ message.toNode ∈ n.config.peers ∧
      NamesSender message := by
  cases hsends with
  | replicate hstate hpeer => exact ⟨rfl, hpeer, rfl⟩
  | emit hemit =>
      cases hemit with
      | solicit hpeer hstate => exact ⟨rfl, hpeer, rfl⟩
      | deny | grant | reject | acknowledge => cases hrequest

theorem messageTerm_of_sends {message : Message} (hsends : Sends call n message) :
    messageTerm message = n.currentTerm := by
  cases hsends with
  | replicate => rfl
  | emit hemit => cases hemit <;> rfl

variable [RaftStorage storage]

def Emitted (call : Call) (n : RaftNode storage random) (message : Message)
    (n' : RaftNode storage random) : Prop :=
  exists middle, Path call n middle ∧ Sends call middle message ∧
    n'.persistentState = middle.persistentState ∧ n'.config = middle.config ∧
    (call.Appends ∨ n'.state = middle.state)

theorem volatile_keeps (hvolatile : Volatile call n n') :
    n'.persistentState = n.persistentState ∧ n'.config = n.config ∧
      (call.Appends ∨ n'.state = n.state) := by
  refine ⟨(persistentState_volatile hvolatile).right,
    (progress_volatile hvolatile).config, ?_⟩
  cases hvolatile with
  | follow hhandles hleader hterm =>
      exact Or.inl ⟨_, _, hhandles.left, rfl⟩
  | timer | tally | emit | replicate | record | retry | raise => exact Or.inr rfl

theorem emitted_volatile {start : RaftNode storage random} {message : Message}
    (h : Emitted call start message n) (hvolatile : Volatile call n n') :
    Emitted call start message n' := by
  rcases h with ⟨middle, hpath, hsends, hpersistent, hconfig, hstate⟩
  rcases volatile_keeps hvolatile with ⟨hpersistent', hconfig', hstate'⟩
  refine ⟨middle, hpath, hsends, hpersistent'.trans hpersistent,
    hconfig'.trans hconfig, ?_⟩
  rcases hstate' with happends | hsame
  · exact Or.inl happends
  · rw [hsame]
    exact hstate

theorem outbox_volatile (hvolatile : Volatile call n n') :
    n'.outbox = n.outbox ∨ exists message, Sends call n message ∧
      n'.outbox = n.outbox ++ [message] := by
  cases hvolatile with
  | timer | follow | tally | record | retry | raise => exact Or.inl rfl
  | emit hemit => exact Or.inr ⟨_, .emit hemit, rfl⟩
  | replicate hstate hpeer hprevious hterm hcall =>
      exact Or.inr ⟨_, .replicate hstate hpeer hprevious hterm hcall, rfl⟩

theorem outbox_path (houtbox : n.outbox = call.outbox) (hpath : Path call n n') :
    exists new, n'.outbox = call.outbox ++ new ∧
      forall message, message ∈ new -> Emitted call n message n' := by
  induction hpath with
  | refl => exact ⟨[], by rw [houtbox, List.append_nil], nofun⟩
  | tail hbefore haction ih =>
      cases haction with
      | durable hquiet hdurable hsaved =>
          rcases hsaved with ⟨store, -, rfl⟩
          refine ⟨[], ?_, nofun⟩
          rw [List.append_nil, ← hquiet]
          exact (storage_durable hdurable).right.left
      | volatile hvolatile =>
          rcases ih with ⟨new, hnew, hemitted⟩
          have hkept : forall message, message ∈ new -> Emitted call n message _ :=
            fun message hmessage =>
              emitted_volatile (hemitted message hmessage) hvolatile
          rcases outbox_volatile hvolatile with hsame | ⟨sent, hsends, hsent⟩
          · exact ⟨new, hsame.trans hnew, hkept⟩
          · refine ⟨new ++ [sent], ?_, ?_⟩
            · rw [hsent, hnew, List.append_assoc]
            · intro message hmessage
              rcases List.mem_append.mp hmessage with hold | hlast
              · exact hkept message hold
              · rw [List.mem_singleton.mp hlast]
                exact ⟨_, hbefore, hsends, volatile_keeps hvolatile⟩

theorem outbox_explained {result : Type} {r : Except Fault result}
    (houtbox : n.outbox = call.outbox) (hexplained : Explained call n r n') :
    exists new, n'.outbox = call.outbox ++ new ∧
      forall message, message ∈ new -> Emitted call n message n' := by
  cases hexplained with
  | returns hpath => exact outbox_path houtbox hpath
  | refused hpath hrefusal => exact outbox_path houtbox hpath
  | interrupted hpath hinterrupted =>
      rcases hinterrupted with ⟨hquiet, middle, hdurable, cause, store, -, rfl⟩
      refine ⟨[], ?_, nofun⟩
      rw [List.append_nil, ← hquiet]
      exact (storage_durable hdurable).right.left

end Paths

/-!
# Operations
-/

variable {storage random : Type} [RaftStorage storage] [RandomEngine random]
  {n : RaftNode storage random}

theorem outbox_handled (h : WellFormed n) (op : Operation) :
    (op.handled n).outbox = n.outbox ++ op.enqueues n := by
  rcases outbox_explained rfl (ensures_perform h op).explained with ⟨new, hnew, -⟩
  unfold Operation.enqueues
  rw [hnew]
  show n.outbox ++ new = n.outbox ++ (n.outbox ++ new).drop n.outbox.length
  rw [List.drop_left]

theorem emitted_of_enqueues (h : WellFormed n) {op : Operation} {message : Message}
    (hmessage : message ∈ op.enqueues n) :
    Emitted (op.call n) n message (op.handled n) := by
  rcases outbox_explained rfl (ensures_perform h op).explained with
    ⟨new, hnew, hemitted⟩
  apply hemitted
  have hsame : n.outbox ++ op.enqueues n = n.outbox ++ new :=
    (outbox_handled h op).symm.trans hnew
  rw [← List.append_cancel_left hsame]
  exact hmessage

theorem messageTerm_of_enqueues (h : WellFormed n) {op : Operation}
    {message : Message} (hmessage : message ∈ op.enqueues n) :
    messageTerm message = (outcome op.perform n).2.currentTerm := by
  rcases emitted_of_enqueues h hmessage with ⟨middle, -, hsends, hpersistent, -⟩
  rw [(ensures_perform h op).drained.same]
  exact (messageTerm_of_sends hsends).trans
    (congrArg PersistentState.currentTerm hpersistent).symm

/-- The node leads, and the request carries the end of its log. -/
structure Announces (n : RaftNode storage random) (request : AppendEntriesRequest) :
    Prop where
  leads : n.state = .leader
  term : n.currentTerm = request.term
  sender : request.leaderId = n.config.nodeId
  previous_le : request.previousLogIndex <= n.log.entries.length
  previous_term : (n.log.at? request.previousLogIndex).map LogEntry.term =
    some request.previousLogTerm
  entries : request.entries = n.log.entries.drop request.previousLogIndex

theorem announces_of_enqueues (h : WellFormed n) {op : Operation}
    {message : Message} {request : AppendEntriesRequest}
    (hmessage : message ∈ op.enqueues n)
    (hrpc : message.rpc = .appendEntriesRequest request) :
    Announces (outcome op.perform n).2 request := by
  rcases emitted_of_enqueues h hmessage with
    ⟨middle, hpath, hsends, hpersistent, hconfig, hstate⟩
  have hterm : (op.handled n).currentTerm = middle.currentTerm :=
    congrArg PersistentState.currentTerm hpersistent
  have hlog : (op.handled n).log = middle.log :=
    congrArg (fun state => Log.mk state.log) hpersistent
  rw [(ensures_perform h op).drained.same]
  cases hsends with
  | emit hemit => cases hemit <;> cases hrpc
  | replicate hleads hpeer hprevious hprevious' hcall =>
      cases hrpc
      constructor
      case leads => exact (hstate.resolve_left hcall).trans hleads
      case term => exact hterm
      case sender => exact congrArg RaftConfig.nodeId hconfig.symm
      case previous_le =>
        rw [hlog]
        exact hprevious
      case previous_term =>
        rw [hlog]
        exact hprevious'
      case entries => rw [hlog]

end Raft
end FTKV
