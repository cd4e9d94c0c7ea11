import FTKV.Raft.Proposals
import FTKV.Raft.Requests

/-!
# Operations whose saves succeed

What an operation leaves behind when no save throws.  An operation is taken apart
into the part that works on the node and the handing over of its queues, so that a
property that does not depend on the queues is shown for the first part only.
-/

namespace FTKV
namespace Raft

open Foundation
open Foundation.Effect

def Operation.delivers : Operation -> Option Message
  | .step message => some message
  | .handleRequest message =>
      if RaftNode.isRequest message = false then none else some message
  | _ => none

def Operation.Idle : Operation -> Prop
  | .handleRequest message => RaftNode.isRequest message = false
  | .takeMessages => True
  | .takeCommittedEntries => True
  | _ => False

variable {storage random result beta : Type} {n : RaftNode storage random}
  {post : RaftNode storage random -> Prop} {view : RaftNode storage random -> beta}

/-!
# What replication leaves alone
-/

section Replication

variable (hview : forall (n : RaftNode storage random) next reached requests commit
  applied entries outbox, view { n with
    nextIndex := next
    matchIndex := reached
    appendRequestId := requests
    commitIndex := commit
    lastApplied := applied
    committedEntries := entries
    outbox := outbox } = view n)

include hview

theorem preserves_send_of_replication (peer : NodeId) :
    Preserves view (sendAppendEntriesLocked peer : NodeM storage random Unit) :=
  preserves_sendAppendEntriesLocked (fun n requests outbox =>
    hview n n.nextIndex n.matchIndex requests n.commitIndex n.lastApplied
      n.committedEntries outbox) peer

theorem preserves_broadcast_of_replication :
    Preserves view (broadcastAppendEntriesLocked : NodeM storage random Unit) :=
  preserves_broadcastAppendEntriesLocked fun n requests outbox =>
    hview n n.nextIndex n.matchIndex requests n.commitIndex n.lastApplied
      n.committedEntries outbox

theorem preserves_advance_of_replication :
    Preserves view (advanceCommitIndexLocked : NodeM storage random Bool) :=
  preserves_advanceCommitIndexLocked fun n reached commit applied entries =>
    hview n n.nextIndex reached n.appendRequestId commit applied entries n.outbox

theorem preserves_handleAppendEntriesResponseLocked (sender : NodeId)
    (response : AppendEntriesResponse) :
    Preserves view (handleAppendEntriesResponseLocked sender response :
      NodeM storage random Unit) := by
  have hkept : forall (n : RaftNode storage random) next reached requests,
      view { n with
        nextIndex := next, matchIndex := reached, appendRequestId := requests } =
        view n := by
    intro n next reached requests
    exact hview n next reached requests n.commitIndex n.lastApplied
      n.committedEntries n.outbox
  refine preserves_bind preserves_get ?_
  intro n
  refine preserves_ite (preserves_pure _) (preserves_ite ?_ ?_)
  · refine preserves_bind preserves_get ?_
    intro n
    refine preserves_ite (preserves_pure _) ?_
    refine preserves_bind
      (preserves_modify fun n => hkept n _ _ n.appendRequestId) ?_
    intro _
    refine preserves_bind (preserves_advance_of_replication hview) ?_
    intro advanced
    refine preserves_ite (preserves_broadcast_of_replication hview)
      (preserves_bind preserves_get ?_)
    intro n
    exact preserves_ite (preserves_send_of_replication hview sender)
      (preserves_pure _)
  · refine preserves_bind preserves_get ?_
    intro n
    refine preserves_bind
      (preserves_modify fun n => hkept n n.nextIndex n.matchIndex _) ?_
    intro _
    refine preserves_ite (preserves_pure _) ?_
    refine preserves_bind (fun n => ensures_retryIndex rfl) ?_
    intro index
    refine preserves_bind
      (preserves_modify fun n => hkept n _ _ n.appendRequestId) ?_
    intro _
    exact preserves_send_of_replication hview sender

theorem preserves_propose [RaftStorage storage]
    (hlog : forall (n : RaftNode storage random) log, view { n with log := log } = view n)
    (hstorage : forall (n : RaftNode storage random) store,
      view { n with storage := store } = view n) (command : Command) :
    Preserves view
      (RaftNode.propose command : NodeM storage random (Option LogIndex)) := by
  refine preserves_bind preserves_get ?_
  intro n
  refine preserves_ite (preserves_pure _) (preserves_ite (preserves_throw _) ?_)
  refine preserves_bind (preserves_modify fun n => hlog n _) ?_
  intro _
  refine preserves_bind (preserves_persistLocked hstorage) ?_
  intro _
  refine preserves_bind preserves_get ?_
  intro n
  refine preserves_bind (preserves_advance_of_replication hview) ?_
  intro _
  exact preserves_bind (preserves_broadcast_of_replication hview)
    fun _ => preserves_pure _

end Replication

/-!
# Properties that a failed save may break
-/

/-- The node that is left behind has a property, unless a save threw. -/
def IfSaved (post : RaftNode storage random -> Prop)
    (r : Except Fault result) (n' : RaftNode storage random) : Prop :=
  (exists cause, r = .error (.storage cause)) ∨ post n'

theorem ensures_ifSaved_of_preserves {x : NodeM storage random result}
    (hkeeps : Preserves view x) (hpost : forall n', view n' = view n -> post n') :
    Ensures x n (IfSaved post) :=
  ensures_mono (hkeeps n) fun _ n' hview => Or.inr (hpost n' hview)

theorem ensures_ifSaved_bind {result' : Type} {x : NodeM storage random result}
    {f : result -> NodeM storage random result'}
    (hpost : forall n' n'', post n' -> view n'' = view n' -> post n'')
    (hx : Ensures x n (IfSaved post)) (hf : forall value, Preserves view (f value)) :
    Ensures (x >>= f) n (IfSaved post) := by
  refine ensures_bind_of hx ?_ ?_
  · intro value n1 hleaves
    rcases hleaves with ⟨cause, hcause⟩ | hn1
    · cases hcause
    · exact ensures_ifSaved_of_preserves (hf value) fun n2 => hpost n1 n2 hn1
  · intro fault n1 hleaves
    rcases hleaves with ⟨cause, hcause⟩ | hn1
    · cases hcause
      exact Or.inl ⟨cause, rfl⟩
    · exact Or.inr hn1

theorem ifSaved_of_queues {sender : NodeId}
    {ends : Except Fault Rpc -> RaftNode storage random -> Prop}
    {r : Except Fault Unit}
    (hemit : forall n' rpc, post n' -> post (n'.emit sender rpc))
    (hends : forall r n', ends r n' -> IfSaved post r n')
    (hqueues : Queues sender ends r n) : IfSaved post r n := by
  cases r with
  | ok _ =>
      rcases hqueues with ⟨reply, before, hreply, rfl⟩
      rcases hends _ _ hreply with ⟨cause, hcause⟩ | hbefore
      · cases hcause
      · exact Or.inr (hemit before reply hbefore)
  | error fault =>
      rcases hends _ _ hqueues with ⟨cause, hcause⟩ | hafter
      · cases hcause
        exact Or.inl ⟨cause, rfl⟩
      · exact Or.inr hafter

variable [RaftStorage storage] [RandomEngine random]

/--
An operation leaves a property behind when the part of it that works on the node
does, and the property does not depend on the queues.
-/
theorem perform_ifSaved (post : RaftNode storage random -> Prop) {op : Operation}
    (hpost : forall n' n'', post n' -> view n'' = view n' -> post n'')
    (hview : forall (n : RaftNode storage random) outbox entries,
      view { n with outbox := outbox, committedEntries := entries } = view n)
    (htick : forall elapsed, op = .tick elapsed ->
      Ensures (RaftNode.tick elapsed) n (IfSaved post))
    (hdelivers : forall message, op.delivers = some message ->
      Ensures (stepLocked message) n (IfSaved post))
    (hpropose : forall command, op = .propose command ->
      Ensures (RaftNode.propose command) n (IfSaved post))
    (hidle : op.Idle -> post n) (hsaves : SavesSucceed n op) :
    post (outcome op.perform n).2 := by
  have hleaves : Ensures op.perform n (IfSaved post) := by
    cases op with
    | tick elapsed =>
        exact ensures_ifSaved_bind hpost (htick elapsed rfl)
          fun _ => preserves_pure _
    | step message =>
        exact ensures_ifSaved_bind hpost (hdelivers message rfl)
          fun _ => preserves_pure _
    | propose command =>
        exact ensures_ifSaved_bind hpost (hpropose command rfl)
          fun _ => preserves_pure _
    | handleRequest message =>
        refine ensures_ifSaved_bind hpost ?_ fun _ => preserves_pure _
        unfold RaftNode.handleRequest
        split
        · rename_i hrequest
          exact Or.inr (hidle hrequest)
        · rename_i hrequest
          rw [ensures_bind, ensures_get, continues_ok]
          exact ensures_ifSaved_bind hpost (hdelivers message (if_neg hrequest))
            fun handled => preserves_handOver
              (fun n1 outbox => hview n1 outbox n1.committedEntries) message _ handled
    | takeMessages =>
        exact Or.inr (hpost n _ (hidle trivial) (hview n [] n.committedEntries))
    | takeCommittedEntries =>
        exact Or.inr (hpost n _ (hidle trivial) (hview n n.outbox []))
  rcases hleaves with ⟨cause, hcause⟩ | hafter
  · exact absurd hcause (hsaves cause)
  · exact hafter

end Raft
end FTKV
