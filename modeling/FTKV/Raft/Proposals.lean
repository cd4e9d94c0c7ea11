import FTKV.Raft.Replies

/-!
# Proposals

A proposal that returns an index has appended exactly one entry, at that index
and with the term of the leader.  A proposal that returns nothing or throws has
left the saved log alone.
-/

namespace FTKV
namespace Raft

open Foundation
open Foundation.Effect

variable {storage random : Type} {n n' : RaftNode storage random}
  {command : Command}

/-!
# Sending requests
-/

section Sending

variable {beta : Type} {view : RaftNode storage random -> beta}

theorem preserves_logFrom (index : LogIndex) :
    Preserves view (logFrom index : NodeM storage random (List LogEntry)) := by
  refine preserves_bind preserves_get ?_
  intro n
  exact preserves_ite (preserves_pure _) (preserves_throw _)

variable (hview : forall (n : RaftNode storage random) requests outbox,
  view { n with appendRequestId := requests, outbox := outbox } = view n)

include hview

theorem preserves_sendAppendEntriesLocked (peer : NodeId) :
    Preserves view (sendAppendEntriesLocked peer : NodeM storage random Unit) := by
  refine preserves_bind preserves_get ?_
  intro n
  cases n.nextIndex peer with
  | none => exact preserves_throw _
  | some nextIndex =>
      refine preserves_bind (preserves_logFrom _) ?_
      intro entries
      refine preserves_bind (preserves_modify fun n => hview n _ n.outbox) ?_
      intro _
      refine preserves_bind (preserves_logAt _) ?_
      intro previous
      exact preserves_modify fun n => hview n n.appendRequestId _

theorem preserves_broadcastAppendEntriesLocked :
    Preserves view (broadcastAppendEntriesLocked : NodeM storage random Unit) := by
  refine preserves_bind preserves_get ?_
  intro n
  exact preserves_forM fun peer _ => preserves_sendAppendEntriesLocked hview peer

end Sending

section Counting

variable {beta : Type} {view : RaftNode storage random -> beta}
  (hview : forall (n : RaftNode storage random) reached commit applied entries,
    view { n with
      matchIndex := reached
      commitIndex := commit
      lastApplied := applied
      committedEntries := entries } = view n)

include hview

theorem preserves_countReplicated (candidate : LogIndex) (peers : List NodeId)
    (replicated : Nat) :
    Preserves view
      (countReplicated candidate peers replicated : NodeM storage random Nat) := by
  induction peers generalizing replicated with
  | nil => exact preserves_pure _
  | cons peer rest ih =>
      unfold countReplicated
      refine preserves_bind preserves_get ?_
      intro n
      refine preserves_bind (preserves_modify fun n =>
        hview n _ n.commitIndex n.lastApplied n.committedEntries) ?_
      intro _
      exact ih _

theorem preserves_advanceFrom (index : LogIndex) :
    Preserves view (advanceFrom index : NodeM storage random Bool) := by
  induction index with
  | zero => exact preserves_pure _
  | succ below ih =>
      unfold advanceFrom
      refine preserves_bind preserves_get ?_
      intro n
      refine preserves_ite ?_ (preserves_pure _)
      refine preserves_bind (preserves_logAt _) ?_
      intro entry
      refine preserves_ite ih ?_
      refine preserves_bind (preserves_countReplicated hview _ _ _) ?_
      intro replicated
      refine preserves_ite ?_ ih
      refine preserves_bind (preserves_modify fun n =>
        hview n n.matchIndex _ n.lastApplied n.committedEntries) ?_
      intro _
      refine preserves_bind (preserves_applyCommittedEntriesLocked fun n =>
        hview n n.matchIndex n.commitIndex) ?_
      intro _
      exact preserves_pure _

theorem preserves_advanceCommitIndexLocked :
    Preserves view (advanceCommitIndexLocked : NodeM storage random Bool) :=
  preserves_bind preserves_get fun _ => preserves_advanceFrom hview _

end Counting

def officeOf (n : RaftNode storage random) :
    NodeState × Term × Log :=
  (n.state, n.currentTerm, n.log)

/-!
# Outcomes
-/

variable [RaftStorage storage]

def RaftNode.withProposal (n : RaftNode storage random) (command : Command) :
    RaftNode storage random :=
  { n with
    log := n.log.pushBack
      { term := n.currentTerm, command := command, isNoOp := false } }

/-- How a proposal ends. -/
inductive ProposeEnds (command : Command) (n : RaftNode storage random) :
    Except Fault (Option LogIndex) -> RaftNode storage random -> Prop where
  | declined (hstate : n.state ≠ .leader) : ProposeEnds command n (.ok none) n
  | full {message : String} (hstate : n.state = .leader) :
      ProposeEnds command n (.error (.raftError message)) n
  | failed {cause : StorageFault} {n' : RaftNode storage random}
      (hstate : n.state = .leader) (hfailed : SaveFailed (n.withProposal command) n') :
      ProposeEnds command n (.error (.storage cause)) n'
  | appended {n' : RaftNode storage random} (hstate : n.state = .leader)
      (hoffice : officeOf n' = officeOf (n.withProposal command)) :
      ProposeEnds command n (.ok (some (n.lastLogIndexLocked + 1))) n'

theorem ensures_announce {before : RaftNode storage random} (h : WellFormed n)
    (hstate : n.state = .leader) (hsaved : Saved before n) (index : LogIndex) :
    Ensures (do
      let _ <- advanceCommitIndexLocked
      broadcastAppendEntriesLocked
      pure (some index) : NodeM storage random (Option LogIndex)) n
      (fun r n' => r = .ok (some index) ∧ officeOf n' = officeOf n) := by
  have hreturns : Ensures (do
      let _ <- advanceCommitIndexLocked
      broadcastAppendEntriesLocked
      pure (some index) : NodeM storage random (Option LogIndex)) n
      (fun r _ => r = .ok (some index)) := by
    have hcall : ¬ (Operation.call .takeMessages n).Appends :=
      not_appends_of_none rfl
    rw [ensures_bind]
    refine ensures_advanceCommitIndexLocked h hstate (Or.inl ⟨before, hsaved⟩)
      hcall ?_
    intro raised n1 hpath hleader
    rw [continues_ok, ensures_bind]
    refine ensures_broadcastAppendEntriesLocked _ (wellFormed_path h hpath).left
      hleader hcall ?_
    intro n2 hpath'
    rfl
  have hoffice : Preserves officeOf (do
      let _ <- advanceCommitIndexLocked
      broadcastAppendEntriesLocked
      pure (some index) : NodeM storage random (Option LogIndex)) :=
    preserves_bind (preserves_advanceCommitIndexLocked fun _ _ _ _ _ => rfl)
      fun _ => preserves_bind
        (preserves_broadcastAppendEntriesLocked fun _ _ _ => rfl)
        fun _ => preserves_pure _
  exact ⟨hreturns, hoffice n⟩

theorem ensures_propose_ends (h : WellFormed n) :
    Ensures (RaftNode.propose command) n (ProposeEnds command n) := by
  unfold RaftNode.propose
  rw [ensures_bind, ensures_get, continues_ok]
  split
  · rename_i hstate
    exact .declined hstate
  · rename_i hleads
    have hleader : n.state = .leader := not_not.mp hleads
    split
    · exact .full hleader
    · simp only [ensures_bind, ensures_modify, continues_ok]
      refine ensures_persistLocked ?_ ?_
      · intro n1 hsaved
        have hdurable : Durable ((Operation.propose command).call n) n
            (n.withProposal command) := .propose rfl rfl hleader
        have hwell := wellFormed_saved (wellFormed_durable h hdurable) hsaved
        have hstate : n1.state = .leader ∧
            officeOf n1 = officeOf (n.withProposal command) ∧
            n1.lastLogIndexLocked = n.lastLogIndexLocked + 1 := by
          rcases hsaved with ⟨store, -, rfl⟩
          refine ⟨hleader, rfl, ?_⟩
          simp
        rw [continues_ok, ensures_bind, ensures_get, continues_ok, hstate.right.right]
        refine ensures_mono (ensures_announce hwell hstate.left hsaved _) ?_
        rintro r n2 ⟨rfl, hoffice⟩
        exact .appended hleader (hoffice.trans hstate.right.left)
      · intro cause n1 hfailed
        exact .failed hleader hfailed

end Raft
end FTKV
