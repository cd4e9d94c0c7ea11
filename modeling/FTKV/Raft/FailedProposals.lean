import FTKV.Raft.Proposals
import FTKV.Raft.Reference

/-!
# Proposals that cannot be saved

`propose` extends the log before it saves.  When the save throws, the caller is
told that the proposal failed, but the entry stays in the memory of the leader,
who replicates and commits it together with the next one.
-/

namespace FTKV
namespace Raft

open Foundation
open Foundation.Effect

variable {storage random : Type} [RaftStorage storage]
  {n : RaftNode storage random}

def SavesProposal (n : RaftNode storage random) (command : Command) : Prop :=
  exists store, RaftStorage.save (n.withProposal command).persistentState n.storage =
    (.ok (), store)

theorem outcome_propose_of_full (command : Command) (hstate : n.state = .leader)
    (hsize : n.log.size = 2 ^ 64 - 1) :
    outcome (RaftNode.propose command) n =
      (.error (.raftError "Raft log index overflow"), n) := by
  have hthrows : Ensures (RaftNode.propose command) n (fun r n' =>
      (r, n') = (.error (.raftError "Raft log index overflow"), n)) := by
    unfold RaftNode.propose
    rw [ensures_bind, ensures_get, continues_ok, if_neg (not_not.mpr hstate),
      if_pos hsize]
    rfl
  exact hthrows

theorem ensures_persistLocked_of_error {cause : StorageFault} {store : storage}
    {post : Except Fault Unit -> RaftNode storage random -> Prop}
    (hsave : RaftStorage.save n.persistentState n.storage = (.error cause, store))
    (hpost : post (.error (.storage cause)) { n with storage := store }) :
    Ensures persistLocked n post := by
  unfold persistLocked
  rw [ensures_bind, ensures_get, continues_ok, hsave]
  exact hpost

theorem outcome_propose_of_unsaved {command : Command} {cause : StorageFault}
    {store : storage} (hstate : n.state = .leader) (hsize : n.log.size ≠ 2 ^ 64 - 1)
    (hsave : RaftStorage.save (n.withProposal command).persistentState n.storage =
      (.error cause, store)) :
    outcome (RaftNode.propose command) n =
      (.error (.storage cause), { n.withProposal command with storage := store }) := by
  have hthrows : Ensures (RaftNode.propose command) n (fun r n' => (r, n') =
      (.error (.storage cause), { n.withProposal command with storage := store })) := by
    unfold RaftNode.propose
    rw [ensures_bind, ensures_get, continues_ok, if_neg (not_not.mpr hstate),
      if_neg hsize, ensures_bind, ensures_modify, continues_ok, ensures_bind]
    exact ensures_persistLocked_of_error hsave rfl
  exact hthrows

theorem propose_ne_storage_of_saved {command : Command} (h : WellFormed n)
    (hsaves : SavesProposal n command) (cause : StorageFault) :
    (outcome (RaftNode.propose command) n).1 ≠ .error (.storage cause) := by
  intro hcause
  have hends : Ensures (RaftNode.propose command) n (ProposeEnds command n) :=
    ensures_propose_ends h
  unfold Ensures at hends
  rw [hcause] at hends
  cases hends with
  | failed _ hfailed =>
      rcases hsaves with ⟨store, hsaved⟩
      rcases hfailed with ⟨cause', store', hfailed, -⟩
      rw [show RaftStorage.save (n.withProposal command).persistentState n.storage = _
        from hfailed] at hsaved
      cases hsaved

/--
A proposal whose save throws leaves the log, the commit index, the published
entries and the outbox alone exactly if its save does not throw: unless the log is
full, the entry is in the log by the time it is saved.
-/
theorem failed_proposal_untouched_iff (h : WellFormed n) (hstate : n.state = .leader)
    (command : Command) :
    (forall cause,
      (outcome (RaftNode.propose command) n).1 = .error (.storage cause) ->
        Untouched n (outcome (RaftNode.propose command) n).2 ∧
        (outcome (RaftNode.propose command) n).2.outbox = n.outbox) <->
    (n.log.size = 2 ^ 64 - 1 ∨ SavesProposal n command) := by
  constructor
  · intro huntouched
    by_cases hsize : n.log.size = 2 ^ 64 - 1
    · exact Or.inl hsize
    · right
      rcases hsave : RaftStorage.save (n.withProposal command).persistentState
        n.storage with ⟨r, store⟩
      cases r with
      | ok _ => exact ⟨store, hsave⟩
      | error cause =>
          exfalso
          have houtcome := outcome_propose_of_unsaved hstate hsize hsave
          have hlog := (huntouched cause (by rw [houtcome])).left.log
          rw [houtcome] at hlog
          have hlength := congrArg (fun log : Log => log.entries.length) hlog
          simp [RaftNode.withProposal] at hlength
  · intro hsaves cause hcause
    exfalso
    rcases hsaves with hsize | hsaved
    · rw [outcome_propose_of_full command hstate hsize] at hcause
      cases hcause
    · exact propose_ne_storage_of_saved h hsaved cause hcause

/-- The third save fails, and it is that of the proposal. -/
theorem failed_proposal_untouched_diskFull :
    exists node : RaftNode ScriptedRaftStorage LeastEngine,
      RaftNode.create { nodeId := 1, peers := [] }
        { script := [true, true, false] } = .ok node ∧
      (node.after [.tick 300]).state = .leader ∧
      (outcome (RaftNode.propose [9]) (node.after [.tick 300])).1 =
        .error (.storage (.storageError "disk full")) ∧
      ¬ forall cause, (outcome (RaftNode.propose [9])
        (node.after [.tick 300])).1 = .error (.storage cause) ->
          Untouched (node.after [.tick 300])
            (outcome (RaftNode.propose [9]) (node.after [.tick 300])).2 ∧
          (outcome (RaftNode.propose [9]) (node.after [.tick 300])).2.outbox =
            (node.after [.tick 300]).outbox := by
  have hcreate : RaftNode.create { nodeId := 1, peers := [] }
      ({ script := [true, true, false] } : ScriptedRaftStorage) =
        .ok (_ : RaftNode ScriptedRaftStorage LeastEngine) := rfl
  have hwell := wellFormed_after (fresh_of_create hcreate).well [.tick 300]
  refine ⟨_, hcreate, rfl, rfl, ?_⟩
  intro huntouched
  rcases (failed_proposal_untouched_iff hwell rfl [9]).mp huntouched with
    hfull | ⟨store, hsaved⟩
  · exact absurd hfull (by decide)
  · cases hsaved

/--
The save of the first proposal fails and `propose` throws.  The second proposal
commits both commands, and the caller of `take_committed_entries` gets the one
that was refused.
-/
theorem failed_proposal_committed :
    exists node : RaftNode ScriptedRaftStorage LeastEngine,
      RaftNode.create { nodeId := 1, peers := [] }
        { script := [true, true, false] } = .ok node ∧
      (node.after [.tick 300]).state = .leader ∧
      (outcome (RaftNode.propose [9]) (node.after [.tick 300])).1 =
        .error (.storage (.storageError "disk full")) ∧
      ¬ Untouched (node.after [.tick 300])
        (outcome (RaftNode.propose [9]) (node.after [.tick 300])).2 ∧
      (node.after [.tick 300, .propose [9], .propose [8]]).committedEntries =
        [{ index := 2, term := 1, command := [9] },
          { index := 3, term := 1, command := [8] }] := by
  have hcreate : RaftNode.create { nodeId := 1, peers := [] }
      ({ script := [true, true, false] } : ScriptedRaftStorage) =
        .ok (_ : RaftNode ScriptedRaftStorage LeastEngine) := rfl
  refine ⟨_, hcreate, rfl, rfl, ?_, rfl⟩
  intro huntouched
  exact absurd (congrArg Log.entries huntouched.log) (by decide)

end Raft
end FTKV
