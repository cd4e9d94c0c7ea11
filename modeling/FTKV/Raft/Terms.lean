import FTKV.Raft.Timing
import FTKV.Raft.Voting

/-!
# Terms and votes

Whether a node ever goes back in its term, or takes a vote of its term back.
Messages only ever raise the term; the one increment of the node itself is not
guarded against the end of the 64-bit range.
-/

namespace FTKV
namespace Raft

open Foundation
open Foundation.Effect

variable {storage random : Type} {n n' : RaftNode storage random} {call : Call}

structure MovesForward (n n' : RaftNode storage random) : Prop where
  term_le : n.currentTerm <= n'.currentTerm
  vote_kept : n'.currentTerm = n.currentTerm ->
    n'.votedFor = n.votedFor ∨ n.votedFor = none

theorem movesForward_of_precedes
    (h : Precedes n.persistentState n'.persistentState) : MovesForward n n' := by
  rcases h with hlt | ⟨hsame, hvote⟩
  · refine ⟨hlt.le, ?_⟩
    intro hsame
    have hlt' : n.currentTerm < n'.currentTerm := hlt
    rw [hsame] at hlt'
    exact absurd hlt' (lt_irrefl _)
  · exact ⟨le_of_eq hsame, fun _ => hvote.symm.imp_left Eq.symm⟩

section Storage

variable [RaftStorage storage]

theorem precedes_path (hadvances : call.Advances) (hpath : Path call n n') :
    Precedes n.persistentState n'.persistentState := by
  induction hpath with
  | refl => exact precedes_refl _
  | tail _ haction ih =>
      cases haction with
      | volatile hvolatile =>
          rw [(persistentState_volatile hvolatile).right]
          exact ih
      | durable hquiet hdurable hsaved =>
          have hprecedes := precedes_durable hadvances hdurable
          rcases hsaved with ⟨store, -, rfl⟩
          exact precedes_trans ih hprecedes

variable [RandomEngine random]

theorem precedes_perform {op : Operation} (h : WellFormed n)
    (hsaves : SavesSucceed n op) (hwraps : ¬ Wraps n op) :
    Precedes n.persistentState (outcome op.perform n).2.persistentState := by
  have hadvances : (op.call n).Advances ->
      Precedes n.persistentState (outcome op.perform n).2.persistentState := by
    intro hadvances
    rcases ensures_perform h op with ⟨hexplained, hdrained⟩
    have hprecedes := precedes_path hadvances (path_of_explained hexplained hsaves)
    rw [hdrained.same]
    exact hprecedes
  cases op with
  | tick elapsed =>
      by_cases helects : Elects n elapsed
      · apply hadvances
        intro _ _ hlast
        exact hwraps ⟨elapsed, rfl, helects, hlast⟩
      · simp only [Operation.perform, outcome_bind_pure]
        rw [(ensures_tick_of_not_elects helects).left]
        exact precedes_refl _
  | step message | handleRequest message =>
      apply hadvances
      intro hinbox
      cases hinbox
  | propose command =>
      apply hadvances
      intro _ hproposal
      cases hproposal
  | takeMessages | takeCommittedEntries => exact precedes_refl _

theorem not_movesForward_of_wraps {op : Operation} (hwraps : Wraps n op) :
    ¬ MovesForward n (outcome op.perform n).2 := by
  rcases hwraps with ⟨elapsed, rfl, helects, hlast⟩
  intro hforward
  have hstarts := startsElection_tick_iff.mpr helects
  have hle := hforward.term_le
  simp only [Operation.perform, outcome_bind_pure] at hle
  rw [hstarts.term, hlast] at hle
  exact absurd hle (by decide)

/--
While saves succeed, an operation moves term and vote forward exactly when it is
not a tick that starts an election in the last term, and a restart finds the term
and the vote that the node had.
-/
theorem terms_move_forward_iff [LawfulRaftStorage storage] {config : RaftConfig}
    {store : storage} {node : RaftNode storage random}
    (hcreate : RaftNode.create config store = .ok node) (ops : List Operation)
    (hsaves : RaftNode.Throughout SavesSucceed node ops) :
    (forall op, SavesSucceed (node.after ops) op ->
      (MovesForward (node.after ops) (outcome op.perform (node.after ops)).2 <->
        ¬ Wraps (node.after ops) op)) ∧
    forall config' (node' : RaftNode storage random),
      RaftNode.create config' (node.after ops).storage = .ok node' ->
        MovesForward (node.after ops) node' := by
  have hfresh := fresh_of_create hcreate
  constructor
  · intro op hsaves'
    constructor
    · intro hforward hwraps
      exact not_movesForward_of_wraps hwraps hforward
    · intro hwraps
      exact movesForward_of_precedes
        (precedes_perform (wellFormed_after hfresh.well ops) hsaves' hwraps)
  · intro config' node' hcreate'
    have hmirrored := mirrored_after hfresh.well hfresh.mirrored ops hsaves
    have hload := (accepted_of_create hcreate').load
    unfold Mirrored at hmirrored
    rw [hmirrored] at hload
    apply movesForward_of_precedes
    rw [← Except.ok.inj hload]
    exact precedes_refl _

end Storage

/-- An election outside the last term. -/
theorem terms_move_forward_firstAppend :
    exists node : RaftNode InMemoryRaftStorage LeastEngine,
      RaftNode.create { nodeId := 1, peers := [2] } {} = .ok node ∧
      MovesForward (node.after [.step firstAppend])
        (node.after [.step firstAppend, .tick 300]) := by
  have hcreate : RaftNode.create { nodeId := 1, peers := [2] }
      ({} : InMemoryRaftStorage) =
        .ok (_ : RaftNode InMemoryRaftStorage LeastEngine) := rfl
  have hsaves := throughout_savesSucceed (fun state _ => ⟨{ state := state }, rfl⟩)
    (fresh_of_create hcreate).well [.step firstAppend, .tick 300]
  refine ⟨_, hcreate, ?_⟩
  refine ((terms_move_forward_iff hcreate [.step firstAppend]
    ⟨hsaves.left, trivial⟩).left (.tick 300) hsaves.right.left).mpr ?_
  rintro ⟨elapsed, _, _, hlast⟩
  exact absurd hlast (by decide)

/-- After a request of the last term, a timeout takes the node to term zero. -/
theorem term_wraps_to_zero :
    exists node : RaftNode InMemoryRaftStorage LeastEngine,
      RaftNode.create { nodeId := 1, peers := [2] } {} = .ok node ∧
      RaftNode.Throughout SavesSucceed node [.step lastTermAppend, .tick 300] ∧
      (node.after [.step lastTermAppend]).currentTerm = 18446744073709551615 ∧
      (node.after [.step lastTermAppend, .tick 300]).currentTerm = 0 := by
  have hcreate : RaftNode.create { nodeId := 1, peers := [2] }
      ({} : InMemoryRaftStorage) =
        .ok (_ : RaftNode InMemoryRaftStorage LeastEngine) := rfl
  have hsaves := throughout_savesSucceed (fun state _ => ⟨{ state := state }, rfl⟩)
    (fresh_of_create hcreate).well [.step lastTermAppend, .tick 300]
  exact ⟨_, hcreate, hsaves, rfl, rfl⟩

end Raft
end FTKV
