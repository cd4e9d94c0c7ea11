import FTKV.Cluster.Moves
import FTKV.Cluster.Safety

/-!
# Leader hints

A node reports as leader itself, or the sender of a request of its current term.
Only leaders send such requests, so every hint names a node that has led the
term.
-/

namespace FTKV
namespace Raft

open Foundation
open Foundation.Effect

/-!
# One operation
-/

section Calls

variable {storage random : Type} {start n n' : RaftNode storage random}
  {call : Call}

/-- Where the hint of a node comes from, since a call found it in a state. -/
structure HintSourced (call : Call) (start n : RaftNode storage random) :
    Prop where
  own : n.state = .leader -> n.leaderId = some n.config.nodeId
  source : forall leader, n.leaderId = some leader ->
    (n.state = .leader ∧ leader = n.config.nodeId) ∨
    (start.leaderId = some leader ∧ n.currentTerm = start.currentTerm) ∨
    exists request, call.inbox = some ⟨leader, n.config.nodeId,
      .appendEntriesRequest request⟩ ∧ request.leaderId = leader ∧
        request.term = n.currentTerm

theorem hintSourced_of_same (h : HintSourced call start n)
    (hconfig : n'.config = n.config) (hstate : n'.state = n.state)
    (hterm : n'.currentTerm = n.currentTerm) (hhint : n'.leaderId = n.leaderId) :
    HintSourced call start n' := by
  rcases h with ⟨hown, hsource⟩
  rw [← hconfig, ← hstate, ← hhint] at hown
  rw [← hconfig, ← hstate, ← hterm, ← hhint] at hsource
  exact ⟨hown, hsource⟩

theorem hintSourced_of_none (hstate : n.state ≠ .leader)
    (hhint : n.leaderId = none) : HintSourced call start n := by
  refine ⟨fun hleads => absurd hleads hstate, ?_⟩
  intro leader hleader
  rw [hhint] at hleader
  cases hleader

theorem hintSourced_durable (h : HintSourced call start n)
    (hdurable : Durable call n n') : HintSourced call start n' := by
  cases hdurable with
  | adopt | campaign => exact hintSourced_of_none nofun rfl
  | vote | rewrite | propose => exact hintSourced_of_same h rfl rfl rfl rfl
  | elect =>
      refine ⟨fun _ => rfl, ?_⟩
      intro leader hleader
      cases hleader
      exact Or.inl ⟨rfl, rfl⟩

variable [RaftStorage storage]

theorem hintSourced_volatile (h : HintSourced call start n)
    (hvolatile : Volatile call n n') : HintSourced call start n' := by
  cases hvolatile with
  | timer | tally | emit | replicate | record | retry | raise =>
      exact hintSourced_of_same h rfl rfl rfl rfl
  | @follow sender request hhandles hleader hterm =>
      refine ⟨nofun, ?_⟩
      intro leader hsender
      cases hsender
      exact Or.inr (Or.inr ⟨request, hhandles.left, hleader, hterm⟩)

theorem hintSourced_path (h : HintSourced call start n)
    (hpath : Path call n n') : HintSourced call start n' := by
  induction hpath with
  | refl => exact h
  | tail _ haction ih =>
      cases haction with
      | volatile hvolatile => exact hintSourced_volatile ih hvolatile
      | durable hquiet hdurable hsaved =>
          rcases hsaved with ⟨store, -, rfl⟩
          exact hintSourced_of_same (hintSourced_durable ih hdurable) rfl rfl rfl rfl

theorem hintSourced_explained {result : Type} {r : Except Fault result}
    (h : HintSourced call start n) (hexplained : Explained call n r n') :
    HintSourced call start n' := by
  cases hexplained with
  | returns hpath => exact hintSourced_path h hpath
  | refused hpath hrefusal => exact hintSourced_path h hpath
  | interrupted hpath hinterrupted =>
      rcases hinterrupted with ⟨-, middle, hdurable, cause, store, -, rfl⟩
      exact hintSourced_of_same
        (hintSourced_durable (hintSourced_path h hpath) hdurable) rfl rfl rfl rfl

variable [RandomEngine random]

theorem hintSourced_perform (h : WellFormed n) (op : Operation)
    (hown : n.state = .leader -> n.leaderId = some n.config.nodeId) :
    HintSourced (op.call n) n (outcome op.perform n).2 := by
  have hstart : HintSourced (op.call n) n n :=
    ⟨hown, fun leader hleader => Or.inr (Or.inl ⟨hleader, rfl⟩)⟩
  rcases ensures_perform h op with ⟨hexplained, hdrained⟩
  rw [hdrained.same]
  exact hintSourced_of_same (hintSourced_explained hstart hexplained) rfl rfl rfl rfl

end Calls

/-!
# Whole runs
-/

section Runs

variable {storage random : Type} [RaftStorage storage] [RandomEngine random]
  {membership : Membership}

def Led (run : Execution storage random membership) (k : Nat) (leader : NodeId)
    (term : Term) : Prop :=
  leader ∈ membership.members ∧ exists j, j <= k ∧
    ((run.states j).nodes leader).state = .leader ∧
    ((run.states j).nodes leader).currentTerm = term

structure Truthful (run : Execution storage random membership) (k : Nat) :
    Prop where
  own : forall id, id ∈ membership.members ->
    ((run.states k).nodes id).state = .leader ->
      ((run.states k).nodes id).leaderId = some id
  hints : forall id, id ∈ membership.members -> forall leader,
    ((run.states k).nodes id).leaderId = some leader ->
      Led run k leader ((run.states k).nodes id).currentTerm

variable {run : Execution storage random membership} {k : Nat} {id leader : NodeId}
  {term : Term}

theorem led_succ (h : Led run k leader term) : Led run (k + 1) leader term := by
  rcases h with ⟨hmember, j, hjk, hleads⟩
  exact ⟨hmember, j, Nat.le_succ_of_le hjk, hleads⟩

theorem led_of_request (shadow : Shadow run) {message : Message}
    {request : AppendEntriesRequest} (hmessage : message ∈ (run.states k).network)
    (hrpc : message.rpc = .appendEntriesRequest request) :
    Led run k request.leaderId request.term := by
  rcases exists_announces shadow (Or.inl hmessage) hrpc with
    ⟨j, leader, hjk, hmember, hsender, hannounces⟩
  rw [hsender]
  exact ⟨hmember, j, hjk, hannounces.leads, hannounces.term⟩

theorem led_unique (shadow : Shadow run) {other : NodeId} (h : Led run k leader term)
    (hother : Led run k other term) : leader = other := by
  rcases h with ⟨hmember, j, hjk, hleads, hterm⟩
  rcases hother with ⟨hmember', j', hjk', hleads', hterm'⟩
  have hwinner := (shadow.evolves hjk).winner _ _ (shadow.leader hmember hleads).left
  have hwinner' := (shadow.evolves hjk').winner _ _
    (shadow.leader hmember' hleads').left
  rw [hterm] at hwinner
  rw [hterm', hwinner] at hwinner'
  exact Option.some.inj hwinner'

theorem truthful_zero (hstarts : (run.states 0).Starts membership) :
    Truthful run 0 := by
  have hfresh : forall id, id ∈ membership.members -> exists store,
      Fresh (membership.config id) store ((run.states 0).nodes id) := by
    intro id hid
    rcases hstarts.nodes id hid with ⟨store, -, hcreate⟩
    exact ⟨store, fresh_of_create hcreate⟩
  constructor
  · intro id hid hleads
    rcases hfresh id hid with ⟨store, h⟩
    rw [h.follows] at hleads
    cases hleads
  · intro id hid leader hleader
    rcases hfresh id hid with ⟨store, h⟩
    rw [h.hint] at hleader
    cases hleader

theorem hint_succ (shadow : Shadow run) (schedule : Schedule run) (h : Truthful run k)
    (hid : id ∈ membership.members) :
    (((run.states (k + 1)).nodes id).state = .leader ->
      ((run.states (k + 1)).nodes id).leaderId = some id) ∧
    forall leader, ((run.states (k + 1)).nodes id).leaderId = some leader ->
      Led run (k + 1) leader ((run.states (k + 1)).nodes id).currentTerm := by
  have hnode := shadow.represents k hid
  have hmoved := (schedule.advances shadow k).members id hid
  generalize hnext : (run.states (k + 1)).nodes id = node at hmoved
  cases hmoved with
  | idle =>
      refine ⟨h.own id hid, ?_⟩
      intro leader hleader
      exact led_succ (h.hints id hid leader hleader)
  | rebuilt hstore hcreate =>
      have hfresh := fresh_of_create hcreate
      rw [hfresh.follows, hfresh.hint]
      exact ⟨nofun, nofun⟩
  | @operated op hevent hdelivers hreturns =>
      have hconfig : (outcome op.perform ((run.states k).nodes id)).2.config.nodeId =
          id := by
        rw [← hnext]
        exact (shadow.represents (k + 1) hid).nodeId_eq hid
      have hown : ((run.states k).nodes id).state = .leader ->
          ((run.states k).nodes id).leaderId =
            some ((run.states k).nodes id).config.nodeId := by
        rw [hnode.nodeId_eq hid]
        exact h.own id hid
      rcases hintSourced_perform hnode.well op hown with ⟨hleads, hsource⟩
      rw [hconfig] at hleads hsource
      refine ⟨hleads, ?_⟩
      intro leader hleader
      rcases hsource leader hleader with
        ⟨hself, heq⟩ | ⟨hkept, hterm⟩ | ⟨request, hinbox, hsender, hterm⟩
      · rw [heq]
        refine ⟨hid, k + 1, Nat.le_refl _, ?_, ?_⟩
        · rw [hnext]
          exact hself
        · rw [hnext]
      · rw [hterm]
        exact led_succ (h.hints id hid leader hkept)
      · have hmessage := Cluster.mem_network_of_delivers hdelivers hinbox
        have hled := led_of_request shadow hmessage rfl
        rw [hsender, hterm] at hled
        exact led_succ hled

theorem truthful_run (shadow : Shadow run) (k : Nat) : Truthful run k := by
  rcases exists_schedule run with ⟨schedule⟩
  induction k with
  | zero => exact truthful_zero run.starts
  | succ k ih =>
      constructor
      · intro id hid
        exact (hint_succ shadow schedule ih hid).left
      · intro id hid
        exact (hint_succ shadow schedule ih hid).right

variable [LawfulRaftStorage storage]

/--
Leader hints are truthful: the node that a member reports has led the member's
term.  Two members of the same term therefore report the same leader, and a
leader reports itself.
-/
theorem leader_hints_truthful (run : Execution storage random membership) (k : Nat) :
    (forall id, id ∈ membership.members -> forall leader,
      ((run.states k).nodes id).leaderId = some leader ->
        leader ∈ membership.members ∧ exists j, j <= k ∧
          ((run.states j).nodes leader).state = .leader ∧
          ((run.states j).nodes leader).currentTerm =
            ((run.states k).nodes id).currentTerm) ∧
      (forall a b, a ∈ membership.members -> b ∈ membership.members ->
        ((run.states k).nodes a).currentTerm =
          ((run.states k).nodes b).currentTerm ->
        forall leader leader',
          ((run.states k).nodes a).leaderId = some leader ->
          ((run.states k).nodes b).leaderId = some leader' -> leader = leader') ∧
      forall id, id ∈ membership.members ->
        ((run.states k).nodes id).state = .leader ->
          ((run.states k).nodes id).leaderId = some id := by
  rcases exists_shadow run with ⟨shadow⟩
  have htruthful := truthful_run shadow k
  refine ⟨htruthful.hints, ?_, htruthful.own⟩
  intro a b ha hb hterm leader leader' hleader hleader'
  have hled := htruthful.hints a ha leader hleader
  rw [hterm] at hled
  exact led_unique shadow hled (htruthful.hints b hb leader' hleader')

end Runs

theorem leader_hints_truthful_threeRun :
    ((threeRun.states 10).nodes 2).leaderId = some 1 ∧
      exists j, j <= 10 ∧ ((threeRun.states j).nodes 1).state = .leader ∧
        ((threeRun.states j).nodes 1).currentTerm =
          ((threeRun.states 10).nodes 2).currentTerm :=
  ⟨by decide +kernel, ((leader_hints_truthful threeRun 10).left 2 (by decide) 1
    (by decide +kernel)).right⟩

end Raft
end FTKV
