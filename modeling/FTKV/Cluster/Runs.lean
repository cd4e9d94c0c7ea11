import FTKV.Cluster.Simulation

/-!
# Runs of a cluster

A run of a cluster is shadowed by a run of the abstract protocol, so that the
invariants of the protocol hold of the nodes in every state of every run.
-/

namespace FTKV
namespace Raft

open Foundation
open Foundation.Effect
open Consensus

variable {storage random : Type} [RaftStorage storage]
  {membership : Membership} {id : NodeId} {n n' : RaftNode storage random}
  {w w' : RaftWorld} {cluster cluster' : Cluster storage random}

/-!
# Operations of a member
-/

theorem represents_drained {output : Output} (h : Represents membership id n w)
    (hdrained : Drained n output n') :
    Represents membership id n' w ∧
      forall message, message ∈ output.messages -> Backed w message := by
  have hwell := (wellFormed_drained h.well hdrained).left
  have hsame := hdrained.same
  have hmessages := hdrained.messages
  refine ⟨?_, fun message hmessage =>
    h.outbox message (hmessages message (Or.inl hmessage))⟩
  rw [hsame] at hwell ⊢
  exact h.step_of_same hwell rfl h.mirrored (fun _ hp => hp) h.replica rfl rfl rfl
    rfl (fun message hmessage =>
      Or.inl (hmessages message (Or.inr (by rw [hsame]; exact hmessage))))

theorem load_interrupted [LawfulRaftStorage storage] {call : Call}
    (hmirrored : Mirrored n) (hinterrupted : Interrupted call n n') :
    RaftStorage.load n'.storage = .ok n.persistentState := by
  rcases hinterrupted with ⟨_, middle, hdurable, hfailed⟩
  rw [(load_saveFailed hfailed).left, (storage_durable hdurable).left]
  exact hmirrored

/--
An operation either runs to its end or is cut short by a failing save, which
leaves the storage as some point of the operation had it.
-/
inductive Simulated (membership : Membership) (id : NodeId) (w : RaftWorld) :
    Except Fault Output -> RaftNode storage random -> Prop where
  | completed {w' : RaftWorld} {r : Except Fault Output}
      {n' : RaftNode storage random} (hacts : Acts membership id w w')
      (hrepresents : Represents membership id n' w')
      (hmessages : forall message, message ∈ (outputOf r).messages ->
        Backed w' message) : Simulated membership id w r n'
  | crashed {w' : RaftWorld} {cause : StorageFault}
      {middle n' : RaftNode storage random} (hacts : Acts membership id w w')
      (hrepresents : Represents membership id middle w')
      (hload : RaftStorage.load n'.storage = .ok middle.persistentState) :
      Simulated membership id w (.error (.storage cause)) n'

/-!
# Steps of a cluster
-/

structure Refines (membership : Membership) (cluster : Cluster storage random)
    (w : RaftWorld) : Prop where
  nodes : forall id, id ∈ membership.members ->
    Represents membership id (cluster.nodes id) w
  network : forall message, message ∈ cluster.network -> Backed w message

theorem refines_install {sent : List Message} (h : Refines membership cluster w)
    (hacts : Acts membership id w w') (hnode : Represents membership id n w')
    (hbacked : forall message, message ∈ sent -> Backed w' message) :
    Refines membership (cluster.install id n sent) w' := by
  have hsent := sent_subset_acts hacts
  constructor
  · intro v hv
    unfold Cluster.install
    by_cases heq : v = id
    · subst heq
      simpa using hnode
    · simpa [heq] using (h.nodes v hv).frame hsent (replica_acts_of_ne hacts heq)
  · intro message hmessage
    rcases List.mem_append.mp hmessage with hold | hnew
    · exact backed_mono hsent (h.network message hold)
    · exact hbacked message hnew

section Steps

variable [RandomEngine random]

theorem refines_rebuild {store : storage} (h : Refines membership cluster w)
    (hacts : Acts membership id w w') (hnode : Represents membership id n w')
    (hload : RaftStorage.load store = .ok n.persistentState)
    (hrebuild : cluster.rebuild membership id store = some cluster') :
    exists w', Acts membership id w w' ∧ Refines membership cluster' w' := by
  unfold Cluster.rebuild at hrebuild
  split at hrebuild
  · rename_i node hcreate
    cases hrebuild
    rcases simulate_restart hnode hload hcreate with ⟨w'', hacts', hnode'⟩
    exact ⟨w'', hacts.trans hacts', refines_install h (hacts.trans hacts') hnode'
      (fun _ hnone => nomatch hnone)⟩
  · cases hrebuild

section Operations

variable [LawfulRaftStorage storage]

theorem simulate_operation (hid : id ∈ membership.members)
    (h : Represents membership id n w) (op : Operation)
    (hinbox : forall message, op.inbox = some message -> Backed w message)
    (hbound : n.currentTerm ≠ 18446744073709551615) :
    Ensures op.perform n (Simulated membership id w) := by
  rcases ensures_perform h.well op with ⟨hexplained, hdrained⟩
  unfold Ensures
  generalize (outcome op.perform n).1 = r at hexplained hdrained ⊢
  generalize (outcome op.perform n).2 = n' at hdrained ⊢
  generalize op.handled n = handled at hexplained hdrained
  cases hexplained with
  | returns hpath | refused hpath =>
      rcases simulate_path hid h hinbox hbound hpath with ⟨w', hacts, h'⟩
      rcases represents_drained h' hdrained with ⟨h'', hmessages⟩
      exact .completed hacts h'' hmessages
  | interrupted hpath hinterrupted =>
      rcases simulate_path hid h hinbox hbound hpath with ⟨w', hacts, h'⟩
      have hload := load_interrupted h'.mirrored hinterrupted
      refine .crashed hacts h' ?_
      rw [hdrained.same]
      exact hload

/-- Every event of the cluster is a sequence of abstract actions. -/
theorem refines_next {event : Event} (h : Refines membership cluster w)
    (hterms : forall id, id ∈ membership.members ->
      (cluster.nodes id).currentTerm ≠ 18446744073709551615)
    (hnext : cluster.next membership event = some cluster') :
    exists id w', Acts membership id w w' ∧ Refines membership cluster' w' := by
  cases event with
  | operation id op =>
      rcases Cluster.next_operation hnext with
        ⟨hid, hdelivers, r, node, houtcome, hcases⟩
      have hinbox : forall message, op.inbox = some message ->
          Backed w message := fun message hin =>
        h.network message (Cluster.mem_network_of_delivers hdelivers hin)
      have hsimulated := simulate_operation hid (h.nodes id hid) op hinbox
        (hterms id hid)
      unfold Ensures at hsimulated
      rw [houtcome] at hsimulated
      rcases hcases with ⟨-, hrebuild⟩ | ⟨hother, rfl⟩
      · cases hsimulated with
        | completed hacts hnode hmessages =>
            exact ⟨id, refines_rebuild h hacts hnode hnode.mirrored hrebuild⟩
        | crashed hacts hnode hload =>
            exact ⟨id, refines_rebuild h hacts hnode hload hrebuild⟩
      · cases hsimulated with
        | completed hacts hnode hmessages =>
            exact ⟨id, _, hacts, refines_install h hacts hnode hmessages⟩
        | crashed => exact absurd rfl (hother _)
  | restart id =>
      rcases Cluster.next_restart hnext with ⟨hid, hrebuild⟩
      have hnode := h.nodes id hid
      exact ⟨id, refines_rebuild h .refl hnode hnode.mirrored hrebuild⟩

end Operations

/-!
# Whole runs
-/

def initialWorld : RaftWorld where
  replica := fun _ => ⟨⊥, none, [], .follower, 0⟩
  sent := ∅
  ballots := fun _ _ => none
  winner := fun _ => none
  base := fun _ => []
  lead := fun _ => []
  receipts := fun _ _ => 0

theorem initial_initialWorld : Initial initialWorld :=
  ⟨fun _ => rfl, rfl, fun _ _ => rfl, fun _ => rfl, fun _ _ => rfl⟩

theorem refines_starts (h : cluster.Starts membership) :
    Refines membership cluster initialWorld := by
  constructor
  · intro id hid
    rcases h.nodes id hid with ⟨store, hload, hcreate⟩
    have hfresh := fresh_of_create hcreate
    exact hfresh.represents (hfresh.replica_eq hload).symm
  · rw [h.network]
    intro message hnone
    cases hnone

/-- A run of the abstract protocol that a run of the cluster refines. -/
structure Shadow (run : Execution storage random membership) where
  worlds : Nat -> RaftWorld
  initial : Initial (worlds 0)
  refines : forall k, Refines membership (run.states k) (worlds k)
  steps : forall k,
    Steps (majority membership.members) (worlds k) (worlds (k + 1))

namespace Shadow

variable {run : Execution storage random membership} (shadow : Shadow run)

theorem inv (k : Nat) :
    Inv (majority membership.members) (shadow.worlds k) := by
  induction k with
  | zero => exact inv_initial shadow.initial
  | succ k ih => exact (inv_steps ih (shadow.steps k)).left

theorem evolves {j k : Nat} (hjk : j <= k) :
    Evolves (shadow.worlds j) (shadow.worlds k) := by
  induction hjk with
  | refl => exact evolves_refl _
  | step _ ih =>
      exact evolves_trans ih (inv_steps (shadow.inv _) (shadow.steps _)).right

theorem represents (k : Nat) {id : NodeId} (hid : id ∈ membership.members) :
    Represents membership id ((run.states k).nodes id) (shadow.worlds k) :=
  (shadow.refines k).nodes id hid

end Shadow

section Existence

variable [LawfulRaftStorage storage]

theorem refines_succ (run : Execution storage random membership) (k : Nat)
    (w : RaftWorld) (h : Refines membership (run.states k) w) :
    exists w', Steps (majority membership.members) w w' ∧
      Refines membership (run.states (k + 1)) w' := by
  rcases run.next k with hsame | ⟨event, hnext⟩
  · rw [hsame]
    exact ⟨w, .refl, h⟩
  · rcases refines_next h (run.terms k) hnext with ⟨id, w', hacts, h'⟩
    exact ⟨w', steps_of_acts hacts, h'⟩

/-- Every run of the cluster refines a run of the abstract protocol. -/
theorem exists_shadow (run : Execution storage random membership) :
    Nonempty (Shadow run) := by
  choose next hsteps hrefines using refines_succ run
  let sequence : forall k, { w // Refines membership (run.states k) w } :=
    Nat.rec ⟨initialWorld, refines_starts run.starts⟩
      (fun k w => ⟨next k w.val w.property, hrefines k w.val w.property⟩)
  exact ⟨{
    worlds := fun k => (sequence k).val
    initial := initial_initialWorld
    refines := fun k => (sequence k).property
    steps := fun k => hsteps k (sequence k).val (sequence k).property }⟩

end Existence

end Steps

end Raft
end FTKV
