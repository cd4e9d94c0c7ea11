import FTKV.Cluster.Exchange
import FTKV.Raft.Progress
import FTKV.Raft.Roles
import FTKV.Raft.Thorough

/-!
# Continuations of a run

What a majority of the members can still do from a state to which a run has led.
A continuation is a sequence of their operations, on messages that have been sent,
and every continuation makes another run.  The other members take no part in it.
-/

namespace FTKV
namespace Raft

open Foundation
open Foundation.Effect

structure Majority (membership : Membership) where
  members : Finset NodeId
  quorum : (majority membership.members).IsQuorum members

theorem Majority.member {membership : Membership} (team : Majority membership)
    {id : NodeId} (hid : id ∈ team.members) : id ∈ membership.members :=
  team.quorum.left hid

noncomputable def Majority.others {membership : Membership}
    (team : Majority membership) (id : NodeId) : List NodeId :=
  (team.members.erase id).toList

theorem Majority.mem_others_iff {membership : Membership}
    {team : Majority membership} {id other : NodeId} :
    other ∈ team.others id <-> other ∈ team.members ∧ other ≠ id := by
  unfold Majority.others
  rw [Finset.mem_toList, Finset.mem_erase, and_comm]

section Continuations

variable {storage random : Type} [RaftStorage storage] [RandomEngine random]
  {membership : Membership} {team : Majority membership}
  {cluster cluster' : Cluster storage random}

/-- Some run leads to the cluster. -/
def Grounded (membership : Membership) (cluster : Cluster storage random) : Prop :=
  exists (run : Execution storage random membership) (k : Nat),
    run.states k = cluster

/-- One of them performs an operation, and no member is in the greatest term. -/
def Goes (team : Majority membership) (cluster cluster' : Cluster storage random) :
    Prop :=
  (exists id op, id ∈ team.members ∧
      cluster.next membership (.operation id op) = some cluster') ∧
    forall id, id ∈ membership.members ->
      (cluster'.nodes id).currentTerm ≠ 18446744073709551615

def Reaches (team : Majority membership) :
    Cluster storage random -> Cluster storage random -> Prop :=
  Relation.ReflTransGen (Goes team)

structure Touches (ids : List NodeId) (cluster cluster' : Cluster storage random) :
    Prop where
  others : forall id, id ∉ ids -> cluster'.nodes id = cluster.nodes id
  network : forall message, message ∈ cluster.network -> message ∈ cluster'.network

section Touching

omit [RaftStorage storage] [RandomEngine random]

variable {middle : Cluster storage random} {ids more : List NodeId}

theorem Touches.trans (h : Touches ids cluster middle)
    (h' : Touches ids middle cluster') : Touches ids cluster cluster' := by
  constructor
  · intro id hid
    rw [h'.others id hid]
    exact h.others id hid
  · intro message hmessage
    exact h'.network message (h.network message hmessage)

theorem Touches.mono (h : Touches ids cluster cluster') (hids : ids ⊆ more) :
    Touches more cluster cluster' :=
  ⟨fun id hid => h.others id fun hmem => hid (hids hmem), h.network⟩

end Touching

/-- Every continuation makes another run. -/
theorem exists_continuation (run : Execution storage random membership) {k : Nat}
    (hreaches : Reaches team (run.states k) cluster') :
    exists (run' : Execution storage random membership) (j : Nat), k <= j ∧
      (forall i, i <= k -> run'.states i = run.states i) ∧
      (forall i, k <= i -> i <= j -> Reaches team (run.states k) (run'.states i)) ∧
      run'.states j = cluster' := by
  induction hreaches with
  | refl =>
      refine ⟨run, k, Nat.le_refl k, fun _ _ => rfl, ?_, rfl⟩
      intro i hlow hhigh
      rw [Nat.le_antisymm hhigh hlow]
      exact .refl
  | tail hbefore hgoes ih =>
      rcases ih with ⟨middle, j, hkj, hsame, hbetween, hmiddle⟩
      rw [← hmiddle] at hgoes
      rcases hgoes.left with ⟨id, op, -, hnext⟩
      rcases exists_extension middle hnext hgoes.right with ⟨run', hkept, hlast⟩
      refine ⟨run', j + 1, Nat.le_succ_of_le hkj, ?_, ?_, hlast⟩
      · intro i hi
        rw [hkept i (Nat.le_trans hi hkj)]
        exact hsame i hi
      · intro i hlow hhigh
        rcases Nat.lt_or_ge j i with hlt | hge
        · rw [Nat.le_antisymm hhigh hlt, hlast]
          exact (hbetween j hkj (Nat.le_refl j)).tail hgoes
        · rw [hkept i hge]
          exact hbetween i hlow hge

theorem Grounded.reaches (h : Grounded membership cluster)
    (hreaches : Reaches team cluster cluster') :
    Grounded membership cluster' := by
  rcases h with ⟨run, k, rfl⟩
  rcases exists_continuation run hreaches with ⟨run', j, -, -, -, hlast⟩
  exact ⟨run', j, hlast⟩

theorem Reaches.spares (hreaches : Reaches team cluster cluster') {id : NodeId}
    (hid : id ∉ team.members) : cluster'.nodes id = cluster.nodes id := by
  induction hreaches with
  | refl => rfl
  | @tail middle last _ hgoes ih =>
      rcases hgoes with ⟨⟨actor, op, hactor, hnext⟩, -⟩
      have hne : id ≠ actor := fun heq => hid (heq ▸ hactor)
      rw [← ih]
      rcases Cluster.next_operation hnext with
        ⟨-, -, r, node, -, ⟨-, hrebuild⟩ | ⟨-, hlast⟩⟩
      · unfold Cluster.rebuild at hrebuild
        split at hrebuild
        · cases hrebuild
          exact Cluster.install_nodes_of_ne _ _ _ hne
        · cases hrebuild
      · rw [hlast]
        exact Cluster.install_nodes_of_ne _ _ _ hne

/-!
# What holds of every state of a run
-/

theorem Grounded.term_ne (h : Grounded membership cluster) {id : NodeId}
    (hid : id ∈ membership.members) :
    (cluster.nodes id).currentTerm ≠ 18446744073709551615 := by
  rcases h with ⟨run, k, rfl⟩
  exact run.terms k id hid

section Lawful

variable [LawfulRaftStorage storage]

theorem Grounded.world (h : Grounded membership cluster) :
    exists w, Consensus.Inv (majority membership.members) w ∧
      Refines membership cluster w := by
  rcases h with ⟨run, k, rfl⟩
  rcases exists_shadow run with ⟨shadow⟩
  exact ⟨shadow.worlds k, shadow.inv k, shadow.refines k⟩

theorem Grounded.well (h : Grounded membership cluster) {id : NodeId}
    (hid : id ∈ membership.members) : WellFormed (cluster.nodes id) := by
  rcases h.world with ⟨w, -, hrefines⟩
  exact (hrefines.nodes id hid).well

theorem Grounded.nodeId (h : Grounded membership cluster) {id : NodeId}
    (hid : id ∈ membership.members) : (cluster.nodes id).config.nodeId = id := by
  rcases h.world with ⟨w, -, hrefines⟩
  exact (hrefines.nodes id hid).nodeId_eq hid

theorem Grounded.members (h : Grounded membership cluster) {id : NodeId}
    (hid : id ∈ membership.members) :
    (cluster.nodes id).members = membership.members := by
  rcases h.world with ⟨w, -, hrefines⟩
  exact (hrefines.nodes id hid).members_eq hid

theorem Grounded.knows (h : Grounded membership cluster) {id peer : NodeId}
    (hid : id ∈ team.members) (hpeer : peer ∈ team.members) (hne : peer ≠ id) :
    peer ∈ (cluster.nodes id).config.peers := by
  rcases h.world with ⟨w, -, hrefines⟩
  exact (hrefines.nodes id (team.member hid)).mem_peers (team.member hid)
    (team.member hpeer) hne

theorem short_and_thorough_run (run : Execution storage random membership) (k : Nat)
    {id : NodeId} (hid : id ∈ membership.members) :
    Short ((run.states k).nodes id) ∧ Thorough ((run.states k).nodes id) := by
  rcases exists_shadow run with ⟨shadow⟩
  rcases exists_schedule run with ⟨schedule⟩
  have hcreated : forall {config : RaftConfig} {store : storage}
      {node : RaftNode storage random},
      RaftNode.create config store = .ok node -> Short node ∧ Thorough node := by
    intro config store node hcreate
    have hfollows := (fresh_of_create hcreate).follows
    constructor
    · apply short_of_state
      rw [hfollows]
      intro hstate
      cases hstate
    · apply thorough_of_not_leads
      rw [hfollows]
      intro hstate
      cases hstate
  induction k with
  | zero =>
      rcases run.starts.nodes id hid with ⟨store, -, hcreate⟩
      exact hcreated hcreate
  | succ k ih =>
      have hmoved := (schedule.advances shadow k).members id hid
      generalize (run.states (k + 1)).nodes id = node at hmoved
      cases hmoved with
      | idle => exact ih
      | rebuilt hstore hcreate => exact hcreated hcreate
      | operated hevent hdelivers hreturns =>
          have hwell := (shadow.represents k hid).well
          exact ⟨short_perform hwell ih.left hreturns,
            thorough_perform hwell ih.right hreturns⟩

theorem Grounded.short (h : Grounded membership cluster) {id : NodeId}
    (hid : id ∈ membership.members) : Short (cluster.nodes id) := by
  rcases h with ⟨run, k, rfl⟩
  exact (short_and_thorough_run run k hid).left

theorem Grounded.thorough (h : Grounded membership cluster) {id : NodeId}
    (hid : id ∈ membership.members) : Thorough (cluster.nodes id) := by
  rcases h with ⟨run, k, rfl⟩
  exact (short_and_thorough_run run k hid).right

/-!
# Single operations
-/

theorem Grounded.operates (h : Grounded membership cluster)
    (htakes : TakesSaves storage) {id : NodeId} (hid : id ∈ team.members)
    (op : Operation) (hdelivers : cluster.delivers op)
    (hterm : (outcome op.perform (cluster.nodes id)).2.currentTerm ≠
      18446744073709551615) :
    exists cluster', Reaches team cluster cluster' ∧
      Touches [id] cluster cluster' ∧
      cluster'.nodes id = (outcome op.perform (cluster.nodes id)).2 ∧
      forall message,
        message ∈ (outputOf (outcome op.perform (cluster.nodes id)).1).messages ->
          message ∈ cluster'.network := by
  have hsaves := savesSucceed_of_save_ok htakes (h.well (team.member hid)) op
  have hnext := Cluster.next_of_saves (team.member hid) hdelivers hsaves
  refine ⟨_, .single ⟨⟨id, op, hid, hnext⟩, ?_⟩, ⟨?_, ?_⟩,
    Cluster.install_nodes_self .., ?_⟩
  · intro other hother
    by_cases hself : other = id
    · rw [hself, Cluster.install_nodes_self]
      exact hterm
    · rw [Cluster.install_nodes_of_ne _ _ _ hself]
      exact h.term_ne hother
  · intro other hother
    exact Cluster.install_nodes_of_ne _ _ _ fun heq =>
      hother (List.mem_singleton.mpr heq)
  · intro message hmessage
    exact List.mem_append_left _ hmessage
  · intro message hmessage
    exact List.mem_append_right _ hmessage

theorem Grounded.hands (h : Grounded membership cluster)
    (htakes : TakesSaves storage) {id : NodeId} (hid : id ∈ team.members) :
    exists cluster', Reaches team cluster cluster' ∧
      Touches [id] cluster cluster' ∧
      cluster'.nodes id = { cluster.nodes id with outbox := [] } ∧
      forall message, message ∈ (cluster.nodes id).outbox ->
        message ∈ cluster'.network := by
  exact h.operates htakes hid .takeMessages rfl (h.term_ne (team.member hid))

theorem Grounded.handles (h : Grounded membership cluster)
    (htakes : TakesSaves storage) {id : NodeId} (hid : id ∈ team.members)
    {request reply : Message} {node : RaftNode storage random}
    (hsent : request ∈ cluster.network)
    (houtcome : outcome (RaftNode.handleRequest request) (cluster.nodes id) =
      (.ok (some reply), node))
    (hterm : node.currentTerm ≠ 18446744073709551615) :
    exists cluster', Reaches team cluster cluster' ∧
      Touches [id] cluster cluster' ∧ cluster'.nodes id = node ∧
      reply ∈ cluster'.network := by
  have hperform : outcome (Operation.handleRequest request).perform
      (cluster.nodes id) = (.ok { messages := [reply] }, node) := by
    simp only [Operation.perform, outcome_bind_pure, houtcome]
    rfl
  rcases h.operates htakes hid (.handleRequest request)
    (by simpa [Cluster.delivers, Operation.inbox] using hsent)
    (by rw [hperform]; exact hterm) with ⟨cluster', hreaches, htouches, hnode, hnew⟩
  rw [hperform] at hnode hnew
  exact ⟨cluster', hreaches, htouches, hnode, hnew reply (List.mem_singleton_self _)⟩

theorem Grounded.runs (h : Grounded membership cluster)
    (htakes : TakesSaves storage) {id : NodeId} (hid : id ∈ team.members)
    (op : Operation) {result : Type} {x : NodeM storage random result}
    (hperform : op.perform = x >>= fun _ => pure {})
    (hdelivers : cluster.delivers op)
    (hterm : (outcome x (cluster.nodes id)).2.currentTerm ≠ 18446744073709551615) :
    exists cluster', Reaches team cluster cluster' ∧
      Touches [id] cluster cluster' ∧
      cluster'.nodes id = (outcome x (cluster.nodes id)).2 := by
  have hnode : (outcome op.perform (cluster.nodes id)).2 =
      (outcome x (cluster.nodes id)).2 := by
    rw [hperform, outcome_bind_pure]
  rw [← hnode] at hterm ⊢
  rcases h.operates htakes hid op hdelivers hterm with
    ⟨cluster', hreaches, htouches, hsame, -⟩
  exact ⟨cluster', hreaches, htouches, hsame⟩

theorem Grounded.commitIndex_le (h : Grounded membership cluster)
    (htakes : TakesSaves storage) (hreaches : Reaches team cluster cluster')
    {id : NodeId} (hid : id ∈ membership.members) :
    (cluster.nodes id).commitIndex <= (cluster'.nodes id).commitIndex := by
  induction hreaches with
  | refl => exact Nat.le_refl _
  | @tail middle last hbefore hgoes ih =>
      apply Nat.le_trans ih
      have hmiddle := h.reaches hbefore
      rcases hgoes with ⟨⟨actor, op, -, hnext⟩, -⟩
      rcases Cluster.next_operation hnext with
        ⟨hactor, -, r, node, houtcome, ⟨⟨cause, hfault⟩, -⟩ | ⟨-, hlast⟩⟩
      · have hsaves := savesSucceed_of_save_ok htakes (hmiddle.well hactor) op cause
        rw [houtcome] at hsaves
        exact absurd hfault hsaves
      · rw [hlast]
        by_cases hself : id = actor
        · have hgrows := (perform_spec (hmiddle.well hid) op).right.left
          rw [hself] at hgrows ⊢
          rw [houtcome] at hgrows
          rw [Cluster.install_nodes_self]
          exact hgrows
        · rw [Cluster.install_nodes_of_ne _ _ _ hself]

end Lawful

end Continuations

end Raft
end FTKV
