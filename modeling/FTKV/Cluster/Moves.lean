import FTKV.Cluster.Runs
import FTKV.Raft.Emissions

/-!
# What one event does

An event moves one member and leaves the others alone: the member performs an
operation, or it is built anew from what its storage holds.  The messages that
are in play afterwards were in play before, or the operation has sent them.
-/

namespace FTKV
namespace Raft

open Foundation
open Foundation.Effect

section Events

variable {storage random : Type} [RaftStorage storage] [RandomEngine random]
  {membership : Membership} {cluster cluster' : Cluster storage random}
  {id : NodeId} {message : Message}

/-- What the storage of a member may hold when the member goes down. -/
inductive CrashStore (cluster : Cluster storage random) (event : Option Event)
    (id : NodeId) : storage -> Prop where
  | idle : CrashStore cluster event id (cluster.nodes id).storage
  /-- A save of the operation did not return. -/
  | operating {op : Operation} {cause : StorageFault}
      (hevent : event = some (.operation id op)) (hdelivers : cluster.delivers op)
      (hfault : (outcome op.perform (cluster.nodes id)).1 = .error (.storage cause)) :
      CrashStore cluster event id (outcome op.perform (cluster.nodes id)).2.storage

inductive Moved (membership : Membership) (cluster : Cluster storage random)
    (event : Option Event) (id : NodeId) : RaftNode storage random -> Prop where
  | idle : Moved membership cluster event id (cluster.nodes id)
  | operated {op : Operation} (hevent : event = some (.operation id op))
      (hdelivers : cluster.delivers op)
      (hreturns : forall cause,
        (outcome op.perform (cluster.nodes id)).1 ≠ .error (.storage cause)) :
      Moved membership cluster event id (outcome op.perform (cluster.nodes id)).2
  | rebuilt {store : storage} {node : RaftNode storage random}
      (hstore : CrashStore cluster event id store)
      (hcreate : RaftNode.create (membership.config id) store = .ok node) :
      Moved membership cluster event id node

def Cluster.InPlay (membership : Membership) (cluster : Cluster storage random)
    (message : Message) : Prop :=
  message ∈ cluster.network ∨
    exists id, id ∈ membership.members ∧ message ∈ (cluster.nodes id).outbox

def SentNow (membership : Membership) (cluster : Cluster storage random)
    (event : Option Event) (cluster' : Cluster storage random)
    (message : Message) : Prop :=
  exists id op, id ∈ membership.members ∧ event = some (.operation id op) ∧
    cluster.delivers op ∧
    message ∈ op.enqueues (cluster.nodes id) ∧
    cluster'.nodes id = (outcome op.perform (cluster.nodes id)).2

structure Advances (membership : Membership) (cluster : Cluster storage random)
    (event : Option Event) (cluster' : Cluster storage random) : Prop where
  members : forall id, id ∈ membership.members ->
    Moved membership cluster event id (cluster'.nodes id)
  messages : forall message, cluster'.InPlay membership message ->
    cluster.InPlay membership message ∨
      SentNow membership cluster event cluster' message

variable {event : Option Event}

theorem advances_refl (cluster : Cluster storage random) :
    Advances membership cluster event cluster :=
  ⟨fun _ _ => .idle, fun _ hmessage => Or.inl hmessage⟩

theorem advances_of_install {node : RaftNode storage random} {sent : List Message}
    (hid : id ∈ membership.members) (hmoved : Moved membership cluster event id node)
    (hsent : forall message, message ∈ sent ∨ message ∈ node.outbox ->
      message ∈ (cluster.nodes id).outbox ∨
        SentNow membership cluster event (cluster.install id node sent) message) :
    Advances membership cluster event (cluster.install id node sent) := by
  have hnew : forall message, message ∈ sent ∨ message ∈ node.outbox ->
      cluster.InPlay membership message ∨
        SentNow membership cluster event (cluster.install id node sent) message :=
    fun message hmessage =>
      (hsent message hmessage).imp_left fun hqueued => Or.inr ⟨id, hid, hqueued⟩
  constructor
  · intro other _
    by_cases hother : other = id
    · rw [hother, Cluster.install_nodes_self]
      exact hmoved
    · rw [Cluster.install_nodes_of_ne _ _ _ hother]
      exact .idle
  · rintro message (hnetwork | ⟨other, hmember, hmessage⟩)
    · rcases List.mem_append.mp hnetwork with hold | hlast
      · exact Or.inl (Or.inl hold)
      · exact hnew message (Or.inl hlast)
    · by_cases hother : other = id
      · rw [hother, Cluster.install_nodes_self] at hmessage
        exact hnew message (Or.inr hmessage)
      · rw [Cluster.install_nodes_of_ne _ _ _ hother] at hmessage
        exact Or.inl (Or.inr ⟨other, hmember, hmessage⟩)

theorem advances_rebuild {store : storage} (hid : id ∈ membership.members)
    (hstore : CrashStore cluster event id store)
    (hrebuild : cluster.rebuild membership id store = some cluster') :
    Advances membership cluster event cluster' := by
  unfold Cluster.rebuild at hrebuild
  split at hrebuild
  · rename_i node hcreate
    cases hrebuild
    apply advances_of_install hid (.rebuilt hstore hcreate)
    rintro message (hnone | hmessage)
    · cases hnone
    · rw [(fresh_of_create hcreate).outbox] at hmessage
      cases hmessage
  · cases hrebuild

theorem advances_operate {op : Operation} (hid : id ∈ membership.members)
    (hevent : event = some (.operation id op))
    (hwell : WellFormed (cluster.nodes id)) (hdelivers : cluster.delivers op)
    (hreturns : forall cause,
      (outcome op.perform (cluster.nodes id)).1 ≠ .error (.storage cause)) :
    Advances membership cluster event (cluster.install id
      (outcome op.perform (cluster.nodes id)).2
      (outputOf (outcome op.perform (cluster.nodes id)).1).messages) := by
  apply advances_of_install hid (.operated hevent hdelivers hreturns)
  intro message hmessage
  have hhandled := (ensures_perform hwell op).drained.messages message hmessage
  rw [outbox_handled hwell op] at hhandled
  apply (List.mem_append.mp hhandled).imp_right
  intro henqueued
  exact ⟨id, op, hid, hevent, hdelivers, henqueued, Cluster.install_nodes_self ..⟩

theorem advances_next {event : Event}
    (hwell : forall id, id ∈ membership.members -> WellFormed (cluster.nodes id))
    (hnext : cluster.next membership event = some cluster') :
    Advances membership cluster (some event) cluster' := by
  cases event with
  | restart id =>
      rcases Cluster.next_restart hnext with ⟨hid, hrebuild⟩
      exact advances_rebuild hid .idle hrebuild
  | operation id op =>
      rcases Cluster.next_operation hnext with
        ⟨hid, hdelivers, r, node, houtcome, hcases⟩
      have hr : (outcome op.perform (cluster.nodes id)).1 = r := by
        rw [houtcome]
      have hnode : (outcome op.perform (cluster.nodes id)).2 = node := by
        rw [houtcome]
      subst hr hnode
      rcases hcases with ⟨⟨cause, hcause⟩, hrebuild⟩ | ⟨hreturns, rfl⟩
      · exact advances_rebuild hid (.operating rfl hdelivers hcause) hrebuild
      · exact advances_operate hid rfl (hwell id hid) hdelivers hreturns

end Events

/-!
# Runs
-/

variable {storage random : Type} [RaftStorage storage] [RandomEngine random]
  {membership : Membership} {run : Execution storage random membership}

structure Schedule (run : Execution storage random membership) where
  event : Nat -> Option Event
  performs : forall k,
    match event k with
    | none => run.states (k + 1) = run.states k
    | some event =>
        (run.states k).next membership event = some (run.states (k + 1))

theorem exists_schedule (run : Execution storage random membership) :
    Nonempty (Schedule run) := by
  have hevent : forall k, exists event : Option Event,
      match event with
      | none => run.states (k + 1) = run.states k
      | some event =>
          (run.states k).next membership event = some (run.states (k + 1)) := by
    intro k
    rcases run.next k with hsame | ⟨event, hnext⟩
    · exact ⟨none, hsame⟩
    · exact ⟨some event, hnext⟩
  choose event hperforms using hevent
  exact ⟨⟨event, hperforms⟩⟩

def Schedule.ofEvents {cluster : Cluster storage random} {events : List Event}
    {hstarts : cluster.Starts membership}
    {hterms : forall k, k <= events.length -> forall id, id ∈ membership.members ->
      ((cluster.trace membership events k).nodes id).currentTerm ≠
        18446744073709551615} :
    Schedule (Execution.ofEvents membership cluster events hstarts hterms) where
  event := fun k => events[k]?.filter fun event =>
    ((cluster.trace membership events k).next membership event).isSome
  performs := by
    intro k
    change match events[k]?.filter _ with
      | none => cluster.trace membership events (k + 1) =
          cluster.trace membership events k
      | some event => (cluster.trace membership events k).next membership event =
          some (cluster.trace membership events (k + 1))
    cases hevent : events[k]? with
    | none => simp [Cluster.trace, hevent]
    | some event =>
        cases hnext : (cluster.trace membership events k).next membership event with
        | none =>
            rw [Option.filter_some, hnext]
            simp [Cluster.trace, hevent, hnext]
        | some cluster' =>
            rw [Option.filter_some, hnext]
            simp [Cluster.trace, hevent, hnext]

theorem Schedule.advances (schedule : Schedule run) (shadow : Shadow run)
    (k : Nat) :
    Advances membership (run.states k) (schedule.event k) (run.states (k + 1)) := by
  have hperforms := schedule.performs k
  cases hevent : schedule.event k with
  | none =>
      rw [hevent] at hperforms
      rw [hperforms]
      exact advances_refl _
  | some event =>
      rw [hevent] at hperforms
      exact advances_next (fun id hid => (shadow.represents k hid).well) hperforms

theorem Schedule.operated (schedule : Schedule run) {k : Nat} {id : NodeId}
    {op : Operation} (hevent : schedule.event k = some (.operation id op))
    (hreturns : forall cause,
      (outcome op.perform ((run.states k).nodes id)).1 ≠ .error (.storage cause)) :
    (run.states (k + 1)).nodes id =
      (outcome op.perform ((run.states k).nodes id)).2 := by
  have hperforms := schedule.performs k
  rw [hevent] at hperforms
  rcases Cluster.next_operation hperforms with ⟨-, -, r, node, houtcome, hcases⟩
  rw [houtcome] at hreturns ⊢
  rcases hcases with ⟨⟨cause, hcause⟩, -⟩ | ⟨-, hnext⟩
  · exact absurd hcause (hreturns cause)
  · rw [hnext, Cluster.install_nodes_self]

theorem exists_origin (shadow : Shadow run) {k : Nat} {message : Message}
    (hmessage : (run.states k).InPlay membership message) :
    exists (j : Nat) (id : NodeId) (op : Operation), j < k ∧ id ∈ membership.members ∧
      message ∈ op.enqueues ((run.states j).nodes id) ∧
      (run.states (j + 1)).nodes id =
        (outcome op.perform ((run.states j).nodes id)).2 := by
  rcases exists_schedule run with ⟨schedule⟩
  induction k with
  | zero =>
      rcases hmessage with hnetwork | ⟨id, hid, hqueued⟩
      · rw [run.starts.network] at hnetwork
        cases hnetwork
      · rcases run.starts.nodes id hid with ⟨store, -, hcreate⟩
        rw [(fresh_of_create hcreate).outbox] at hqueued
        cases hqueued
  | succ k ih =>
      rcases (schedule.advances shadow k).messages message hmessage with
        hbefore | ⟨id, op, hid, -, -, henqueued, hnext⟩
      · rcases ih hbefore with ⟨j, id, op, hjk, horigin⟩
        exact ⟨j, id, op, Nat.lt_succ_of_lt hjk, horigin⟩
      · exact ⟨k, id, op, Nat.lt_succ_self k, hid, henqueued, hnext⟩

theorem exists_announces (shadow : Shadow run) {k : Nat} {message : Message}
    {request : AppendEntriesRequest}
    (hmessage : (run.states k).InPlay membership message)
    (hrpc : message.rpc = .appendEntriesRequest request) :
    exists j leader, j <= k ∧ leader ∈ membership.members ∧
      request.leaderId = leader ∧ Announces ((run.states j).nodes leader) request := by
  rcases exists_origin shadow hmessage with ⟨j, id, op, hjk, hid, henqueued, hnext⟩
  have hannounces := announces_of_enqueues (shadow.represents j hid).well henqueued hrpc
  rw [← hnext] at hannounces
  refine ⟨j + 1, id, hjk, hid, ?_, hannounces⟩
  rw [hannounces.sender]
  exact (shadow.represents (j + 1) hid).nodeId_eq hid

theorem exists_term (shadow : Shadow run) {k : Nat} {message : Message}
    (hmessage : (run.states k).InPlay membership message) :
    exists j id, id ∈ membership.members ∧
      ((run.states j).nodes id).currentTerm = messageTerm message := by
  rcases exists_origin shadow hmessage with ⟨j, id, op, -, hid, henqueued, hnext⟩
  refine ⟨j + 1, id, hid, ?_⟩
  rw [hnext]
  exact (messageTerm_of_enqueues (shadow.represents j hid).well henqueued).symm

end Raft
end FTKV
