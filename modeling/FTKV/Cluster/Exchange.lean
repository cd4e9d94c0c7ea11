import FTKV.Cluster.Weights
import FTKV.Foundation.Traffic

/-!
# Exchanges of messages

Without ticks, proposals and restarts, a cluster delivers the messages that are
in flight and comes to rest.  Candidates become leaders or followers, and leaders
followers, but not the other way round.  While the roles stay, a leader can only
go forward.  While no leader goes forward, messages are replaced by lighter ones.
-/

namespace FTKV
namespace Raft

open Foundation
open Foundation.Effect

/-!
# Exchanges
-/

section Exchanges

variable {storage random : Type} [RaftStorage storage] [RandomEngine random]
  {membership : Membership} {run : Execution storage random membership} {k : Nat}

abbrev Exchange (storage random : Type) :=
  Traffic NodeId (RaftNode storage random) Message

def Exchange.deliver (s : Exchange storage random) (op : Operation)
    (message : Message) : Exchange storage random :=
  let handled := outcome op.perform (s.states message.toNode)
  let taken := outcome Operation.takeMessages.perform handled.2
  { states := Function.update s.states message.toNode taken.2
    inFlight := s.inFlight.erase message ++
      ((outputOf handled.1).messages ++ (outputOf taken.1).messages) }

/-- One message in flight is delivered once, by `step` or `handle_request`. -/
def Delivers (membership : Membership) (s s' : Exchange storage random) : Prop :=
  exists op message, op.inbox = some message ∧ message ∈ s.inFlight ∧
    message.toNode ∈ membership.members ∧
    SavesSucceed (s.states message.toNode) op ∧ s' = s.deliver op message

/-- A run leads to the nodes, and the messages in flight were sent in it. -/
def Reachable (membership : Membership) (s : Exchange storage random) : Prop :=
  exists (run : Execution storage random membership) (k : Nat),
    s.states = (run.states k).nodes ∧
    forall message, message ∈ s.inFlight -> message ∈ (run.states k).network

theorem deliver_states_self {s : Exchange storage random} {message : Message}
    (h : WellFormed (s.states message.toNode)) (op : Operation) :
    exists entries, (s.deliver op message).states message.toNode =
      { op.handled (s.states message.toNode) with
        outbox := [], committedEntries := entries } := by
  refine ⟨(outcome op.perform (s.states message.toNode)).2.committedEntries, ?_⟩
  show Function.update _ _ _ _ = _
  rw [Function.update_self]
  show { (outcome op.perform (s.states message.toNode)).2 with outbox := [] } = _
  rw [(ensures_perform h op).drained.same]

theorem handover_deliver {s : Exchange storage random} {op : Operation}
    {message : Message} (h : WellFormed (s.states message.toNode))
    (hinbox : op.inbox = some message) (hmessage : message ∈ s.inFlight) :
    Handover RaftNode.outbox s (s.deliver op message) message.toNode message
      (op.enqueues (s.states message.toNode)) := by
  constructor
  case delivered => exact hmessage
  case others =>
    intro other hother
    exact Function.update_of_ne hother ..
  case emptied =>
    rcases deliver_states_self h op with ⟨entries, hstates⟩
    rw [hstates]
  case sent =>
    have hperm := perm_outbox hinbox (n := s.states message.toNode)
    rw [← outbox_handled h op]
    exact List.Perm.append_left _ hperm

/-!
# Reachable exchanges
-/

theorem Cluster.next_of_saves {cluster : Cluster storage random} {id : NodeId}
    {op : Operation} (hid : id ∈ membership.members) (hdelivers : cluster.delivers op)
    (hsaves : SavesSucceed (cluster.nodes id) op) :
    cluster.next membership (.operation id op) = some (cluster.install id
      (outcome op.perform (cluster.nodes id)).2
      (outputOf (outcome op.perform (cluster.nodes id)).1).messages) := by
  unfold SavesSucceed at hsaves
  -- No save throws, so that the first branch is out of question.
  simp only [Cluster.next]
  exact if_pos ⟨hid, hdelivers⟩

theorem exists_extension (run : Execution storage random membership) {k : Nat}
    {event : Event} {cluster' : Cluster storage random}
    (hnext : (run.states k).next membership event = some cluster')
    (hterms : forall id, id ∈ membership.members ->
      (cluster'.nodes id).currentTerm ≠ 18446744073709551615) :
    exists run' : Execution storage random membership,
      (forall j, j <= k -> run'.states j = run.states j) ∧
        run'.states (k + 1) = cluster' := by
  refine ⟨⟨fun j => if j <= k then run.states j else cluster', ?_, ?_, ?_⟩, ?_, ?_⟩
  · rw [if_pos (Nat.zero_le k)]
    exact run.starts
  · intro j
    rcases Nat.lt_trichotomy j k with hlt | heq | hgt
    · rw [if_pos (Nat.succ_le_of_lt hlt), if_pos hlt.le]
      exact run.next j
    · rw [heq, if_neg (Nat.not_succ_le_self k), if_pos (Nat.le_refl k)]
      exact Or.inr ⟨_, hnext⟩
    · left
      rw [if_neg (by lia), if_neg (by lia)]
  · intro j other hother
    split
    · exact run.terms j other hother
    · exact hterms other hother
  · intro j hj
    exact if_pos hj
  · exact if_neg (Nat.not_succ_le_self k)

omit [RaftStorage storage] [RandomEngine random] in
theorem terms_install {cluster : Cluster storage random} {id : NodeId}
    {n : RaftNode storage random} (messages : List Message)
    (hterms : forall other, other ∈ membership.members ->
      (cluster.nodes other).currentTerm ≠ 18446744073709551615)
    (hterm : n.currentTerm ≠ 18446744073709551615) :
    forall other, other ∈ membership.members ->
      ((cluster.install id n messages).nodes other).currentTerm ≠
        18446744073709551615 := by
  intro other hother
  by_cases hself : other = id
  · rw [hself, Cluster.install_nodes_self]
    exact hterm
  · rw [Cluster.install_nodes_of_ne _ _ _ hself]
    exact hterms other hother

theorem currentTerm_delivery_ne (shadow : Shadow run) {op : Operation}
    {message : Message} (hmessage : message ∈ (run.states k).network)
    (hinbox : op.inbox = some message) {id : NodeId} (hid : id ∈ membership.members)
    (hsaves : SavesSucceed ((run.states k).nodes id) op) :
    (outcome op.perform ((run.states k).nodes id)).2.currentTerm ≠
      18446744073709551615 := by
  rcases ensures_perform (shadow.represents k hid).well op with ⟨hexplained, hdrained⟩
  rw [hdrained.same]
  have hpath := path_of_explained hexplained hsaves
  rcases currentTerm_path hinbox hpath with hown | htaken
  · show (op.handled _).currentTerm ≠ _
    rw [hown]
    exact run.terms k id hid
  · show (op.handled _).currentTerm ≠ _
    rcases exists_term shadow (Or.inl hmessage) with ⟨j, other, hother, hterm⟩
    rw [htaken, ← hterm]
    exact run.terms j other hother

section Lawful

variable [LawfulRaftStorage storage] {s s' : Exchange storage random}

theorem reachable_deliver {op : Operation} {message : Message}
    (hreachable : Reachable membership s) (hinbox : op.inbox = some message)
    (hmessage : message ∈ s.inFlight) (hid : message.toNode ∈ membership.members)
    (hsaves : SavesSucceed (s.states message.toNode) op) :
    Reachable membership (s.deliver op message) := by
  rcases hreachable with ⟨run, k, hstates, hnetwork⟩
  rcases exists_shadow run with ⟨shadow⟩
  have hsent := hnetwork message hmessage
  have hdelivers : (run.states k).delivers op := by
    unfold Cluster.delivers
    rw [hinbox]
    simpa using hsent
  rw [hstates] at hsaves
  have hterm := currentTerm_delivery_ne shadow hsent hinbox hid hsaves
  rcases exists_extension run (Cluster.next_of_saves hid hdelivers hsaves)
    (terms_install _ (run.terms k) hterm) with ⟨run', -, hhandled⟩
  have hnode : (run'.states (k + 1)).nodes message.toNode =
      (outcome op.perform ((run.states k).nodes message.toNode)).2 := by
    rw [hhandled, Cluster.install_nodes_self]
  -- Taking the messages is the second event.
  rw [← hnode] at hterm
  have htake : (run'.states (k + 1)).next membership
      (.operation message.toNode .takeMessages) = some _ :=
    Cluster.next_of_saves hid rfl nofun
  rcases exists_extension run' htake (terms_install _ (run'.terms (k + 1)) hterm) with
    ⟨run'', -, htaken⟩
  rw [hnode, hhandled] at htaken
  refine ⟨run'', k + 1 + 1, ?_, ?_⟩
  · rw [htaken]
    show Function.update s.states _ _ = Function.update (Function.update _ _ _) _ _
    rw [Function.update_idem, hstates]
  · intro other hother
    rw [htaken]
    show other ∈ ((run.states k).network ++ _) ++ _
    rw [List.append_assoc]
    unfold Exchange.deliver at hother
    rw [hstates] at hother
    rcases List.mem_append.mp hother with hold | hnew
    · exact List.mem_append_left _ (hnetwork other (List.mem_of_mem_erase hold))
    · exact List.mem_append_right _ hnew

theorem spends_deliver {op : Operation} {message : Message}
    (hreachable : Reachable membership s) (hinbox : op.inbox = some message)
    (hmessage : message ∈ s.inFlight) (hid : message.toNode ∈ membership.members)
    (hsaves : SavesSucceed (s.states message.toNode) op) :
    Spends (fun n => n.state.rank) RaftNode.gap weight s.states
      (s.deliver op message).states message.toNode message
      (op.enqueues (s.states message.toNode)) := by
  rcases hreachable with ⟨run, k, hstates, hnetwork⟩
  rcases exists_shadow run with ⟨shadow⟩
  have hwell := (shadow.represents k hid).well
  have hlowers := delivery_lowers shadow (hnetwork message hmessage) hinbox rfl hid
  rw [← hstates] at hwell hlowers
  have hpath := path_of_explained (ensures_perform hwell op).explained hsaves
  rcases deliver_states_self hwell op with ⟨entries, hself⟩
  rcases calms_cases (wellFormed_path hwell hpath).left (calms_path hinbox hpath) with
    hrank | ⟨hstate, hgap⟩ | hstill
  · apply Spends.rank
    rw [hself]
    exact hrank
  · apply Spends.gap
    · rw [hself]
      exact congrArg NodeState.rank hstate
    · rw [hself]
      exact hgap
  · have hstill' : Still (s.states message.toNode)
        ((s.deliver op message).states message.toNode) := by
      rw [hself]
      refine ⟨hstill.state, ?_⟩
      intro hleads
      rcases hstill.unmoved hleads with ⟨hconfig, hterm, hlog, hcommit, hmatched⟩
      exact ⟨hconfig, hterm, hlog, hcommit, hmatched⟩
    refine .weight (congrArg NodeState.rank hstill'.state) hstill'.gap_eq ?_
      (hlowers hstill)
    apply weight_eq
    intro other
    by_cases hother : other = message.toNode
    · rw [hother]
      exact hstill'
    · rw [(handover_deliver hwell hinbox hmessage).others other hother]
      exact still_refl _

/--
Message exchange quiesces: among the states that a cluster can reach, delivering
messages in flight is well-founded, so that no sequence of deliveries goes on for
ever.
-/
theorem exchange_quiesces (membership : Membership) :
    WellFounded (fun s' s : Exchange storage random =>
      Reachable membership s ∧ Delivers membership s s') ∧
    forall exchanges : Nat -> Exchange storage random,
      Reachable membership (exchanges 0) ->
        ¬ forall k, Delivers membership (exchanges k) (exchanges (k + 1)) := by
  have hwellFounded : WellFounded (fun s' s : Exchange storage random =>
      Reachable membership s ∧ Delivers membership s s') := by
    apply wellFounded_of_spends
    rintro s s' ⟨hreachable, op, message, hinbox, hmessage, hid, hsaves, rfl⟩
    have hspends := spends_deliver hreachable hinbox hmessage hid hsaves
    rcases hreachable with ⟨run, k, hstates, -⟩
    rcases exists_shadow run with ⟨shadow⟩
    have hwell := (shadow.represents k hid).well
    rw [← hstates] at hwell
    exact ⟨_, message, _, hid, handover_deliver hwell hinbox hmessage, hspends⟩
  refine ⟨hwellFounded, ?_⟩
  intro exchanges hstart hdelivers
  have hreachable : forall k, Reachable membership (exchanges k) := by
    intro k
    induction k with
    | zero => exact hstart
    | succ k ih =>
        rcases hdelivers k with ⟨op, message, hinbox, hmessage, hid, hsaves, hnext⟩
        rw [hnext]
        exact reachable_deliver ih hinbox hmessage hid hsaves
  -- A state of the sequence that none of them precedes has no successor in it.
  rcases hwellFounded.has_min (Set.range exchanges) ⟨_, 0, rfl⟩ with
    ⟨_, ⟨k, rfl⟩, hleast⟩
  exact hleast (exchanges (k + 1)) ⟨k + 1, rfl⟩ ⟨hreachable k, hdelivers k⟩

end Lawful

end Exchanges

def threeExchange : Exchange InMemoryRaftStorage LeastEngine where
  states := (threeRun.states 7).nodes
  inFlight := [firstReceipt]

theorem exchange_quiesces_threeExchange :
    Reachable threeMembers threeExchange ∧
      Delivers threeMembers threeExchange
        (threeExchange.deliver (.step firstReceipt) firstReceipt) ∧
      forall exchanges : Nat -> Exchange InMemoryRaftStorage LeastEngine,
        exchanges 0 = threeExchange ->
          ¬ forall k, Delivers threeMembers (exchanges k) (exchanges (k + 1)) := by
  have hstates : threeExchange.states = (threeRun.states 7).nodes := by
    dsimp only [threeExchange]
  have hreachable : Reachable threeMembers threeExchange :=
    ⟨threeRun, 7, hstates, by decide +kernel⟩
  rcases exists_shadow threeRun with ⟨shadow⟩
  have hid : firstReceipt.toNode ∈ threeMembers.members := by decide
  have hmem : firstReceipt ∈ threeExchange.inFlight := List.mem_singleton_self _
  refine ⟨hreachable, ⟨.step firstReceipt, firstReceipt, rfl, hmem, hid, ?_, rfl⟩, ?_⟩
  · rw [hstates]
    exact savesSucceed_of_save_ok (fun _ _ => ⟨_, rfl⟩) (shadow.represents 7 hid).well _
  · intro exchanges hstart
    exact (exchange_quiesces threeMembers).right exchanges (hstart ▸ hreachable)

end Raft
end FTKV
