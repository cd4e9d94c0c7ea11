import FTKV.Raft.Repetition
import FTKV.Raft.Reactions
import FTKV.Raft.Saving

/-!
# Leaders commit what they can

Whenever the match indexes, the log or the role change, the leader counts again.
Between two operations it therefore has no entry of its term left that a majority
is known to hold and that is not committed.
-/

namespace FTKV
namespace Raft

open Foundation
open Foundation.Effect

variable {storage random result : Type} {n n' : RaftNode storage random}

/-!
# The count
-/

/-- A leader has committed all that its count allows. -/
def Thorough (n : RaftNode storage random) : Prop :=
  n.state = .leader -> forall index, ¬ Committable n index

def countOf (n : RaftNode storage random) :
    NodeState × Term × Log × LogIndex × NodeMap LogIndex × RaftConfig ×
      Finset NodeId :=
  (n.state, n.currentTerm, n.log, n.commitIndex, n.matchIndex, n.config, n.members)

theorem thorough_of_count (h : Thorough n) (hcount : countOf n' = countOf n) :
    Thorough n' := by
  simp only [countOf, Prod.mk.injEq] at hcount
  rcases hcount with ⟨hstate, hterm, hlog, hcommit, hmatch, hconfig, hmembers⟩
  intro hleads index hcommittable
  apply h (hstate.symm.trans hleads) index
  rcases hcommittable with ⟨habove, hwithin, hsame, hquorum⟩
  unfold RaftNode.quorumSizeLocked replicatedOn at hquorum
  rw [hcommit] at habove
  rw [hlog] at hwithin hsame
  rw [hterm] at hsame
  rw [hconfig, hmatch, hmembers] at hquorum
  exact ⟨habove, hwithin, hsame, hquorum⟩

theorem thorough_of_not_leads (hstate : n.state ≠ .leader) : Thorough n :=
  fun hleads => absurd hleads hstate

theorem ensures_thorough_of_preserves {x : NodeM storage random result}
    (hkeeps : Preserves countOf x) (h : Thorough n) :
    Ensures x n (IfSaved Thorough) :=
  ensures_ifSaved_of_preserves hkeeps fun _ => thorough_of_count h

theorem ensures_thorough_bind {result' : Type} {x : NodeM storage random result}
    {f : result -> NodeM storage random result'}
    (hx : Ensures x n (IfSaved Thorough))
    (hf : forall value, Preserves countOf (f value)) :
    Ensures (x >>= f) n (IfSaved Thorough) :=
  ensures_ifSaved_bind (fun _ _ => thorough_of_count) hx hf

theorem ensures_advanceCommitIndexLocked_thorough (h : WellFormed n)
    (hstate : n.state = .leader) :
    Ensures advanceCommitIndexLocked n (IfSaved Thorough) := by
  unfold advanceCommitIndexLocked
  rw [ensures_bind, ensures_get, continues_ok]
  apply ensures_advanceFrom_highest h hstate (Nat.le_refl _)
  · intro hnone
    right
    intro _ index hcommittable
    exact hnone index hcommittable.within hcommittable
  · intro k hk hnone
    right
    intro _ index hcommittable
    have habove : k < index := hcommittable.above
    exact hnone index habove hcommittable.within
      ⟨Nat.lt_trans hk.above habove, hcommittable.within, hcommittable.term,
        hcommittable.quorum⟩

theorem preserves_count_broadcast :
    Preserves countOf (broadcastAppendEntriesLocked : NodeM storage random Unit) :=
  preserves_broadcastAppendEntriesLocked fun _ _ _ => rfl

theorem preserves_count_send (peer : NodeId) :
    Preserves countOf (sendAppendEntriesLocked peer : NodeM storage random Unit) :=
  preserves_sendAppendEntriesLocked (fun _ _ _ => rfl) peer

section Storage

variable [RaftStorage storage]

/-!
# Elections
-/

theorem ensures_becomeLeaderLocked_thorough (h : WellFormed n)
    (hstate : n.state = .candidate)
    (hquorum : n.quorumSizeLocked <= n.votesReceived.card) :
    Ensures becomeLeaderLocked n (IfSaved Thorough) := by
  have htimer : Volatile (Operation.takeMessages.call n) n
      { n with heartbeatElapsed := 0 } :=
    .timer n.random n.electionTimeout n.electionElapsed 0
  have helect : Durable (Operation.takeMessages.call n)
      { n with heartbeatElapsed := 0 }
      (RaftNode.asLeader { n with heartbeatElapsed := 0 }) :=
    .elect hstate hquorum (not_appends_of_none rfl) rfl nofun
  unfold becomeLeaderLocked
  simp only [ensures_bind, ensures_modify, continues_ok]
  apply ensures_persistLocked
  · intro n1 hsaved
    have hwell := wellFormed_saved
      (wellFormed_durable (wellFormed_volatile h htimer) helect) hsaved
    have hleads : n1.state = .leader := by
      rcases hsaved with ⟨store, -, rfl⟩
      rfl
    rw [continues_ok]
    exact ensures_thorough_bind
      (ensures_advanceCommitIndexLocked_thorough hwell hleads)
      fun _ => preserves_count_broadcast
  · intro cause n1 _
    exact Or.inl ⟨cause, rfl⟩

theorem ensures_handleRequestVoteResponseLocked_thorough {sender : NodeId}
    {response : RequestVoteResponse} (h : WellFormed n) (hthorough : Thorough n)
    (hsender : sender ∈ n.config.peers) :
    Ensures (handleRequestVoteResponseLocked sender response) n (IfSaved Thorough) := by
  unfold handleRequestVoteResponseLocked
  rw [ensures_bind, ensures_get, continues_ok]
  split
  · exact Or.inr hthorough
  · rename_i hvalid
    rw [not_or, not_or, not_not, not_not, Bool.not_eq_false] at hvalid
    have htally : Volatile
        ((Operation.step ⟨sender, n.config.nodeId, .requestVoteResponse response⟩).call n)
        n { n with votesReceived := insert sender n.votesReceived } :=
      .tally ⟨rfl, hsender⟩ hvalid.left hvalid.right.left hvalid.right.right
    simp only [ensures_bind, ensures_modify, ensures_get, continues_ok]
    split
    · rename_i hquorum
      exact ensures_becomeLeaderLocked_thorough (wellFormed_volatile h htally)
        hvalid.left hquorum
    · right
      apply thorough_of_not_leads
      intro hleads
      cases hvalid.left.symm.trans hleads

section Random

variable [RandomEngine random]

theorem ensures_startElectionLocked_thorough (h : WellFormed n)
    (hstate : n.state ≠ .leader) :
    Ensures startElectionLocked n (IfSaved Thorough) := by
  apply ensures_startElectionLocked_campaigns
  · intro n1 hsaved hquorum
    have hwell := wellFormed_saved (wellFormed_campaign h hstate) hsaved
    rcases hsaved with ⟨store, -, rfl⟩
    exact ensures_becomeLeaderLocked_thorough hwell rfl hquorum
  · intro n1 outbox hsaved _
    rcases hsaved with ⟨store, -, rfl⟩
    exact Or.inr (thorough_of_not_leads nofun)
  · intro cause n1 _
    exact Or.inl ⟨cause, rfl⟩

theorem ensures_tick_thorough {elapsed : Int} (h : WellFormed n)
    (hthorough : Thorough n) : Ensures (RaftNode.tick elapsed) n (IfSaved Thorough) := by
  unfold RaftNode.tick
  split
  · exact Or.inr hthorough
  · rw [ensures_bind, ensures_get, continues_ok]
    split
    · split
      · rw [ensures_bind, ensures_modify, continues_ok]
        exact ensures_thorough_of_preserves preserves_count_broadcast
          (thorough_of_count hthorough rfl)
      · exact Or.inr (thorough_of_count hthorough rfl)
    · rename_i hstate
      split
      · exact ensures_startElectionLocked_thorough h hstate
      · exact Or.inr (thorough_of_count hthorough rfl)

/-!
# Deliveries
-/

theorem thorough_enters {message : Message} (h : Thorough n)
    (henters : Enters message n n') : Thorough n' := by
  cases henters with
  | current => exact h
  | adopted _ hsaved =>
      rcases hsaved with ⟨store, -, rfl⟩
      exact thorough_of_not_leads nofun

theorem thorough_requestEnds {sender : NodeId} {rpc : Rpc} {r : Except Fault Rpc}
    (h : Thorough n) (hends : RequestEnds sender n rpc r n') : Thorough n' := by
  rcases requestEnds_cases countOf (fun _ _ _ _ _ _ => rfl) hends with
    hfollows | hcount
  · apply thorough_of_not_leads
    rw [hfollows]
    nofun
  · exact thorough_of_count h hcount

omit [RandomEngine random] in
theorem ensures_handleAppendEntriesResponseLocked_thorough {sender : NodeId}
    {response : AppendEntriesResponse} (h : WellFormed n) (hthorough : Thorough n)
    (hsender : sender ∈ n.config.peers) :
    Ensures (handleAppendEntriesResponseLocked sender response) n
      (IfSaved Thorough) := by
  unfold handleAppendEntriesResponseLocked
  rw [ensures_bind, ensures_get, continues_ok]
  split
  · exact Or.inr hthorough
  · rename_i hvalid
    rw [not_or, not_not, not_not] at hvalid
    split
    · rename_i hsuccess
      unfold handleAppendSuccess
      rw [ensures_bind, ensures_get, continues_ok]
      split
      · exact Or.inr hthorough
      · rename_i hmatch
        rw [RaftNode.lastLogIndexLocked_eq, not_lt] at hmatch
        have hrecord : Volatile
            ((Operation.step ⟨sender, n.config.nodeId,
              .appendEntriesResponse response⟩).call n) n _ :=
          .record ⟨⟨rfl, hsender⟩, hvalid.left, hvalid.right, hsuccess, hmatch⟩
        rw [ensures_bind, ensures_modify, continues_ok]
        refine ensures_thorough_bind (ensures_advanceCommitIndexLocked_thorough
          (wellFormed_volatile h hrecord) hvalid.left) ?_
        intro advanced
        refine preserves_ite preserves_count_broadcast
          (preserves_bind preserves_get ?_)
        intro n1
        exact preserves_ite (preserves_count_send sender) (preserves_pure _)
    · rcases h.tracked hvalid.left sender hsender with
        ⟨next, reached, requestId, -, hreached, hrequest, -, -⟩
      unfold handleAppendRejection
      simp only [ensures_bind, ensures_get, continues_ok, ensures_modify,
        NodeMap.touch_of_some hrequest]
      split
      · exact Or.inr hthorough
      · simp only [ensures_bind]
        refine ensures_retryIndex ?_
        simp only [continues_ok, ensures_bind, ensures_modify,
          NodeMap.touch_of_some hreached]
        exact ensures_thorough_of_preserves (preserves_count_send sender)
          (thorough_of_count hthorough rfl)

theorem ensures_stepLocked_thorough {message : Message} (h : WellFormed n)
    (hthorough : Thorough n) : Ensures (stepLocked message) n (IfSaved Thorough) := by
  apply ensures_stepLocked_enters
  · intro _
    exact Or.inr hthorough
  · intro cause n1 _ _ _
    exact Or.inl ⟨cause, rfl⟩
  · intro entered haddressed henters
    have hentered := thorough_enters hthorough henters
    have hwell := henters.wellFormed h
    have hsender : message.fromNode ∈ entered.config.peers := by
      rw [← hwell.isPeerLocked_iff]
      exact (henters.addressed haddressed).left.right
    refine ensures_thorough_bind ?_ fun _ => preserves_pure true
    cases hrpc : message.rpc with
    | requestVoteResponse response =>
        exact ensures_handleRequestVoteResponseLocked_thorough hwell hentered hsender
    | appendEntriesResponse response =>
        exact ensures_handleAppendEntriesResponseLocked_thorough hwell hentered
          hsender
    | requestVoteRequest request | appendEntriesRequest request =>
        have hrequest : RaftNode.isRequest message = true := by
          unfold RaftNode.isRequest
          rw [hrpc]
        rw [← hrpc]
        refine ensures_mono
          (ensures_dispatch_ends hrequest hwell.applied hwell.committed) ?_
        intro r n1 hqueues
        refine ifSaved_of_queues (fun _ _ h1 => thorough_of_count h1 rfl) ?_ hqueues
        intro r n2 hends
        exact Or.inr (thorough_requestEnds hentered hends)

/-!
# Proposals and whole runs
-/

omit [RandomEngine random] in
theorem ensures_propose_thorough {command : Command} (h : WellFormed n)
    (hthorough : Thorough n) :
    Ensures (RaftNode.propose command) n (IfSaved Thorough) := by
  unfold RaftNode.propose
  rw [ensures_bind, ensures_get, continues_ok]
  split
  · exact Or.inr hthorough
  · rename_i hleads
    have hleader : n.state = .leader := not_not.mp hleads
    split
    · exact Or.inr hthorough
    · simp only [ensures_bind, ensures_modify, continues_ok]
      apply ensures_persistLocked
      · intro n1 hsaved
        have hdurable : Durable ((Operation.propose command).call n) n
            (n.withProposal command) := .propose rfl rfl hleader
        have hwell := wellFormed_saved (wellFormed_durable h hdurable) hsaved
        have hstate : n1.state = .leader := by
          rcases hsaved with ⟨store, -, rfl⟩
          exact hleader
        rw [continues_ok, ensures_bind, ensures_get, continues_ok]
        exact ensures_thorough_bind
          (ensures_advanceCommitIndexLocked_thorough hwell hstate)
          fun _ => preserves_bind preserves_count_broadcast fun _ => preserves_pure _
      · intro cause n1 _
        exact Or.inl ⟨cause, rfl⟩

theorem thorough_perform {op : Operation} (h : WellFormed n) (hthorough : Thorough n)
    (hsaves : SavesSucceed n op) : Thorough (outcome op.perform n).2 := by
  refine perform_ifSaved Thorough (fun _ _ => thorough_of_count) (fun _ _ _ => rfl)
    ?_ ?_ ?_ (fun _ => hthorough) hsaves
  · intro elapsed _
    exact ensures_tick_thorough h hthorough
  · intro message _
    exact ensures_stepLocked_thorough h hthorough
  · intro command _
    exact ensures_propose_thorough h hthorough

theorem thorough_after (h : WellFormed n) (hthorough : Thorough n)
    (ops : List Operation) (hsaves : RaftNode.Throughout SavesSucceed n ops) :
    Thorough (n.after ops) := by
  induction ops generalizing n with
  | nil => exact hthorough
  | cons op rest ih =>
      exact ih (perform_spec h op).left (thorough_perform h hthorough hsaves.left)
        hsaves.right

/--
While saves succeed, a leader has no index left above its commit index that holds
an entry of its term and that, by its match indexes, a majority holds.
-/
theorem nothing_committable_left {config : RaftConfig} {store : storage}
    {node : RaftNode storage random}
    (hcreate : RaftNode.create config store = .ok node) (ops : List Operation)
    (hsaves : RaftNode.Throughout SavesSucceed node ops)
    (hleads : (node.after ops).state = .leader) :
    ¬ exists index, (node.after ops).commitIndex < index ∧
      index <= (node.after ops).lastLogIndexLocked ∧
      ((node.after ops).log.at? index).map LogEntry.term =
        some (node.after ops).currentTerm ∧
      (node.after ops).quorumSizeLocked - 1 <=
        ((node.after ops).config.peers.filter fun peer =>
          index <= (node.after ops).matchIndex.valueAt peer).length := by
  have hfresh := fresh_of_create hcreate
  have hstart : Thorough node := by
    apply thorough_of_not_leads
    rw [hfresh.follows]
    nofun
  rintro ⟨index, habove, hwithin, hterm, hquorum⟩
  refine thorough_after hfresh.well hstart ops hsaves hleads index
    ⟨habove, hwithin, hterm, ?_⟩
  exact Nat.le_add_of_sub_le hquorum

def replicatedOps : List Operation :=
  [.tick 300, .step firstVote, .propose [7], .step ⟨2, 1, .appendEntriesResponse {
    term := 1, success := true, matchIndex := 2, conflictIndex := 3, requestId := 2 }⟩,
    .propose [8]]

/-- The second command is in the log and lacks a majority. -/
theorem nothing_committable_left_firstVote :
    exists node : RaftNode InMemoryRaftStorage LeastEngine,
      RaftNode.create { nodeId := 1, peers := [2, 3] } {} = .ok node ∧
      (node.after replicatedOps).commitIndex = 2 ∧
      ((node.after replicatedOps).log.at? 3).map LogEntry.term =
        some (node.after replicatedOps).currentTerm ∧
      ((node.after replicatedOps).config.peers.filter fun peer =>
          3 <= (node.after replicatedOps).matchIndex.valueAt peer).length <
        (node.after replicatedOps).quorumSizeLocked - 1 := by
  have hcreate : RaftNode.create { nodeId := 1, peers := [2, 3] }
      ({} : InMemoryRaftStorage) =
        .ok (_ : RaftNode InMemoryRaftStorage LeastEngine) := rfl
  have hsaves := throughout_savesSucceed (fun state _ => ⟨{ state := state }, rfl⟩)
    (fresh_of_create hcreate).well replicatedOps
  refine ⟨_, hcreate, by decide +kernel, by decide +kernel, ?_⟩
  by_contra hquorum
  exact nothing_committable_left hcreate replicatedOps hsaves (by decide +kernel)
    ⟨3, by decide +kernel, by decide +kernel, by decide +kernel, not_lt.mp hquorum⟩

end Random

end Storage

end Raft
end FTKV
