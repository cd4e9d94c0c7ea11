import FTKV.Cluster.Continuations
import Mathlib.Data.Finset.Max
import Mathlib.Data.Prod.Lex

/-!
# Elections that succeed

From every state to which a run leads, any majority of the members can elect a
leader.  The member to elect is one with a most current log.  It has to reach a
term above all others first, and it may even lead in an older term, so that a
member of the highest term campaigns before it and tells it a higher one.
-/

namespace FTKV
namespace Raft

open Foundation
open Foundation.Effect
open Consensus

/-!
# Elections
-/

def Log.tip (log : Log) : Lex (Term × LogIndex) :=
  toLex (log.back.term, log.size - 1)

theorem current_iff {storage random : Type} {n candidate : RaftNode storage random} :
    n.candidateLogIsCurrentLocked candidate.canvass = true <->
      n.log.tip <= candidate.log.tip := by
  unfold RaftNode.candidateLogIsCurrentLocked RaftNode.canvass Log.tip
  rw [Prod.Lex.toLex_le_toLex, Bool.or_eq_true, Bool.and_eq_true, decide_eq_true_iff,
    decide_eq_true_iff, decide_eq_true_iff]
  constructor
  · intro h
    rcases h with hlater | ⟨hsame, hlonger⟩
    · exact Or.inl hlater
    · exact Or.inr ⟨hsame.symm, hlonger⟩
  · intro h
    rcases h with hlater | ⟨hsame, hlonger⟩
    · exact Or.inl hlater
    · exact Or.inr ⟨hsame.symm, hlonger⟩

section Elections

variable {storage random : Type} {membership : Membership}
  {team : Majority membership} {cluster cluster' : Cluster storage random}
  {id : NodeId}

def Foremost (team : Majority membership) (cluster : Cluster storage random)
    (id : NodeId) : Prop :=
  forall other, other ∈ team.members ->
    (cluster.nodes other).currentTerm <= (cluster.nodes id).currentTerm

/-- The member leads, and no member is in a higher term. -/
structure Heads (team : Majority membership) (cluster : Cluster storage random)
    (id : NodeId) : Prop where
  member : id ∈ team.members
  leads : (cluster.nodes id).state = .leader
  foremost : Foremost team cluster id

structure Canvassed (team : Majority membership) (cluster : Cluster storage random)
    (id : NodeId) : Prop where
  stands : (cluster.nodes id).state = .candidate
  votes : (cluster.nodes id).votesReceived = {id}
  lower : forall peer, peer ∈ team.members -> peer ≠ id ->
    (cluster.nodes peer).currentTerm < (cluster.nodes id).currentTerm
  asked : forall peer, peer ∈ team.members -> peer ≠ id ->
    ⟨id, peer, .requestVoteRequest (cluster.nodes id).canvass⟩ ∈ cluster.network

theorem Touches.of_ne (h : Touches [id] cluster cluster') {other : NodeId}
    (hother : other ≠ id) : cluster'.nodes other = cluster.nodes other :=
  h.others other fun hmem => hother (List.mem_singleton.mp hmem)

theorem Foremost.of_touches (h : Foremost team cluster id)
    (htouches : Touches [id] cluster cluster')
    (hterm : (cluster.nodes id).currentTerm <= (cluster'.nodes id).currentTerm) :
    Foremost team cluster' id := by
  intro other hother
  by_cases hself : other = id
  · rw [hself]
  · rw [htouches.of_ne hself]
    exact le_trans (h other hother) hterm

structure Polling (team : Majority membership) (cluster : Cluster storage random)
    (id : NodeId) (rest : List NodeId) : Prop where
  stands : (cluster.nodes id).state = .candidate
  foremost : Foremost team cluster id
  counted : forall voter, voter ∈ team.members ->
    voter ∈ rest ∨ voter ∈ (cluster.nodes id).votesReceived
  missing : forall peer, peer ∈ rest -> peer ∈ team.members ∧ peer ≠ id
  lower : forall peer, peer ∈ rest ->
    (cluster.nodes peer).currentTerm < (cluster.nodes id).currentTerm
  current : forall peer, peer ∈ rest ->
    (cluster.nodes peer).candidateLogIsCurrentLocked (cluster.nodes id).canvass = true
  asked : forall peer, peer ∈ rest ->
    ⟨id, peer, .requestVoteRequest (cluster.nodes id).canvass⟩ ∈ cluster.network

theorem Foremost.of_polled {peer : NodeId} (h : Foremost team cluster id)
    (hne : peer ≠ id) (htouches : Touches [peer] cluster cluster')
    (hpolled : Polled (cluster.nodes peer) (cluster.nodes id).canvass
      (cluster'.nodes peer)) : Foremost team cluster' id := by
  intro other hother
  rw [htouches.of_ne hne.symm]
  by_cases hpeer : other = peer
  · rw [hpeer]
    exact hpolled.term.le
  · rw [htouches.of_ne hpeer]
    exact h other hother

theorem polling_of_canvassed (hcanvassed : Canvassed team cluster id)
    (hcurrent : forall other, other ∈ team.members ->
      (cluster.nodes other).log.tip <= (cluster.nodes id).log.tip) :
    Polling team cluster id (team.others id) := by
  constructor
  case stands => exact hcanvassed.stands
  case foremost =>
    intro other hother
    by_cases hself : other = id
    · rw [hself]
    · exact (hcanvassed.lower other hother hself).le
  case counted =>
    intro voter hvoter
    rw [Majority.mem_others_iff, hcanvassed.votes, Finset.mem_singleton]
    by_cases hself : voter = id
    · exact Or.inr hself
    · exact Or.inl ⟨hvoter, hself⟩
  case missing =>
    intro peer hpeer
    exact Majority.mem_others_iff.mp hpeer
  case lower =>
    intro peer hpeer
    rcases Majority.mem_others_iff.mp hpeer with ⟨hmember, hne⟩
    exact hcanvassed.lower peer hmember hne
  case current =>
    intro peer hpeer
    exact current_iff.mpr (hcurrent peer (Majority.mem_others_iff.mp hpeer).left)
  case asked =>
    intro peer hpeer
    rcases Majority.mem_others_iff.mp hpeer with ⟨hmember, hne⟩
    exact hcanvassed.asked peer hmember hne

theorem Polling.of_voted {peer : NodeId} {rest : List NodeId}
    {polled : Cluster storage random}
    (h : Polling team cluster id (peer :: rest)) (hfresh : peer ∉ rest)
    (hforemost : Foremost team cluster' id)
    (hpolled : Touches [peer] cluster polled) (hvoted : Touches [id] polled cluster')
    (hnode : cluster'.nodes id = { cluster.nodes id with
      votesReceived := insert peer (cluster.nodes id).votesReceived }) :
    Polling team cluster' id rest := by
  have hcanvass : (cluster'.nodes id).canvass = (cluster.nodes id).canvass := by
    rw [hnode]
    rfl
  have hsame : forall other, other ∈ rest ->
      cluster'.nodes other = cluster.nodes other := by
    intro other hother
    have hself := (h.missing other (List.mem_cons_of_mem _ hother)).right
    have hne : other ≠ peer := fun heq => hfresh (heq ▸ hother)
    rw [hvoted.of_ne hself, hpolled.of_ne hne]
  constructor
  case stands =>
    rw [hnode]
    exact h.stands
  case foremost => exact hforemost
  case counted =>
    intro voter hvoter
    rw [hnode]
    rcases h.counted voter hvoter with hrest | hvote
    · rcases List.mem_cons.mp hrest with heq | hlater
      · right
        rw [heq]
        exact Finset.mem_insert_self _ _
      · exact Or.inl hlater
    · exact Or.inr (Finset.mem_insert_of_mem hvote)
  case missing =>
    intro other hother
    exact h.missing other (List.mem_cons_of_mem _ hother)
  case lower =>
    intro other hother
    rw [hsame other hother, hnode]
    exact h.lower other (List.mem_cons_of_mem _ hother)
  case current =>
    intro other hother
    rw [hsame other hother, hcanvass]
    exact h.current other (List.mem_cons_of_mem _ hother)
  case asked =>
    intro other hother
    rw [hcanvass]
    exact hvoted.network _
      (hpolled.network _ (h.asked other (List.mem_cons_of_mem _ hother)))

variable [RaftStorage storage] [RandomEngine random] [LawfulRaftStorage storage]

structure Campaigned (team : Majority membership) (cluster : Cluster storage random)
    (id : NodeId) (cluster' : Cluster storage random) : Prop where
  reaches : Reaches team cluster cluster'
  touches : Touches [id] cluster cluster'
  term : (cluster'.nodes id).currentTerm = (cluster.nodes id).currentTerm + 1
  result : (Heads team cluster' id ∧ (cluster'.nodes id).log.entries.length =
      (cluster.nodes id).log.entries.length + 1) ∨
    (Canvassed team cluster' id ∧
      (cluster'.nodes id).log = (cluster.nodes id).log)

theorem exists_campaign (htakes : TakesSaves storage)
    (h : Grounded membership cluster) (hid : id ∈ team.members)
    (hwaits : (cluster.nodes id).state ≠ .leader)
    (hforemost : Foremost team cluster id)
    (hterm : (cluster.nodes id).currentTerm < 18446744073709551614) :
    exists cluster', Campaigned team cluster id cluster' := by
  let elapsed : Int := max 0
    ((cluster.nodes id).electionTimeout - (cluster.nodes id).electionElapsed)
  have helects : Elects (cluster.nodes id) elapsed :=
    ⟨le_max_left _ _, hwaits, le_max_right _ _⟩
  have hcampaign := ensures_tick_campaigns htakes helects
  have hraised : (outcome (RaftNode.tick elapsed) (cluster.nodes id)).2.currentTerm =
      (cluster.nodes id).currentTerm + 1 := by
    rcases hcampaign with hprevails | hcanvasses
    · exact hprevails.term
    · exact hcanvasses.term
  have hbound : (cluster.nodes id).currentTerm + 1 ≠ 18446744073709551615 := by
    lia
  have hhigher : (cluster.nodes id).currentTerm <
      (cluster.nodes id).currentTerm + 1 := term_lt_succ (by lia)
  rcases h.runs htakes hid (.tick elapsed) rfl rfl (hraised.trans_ne hbound) with
    ⟨ticked, hreaches, htouches, hnode⟩
  unfold Ensures at hcampaign
  rw [← hnode] at hcampaign hraised
  have hticked := h.reaches hreaches
  rcases hticked.hands htakes hid with ⟨cluster', hreaches', htouches', hnode', hsent⟩
  have hboth : Touches [id] cluster cluster' :=
    htouches.trans htouches'
  have hterm' : (cluster'.nodes id).currentTerm =
      (cluster.nodes id).currentTerm + 1 := by
    rw [hnode']
    exact hraised
  refine ⟨cluster', hreaches.trans hreaches', hboth, hterm', ?_⟩
  rcases hcampaign with hprevails | hcanvasses
  · left
    constructor
    · refine ⟨hid, ?_, hforemost.of_touches hboth ?_⟩
      · rw [hnode']
        exact hprevails.leads
      · rw [hterm']
        exact hhigher.le
    · rw [hnode']
      show (ticked.nodes id).log.entries.length = _
      rw [hprevails.log]
      simp [Log.pushBack, RaftNode.campaign, RaftNode.resetElectionTimeoutLocked]
  · right
    have hself : (cluster.nodes id).config.nodeId = id := h.nodeId (team.member hid)
    have hcanvass : (cluster'.nodes id).canvass = (ticked.nodes id).canvass := by
      rw [hnode']
      rfl
    constructor
    · constructor
      case stands =>
        rw [hnode']
        exact hcanvasses.stands
      case votes =>
        have hvotes := hcanvasses.votes
        rw [hself] at hvotes
        rw [hnode']
        exact hvotes
      case lower =>
        intro peer hpeer hne
        rw [hboth.of_ne hne, hterm']
        exact lt_of_le_of_lt (hforemost peer hpeer) hhigher
      case asked =>
        intro peer hpeer hne
        have hasked := hcanvasses.asked peer (h.knows hid hpeer hne)
        rw [hself] at hasked
        rw [hcanvass]
        exact hsent _ hasked
    · rw [hnode']
      exact hcanvasses.log

theorem exists_polled (htakes : TakesSaves storage)
    (h : Grounded membership cluster) {peer : NodeId}
    (hid : id ∈ team.members) (hpeer : peer ∈ team.members)
    (hne : peer ≠ id)
    (hlower : (cluster.nodes peer).currentTerm < (cluster.nodes id).currentTerm)
    (hasked : ⟨id, peer, .requestVoteRequest (cluster.nodes id).canvass⟩ ∈
      cluster.network) :
    exists cluster', Reaches team cluster cluster' ∧
      Touches [peer] cluster cluster' ∧
      Polled (cluster.nodes peer) (cluster.nodes id).canvass (cluster'.nodes peer) ∧
      ⟨peer, id, .requestVoteResponse {
        term := (cluster.nodes id).currentTerm
        voteGranted := (cluster.nodes peer).candidateLogIsCurrentLocked
          (cluster.nodes id).canvass }⟩ ∈ cluster'.network := by
  have hcandidate : (cluster.nodes id).canvass.candidateId = id := h.nodeId (team.member hid)
  have hknown : (cluster.nodes id).canvass.candidateId ∈
      (cluster.nodes peer).config.peers := by
    rw [hcandidate]
    exact h.knows hpeer hid hne.symm
  have hpolled := ensures_handleRequest_polled htakes (h.well (team.member hpeer)) hknown hlower
  rw [h.nodeId (team.member hpeer), hcandidate] at hpolled
  rcases hpolled with ⟨hreply, hpolled⟩
  rcases h.handles htakes hpeer hasked (Prod.ext hreply rfl)
    (hpolled.term.trans_ne (h.term_ne (team.member hid))) with
    ⟨cluster', hreaches, htouches, hnode, hsent⟩
  refine ⟨cluster', hreaches, htouches, ?_, hsent⟩
  rw [hnode]
  exact hpolled

theorem exists_elected (htakes : TakesSaves storage)
    (hid : id ∈ team.members) {rest : List NodeId} (hunique : rest.Nodup)
    (h : Grounded membership cluster) (hpolling : Polling team cluster id rest) :
    exists cluster', Reaches team cluster cluster' ∧
      Heads team cluster' id ∧ (cluster'.nodes id).log.entries.length =
        (cluster.nodes id).log.entries.length + 1 := by
  induction rest generalizing cluster with
  | nil =>
      -- With the votes of all members the candidate would have been elected.
      have hall : team.members ⊆ (cluster.nodes id).votesReceived := by
        intro voter hvoter
        rcases hpolling.counted voter hvoter with hnone | hvote
        · cases hnone
        · exact hvote
      have hfew := h.short (team.member hid) hpolling.stands
      have hcard := Finset.card_le_card hall
      have henough := team.quorum.right
      unfold RaftNode.quorumSizeLocked at hfew
      rw [h.members (team.member hid)] at hfew
      lia
  | cons peer rest ih =>
      rw [List.nodup_cons] at hunique
      rcases hpolling.missing peer (List.mem_cons_self ..) with ⟨hpeer, hne⟩
      rcases exists_polled htakes h hid hpeer hne
        (hpolling.lower peer (List.mem_cons_self ..))
        (hpolling.asked peer (List.mem_cons_self ..)) with
        ⟨polled, hreaches, htouches, hpolled, hreply⟩
      have hnode : polled.nodes id = cluster.nodes id := htouches.of_ne hne.symm
      have hgrounded := h.reaches hreaches
      have hforemost := hpolling.foremost.of_polled hne htouches hpolled
      rw [hpolling.current peer (List.mem_cons_self ..), ← hnode] at hreply
      have hvote := ensures_step_vote (hgrounded.well (team.member hid))
        (hnode.symm ▸ hpolling.stands)
        (hgrounded.knows hid hpeer hne)
      rw [hgrounded.nodeId (team.member hid)] at hvote
      have hterm : (outcome (RaftNode.step ⟨peer, id, .requestVoteResponse {
          term := (polled.nodes id).currentTerm, voteGranted := true }⟩)
            (polled.nodes id)).2.currentTerm = (polled.nodes id).currentTerm := by
        rcases hvote with hprevails | hcounted
        · exact hprevails.term
        · rw [hcounted]
      rcases hgrounded.runs htakes hid (.step _) rfl
        (by simpa [Cluster.delivers, Operation.inbox] using hreply)
        (hterm.trans_ne (hgrounded.term_ne (team.member hid))) with
        ⟨voted, hreaches', htouches', hnode'⟩
      unfold Ensures at hvote
      rw [← hnode'] at hvote hterm
      have hforemost' := hforemost.of_touches htouches' hterm.ge
      rcases hvote with hprevails | hcounted
      · refine ⟨voted, hreaches.trans hreaches', ⟨hid, hprevails.leads, hforemost'⟩, ?_⟩
        rw [hprevails.log, hnode]
        simp [Log.pushBack]
      · rw [hnode] at hcounted
        rcases ih hunique.right (hgrounded.reaches hreaches')
          (hpolling.of_voted hunique.left hforemost' htouches htouches' hcounted) with
          ⟨cluster', hreaches'', hheads, hlength⟩
        refine ⟨cluster', (hreaches.trans hreaches').trans hreaches'', hheads, ?_⟩
        rw [hlength, hcounted]

theorem exists_heads_of_current (htakes : TakesSaves storage)
    (h : Grounded membership cluster) (hid : id ∈ team.members)
    (hwaits : (cluster.nodes id).state ≠ .leader)
    (hforemost : Foremost team cluster id)
    (hterm : (cluster.nodes id).currentTerm < 18446744073709551614)
    (hcurrent : forall other, other ∈ team.members ->
      (cluster.nodes other).log.tip <= (cluster.nodes id).log.tip) :
    exists cluster', Reaches team cluster cluster' ∧
      Heads team cluster' id ∧ (cluster'.nodes id).log.entries.length =
        (cluster.nodes id).log.entries.length + 1 := by
  rcases exists_campaign htakes h hid hwaits hforemost hterm with ⟨stood, hcampaigned⟩
  rcases hcampaigned.result with ⟨hheads, hlength⟩ | ⟨hcanvassed, hlog⟩
  · exact ⟨stood, hcampaigned.reaches, hheads, hlength⟩
  · have hgrounded := h.reaches hcampaigned.reaches
    have hcurrent' : forall other, other ∈ team.members ->
        (stood.nodes other).log.tip <= (stood.nodes id).log.tip := by
      intro other hother
      rw [hlog]
      by_cases hself : other = id
      · rw [hself, hlog]
      · rw [hcampaigned.touches.of_ne hself]
        exact hcurrent other hother
    rcases exists_elected htakes hid (Finset.nodup_toList _) hgrounded
      (polling_of_canvassed hcanvassed hcurrent') with
      ⟨cluster', hreaches, hheads, hlength⟩
    refine ⟨cluster', hcampaigned.reaches.trans hreaches, hheads, ?_⟩
    rw [hlength, hlog]

/-- From any state on the members can get a leader of the highest term. -/
theorem exists_heads (htakes : TakesSaves storage)
    (h : Grounded membership cluster) (hterms : forall id, id ∈ team.members ->
      (cluster.nodes id).currentTerm < 18446744073709551613) {bound : Nat}
    (hbound : forall id, id ∈ team.members ->
      (cluster.nodes id).log.entries.length < bound) :
    exists cluster' leader, Reaches team cluster cluster' ∧
      Heads team cluster' leader ∧
      (cluster'.nodes leader).log.entries.length <= bound := by
  have hmembers : team.members.Nonempty := by
    rw [← Finset.card_pos]
    exact Nat.lt_of_lt_of_le (Nat.succ_pos _) team.quorum.right
  rcases Finset.exists_max_image team.members
    (fun id => (cluster.nodes id).currentTerm) hmembers with ⟨first, hfirst, hforemost⟩
  rcases Finset.exists_max_image team.members
    (fun id => (cluster.nodes id).log.tip) hmembers with ⟨best, hbest, hcurrent⟩
  have hfirst_bound := hbound first hfirst
  have hbest_bound := hbound best hbest
  have hfirst_term := hterms first hfirst
  by_cases hleads : (cluster.nodes first).state = .leader
  · exact ⟨cluster, first, .refl, ⟨hfirst, hleads, hforemost⟩, hfirst_bound.le⟩
  by_cases hsame : best = first
  · rw [hsame] at hcurrent
    rcases exists_heads_of_current htakes h hfirst hleads hforemost (by lia) hcurrent with
      ⟨cluster', hreaches, hheads, hlength⟩
    exact ⟨cluster', first, hreaches, hheads, by lia⟩
  -- The member of the highest term tells the one with the best log a higher one.
  rcases exists_campaign htakes h hfirst hleads hforemost (by lia) with
    ⟨stood, hcampaigned⟩
  rcases hcampaigned.result with ⟨hheads, hlength⟩ | ⟨hcanvassed, hlog⟩
  · exact ⟨stood, first, hcampaigned.reaches, hheads, by lia⟩
  have hstood := h.reaches hcampaigned.reaches
  rcases exists_polled htakes hstood hfirst hbest hsame
    (hcanvassed.lower best hbest hsame) (hcanvassed.asked best hbest hsame) with
    ⟨polled, hreaches, htouches, hpolled, -⟩
  have hlogs : forall other, (polled.nodes other).log = (cluster.nodes other).log := by
    intro other
    by_cases hother : other = best
    · rw [hother, hpolled.log, hcampaigned.touches.of_ne hsame]
    · rw [htouches.of_ne hother]
      by_cases hcandidate : other = first
      · rw [hcandidate, hlog]
      · rw [hcampaigned.touches.of_ne hcandidate]
  have hterm : (polled.nodes best).currentTerm = (stood.nodes first).currentTerm :=
    hpolled.term
  have hforemost' : Foremost team polled best := by
    have hbehind : Foremost team stood first :=
      Foremost.of_touches hforemost hcampaigned.touches (by
        rw [hcampaigned.term]
        exact (term_lt_succ (h.term_ne (team.member hfirst))).le)
    intro other hother
    rw [hterm, ← htouches.of_ne (Ne.symm hsame)]
    exact hbehind.of_polled hsame htouches hpolled other hother
  rcases exists_heads_of_current htakes (hstood.reaches hreaches) hbest
    (by
      rw [hpolled.follows]
      intro hstate
      cases hstate) hforemost'
    (by
      rw [hterm, hcampaigned.term]
      lia)
    (by
      intro other hother
      rw [hlogs other, hlogs best]
      exact hcurrent other hother) with ⟨cluster', hreaches', hheads, hlength⟩
  rw [hlogs best] at hlength
  exact ⟨cluster', best, (hcampaigned.reaches.trans hreaches).trans hreaches', hheads,
    by lia⟩

end Elections

end Raft
end FTKV
