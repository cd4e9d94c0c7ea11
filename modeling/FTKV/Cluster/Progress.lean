import FTKV.Cluster.Elections
import FTKV.Consensus.Behaviors

/-!
# Progress of a cluster

No state to which a run leads is a dead end: from there the members can elect a
leader, and the leader can get a command committed by all of them.
-/

namespace FTKV
namespace Raft

open Foundation
open Foundation.Effect
open Consensus

/-!
# Logs of a leader and of its followers
-/

section Logs

theorem le_commonLength {entries others : List LogEntry} {k : Nat}
    (hk : k <= entries.length) (hpre : entries.take k <+: others) :
    k <= commonLength entries others := by
  induction entries, others using commonLength.induct generalizing k with
  | case1 entry rest others ih =>
      rw [commonLength, if_pos rfl]
      cases k with
      | zero => exact Nat.zero_le _
      | succ k =>
          rw [List.take_succ_cons, List.cons_prefix_cons] at hpre
          exact Nat.succ_le_succ (ih (Nat.le_of_succ_le_succ hk) hpre.right)
  | case2 entry rest other others hne =>
      cases k with
      | zero => exact Nat.zero_le _
      | succ k =>
          rw [List.take_succ_cons, List.cons_prefix_cons] at hpre
          exact absurd hpre.left hne
  | case3 entries others hend =>
      cases k with
      | zero => exact Nat.zero_le _
      | succ k =>
          cases entries with
          | nil => cases hk
          | cons entry rest =>
              cases others with
              | nil =>
                  rw [List.take_succ_cons, List.prefix_nil] at hpre
                  cases hpre
              | cons other others => exact absurd rfl (hend entry rest other others rfl)

variable {w : RaftWorld} {log other : Log}

theorem matching_of_rooted (hrooted : Rooted w log.entries)
    (hrooted' : Rooted w other.entries) : Matching log other := by
  intro i hi j hji hj hterm
  rcases Nat.eq_zero_or_pos j with hzero | hpos
  · rw [hzero]
    rfl
  · rcases Log.at?_isSome hj with ⟨entry, hentry⟩
    rw [hentry, Option.map_some] at hterm
    rw [hentry]
    exact at?_eq_of_rooted hrooted hrooted' hpos hji hentry hterm.symm

theorem agreeing_of_rooted (hrooted : Rooted w log.entries)
    (hrooted' : Rooted w other.entries) : Agreeing log other := by
  intro i hi hi' hterm
  cases i with
  | zero => rfl
  | succ i =>
      rcases Log.at?_isSome hi with ⟨entry, hentry⟩
      rcases Log.at?_isSome hi' with ⟨entry', hentry'⟩
      rw [hentry, hentry', Option.map_some, Option.map_some] at hterm
      exact rooted_take_eq hrooted hrooted' hentry hentry' (Option.some.inj hterm)

end Logs

section Repairs

variable {storage random : Type} [RaftStorage storage] [RandomEngine random]
  [LawfulRaftStorage storage] {membership : Membership} {team : Majority membership}
  {cluster cluster' : Cluster storage random} {leader peer : NodeId}

theorem Grounded.restartable (h : Grounded membership cluster) {id : NodeId}
    (hid : id ∈ membership.members) : Restartable (cluster.nodes id) := by
  rcases h with ⟨run, k, rfl⟩
  rcases exists_shadow run with ⟨shadow⟩
  exact restartable_run shadow k id hid

theorem Grounded.committed_isPrefix (h : Grounded membership cluster)
    (hheads : Heads team cluster leader) {id : NodeId}
    (hid : id ∈ membership.members) :
    (cluster.nodes id).log.entries.take (cluster.nodes id).commitIndex <+:
      (cluster.nodes leader).log.entries := by
  rcases h.world with ⟨w, hinv, hrefines⟩
  have hleader := hrefines.nodes leader (team.member hheads.member)
  rcases hleader.leader hinv hheads.leads with ⟨hwinner, hlead⟩
  rw [← hlead]
  apply settled_prefix_lead_of_quorum hinv team.quorum ⟨leader, hwinner⟩ _
    ((hrefines.nodes id hid).settled hinv)
  intro v hv
  rw [(hrefines.nodes v (team.member hv)).replica]
  exact hheads.foremost v hv

theorem Grounded.repairable (h : Grounded membership cluster)
    (hheads : Heads team cluster leader) (hpeer : peer ∈ team.members)
    (hne : peer ≠ leader) :
    Repairable (cluster.nodes leader) (cluster.nodes peer) ∧
      Agreeing (cluster.nodes leader).log (cluster.nodes peer).log := by
  rcases h.world with ⟨w, hinv, hrefines⟩
  have hrooted := (hrefines.nodes leader (team.member hheads.member)).rooted hinv
  have hrooted' := (hrefines.nodes peer (team.member hpeer)).rooted hinv
  have hcommitted := h.committed_isPrefix hheads (team.member hpeer)
  refine ⟨?_, agreeing_of_rooted hrooted hrooted'⟩
  constructor
  case leads => exact hheads.leads
  case leader_well => exact h.well (team.member hheads.member)
  case follower_well => exact h.well (team.member hpeer)
  case member =>
    rw [h.nodeId (team.member hpeer)]
    exact h.knows hheads.member hpeer hne
  case known =>
    rw [h.nodeId (team.member hheads.member)]
    exact h.knows hpeer hheads.member hne.symm
  case term => exact hheads.foremost peer hpeer
  case entries_valid => exact (h.restartable (team.member hheads.member)).terms
  case leader_matching => exact matching_of_rooted hrooted hrooted'
  case follower_matching => exact matching_of_rooted hrooted' hrooted
  case committed =>
    have hbound := (h.well (team.member hpeer)).committed
    have hlength := hcommitted.length_le
    rw [List.length_take_of_le hbound] at hlength
    apply le_commonLength hlength
    rw [← take_eq_take_of_take_isPrefix hcommitted (Nat.le_refl _) hbound]
    exact List.take_prefix _ _
  case matched =>
    have hmember := h.knows hheads.member hpeer hne
    rw [h.nodeId (team.member hpeer)]
    apply le_commonLength
    · exact valueAt_matchIndex_le (h.well (team.member hheads.member)) hheads.leads hmember
    · exact take_match_isPrefix (hrefines.nodes leader (team.member hheads.member))
        (hrefines.nodes peer (team.member hpeer)) hinv hheads.leads
        (hheads.foremost peer hpeer) hmember

end Repairs

/-!
# Serving a peer
-/

section Service

variable {storage random : Type} {membership : Membership}
  {team : Majority membership} {cluster cluster' : Cluster storage random}
  {leader peer : NodeId}
  {request : AppendEntriesRequest} {commit : LogIndex}

theorem Heads.of_leader (h : Heads team cluster leader)
    (htouches : Touches [leader] cluster cluster')
    (hleads : (cluster'.nodes leader).state = .leader)
    (hterm : (cluster'.nodes leader).currentTerm =
      (cluster.nodes leader).currentTerm) : Heads team cluster' leader :=
  ⟨h.member, hleads, h.foremost.of_touches htouches hterm.ge⟩

theorem Heads.of_peer (h : Heads team cluster leader) (hne : peer ≠ leader)
    (htouches : Touches [peer] cluster cluster')
    (hterm : (cluster'.nodes peer).currentTerm =
      (cluster.nodes leader).currentTerm) : Heads team cluster' leader := by
  have hleader : cluster'.nodes leader = cluster.nodes leader :=
    htouches.of_ne hne.symm
  refine ⟨h.member, hleader ▸ h.leads, ?_⟩
  intro other hother
  rw [hleader]
  by_cases hpeer : other = peer
  · rw [hpeer]
    exact hterm.le
  · rw [htouches.of_ne hpeer]
    exact h.foremost other hother

/-- The peers hold the log of the leader, and the leader knows. -/
structure Served (team : Majority membership) (leader : NodeId) (peers : List NodeId)
    (commit : LogIndex) (cluster cluster' : Cluster storage random) : Prop where
  heads : Heads team cluster' leader
  touches : Touches (leader :: peers) cluster cluster'
  forward : Forward (cluster.nodes leader) (cluster'.nodes leader)
  matched : forall peer, peer ∈ peers ->
    (cluster.nodes leader).log.entries.length <=
      (cluster'.nodes leader).matchIndex.valueAt peer
  held : forall peer, peer ∈ peers ->
    (cluster.nodes leader).log.entries <+: (cluster'.nodes peer).log.entries
  committed : forall peer, peer ∈ peers ->
    min commit (cluster.nodes leader).log.entries.length <=
      (cluster'.nodes peer).commitIndex

theorem Served.of_forward {middle : Cluster storage random}
    (h : Served team leader [peer] commit middle cluster')
    (htouches : Touches [leader, peer] cluster middle)
    (hforward : Forward (cluster.nodes leader) (middle.nodes leader)) :
    Served team leader [peer] commit cluster cluster' := by
  have hlog := hforward.log
  constructor
  case heads => exact h.heads
  case touches =>
    exact htouches.trans h.touches
  case forward => exact forward_trans hforward h.forward
  case matched =>
    rw [← hlog]
    exact h.matched
  case held =>
    rw [← hlog]
    exact h.held
  case committed =>
    rw [← hlog]
    exact h.committed

variable [RaftStorage storage] [RandomEngine random] [LawfulRaftStorage storage]

structure Exchanged (team : Majority membership) (leader peer : NodeId)
    (request : AppendEntriesRequest) (response : AppendEntriesResponse)
    (cluster cluster' : Cluster storage random) : Prop where
  reaches : Reaches team cluster cluster'
  touches : Touches [leader, peer] cluster cluster'
  heads : Heads team cluster' leader
  round : Round (cluster.nodes leader) (cluster.nodes peer) request response
    (cluster'.nodes leader) (cluster'.nodes peer)

theorem exists_exchange (htakes : TakesSaves storage)
    (h : Grounded membership cluster) (hheads : Heads team cluster leader)
    (hpeer : peer ∈ team.members) (hne : peer ≠ leader)
    (hexpects : Expects (cluster.nodes leader) peer request)
    (hsent : ⟨leader, peer, .appendEntriesRequest request⟩ ∈ cluster.network) :
    exists response cluster',
      Exchanged team leader peer request response cluster cluster' := by
  have hrepairable := (h.repairable hheads hpeer hne).left
  have hself := h.nodeId (team.member hheads.member)
  have hname := h.nodeId (team.member hpeer)
  rw [← hname] at hexpects
  rcases exists_round htakes hrepairable hexpects with
    ⟨response, follower, houtcome, hround⟩
  rw [hself, hname] at houtcome hround
  exists response
  rcases h.handles htakes hpeer hsent houtcome
    (hround.term.trans_ne (h.term_ne (team.member hheads.member))) with
    ⟨answered, hreaches, htouches, hnode, hreply⟩
  have hleader : answered.nodes leader = cluster.nodes leader :=
    htouches.of_ne hne.symm
  have hheads' := hheads.of_peer hne htouches (hnode ▸ hround.term)
  have hgrounded := h.reaches hreaches
  have hkept := hround.leader_keeps hheads.leads
  rw [← hleader] at hround hkept
  rcases hgrounded.runs htakes hheads.member (.step _) rfl
    (by simpa [Cluster.delivers, Operation.inbox] using hreply)
    (hkept.right.trans_ne (hgrounded.term_ne (team.member hheads.member))) with
    ⟨cluster', hreaches', htouches', hnode'⟩
  rw [← hnode'] at hround hkept
  refine ⟨cluster', hreaches.trans hreaches',
    (htouches.mono (by simp)).trans (htouches'.mono (by simp)),
    hheads'.of_leader htouches' hkept.left hkept.right, ?_⟩
  rw [htouches'.of_ne hne, hnode, ← hleader]
  exact hround

theorem exists_retry (htakes : TakesSaves storage)
    (h : Grounded membership cluster) {response : AppendEntriesResponse}
    {answered : Cluster storage random}
    (hexchanged : Exchanged team leader peer request response cluster answered)
    (hname : (cluster.nodes peer).config.nodeId = peer)
    (hfailure : response.success = false) :
    exists request' cluster', Reaches team cluster cluster' ∧
      Touches [leader, peer] cluster cluster' ∧ Heads team cluster' leader ∧
      Forward (cluster.nodes leader) (cluster'.nodes leader) ∧
      Expects (cluster'.nodes leader) peer request' ∧
      request'.previousLogIndex < request.previousLogIndex ∧
      request'.leaderCommit = (cluster.nodes leader).commitIndex ∧
      ⟨leader, peer, .appendEntriesRequest request'⟩ ∈ cluster'.network := by
  have hheads := hexchanged.heads
  have hself := h.nodeId (team.member hheads.member)
  have hagain := hexchanged.round.rejected hfailure
  rw [hname] at hagain
  rcases hagain with ⟨hsame, request', hexpects, hback, hcommit, hasked⟩
  rw [hself] at hasked
  have hgrounded := h.reaches hexchanged.reaches
  rcases hgrounded.hands htakes hheads.member with
    ⟨cluster', hreaches, htouches, hnode, hsent⟩
  refine ⟨request', cluster', hexchanged.reaches.trans hreaches,
    hexchanged.touches.trans (htouches.mono (by simp)),
    hheads.of_leader htouches ?_ ?_, ?_, ?_, hback, hcommit, hsent _ hasked⟩
  · rw [hnode]
    exact hheads.leads
  · rw [hnode]
  · rw [hnode, hsame]
    exact ⟨rfl, rfl, rfl, Nat.le_refl _, fun _ => Nat.le_refl _, fun _ _ => rfl⟩
  · rw [hnode]
    exact hexpects.of_same rfl rfl rfl rfl rfl

theorem exists_served_of_expects (htakes : TakesSaves storage)
    (h : Grounded membership cluster) (hheads : Heads team cluster leader)
    (hpeer : peer ∈ team.members) (hne : peer ≠ leader)
    (hexpects : Expects (cluster.nodes leader) peer request)
    (hsent : ⟨leader, peer, .appendEntriesRequest request⟩ ∈ cluster.network)
    (hcommit : commit <= request.leaderCommit)
    (hknown : commit <= (cluster.nodes leader).commitIndex) :
    exists cluster', Reaches team cluster cluster' ∧
      Served team leader [peer] commit cluster cluster' := by
  induction hlast : request.previousLogIndex using Nat.strong_induction_on
    generalizing cluster request with
  | h last ih =>
      have hagreeing := (h.repairable hheads hpeer hne).right
      rcases exists_exchange htakes h hheads hpeer hne hexpects hsent with
        ⟨response, answered, hexchanged⟩
      cases hsuccess : response.success with
      | true =>
          rcases hexchanged.round.confirmed hsuccess with
            ⟨hcatches, hcovered, hcommitted⟩
          have hheld := hcovered hagreeing
          have hmatched := hcatches.matched
          rw [h.nodeId (team.member hpeer)] at hmatched
          refine ⟨answered, hexchanged.reaches, hexchanged.heads, hexchanged.touches,
            hcatches.forward, ?_, ?_, ?_⟩
          · intro other hother
            rw [List.mem_singleton.mp hother, NodeMap.valueAt, hmatched,
              Option.getD_some]
          · intro other hother
            rw [List.mem_singleton.mp hother]
            exact hheld
          · intro other hother
            rw [List.mem_singleton.mp hother]
            have hlength := hheld.length_le
            lia
      | false =>
          rcases exists_retry htakes h hexchanged (h.nodeId (team.member hpeer)) hsuccess with
            ⟨request', retried, hreaches, htouches, hheads', hforward, hexpects',
              hback, hcommit', hsent'⟩
          rw [hlast] at hback
          rcases ih request'.previousLogIndex hback (h.reaches hreaches) hheads'
            hexpects' hsent' (hcommit'.symm ▸ hknown)
            (Nat.le_trans hknown hforward.commit) rfl with
            ⟨cluster', hreaches', hserved⟩
          exact ⟨cluster', hreaches.trans hreaches',
            hserved.of_forward htouches hforward⟩

theorem exists_served (htakes : TakesSaves storage)
    (h : Grounded membership cluster) (hheads : Heads team cluster leader)
    (hpeer : peer ∈ team.members) (hne : peer ≠ leader)
    (hknown : commit <= (cluster.nodes leader).commitIndex) :
    exists cluster', Reaches team cluster cluster' ∧
      Served team leader [peer] commit cluster cluster' := by
  let elapsed : Int := max 0 ((cluster.nodes leader).config.heartbeatInterval -
    (cluster.nodes leader).heartbeatElapsed)
  have hbeats : Beats (cluster.nodes leader) elapsed :=
    ⟨le_max_left _ _, hheads.leads, le_max_right _ _⟩
  have hasks := ensures_tick_asks (h.well (team.member hheads.member)) hbeats
  have hterm : (outcome (RaftNode.tick elapsed) (cluster.nodes leader)).2.currentTerm =
      (cluster.nodes leader).currentTerm := by
    rw [hasks.same]
  rcases h.runs htakes hheads.member (.tick elapsed) rfl rfl
    (hterm.trans_ne (h.term_ne (team.member hheads.member))) with
    ⟨beaten, hreaches, htouches, hnode⟩
  unfold Ensures at hasks
  rw [← hnode] at hasks
  rcases (h.reaches hreaches).hands htakes hheads.member with
    ⟨handed, hreaches', htouches', hnode', hsent⟩
  have hsame : handed.nodes leader = { cluster.nodes leader with
      heartbeatElapsed := 0
      appendRequestId := (beaten.nodes leader).appendRequestId
      outbox := [] } := by
    rw [hnode']
    show { beaten.nodes leader with outbox := [] } = _
    rw [hasks.same]
  have hboth : Touches [leader] cluster handed :=
    htouches.trans htouches'
  have hforward : Forward (cluster.nodes leader) (handed.nodes leader) := by
    rw [hsame]
    exact ⟨rfl, rfl, rfl, Nat.le_refl _, fun _ => Nat.le_refl _, fun _ _ => rfl⟩
  have hheads' : Heads team handed leader := by
    apply hheads.of_leader hboth
    · rw [hsame]
      exact hheads.leads
    · exact hforward.term
  rcases hasks.asked peer (h.knows hheads.member hpeer hne) with
    ⟨request, hexpects, hannounced, hasked⟩
  have hcommit : commit <= request.leaderCommit := by
    rw [hannounced]
    exact hknown
  have hexpects' : Expects (handed.nodes leader) peer request := by
    rw [hnode']
    exact hexpects.of_same rfl rfl rfl rfl rfl
  have hname : (cluster.nodes leader).config.nodeId = leader := h.nodeId (team.member hheads.member)
  rw [show _ = leader from hname] at hasked
  rcases exists_served_of_expects htakes ((h.reaches hreaches).reaches hreaches')
    hheads' hpeer hne hexpects' (hsent _ hasked) hcommit
    (Nat.le_trans hknown hforward.commit) with
    ⟨cluster', hreaches'', hserved⟩
  exact ⟨cluster', (hreaches.trans hreaches').trans hreaches'',
    hserved.of_forward (hboth.mono (by simp)) hforward⟩

omit [RaftStorage storage] [RandomEngine random] [LawfulRaftStorage storage] in
theorem Served.cons {middle : Cluster storage random} {rest : List NodeId}
    (h : Served team leader [peer] commit cluster middle)
    (h' : Served team leader rest commit middle cluster')
    (hne : peer ≠ leader) (hfresh : peer ∉ rest) :
    Served team leader (peer :: rest) commit cluster cluster' := by
  have hlog : (middle.nodes leader).log = (cluster.nodes leader).log := h.forward.log
  have hkept : cluster'.nodes peer = middle.nodes peer := by
    apply h'.touches.others
    rw [List.mem_cons, not_or]
    exact ⟨hne, hfresh⟩
  constructor
  case heads => exact h'.heads
  case touches =>
    exact (h.touches.mono (by simp)).trans
      (h'.touches.mono (List.cons_subset_cons _ (List.subset_cons_self _ _)))
  case forward => exact forward_trans h.forward h'.forward
  case matched =>
    intro other hother
    rcases List.mem_cons.mp hother with heq | hrest
    · rw [heq]
      exact Nat.le_trans (h.matched peer (List.mem_singleton_self _))
        (h'.forward.matched peer)
    · rw [← hlog]
      exact h'.matched other hrest
  case held =>
    intro other hother
    rcases List.mem_cons.mp hother with heq | hrest
    · rw [heq, hkept]
      exact h.held peer (List.mem_singleton_self _)
    · rw [← hlog]
      exact h'.held other hrest
  case committed =>
    intro other hother
    rcases List.mem_cons.mp hother with heq | hrest
    · rw [heq, hkept]
      exact h.committed peer (List.mem_singleton_self _)
    · rw [← hlog]
      exact h'.committed other hrest

theorem exists_all_served (htakes : TakesSaves storage) {peers : List NodeId}
    (hunique : peers.Nodup) (hpeers : forall peer, peer ∈ peers ->
      peer ∈ team.members ∧ peer ≠ leader)
    (h : Grounded membership cluster) (hheads : Heads team cluster leader)
    (hknown : commit <= (cluster.nodes leader).commitIndex) :
    exists cluster', Reaches team cluster cluster' ∧
      Served team leader peers commit cluster cluster' := by
  induction peers generalizing cluster with
  | nil =>
      refine ⟨cluster, .refl, hheads, ⟨fun _ _ => rfl, fun _ hmessage => hmessage⟩,
        ⟨rfl, rfl, rfl, Nat.le_refl _, fun _ => Nat.le_refl _, fun _ _ => rfl⟩,
        ?_, ?_, ?_⟩
      · intro peer hnone
        cases hnone
      · intro peer hnone
        cases hnone
      · intro peer hnone
        cases hnone
  | cons peer rest ih =>
      rw [List.nodup_cons] at hunique
      rcases hpeers peer (List.mem_cons_self ..) with ⟨hpeer, hne⟩
      rcases exists_served htakes h hheads hpeer hne hknown with
        ⟨middle, hreaches, hserved⟩
      rcases ih hunique.right
        (fun other hother => hpeers other (List.mem_cons_of_mem _ hother))
        (h.reaches hreaches) hserved.heads
        (Nat.le_trans hknown hserved.forward.commit) with
        ⟨cluster', hreaches', hserved'⟩
      exact ⟨cluster', hreaches.trans hreaches',
        hserved.cons hserved' hne hunique.left⟩

end Service

/-!
# Committing a command
-/

section Commands

variable {storage random : Type} [RaftStorage storage] [RandomEngine random]
  [LawfulRaftStorage storage] {membership : Membership} {team : Majority membership}
  {cluster cluster' : Cluster storage random} {leader : NodeId}

theorem Grounded.commitIndex_of_matched (h : Grounded membership cluster)
    (hheads : Heads team cluster leader)
    (hterm : ((cluster.nodes leader).log.at?
      (cluster.nodes leader).log.entries.length).map LogEntry.term =
        some (cluster.nodes leader).currentTerm)
    (hmatched : forall peer, peer ∈ team.others leader ->
      (cluster.nodes leader).log.entries.length <=
        (cluster.nodes leader).matchIndex.valueAt peer) :
    (cluster.nodes leader).log.entries.length <= (cluster.nodes leader).commitIndex := by
  by_contra hbehind
  have hmember := team.member hheads.member
  apply h.thorough hmember hheads.leads (cluster.nodes leader).log.entries.length
  refine ⟨not_le.mp hbehind, Nat.le_refl _, hterm, ?_⟩
  have hcounted : team.members.erase leader ⊆ (replicatedOn (cluster.nodes leader)
      (cluster.nodes leader).log.entries.length).toFinset := by
    intro peer hpeer
    rcases Finset.mem_erase.mp hpeer with ⟨hne, hteam⟩
    rw [List.mem_toFinset]
    exact List.mem_filter.mpr ⟨h.knows hheads.member hteam hne,
      decide_eq_true (hmatched peer (Majority.mem_others_iff.mpr ⟨hteam, hne⟩))⟩
  have hcard := (Finset.card_le_card hcounted).trans (List.toFinset_card_le _)
  rw [Finset.card_erase_of_mem hheads.member] at hcard
  have henough := team.quorum.right
  unfold RaftNode.quorumSizeLocked
  rw [h.members hmember]
  lia

/-- A leader whose last entry is of its term gets all members to commit its log. -/
theorem exists_committed (htakes : TakesSaves storage)
    (h : Grounded membership cluster) (hheads : Heads team cluster leader)
    (hterm : ((cluster.nodes leader).log.at?
      (cluster.nodes leader).log.entries.length).map LogEntry.term =
        some (cluster.nodes leader).currentTerm) :
    exists cluster', Reaches team cluster cluster' ∧
      Heads team cluster' leader ∧
      (cluster'.nodes leader).currentTerm = (cluster.nodes leader).currentTerm ∧
      forall id, id ∈ team.members ->
        (cluster.nodes leader).log.entries <+: (cluster'.nodes id).log.entries ∧
        (cluster.nodes leader).log.entries.length <=
          (cluster'.nodes id).commitIndex := by
  have hpeers : forall peer, peer ∈ team.others leader ->
      peer ∈ team.members ∧ peer ≠ leader :=
    fun peer hpeer => Majority.mem_others_iff.mp hpeer
  have hunique : (team.others leader).Nodup := Finset.nodup_toList _
  -- The first tour makes the leader commit, the second one tells the peers.
  rcases exists_all_served htakes hunique hpeers h hheads (Nat.zero_le _) with
    ⟨spread, hspreads, hserved⟩
  have hspread := h.reaches hspreads
  have hlog := hserved.forward.log
  have hcommit : (cluster.nodes leader).log.entries.length <=
      (spread.nodes leader).commitIndex := by
    rw [← hlog]
    apply hspread.commitIndex_of_matched hserved.heads
    · rw [hlog, hserved.forward.term]
      exact hterm
    · rw [hlog]
      exact hserved.matched
  rcases exists_all_served htakes hunique hpeers hspread hserved.heads hcommit with
    ⟨cluster', htells, htold⟩
  refine ⟨cluster', hspreads.trans htells, htold.heads,
    htold.forward.term.trans hserved.forward.term, ?_⟩
  intro id hid
  by_cases hself : id = leader
  · rw [hself, htold.forward.log, hlog]
    exact ⟨List.prefix_rfl, Nat.le_trans hcommit htold.forward.commit⟩
  · have hpeer := Majority.mem_others_iff.mpr ⟨hid, hself⟩
    have hheld := htold.held id hpeer
    have hcommitted := htold.committed id hpeer
    rw [hlog] at hheld hcommitted
    rw [Nat.min_self] at hcommitted
    exact ⟨hheld, hcommitted⟩

theorem exists_proposed (htakes : TakesSaves storage)
    (h : Grounded membership cluster) (hheads : Heads team cluster leader)
    (hroom : (cluster.nodes leader).log.entries.length <= 18446744073709551613)
    (command : Command) :
    exists cluster', Reaches team cluster cluster' ∧
      Heads team cluster' leader ∧ (cluster'.nodes leader).log =
        (cluster.nodes leader).log.pushBack {
          term := (cluster'.nodes leader).currentTerm
          command := command
          isNoOp := false } := by
  have hsize : (cluster.nodes leader).log.size ≠ 2 ^ 64 - 1 := by
    show (cluster.nodes leader).log.entries.length + 1 ≠ _
    lia
  have hoffice := ensures_propose_appends htakes (h.well (team.member hheads.member)) hheads.leads
    hsize command
  simp only [Ensures, officeOf, Prod.mk.injEq] at hoffice
  rcases hoffice with ⟨hstate, hterm, hlog⟩
  rcases h.runs htakes hheads.member (.propose command) rfl rfl
    (hterm.trans_ne (h.term_ne (team.member hheads.member))) with
    ⟨cluster', hreaches, htouches, hnode⟩
  rw [← hnode] at hstate hterm hlog
  refine ⟨cluster', hreaches,
    hheads.of_leader htouches (hstate.trans hheads.leads) hterm, ?_⟩
  rw [hlog, hterm]
  rfl

/--
Any majority of the members is enough to go on, from any state of any run.  If the
storage takes every save, and neither the terms nor the logs of these members are
about to overflow, the run can go on so that the other members do nothing at all,
one of the majority leads, and all of the majority commit a given command, at an
index that no member had committed before.
-/
theorem majority_can_commit (htakes : TakesSaves storage)
    (run : Execution storage random membership) (k : Nat)
    (team : Majority membership)
    (hterms : forall id, id ∈ team.members ->
      ((run.states k).nodes id).currentTerm < 18446744073709551613)
    (hlogs : forall id, id ∈ team.members ->
      ((run.states k).nodes id).log.entries.length < 18446744073709551613)
    (command : Command) :
    exists (run' : Execution storage random membership) (j : Nat) (leader : NodeId)
        (index : LogIndex),
      (forall i, i <= k -> run'.states i = run.states i) ∧ k <= j ∧
      (forall i, k <= i -> i <= j -> forall id, id ∉ team.members ->
        (run'.states i).nodes id = (run.states k).nodes id) ∧
      (forall id, id ∈ membership.members ->
        ((run.states k).nodes id).commitIndex < index) ∧
      leader ∈ team.members ∧ ((run'.states j).nodes leader).state = .leader ∧
      forall id, id ∈ team.members ->
        index <= ((run'.states j).nodes id).commitIndex ∧
        ((run'.states j).nodes id).log.at? index = some {
          term := ((run'.states j).nodes leader).currentTerm
          command := command
          isNoOp := false } := by
  have h : Grounded membership (run.states k) := ⟨run, k, rfl⟩
  rcases exists_heads htakes h hterms hlogs with
    ⟨elected, leader, helects, hheads, hroom⟩
  have helected := h.reaches helects
  rcases exists_proposed htakes helected hheads hroom command with
    ⟨proposed, hproposes, hheads', hlog⟩
  have hproposed := helected.reaches hproposes
  have hlength : (proposed.nodes leader).log.entries.length =
      (elected.nodes leader).log.entries.length + 1 := by
    rw [hlog]
    simp [Log.pushBack]
  have hentry : (proposed.nodes leader).log.at?
      (proposed.nodes leader).log.entries.length = some {
        term := (proposed.nodes leader).currentTerm
        command := command
        isNoOp := false } := by
    rw [hlength, Log.at?_succ, hlog]
    exact List.getElem?_concat_length
  rcases exists_committed htakes hproposed hheads' (by rw [hentry, Option.map_some]) with
    ⟨committed, hcommits, hheads'', hterm, hall⟩
  rcases exists_continuation run ((helects.trans hproposes).trans hcommits) with
    ⟨run', j, hkj, hsame, hbetween, hlast⟩
  rw [← hlast] at hheads'' hterm hall
  refine ⟨run', j, leader, (proposed.nodes leader).log.entries.length, hsame, hkj,
    ?_, ?_, hheads.member, hheads''.leads, ?_⟩
  · intro i hlow hhigh id hid
    exact (hbetween i hlow hhigh).spares hid
  · intro id hid
    have hgrows := h.commitIndex_le htakes helects hid
    have hbound := (helected.committed_isPrefix hheads hid).length_le
    rw [List.length_take_of_le (helected.well hid).committed] at hbound
    lia
  · intro id hid
    rcases hall id hid with ⟨hheld, hcommitted⟩
    refine ⟨hcommitted, ?_⟩
    rw [hterm, ← hentry]
    exact at?_eq_of_take (take_eq_take_of_isPrefix hheld (Nat.le_refl _)).symm

end Commands

def lastTwo : Majority threeMembers where
  members := {2, 3}
  quorum := by
    unfold majority
    decide

/-- After the second election and the restart of its winner, two members go on. -/
theorem majority_can_commit_threeRun :
    ((threeRun.states 15).nodes 1).commitIndex = 2 ∧
      exists (run' : Execution InMemoryRaftStorage LeastEngine threeMembers) (j : Nat)
          (index : LogIndex) (entry : LogEntry),
        run'.states 15 = threeRun.states 15 ∧
          (run'.states j).nodes 1 = (threeRun.states 15).nodes 1 ∧ 2 < index ∧
          entry.command = [7] ∧ index <= ((run'.states j).nodes 3).commitIndex ∧
          ((run'.states j).nodes 3).log.at? index = some entry := by
  have hcommit : ((threeRun.states 15).nodes 1).commitIndex = 2 := by decide +kernel
  have htwo : forall id, id ∈ lastTwo.members -> id = 2 ∨ id = 3 := by
    intro id hid
    simpa [lastTwo] using hid
  have hterms : forall id, id ∈ lastTwo.members ->
      ((threeRun.states 15).nodes id).currentTerm < 18446744073709551613 := by
    intro id hid
    rcases htwo id hid with heq | heq
    · rw [heq]
      decide +kernel
    · rw [heq]
      decide +kernel
  have hlogs : forall id, id ∈ lastTwo.members ->
      ((threeRun.states 15).nodes id).log.entries.length < 18446744073709551613 := by
    intro id hid
    rcases htwo id hid with heq | heq
    · rw [heq]
      decide +kernel
    · rw [heq]
      decide +kernel
  rcases majority_can_commit (fun _ _ => ⟨_, rfl⟩) threeRun 15 lastTwo hterms hlogs
    [7] with ⟨run', j, leader, index, hsame, hlater, hidle, hfresh, -, -, hall⟩
  have hindex := hfresh 1 (by decide)
  rw [hcommit] at hindex
  rcases hall 3 (by decide) with ⟨hcommitted, hentry⟩
  exact ⟨hcommit, run', j, index, _, hsame 15 (Nat.le_refl _),
    hidle j hlater (Nat.le_refl _) 1 (by decide), hindex, rfl, hcommitted, hentry⟩

end Raft
end FTKV
