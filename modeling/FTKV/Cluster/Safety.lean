import FTKV.Cluster.Runs

/-!
# Safety of a cluster

What holds in every state of every run: at most one leader per term, matching
logs, leaders that hold what was committed, and agreement on what is published.
-/

namespace FTKV
namespace Raft

open Foundation
open Consensus

section Shadows

variable {storage random : Type} [RaftStorage storage] [RandomEngine random]
  {membership : Membership} {run : Execution storage random membership}
  {id : NodeId} {j k : Nat}

namespace Shadow

variable (shadow : Shadow run)

theorem leader (hid : id ∈ membership.members)
    (hleads : ((run.states k).nodes id).state = .leader) :
    (shadow.worlds k).winner ((run.states k).nodes id).currentTerm = some id ∧
      (shadow.worlds k).lead ((run.states k).nodes id).currentTerm =
        ((run.states k).nodes id).log.entries :=
  (shadow.represents k hid).leader (shadow.inv k) hleads

theorem settled (hid : id ∈ membership.members) (hjk : j <= k) :
    Settled (majority membership.members) (shadow.worlds k)
      ((run.states j).nodes id).currentTerm
      ((run.states j).nodes id).log.entries
      ((run.states j).nodes id).commitIndex :=
  settled_mono (shadow.evolves hjk) (le_refl _) (List.take_prefix _ _)
    (Nat.le_refl _) ((shadow.represents j hid).settled (shadow.inv j))

theorem rooted (hid : id ∈ membership.members) :
    Rooted (shadow.worlds k) ((run.states k).nodes id).log.entries :=
  (shadow.represents k hid).rooted (shadow.inv k)

end Shadow

end Shadows

theorem at?_eq_of_take {log log' : Log} {index : LogIndex}
    (h : log.entries.take index = log'.entries.take index) :
    log.at? index = log'.at? index := by
  cases index with
  | zero => rfl
  | succ index =>
      have hentry := congrArg (fun entries => entries[index]?) h
      simpa using hentry

/-!
# Leaders
-/

section Leaders

variable {storage random : Type} [RaftStorage storage]
  [LawfulRaftStorage storage] [RandomEngine random] {membership : Membership}

/-- Election safety: a term has at most one leader over the whole run. -/
theorem one_leader_per_term (run : Execution storage random membership)
    {a b : NodeId} (ha : a ∈ membership.members) (hb : b ∈ membership.members)
    {j k : Nat} (hleads : ((run.states j).nodes a).state = .leader)
    (hleads' : ((run.states k).nodes b).state = .leader)
    (hterm : ((run.states j).nodes a).currentTerm =
      ((run.states k).nodes b).currentTerm) : a = b := by
  rcases exists_shadow run with ⟨shadow⟩
  have hwinner := (shadow.evolves (le_max_left j k)).winner _ _
    (shadow.leader ha hleads).left
  have hwinner' := (shadow.evolves (le_max_right j k)).winner _ _
    (shadow.leader hb hleads').left
  rw [hterm, hwinner'] at hwinner
  exact (Option.some.inj hwinner).symm

theorem one_leader_per_term_threeRun :
    ((threeRun.states 4).nodes 1).state = .leader ∧
      ((threeRun.states 10).nodes 1).state = .leader ∧
      (1 : NodeId) = 1 :=
  ⟨by decide +kernel, by decide +kernel,
    one_leader_per_term threeRun (j := 4) (k := 10) (by decide) (by decide)
      (by decide +kernel) (by decide +kernel) (by decide +kernel)⟩

/--
Leader completeness: what a member has committed by some term is in the log of
every leader of a later term, from when it leads and for the rest of the run.
-/
theorem leader_holds_committed (run : Execution storage random membership)
    {a l : NodeId} (ha : a ∈ membership.members) (hl : l ∈ membership.members)
    {j k m : Nat} {index : LogIndex} {entry : LogEntry}
    (hcommitted : index <= ((run.states j).nodes a).commitIndex)
    (hentry : ((run.states j).nodes a).log.at? index = some entry)
    (hleads : ((run.states k).nodes l).state = .leader)
    (hterm : ((run.states j).nodes a).currentTerm <
      ((run.states k).nodes l).currentTerm) (hkm : k <= m) :
    ((run.states m).nodes l).log.at? index = some entry := by
  rcases exists_shadow run with ⟨shadow⟩
  have hwinner := (shadow.evolves hkm).winner _ _ (shadow.leader hl hleads).left
  -- The winner's log extends the base of some term that it has not overtaken.
  rcases (shadow.inv m).reigns.seated _ _ hwinner with
    ⟨u, hlow, _, hwon, hbase⟩
  rw [(shadow.represents m hl).replica] at hbase
  have hevolves := shadow.evolves (le_max_right j m)
  have hpre := settled_prefix_base (shadow.inv (max j m))
    (shadow.settled ha (le_max_left j m)) (won_mono hevolves hwon)
    (lt_of_lt_of_le hterm hlow)
  rw [hevolves.base u hwon] at hpre
  have htake := take_eq_take_of_take_isPrefix (hpre.trans hbase) hcommitted
    (shadow.represents j ha).well.committed
  rw [← hentry]
  exact (at?_eq_of_take htake).symm

theorem leader_holds_committed_threeRun :
    ((threeRun.states 8).nodes 1).commitIndex = 2 ∧
      ((threeRun.states 14).nodes 2).state = .leader ∧
      ((threeRun.states 15).nodes 2).log.at? 2 =
        some { term := 1, command := [42] } :=
  ⟨by decide +kernel, by decide +kernel,
    leader_holds_committed threeRun (a := 1) (j := 8) (k := 14) (by decide)
      (by decide) (by decide +kernel) (by decide +kernel) (by decide +kernel)
      (by decide +kernel) (by decide)⟩

end Leaders

/-!
# Logs
-/

section Logs

variable {storage random : Type} [RaftStorage storage]

def HoldsLog (n : RaftNode storage random) (log : List LogEntry) : Prop :=
  log = n.log.entries ∨
    exists state, RaftStorage.load n.storage = .ok state ∧ log = state.log

theorem holdsLog_eq {n : RaftNode storage random} {log : List LogEntry}
    (h : HoldsLog n log) (hmirrored : Mirrored n) : log = n.log.entries := by
  rcases h with hmemory | ⟨state, hload, hstored⟩
  · exact hmemory
  · rw [hmirrored] at hload
    cases hload
    exact hstored

variable [LawfulRaftStorage storage] [RandomEngine random]
  {membership : Membership}

/--
Log matching: logs in memory and in storage that hold an entry of the same term
at the same position are equal up to there, and terms never decrease along a log
nor exceed the term of its owner.
-/
theorem logs_match (run : Execution storage random membership) (k : Nat)
    {a b : NodeId} (ha : a ∈ membership.members) (hb : b ∈ membership.members)
    {log log' : List LogEntry} (hlog : HoldsLog ((run.states k).nodes a) log)
    (hlog' : HoldsLog ((run.states k).nodes b) log') :
    (forall (position : Nat) (entry entry' : LogEntry),
      log[position]? = some entry -> log'[position]? = some entry' ->
        entry.term = entry'.term -> forall earlier, earlier <= position ->
          log[earlier]? = log'[earlier]?) ∧
      log.Pairwise (fun entry later => entry.term <= later.term) ∧
      forall entry, entry ∈ log ->
        entry.term <= ((run.states k).nodes a).currentTerm := by
  rcases exists_shadow run with ⟨shadow⟩
  have hnode := shadow.represents k ha
  cases holdsLog_eq hlog hnode.mirrored
  cases holdsLog_eq hlog' (shadow.represents k hb).mirrored
  have hrooted := shadow.rooted (k := k) ha
  refine ⟨?_, ?_, ?_⟩
  · intro position entry entry' hentry hentry' hterm earlier hearlier
    have htake := rooted_take_eq hrooted (shadow.rooted hb) hentry hentry' hterm
    have hposition := congrArg (fun entries => entries[earlier]?) htake
    simpa [List.getElem?_take_of_lt (Nat.lt_succ_of_le hearlier)] using hposition
  · rw [List.pairwise_iff_getElem]
    intro position later hposition hlater hlt
    exact rooted_stamp_le (shadow.inv k).reigns hrooted hlt.le
      (List.getElem?_eq_getElem hposition) (List.getElem?_eq_getElem hlater)
  · intro entry hentry
    exact hnode.term_le (shadow.inv k) hentry

theorem logs_match_threeRun :
    ((threeRun.states 8).nodes 1).log.entries[1]? =
      ((threeRun.states 8).nodes 2).storage.state.log[1]? ∧
      ((threeRun.states 8).nodes 1).log.entries[0]? =
        ((threeRun.states 8).nodes 2).storage.state.log[0]? :=
  ⟨by decide +kernel,
    (logs_match threeRun 8 (a := 1) (b := 2) (by decide) (by decide)
      (Or.inl rfl) (Or.inr ⟨_, rfl, rfl⟩)).left 1 { term := 1, command := [42] }
        { term := 1, command := [42] } (by decide +kernel) (by decide +kernel)
        rfl 0 (by decide)⟩

/-!
# Match indexes
-/

/-- What a leader records of a peer, the peer holds while it stays in the term. -/
theorem match_index_held (run : Execution storage random membership)
    {l p : NodeId} (hl : l ∈ membership.members) (hp : p ∈ membership.members)
    (hne : p ≠ l) {j : Nat} {reached : LogIndex}
    (hleads : ((run.states j).nodes l).state = .leader)
    (hreached : ((run.states j).nodes l).matchIndex p = some reached) :
    reached <= ((run.states j).nodes l).lastLogIndexLocked ∧
      forall k, j <= k -> ((run.states k).nodes p).currentTerm =
        ((run.states j).nodes l).currentTerm ->
          forall log, HoldsLog ((run.states k).nodes p) log ->
            ((run.states j).nodes l).log.entries.take reached <+: log := by
  rcases exists_shadow run with ⟨shadow⟩
  have hleader := shadow.represents j hl
  have hpeer := hleader.mem_peers hl hp hne
  have hbound : reached <= ((run.states j).nodes l).log.entries.length := by
    rcases hleader.well.tracked hleads p hpeer with
      ⟨next, before, _, _, hmatch, _, hlt, hle⟩
    rw [hreached] at hmatch
    cases hmatch
    lia
  refine ⟨by rwa [RaftNode.lastLogIndexLocked_eq], ?_⟩
  intro k hjk hterm log hlog
  have hheld := shadow.represents k hp
  rw [holdsLog_eq hlog hheld.mirrored]
  rcases hleader.matched hleads p hpeer reached hreached with hzero | hreceipt
  · simp [hzero]
  have hevolves := shadow.evolves hjk
  have hkept := hheld.take_lead_isPrefix (shadow.inv k) (hevolves.sent hreceipt) hterm.le
  rcases shadow.leader hl hleads with ⟨hwinner, hlead⟩
  rw [take_lead_eq hevolves ⟨l, hwinner⟩ (by rwa [hlead]), hlead] at hkept
  exact hkept

theorem match_index_held_threeRun :
    ((threeRun.states 8).nodes 1).matchIndex 2 = some 2 ∧
      ((threeRun.states 8).nodes 1).log.entries.take 2 <+:
        ((threeRun.states 10).nodes 2).storage.state.log :=
  ⟨by decide +kernel,
    (match_index_held threeRun (l := 1) (p := 2) (j := 8) (by decide) (by decide)
      (by decide) (by decide +kernel) (by decide +kernel)).right 10 (by decide)
        (by decide +kernel) _ (Or.inr ⟨_, rfl, rfl⟩)⟩

end Logs

/-!
# Agreement
-/

theorem at?_of_published {storage random : Type} {n : RaftNode storage random}
    {published : CommittedEntry} (h : WellFormed n)
    (hmem : published ∈ n.committedEntries) :
    0 < published.index ∧ published.index <= n.commitIndex ∧ exists entry,
      n.log.at? published.index = some entry ∧ entry.isNoOp = false ∧
        published.term = entry.term ∧ published.command = entry.command := by
  have hpublished := h.pending.subset hmem
  unfold RaftNode.published publications at hpublished
  rcases List.mem_filterMap.mp hpublished with
    ⟨⟨entry, index⟩, hposition, hpublication⟩
  rcases List.mk_mem_zipIdx_iff_le_and_getElem?_sub.mp hposition with
    ⟨hpos, hentry⟩
  unfold publication at hpublication
  split at hpublication
  · cases hpublication
  · rename_i hcommand
    cases hpublication
    obtain ⟨below, rfl⟩ := Nat.exists_eq_add_of_le hpos
    rw [Nat.add_sub_cancel_left, List.getElem?_take] at hentry
    split at hentry
    · rename_i hlt
      refine ⟨hpos, by lia, entry, ?_, Bool.eq_false_iff.mpr hcommand, rfl, rfl⟩
      rw [Nat.add_comm, Log.at?_succ]
      exact hentry
    · cases hentry

section Runs

variable {storage random : Type} [RaftStorage storage]
  [LawfulRaftStorage storage] [RandomEngine random] {membership : Membership}

theorem committed_agree (run : Execution storage random membership)
    {a b : NodeId} (ha : a ∈ membership.members) (hb : b ∈ membership.members)
    {j k : Nat} {index : LogIndex}
    (hindex : index <= ((run.states j).nodes a).commitIndex)
    (hindex' : index <= ((run.states k).nodes b).commitIndex) :
    ((run.states j).nodes a).log.at? index =
      ((run.states k).nodes b).log.at? index := by
  rcases exists_shadow run with ⟨shadow⟩
  exact at?_eq_of_take (settled_agree (shadow.inv (max j k))
    (shadow.settled ha (le_max_left j k)) (shadow.settled hb (le_max_right j k))
    hindex hindex')

/--
State machine safety: whatever two members have published and committed, at the
same or at different points of the run, they agree.
-/
theorem published_entries_agree (run : Execution storage random membership)
    {a b : NodeId} (ha : a ∈ membership.members) (hb : b ∈ membership.members)
    (j k : Nat) :
    (forall published published',
      published ∈ ((run.states j).nodes a).committedEntries ->
        published' ∈ ((run.states k).nodes b).committedEntries ->
          published.index = published'.index ->
            published.term = published'.term ∧
              published.command = published'.command) ∧
      forall index, index <= ((run.states j).nodes a).commitIndex ->
        index <= ((run.states k).nodes b).commitIndex ->
          ((run.states j).nodes a).log.at? index =
            ((run.states k).nodes b).log.at? index := by
  refine ⟨?_, fun index hindex hindex' => committed_agree run ha hb hindex hindex'⟩
  intro published published' hmem hmem' hsame
  rcases exists_shadow run with ⟨shadow⟩
  rcases at?_of_published (shadow.represents j ha).well hmem with
    ⟨-, hindex, entry, hentry, -, hterm, hcommand⟩
  rcases at?_of_published (shadow.represents k hb).well hmem' with
    ⟨-, hindex', entry', hentry', -, hterm', hcommand'⟩
  rw [← hsame] at hindex' hentry'
  have hagree := committed_agree run ha hb hindex hindex'
  rw [hentry, hentry'] at hagree
  cases hagree
  exact ⟨hterm.trans hterm'.symm, hcommand.trans hcommand'.symm⟩

end Runs

theorem published_entries_agree_threeRun :
    (⟨2, 1, [42]⟩ : CommittedEntry) ∈
        ((threeRun.states 8).nodes 1).committedEntries ∧
      (⟨2, 1, [42]⟩ : CommittedEntry) ∈
        ((threeRun.states 10).nodes 2).committedEntries ∧
      ((threeRun.states 8).nodes 1).log.at? 2 =
        ((threeRun.states 10).nodes 2).log.at? 2 :=
  ⟨by decide +kernel, by decide +kernel,
    (published_entries_agree threeRun (by decide) (by decide) 8 10).right 2
      (by decide +kernel) (by decide +kernel)⟩

end Raft
end FTKV
