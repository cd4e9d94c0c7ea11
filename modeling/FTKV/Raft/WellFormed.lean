import FTKV.Raft.Actions

/-!
# Well-formedness and progress

Every action keeps a node well formed, whatever message it handles and whether
or not its save succeeds.  The committed part of the log never changes, and what
is published is what has been committed, in order and once.
-/

namespace FTKV
namespace Raft

open Foundation

variable {storage random : Type} {n n' n'' : RaftNode storage random}

/-!
# Progress
-/

/-- The committed part of the log only grows, and growing publishes it. -/
structure Progress (n n' : RaftNode storage random) : Prop where
  config : n'.config = n.config
  commit : n.commitIndex <= n'.commitIndex
  kept : n'.log.entries.take n.commitIndex = n.log.entries.take n.commitIndex
  publishes : exists new, n'.committedEntries = n.committedEntries ++ new ∧
    n'.published = n.published ++ new

theorem progress_refl (n : RaftNode storage random) : Progress n n :=
  ⟨rfl, Nat.le_refl _, rfl, [], by simp, by simp⟩

theorem progress_trans (h : Progress n n') (h' : Progress n' n'') :
    Progress n n'' := by
  refine ⟨h'.config.trans h.config, Nat.le_trans h.commit h'.commit, ?_, ?_⟩
  · have hkept := congrArg (List.take n.commitIndex) h'.kept
    rw [List.take_take, List.take_take, min_eq_left h.commit] at hkept
    rw [hkept, h.kept]
  · rcases h.publishes with ⟨new, hentries, hpublished⟩
    rcases h'.publishes with ⟨new', hentries', hpublished'⟩
    refine ⟨new ++ new', ?_, ?_⟩
    · rw [hentries', hentries, List.append_assoc]
    · rw [hpublished', hpublished, List.append_assoc]

theorem progress_of_kept (hconfig : n'.config = n.config)
    (hcommit : n'.commitIndex = n.commitIndex)
    (hentries : n'.committedEntries = n.committedEntries)
    (hkept : n'.log.entries.take n.commitIndex =
      n.log.entries.take n.commitIndex) : Progress n n' := by
  refine ⟨hconfig, Nat.le_of_eq hcommit.symm, hkept, [], ?_, ?_⟩
  · rw [hentries, List.append_nil]
  · unfold RaftNode.published
    rw [hcommit, hkept, List.append_nil]

theorem published_raiseCommit {index : LogIndex}
    (hlow : n.commitIndex <= index) (hhigh : index <= n.log.entries.length) :
    (n.raiseCommit index).published = n.published ++ n.unpublished index := by
  have hsplit : n.log.entries.take index = n.log.entries.take n.commitIndex ++
      (n.log.entries.drop n.commitIndex).take (index - n.commitIndex) := by
    rw [← List.take_add, Nat.add_sub_cancel' hlow]
  have hlength : (n.log.entries.take n.commitIndex).length = n.commitIndex := by
    rw [List.length_take]
    lia
  change publications (n.log.entries.take index) 1 = _
  rw [hsplit, publications_append, hlength, Nat.add_comm 1]
  rfl

theorem take_append_of_committed (h : WellFormed n) (rest : List LogEntry) :
    (n.log.entries ++ rest).take n.commitIndex =
      n.log.entries.take n.commitIndex :=
  List.take_append_of_le_length h.committed

variable {call : Call}

theorem progress_durable (h : WellFormed n) (hdurable : Durable call n n') :
    Progress n n' := by
  cases hdurable with
  | adopt | campaign | vote => exact progress_of_kept rfl rfl rfl rfl
  | elect hstate hquorum hcall hproposal hinbox =>
      exact progress_of_kept rfl rfl rfl (take_append_of_committed h _)
  | rewrite haccepts hnew hkept =>
      refine progress_of_kept rfl rfl rfl ?_
      have hlength : (n.log.entries.take n.commitIndex).length =
          n.commitIndex := by
        rw [List.length_take]
        exact min_eq_left h.committed
      have htake := List.prefix_iff_eq_take.mp hkept
      rw [hlength] at htake
      exact htake.symm
  | propose hinbox hproposal hstate =>
      exact progress_of_kept rfl rfl rfl (take_append_of_committed h _)

/-!
# Well-formedness
-/

theorem wellFormed_of_progress (h : WellFormed n) (hprogress : Progress n n')
    (hmembers : n'.members = n.members) (happlied : n'.lastApplied = n'.commitIndex)
    (hcommitted : n'.commitIndex <= n'.log.entries.length)
    (hvotes : n'.votesReceived ⊆ n'.members)
    (htracked : n'.state = .leader -> forall peer, peer ∈ n'.config.peers ->
      Tracked n' peer) : WellFormed n' := by
  refine ⟨?_, ?_, ?_, happlied, hcommitted, ?_, hvotes, htracked⟩
  · rw [hmembers, hprogress.config]
    exact h.members
  · rw [hprogress.config]
    exact h.self
  · rw [hprogress.config]
    exact h.unique
  · rcases hprogress.publishes with ⟨new, hentries, hpublished⟩
    rw [hentries, hpublished]
    rcases h.pending with ⟨before, hbefore⟩
    exists before
    rw [← hbefore, List.append_assoc]

theorem mem_members_of_peer (h : WellFormed n) {peer : NodeId}
    (hpeer : peer ∈ n.config.peers) : peer ∈ n.members := by
  rw [h.members]
  exact Finset.mem_insert_of_mem (List.mem_toFinset.mpr hpeer)

theorem self_mem_members (h : WellFormed n) : n.config.nodeId ∈ n.members := by
  rw [h.members]
  exact Finset.mem_insert_self _ _

theorem tracked_assign {peer other : NodeId} {next reached : LogIndex}
    (htracked : Tracked n peer) (hlow : reached < next)
    (hhigh : next <= n.log.entries.length + 1) :
    Tracked { n with
      nextIndex := n.nextIndex.assign other next
      matchIndex := n.matchIndex.assign other reached } peer := by
  rcases htracked with
    ⟨next', reached', request, hnext, hreached, hrequest, hlow', hhigh'⟩
  by_cases hpeer : peer = other
  · subst hpeer
    exact ⟨next, reached, request, by simp, by simp, hrequest, hlow, hhigh⟩
  · refine ⟨next', reached', request, ?_, ?_, hrequest, hlow', hhigh'⟩
    · simpa [NodeMap.assign_of_ne, hpeer] using hnext
    · simpa [NodeMap.assign_of_ne, hpeer] using hreached

theorem tracked_assign_next {peer other : NodeId} {next : LogIndex}
    (htracked : Tracked n peer) (hlow : n.matchIndex.valueAt other < next)
    (hhigh : next <= n.log.entries.length + 1) :
    Tracked { n with nextIndex := n.nextIndex.assign other next } peer := by
  rcases htracked with
    ⟨next', reached, request, hnext, hreached, hrequest, hlow', hhigh'⟩
  by_cases hpeer : peer = other
  · subst hpeer
    refine ⟨next, reached, request, by simp, hreached, hrequest, ?_, hhigh⟩
    simpa [NodeMap.valueAt, hreached] using hlow
  · refine ⟨next', reached, request, ?_, hreached, hrequest, hlow', hhigh'⟩
    simpa [NodeMap.assign_of_ne, hpeer] using hnext

theorem tracked_assign_request {peer other : NodeId} {request : UInt64}
    (htracked : Tracked n peer) :
    Tracked { n with
      appendRequestId := n.appendRequestId.assign other request } peer := by
  rcases htracked with
    ⟨next, reached, request', hnext, hreached, hrequest, hlow, hhigh⟩
  by_cases hpeer : peer = other
  · subst hpeer
    exact ⟨next, reached, request, hnext, hreached, by simp, hlow, hhigh⟩
  · refine ⟨next, reached, request', hnext, hreached, ?_, hlow, hhigh⟩
    simpa [NodeMap.assign_of_ne, hpeer] using hrequest

theorem tracked_asLeader {peer : NodeId} (hpeer : peer ∈ n.config.peers) :
    Tracked n.asLeader peer := by
  refine ⟨n.log.entries.length + 1, 0, 0, ?_, ?_, ?_, Nat.succ_pos _, ?_⟩
  · simp [RaftNode.asLeader, NodeMap.assignAll_eq, hpeer]
  · simp [RaftNode.asLeader, NodeMap.assignAll_eq, hpeer]
  · simp [RaftNode.asLeader, NodeMap.assignAll_eq, hpeer]
  · simp [RaftNode.asLeader]

theorem tracked_of_length_le {peer : NodeId} (htracked : Tracked n peer)
    (hnext : n'.nextIndex = n.nextIndex) (hmatch : n'.matchIndex = n.matchIndex)
    (hrequest : n'.appendRequestId = n.appendRequestId)
    (hlength : n.log.entries.length <= n'.log.entries.length) :
    Tracked n' peer := by
  rcases htracked with ⟨next, reached, request, h1, h2, h3, hlow, hhigh⟩
  refine ⟨next, reached, request, ?_, ?_, ?_, hlow, ?_⟩
  · rw [hnext]
    exact h1
  · rw [hmatch]
    exact h2
  · rw [hrequest]
    exact h3
  · lia

theorem wellFormed_durable (h : WellFormed n) (hdurable : Durable call n n') :
    WellFormed n' := by
  have hprogress := progress_durable h hdurable
  cases hdurable with
  | adopt hinbox hterm =>
      refine wellFormed_of_progress h hprogress rfl h.applied h.committed ?_ ?_
      · exact Finset.empty_subset _
      · intro hstate
        cases hstate
  | campaign hinbox hproposal hterm hstate =>
      have hself := self_mem_members h
      refine wellFormed_of_progress h hprogress rfl h.applied h.committed ?_ ?_
      · exact Finset.singleton_subset_iff.mpr hself
      · intro hleader
        cases hleader
  | elect hstate hquorum hcall hproposal hinbox =>
      refine wellFormed_of_progress h hprogress rfl h.applied ?_ h.votes ?_
      · have hcommitted := h.committed
        simp [RaftNode.asLeader]
        lia
      · intro _ peer hpeer
        exact tracked_asLeader hpeer
  | vote =>
      exact wellFormed_of_progress h hprogress rfl h.applied h.committed
        h.votes h.tracked
  | rewrite haccepts hnew hkept =>
      refine wellFormed_of_progress h hprogress rfl h.applied ?_ h.votes ?_
      · have hlength := hkept.length_le
        rw [List.length_take, min_eq_left h.committed] at hlength
        exact hlength
      · intro hstate
        rw [haccepts.follows] at hstate
        cases hstate
  | propose hinbox hproposal hstate =>
      have hcommitted := h.committed
      refine wellFormed_of_progress h hprogress rfl h.applied ?_ h.votes ?_
      · simp
        lia
      · intro _ peer hpeer
        refine tracked_of_length_le (h.tracked hstate peer hpeer) rfl rfl rfl ?_
        simp

section Storage

variable [RaftStorage storage]

theorem progress_volatile (hvolatile : Volatile call n n') : Progress n n' := by
  cases hvolatile with
  | raise hlow hhigh hmay =>
      exact ⟨rfl, hlow, rfl, n.unpublished _, rfl,
        published_raiseCommit hlow hhigh⟩
  | timer | follow | tally | emit | replicate | record | retry =>
      exact progress_of_kept rfl rfl rfl rfl

theorem progress_saved (hsaved : Saved n n') : Progress n n' := by
  rcases hsaved with ⟨store, -, rfl⟩
  exact progress_of_kept rfl rfl rfl rfl

theorem progress_saveFailed (hfailed : SaveFailed n n') : Progress n n' := by
  rcases hfailed with ⟨cause, store, -, rfl⟩
  exact progress_of_kept rfl rfl rfl rfl

theorem wellFormed_volatile (h : WellFormed n)
    (hvolatile : Volatile call n n') : WellFormed n' := by
  have hprogress := progress_volatile hvolatile
  cases hvolatile with
  | timer =>
      exact wellFormed_of_progress h hprogress rfl h.applied h.committed
        h.votes h.tracked
  | follow =>
      refine wellFormed_of_progress h hprogress rfl h.applied h.committed ?_ ?_
      · exact Finset.empty_subset _
      · intro hstate
        cases hstate
  | tally hhandles hstate hterm hgranted =>
      refine wellFormed_of_progress h hprogress rfl h.applied h.committed ?_
        h.tracked
      exact Finset.insert_subset (mem_members_of_peer h hhandles.right) h.votes
  | emit =>
      exact wellFormed_of_progress h hprogress rfl h.applied h.committed
        h.votes h.tracked
  | replicate hstate hpeer hprevious hterm hcall =>
      refine wellFormed_of_progress h hprogress rfl h.applied h.committed
        h.votes ?_
      intro _ other hother
      exact tracked_assign_request (h.tracked hstate other hother)
  | record hconfirms =>
      refine wellFormed_of_progress h hprogress rfl h.applied h.committed
        h.votes ?_
      intro hstate peer hpeer
      rcases h.tracked hstate _ hconfirms.left.right with
        ⟨next, reached, request, h1, h2, -, hlow, hhigh⟩
      have hmatch := hconfirms.right.right.right.right
      refine tracked_assign (h.tracked hstate peer hpeer) ?_ ?_
      · simp only [NodeMap.valueAt, h1, h2, Option.getD_some]
        lia
      · simp only [NodeMap.valueAt, h1, Option.getD_some]
        lia
  | retry hstate hsender hlow hhigh =>
      refine wellFormed_of_progress h hprogress rfl h.applied h.committed
        h.votes ?_
      intro _ peer hpeer
      exact tracked_assign_next (h.tracked hstate peer hpeer) hlow hhigh
  | raise hlow hhigh hmay =>
      exact wellFormed_of_progress h hprogress rfl rfl hhigh h.votes h.tracked

theorem wellFormed_saved (h : WellFormed n) (hsaved : Saved n n') :
    WellFormed n' := by
  have hprogress := progress_saved hsaved
  rcases hsaved with ⟨store, -, rfl⟩
  exact wellFormed_of_progress h hprogress rfl h.applied h.committed h.votes
    h.tracked

theorem wellFormed_saveFailed (h : WellFormed n) (hfailed : SaveFailed n n') :
    WellFormed n' := by
  have hprogress := progress_saveFailed hfailed
  rcases hfailed with ⟨cause, store, -, rfl⟩
  exact wellFormed_of_progress h hprogress rfl h.applied h.committed h.votes
    h.tracked

/-!
# Whole operations
-/

theorem wellFormed_action (h : WellFormed n) (haction : Action call n n') :
    WellFormed n' ∧ Progress n n' := by
  cases haction with
  | volatile hvolatile =>
      exact ⟨wellFormed_volatile h hvolatile, progress_volatile hvolatile⟩
  | durable hquiet hdurable hsaved =>
      exact ⟨wellFormed_saved (wellFormed_durable h hdurable) hsaved,
        progress_trans (progress_durable h hdurable) (progress_saved hsaved)⟩

theorem wellFormed_path (h : WellFormed n) (hpath : Path call n n') :
    WellFormed n' ∧ Progress n n' := by
  induction hpath with
  | refl => exact ⟨h, progress_refl n⟩
  | tail _ haction ih =>
      rcases wellFormed_action ih.left haction with ⟨hwell, hprogress⟩
      exact ⟨hwell, progress_trans ih.right hprogress⟩

theorem wellFormed_explained {result : Type} {r : Except Fault result}
    (h : WellFormed n) (hexplained : Explained call n r n') :
    WellFormed n' ∧ Progress n n' := by
  cases hexplained with
  | returns hpath => exact wellFormed_path h hpath
  | refused hpath hrefusal => exact wellFormed_path h hpath
  | interrupted hpath hinterrupted =>
      rcases wellFormed_path h hpath with ⟨hwell, hprogress⟩
      rcases hinterrupted with ⟨-, middle, hdurable, hfailed⟩
      exact ⟨wellFormed_saveFailed (wellFormed_durable hwell hdurable) hfailed,
        progress_trans hprogress (progress_trans
          (progress_durable hwell hdurable) (progress_saveFailed hfailed))⟩

end Storage

end Raft
end FTKV
