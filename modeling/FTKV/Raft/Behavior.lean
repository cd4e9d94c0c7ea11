import FTKV.Raft.WellFormed

/-!
# Every operation is a path of actions

One specification per function of the node, from the loops up to the public
operations.  Each follows the text of its function and cites the specifications
of the functions it calls.
-/

namespace FTKV
namespace Raft

open Foundation
open Foundation.Effect

variable {storage random : Type} {n n' : RaftNode storage random}
  {call : Call}

/-!
# Reading the log
-/

theorem ensures_logAt {index : LogIndex} {entry : LogEntry}
    {post : Except Fault LogEntry -> RaftNode storage random -> Prop}
    (hentry : n.log.at? index = some entry) (hpost : post (.ok entry) n) :
    Ensures (logAt index) n post := by
  unfold logAt
  rw [ensures_bind, ensures_get, continues_ok, hentry]
  exact hpost

theorem ensures_logFrom {index : LogIndex}
    {post : Except Fault (List LogEntry) -> RaftNode storage random -> Prop}
    (hindex : index <= n.log.entries.length + 1)
    (hpost : post (.ok (n.log.toList.drop index)) n) :
    Ensures (logFrom index) n post := by
  unfold logFrom
  rw [ensures_bind, ensures_get, continues_ok, Log.size_eq, if_pos hindex]
  exact hpost

/-- The first index of the run of a term that ends at an index. -/
def Log.runStart (log : Log) (term : Term) : LogIndex -> LogIndex
  | 0 => 0
  | 1 => 1
  | below + 2 =>
      if (log.at? (below + 1)).map LogEntry.term = some term then
        log.runStart term (below + 1)
      else
        below + 2

theorem Log.runStart_le (log : Log) (term : Term) (index : LogIndex) :
    log.runStart term index <= index := by
  induction index using runStart.induct log term with
  | case1 => exact Nat.le_refl 0
  | case2 => exact Nat.le_refl 1
  | case3 below hterm ih =>
      unfold runStart
      rw [if_pos hterm]
      exact Nat.le_succ_of_le ih
  | case4 below hterm =>
      unfold runStart
      rw [if_neg hterm]

theorem ensures_conflictStart {conflictTerm : Term} {index : LogIndex}
    {post : Except Fault LogIndex -> RaftNode storage random -> Prop}
    (hindex : index <= n.log.entries.length)
    (hpost : post (.ok (n.log.runStart conflictTerm index)) n) :
    Ensures (conflictStart conflictTerm index) n post := by
  induction index using conflictStart.induct with
  | case1 => exact hpost
  | case2 => exact hpost
  | case3 below ih =>
      have hbelow : below + 1 <= n.log.entries.length := by
        lia
      rcases Log.at?_isSome hbelow with ⟨entry, hentry⟩
      unfold Log.runStart at hpost
      rw [hentry, Option.map_some] at hpost
      unfold conflictStart
      rw [ensures_bind]
      refine ensures_logAt hentry ?_
      rw [continues_ok]
      split
      · rename_i hterm
        rw [if_pos (congrArg some hterm)] at hpost
        exact ih hbelow hpost
      · rename_i hterm
        rw [if_neg (fun heq => hterm (Option.some.inj heq))] at hpost
        exact hpost

def Log.lastOfTerm (log : Log) (term : Term) : LogIndex -> Option LogIndex
  | 0 => none
  | below + 1 =>
      if (log.at? (below + 1)).map LogEntry.term = some term then
        some (below + 1)
      else
        log.lastOfTerm term below

theorem Log.lastOfTerm_eq_some {log : Log} {term : Term} {index last : LogIndex}
    (h : log.lastOfTerm term index = some last) :
    0 < last ∧ last <= index ∧ (log.at? last).map LogEntry.term = some term := by
  induction index with
  | zero => cases h
  | succ below ih =>
      unfold lastOfTerm at h
      split at h
      · rename_i hterm
        cases h
        exact ⟨Nat.succ_pos below, Nat.le_refl _, hterm⟩
      · rcases ih h with ⟨hpos, hle, hterm⟩
        exact ⟨hpos, Nat.le_succ_of_le hle, hterm⟩

theorem ensures_lastIndexOfTerm {conflictTerm : Term} {index : LogIndex}
    {post : Except Fault (Option LogIndex) -> RaftNode storage random -> Prop}
    (hindex : index <= n.log.entries.length)
    (hpost : post (.ok (n.log.lastOfTerm conflictTerm index)) n) :
    Ensures (lastIndexOfTerm conflictTerm index) n post := by
  induction index with
  | zero => exact hpost
  | succ below ih =>
      rcases Log.at?_isSome hindex with ⟨entry, hentry⟩
      unfold Log.lastOfTerm at hpost
      rw [hentry, Option.map_some] at hpost
      unfold lastIndexOfTerm
      rw [ensures_bind]
      refine ensures_logAt hentry ?_
      rw [continues_ok]
      split
      · rename_i hterm
        rw [if_pos (congrArg some hterm)] at hpost
        exact hpost
      · rename_i hterm
        rw [if_neg (fun heq => hterm (Option.some.inj heq))] at hpost
        exact ih (by lia) hpost

def Log.retryFrom (log : Log) (response : AppendEntriesResponse) : LogIndex :=
  match response.conflictTerm.bind fun conflictTerm =>
      log.lastOfTerm conflictTerm log.entries.length with
  | some last => last + 1
  | none => response.conflictIndex

theorem Log.retryFrom_cases (log : Log) (response : AppendEntriesResponse) :
    log.retryFrom response = response.conflictIndex ∨
      exists last, log.retryFrom response = last + 1 ∧ 0 < last ∧
        last <= log.entries.length ∧
        (log.at? last).map LogEntry.term = response.conflictTerm := by
  unfold retryFrom
  split
  · rename_i last hlast
    rcases Option.bind_eq_some_iff.mp hlast with ⟨conflictTerm, hterm, hfound⟩
    rw [hterm]
    exact Or.inr ⟨last, rfl, lastOfTerm_eq_some hfound⟩
  · exact Or.inl rfl

theorem ensures_retryIndex {response : AppendEntriesResponse}
    {post : Except Fault LogIndex -> RaftNode storage random -> Prop}
    (hpost : post (.ok (n.log.retryFrom response)) n) :
    Ensures (retryIndex response) n post := by
  unfold Log.retryFrom at hpost
  unfold retryIndex
  cases hterm : response.conflictTerm with
  | none =>
      rw [hterm] at hpost
      exact hpost
  | some conflictTerm =>
      rw [hterm, Option.bind_some] at hpost
      simp only [ensures_bind, ensures_get, continues_ok]
      refine ensures_lastIndexOfTerm (Nat.le_refl _) ?_
      rw [continues_ok, RaftNode.lastLogIndexLocked_eq]
      cases hlast : n.log.lastOfTerm conflictTerm n.log.entries.length with
      | some last =>
          rw [hlast] at hpost
          exact hpost
      | none =>
          rw [hlast] at hpost
          exact hpost

/-!
# Publishing
-/

theorem ensures_applyRounds {rounds : Nat}
    {post : Except Fault Unit -> RaftNode storage random -> Prop}
    (hrounds : n.lastApplied + rounds <= n.log.entries.length)
    (hpost : post (.ok ()) { n with
      lastApplied := n.lastApplied + rounds
      committedEntries := n.committedEntries ++
        publications ((n.log.entries.drop n.lastApplied).take rounds)
          (n.lastApplied + 1) }) :
    Ensures (applyRounds rounds) n post := by
  induction rounds generalizing n with
  | zero => simpa [applyRounds, publications] using hpost
  | succ rounds ih =>
      have hlt : n.lastApplied < n.log.entries.length := by
        lia
      have hdrop := List.drop_eq_getElem_cons hlt
      rw [hdrop, List.take_succ_cons, publications_cons] at hpost
      unfold applyRounds
      simp only [ensures_bind, ensures_modify, ensures_get, continues_ok]
      refine ensures_logAt (List.getElem?_eq_getElem hlt) ?_
      rw [continues_ok]
      have hindex : n.lastApplied + 1 + rounds = n.lastApplied + (rounds + 1) := by
        lia
      by_cases hnoop : (n.log.entries[n.lastApplied]).isNoOp = true
      · rw [if_pos hnoop, ensures_bind, ensures_pure, continues_ok]
        refine ih (by simpa [hindex] using hrounds) ?_
        simpa [publication, hnoop, hindex] using hpost
      · rw [if_neg hnoop, ensures_bind, ensures_modify, continues_ok]
        refine ih (by simpa [hindex] using hrounds) ?_
        simpa [publication, hnoop, hindex] using hpost

theorem ensures_applyCommittedEntriesLocked {index : LogIndex}
    {post : Except Fault Unit -> RaftNode storage random -> Prop}
    (happlied : n.lastApplied = n.commitIndex) (hlow : n.commitIndex <= index)
    (hhigh : index <= n.log.entries.length)
    (hpost : post (.ok ()) (n.raiseCommit index)) :
    Ensures applyCommittedEntriesLocked { n with commitIndex := index }
      post := by
  unfold applyCommittedEntriesLocked
  rw [ensures_bind, ensures_get, continues_ok]
  refine ensures_applyRounds ?_ ?_
  · simp only [happlied]
    lia
  · simp only [happlied, Nat.add_sub_cancel' hlow]
    exact hpost

/-!
# Counting confirmations
-/

theorem ensures_countReplicated {candidate : LogIndex} {peers : List NodeId}
    {replicated : Nat}
    {post : Except Fault Nat -> RaftNode storage random -> Prop}
    (hpeers : forall peer, peer ∈ peers -> exists reached,
      n.matchIndex peer = some reached)
    (hpost : post (.ok (replicated + (peers.filter fun peer =>
      candidate <= n.matchIndex.valueAt peer).length)) n) :
    Ensures (countReplicated candidate peers replicated) n post := by
  induction peers generalizing replicated with
  | nil => exact hpost
  | cons peer rest ih =>
      rcases hpeers peer (List.mem_cons_self ..) with ⟨reached, hreached⟩
      unfold countReplicated
      simp only [ensures_bind, ensures_modify, ensures_get, continues_ok,
        NodeMap.touch_of_some hreached]
      refine ih (fun other hother => hpeers other (List.mem_cons_of_mem _ hother))
        ?_
      by_cases hcount : candidate <= n.matchIndex.valueAt peer
      · rw [List.filter_cons_of_pos (by simpa using hcount)] at hpost
        rw [if_pos hcount]
        simpa [Nat.add_assoc, Nat.add_comm 1] using hpost
      · rw [List.filter_cons_of_neg (by simpa using hcount)] at hpost
        rw [if_neg hcount]
        exact hpost

/-- The leader may commit up to this index by its own count. -/
structure Committable (n : RaftNode storage random) (index : LogIndex) : Prop where
  above : n.commitIndex < index
  within : index <= n.log.entries.length
  term : (n.log.at? index).map LogEntry.term = some n.currentTerm
  quorum : n.quorumSizeLocked <= (replicatedOn n index).length + 1

theorem ensures_advanceFrom_highest {index : LogIndex}
    {post : Except Fault Bool -> RaftNode storage random -> Prop}
    (h : WellFormed n) (hstate : n.state = .leader)
    (hindex : index <= n.log.entries.length)
    (hsame : (forall k, k <= index -> ¬ Committable n k) -> post (.ok false) n)
    (hraised : forall k, Committable n k ->
      (forall j, k < j -> j <= index -> ¬ Committable n j) ->
        post (.ok true) (n.raiseCommit k)) :
    Ensures (advanceFrom index) n post := by
  induction index with
  | zero =>
      apply hsame
      intro k hk hcommittable
      exact Nat.not_lt_zero _ (Nat.lt_of_lt_of_le hcommittable.above hk)
  | succ below ih =>
      -- An index that the scan has passed over stays ruled out.
      have hskip : ¬ Committable n (below + 1) ->
          Ensures (advanceFrom below) n post := by
        intro hnot
        have hpassed : forall j, j = below + 1 -> ¬ Committable n j := by
          intro j hj
          rw [hj]
          exact hnot
        apply ih (by lia)
        · intro hnone
          apply hsame
          intro k hk
          rcases Nat.lt_or_ge below k with hlt | hge
          · exact hpassed k (by lia)
          · exact hnone k hge
        · intro k hcommittable hnone
          apply hraised k hcommittable
          intro j hlow hhigh
          rcases Nat.lt_or_ge below j with hlt | hge
          · exact hpassed j (by lia)
          · exact hnone j hlow hge
      unfold advanceFrom
      simp only [ensures_bind, ensures_get, continues_ok]
      split
      · rename_i hlow
        rcases Log.at?_isSome hindex with ⟨entry, hentry⟩
        rw [ensures_bind]
        refine ensures_logAt hentry ?_
        rw [continues_ok]
        split
        · rename_i hterm
          apply hskip
          intro hcommittable
          have hsame := hcommittable.term
          rw [hentry, Option.map_some] at hsame
          exact hterm (Option.some.inj hsame)
        · rename_i hterm
          rw [ensures_bind]
          refine ensures_countReplicated ?_ ?_
          · intro peer hpeer
            rcases h.tracked hstate peer hpeer with ⟨_, reached, _, _, hreached, _⟩
            exact ⟨reached, hreached⟩
          · rw [continues_ok]
            split
            · rename_i hquorum
              simp only [ensures_bind, ensures_modify, continues_ok]
              refine ensures_applyCommittedEntriesLocked h.applied
                (Nat.le_of_lt hlow) hindex ?_
              refine hraised (below + 1) ⟨hlow, hindex, ?_, ?_⟩ ?_
              · rw [hentry]
                simpa using hterm
              · rw [Nat.add_comm]
                exact hquorum
              · intro j hlow' hhigh
                exact absurd hhigh (Nat.not_le_of_lt hlow')
            · rename_i hquorum
              apply hskip
              intro hcommittable
              apply hquorum
              rw [Nat.add_comm]
              exact hcommittable.quorum
      · rename_i hlow
        apply hsame
        intro k hk hcommittable
        exact hlow (Nat.lt_of_lt_of_le hcommittable.above hk)

theorem ensures_advanceFrom {index : LogIndex}
    {post : Except Fault Bool -> RaftNode storage random -> Prop}
    (h : WellFormed n) (hstate : n.state = .leader)
    (hindex : index <= n.log.entries.length) (hsame : post (.ok false) n)
    (hraised : forall k, n.commitIndex < k -> k <= n.log.entries.length ->
      (n.log.at? k).map LogEntry.term = some n.currentTerm ->
        n.quorumSizeLocked <= (replicatedOn n k).length + 1 ->
          post (.ok true) (n.raiseCommit k)) :
    Ensures (advanceFrom index) n post := by
  apply ensures_advanceFrom_highest h hstate hindex
  · intro _
    exact hsame
  · intro k hcommittable _
    exact hraised k hcommittable.above hcommittable.within hcommittable.term
      hcommittable.quorum

/-!
# Saving
-/

section Saving

variable [RaftStorage storage]

theorem ensures_persistLocked
    {post : Except Fault Unit -> RaftNode storage random -> Prop}
    (hok : forall n', Saved n n' -> post (.ok ()) n')
    (herror : forall cause n', SaveFailed n n' ->
      post (.error (.storage cause)) n') :
    Ensures persistLocked n post := by
  unfold persistLocked
  rw [ensures_bind, ensures_get, continues_ok]
  rcases hsave : RaftStorage.save n.persistentState n.storage with ⟨r, store⟩
  cases r with
  | ok _ => exact hok _ ⟨store, hsave, rfl⟩
  | error cause => exact herror cause _ ⟨cause, store, hsave, rfl⟩

theorem ensures_persistLocked_of_durable {start middle : RaftNode storage random}
    {post : Except Fault Unit -> RaftNode storage random -> Prop}
    (hpath : Path call start n) (hquiet : n.outbox = call.outbox)
    (hdurable : Durable call n middle)
    (hok : forall n', Saved middle n' -> Path call start n' ->
      post (.ok ()) n')
    (herror : forall cause n', Path call start n -> Interrupted call n n' ->
      post (.error (.storage cause)) n') :
    Ensures persistLocked middle post := by
  refine ensures_persistLocked ?_ ?_
  · intro n' hsaved
    exact hok n' hsaved (path_durable hpath hquiet hdurable hsaved)
  · intro cause n' hfailed
    exact herror cause n' hpath ⟨hquiet, middle, hdurable, hfailed⟩

theorem ensures_explained_of_path {result : Type}
    {x : NodeM storage random result} {start : RaftNode storage random}
    (hpath : Path call start n) (hx : Ensures x n (Explained call n)) :
    Ensures x n (Explained call start) :=
  ensures_mono hx fun _ _ => explained_of_path hpath

theorem explained_error {result result' : Type}
    {start : RaftNode storage random} {fault : Fault}
    (h : Explained call start (.error fault : Except Fault result) n') :
    Explained call start (.error fault : Except Fault result') n' := by
  cases h with
  | interrupted hpath hinterrupted => exact .interrupted hpath hinterrupted
  | refused hpath hrefusal => exact .refused hpath hrefusal

/-!
# Replication requests
-/

theorem ensures_advanceCommitIndexLocked
    {post : Except Fault Bool -> RaftNode storage random -> Prop}
    (h : WellFormed n) (hstate : n.state = .leader)
    (hsaved : (exists before, Saved before n) ∨ exists sender response,
      Confirms call n sender response) (hcall : ¬ call.Appends)
    (hpost : forall raised n', Path call n n' -> n'.state = .leader ->
      post (.ok raised) n') :
    Ensures advanceCommitIndexLocked n post := by
  unfold advanceCommitIndexLocked
  rw [ensures_bind, ensures_get, continues_ok]
  refine ensures_advanceFrom h hstate (Nat.le_refl _) ?_ ?_
  · exact hpost false n (path_refl n) hstate
  · intro k hlow hhigh hterm hquorum
    refine hpost true _ (path_volatile (path_refl n) ?_) hstate
    exact .raise (Nat.le_of_lt hlow) hhigh
      (.confirmed hstate hterm hquorum hsaved hcall)

def RaftNode.requestBehind (n : RaftNode storage random) (peer : NodeId)
    (previous : LogIndex) (previousTerm : Term) : AppendEntriesRequest where
  term := n.currentTerm
  leaderId := n.config.nodeId
  previousLogIndex := previous
  previousLogTerm := previousTerm
  entries := n.log.entries.drop previous
  leaderCommit := n.commitIndex
  requestId := n.appendRequestId.valueAt peer + 1

def RaftNode.withRequest (n : RaftNode storage random) (peer : NodeId)
    (previous : LogIndex) (previousTerm : Term) : RaftNode storage random :=
  { n with
    appendRequestId := n.appendRequestId.assign peer
      (n.appendRequestId.valueAt peer + 1) }.emit peer
    (.appendEntriesRequest (n.requestBehind peer previous previousTerm))

omit [RaftStorage storage] in
theorem ensures_sendAppendEntriesLocked_sends {peer : NodeId}
    {previous : LogIndex} {entry : LogEntry}
    {post : Except Fault Unit -> RaftNode storage random -> Prop}
    (hnext : n.nextIndex peer = some (previous + 1))
    (hentry : n.log.at? previous = some entry)
    (hpost : post (.ok ()) (n.withRequest peer previous entry.term)) :
    Ensures (sendAppendEntriesLocked peer) n post := by
  unfold sendAppendEntriesLocked
  rw [ensures_bind, ensures_get, continues_ok, hnext]
  simp only [ensures_bind]
  refine ensures_logFrom (Nat.succ_le_succ (Log.le_length_of_at? hentry)) ?_
  rw [continues_ok, ensures_bind, ensures_modify, continues_ok, ensures_bind]
  exact ensures_logAt hentry hpost

theorem ensures_sendAppendEntriesLocked (call : Call) {peer : NodeId}
    {post : Except Fault Unit -> RaftNode storage random -> Prop}
    (h : WellFormed n) (hstate : n.state = .leader)
    (hpeer : peer ∈ n.config.peers) (hcall : ¬ call.Appends)
    (hpost : forall n', Path call n n' -> n'.state = .leader ->
      n'.config = n.config -> post (.ok ()) n') :
    Ensures (sendAppendEntriesLocked peer) n post := by
  rcases h.tracked hstate peer hpeer with
    ⟨next, reached, request, hnext, -, -, hlow, hhigh⟩
  cases next with
  | zero => cases hlow
  | succ previous =>
      have hprevious : previous <= n.log.entries.length := by
        lia
      rcases Log.at?_isSome hprevious with ⟨entry, hentry⟩
      have hterm : (n.log.at? previous).map LogEntry.term = some entry.term := by
        rw [hentry, Option.map_some]
      apply ensures_sendAppendEntriesLocked_sends hnext hentry
      exact hpost _ (path_volatile (path_refl n)
        (.replicate hstate hpeer hprevious hterm hcall)) hstate rfl

theorem ensures_broadcastAppendEntriesLocked (call : Call)
    {post : Except Fault Unit -> RaftNode storage random -> Prop}
    (h : WellFormed n) (hstate : n.state = .leader) (hcall : ¬ call.Appends)
    (hpost : forall n', Path call n n' -> post (.ok ()) n') :
    Ensures broadcastAppendEntriesLocked n post := by
  unfold broadcastAppendEntriesLocked
  rw [ensures_bind, ensures_get, continues_ok]
  refine ensures_mono (ensures_forM
    (fun s => Path call n s ∧ s.state = .leader ∧ s.config = n.config)
    (fun _ _ => False) ⟨path_refl n, hstate, rfl⟩ ?_) ?_
  · rintro peer hpeer s ⟨hpath, hleader, hconfig⟩
    rw [← hconfig] at hpeer
    refine ensures_sendAppendEntriesLocked call (wellFormed_path h hpath).left
      hleader hpeer hcall ?_
    intro s' hpath' hleader' hconfig'
    exact ⟨path_trans hpath hpath', hleader', hconfig'.trans hconfig⟩
  · intro r s hr
    cases r with
    | ok _ => exact hpost s hr.left
    | error _ => exact hr.elim

end Saving

end Raft
end FTKV
