import FTKV.Raft.Elections

/-!
# Replicating entries

The handler of `AppendEntriesRequest` on a follower and of its response on the
leader.
-/

namespace FTKV
namespace Raft

open Foundation
open Foundation.Effect

variable {storage random : Type} {n n' : RaftNode storage random}
  {call : Call} {sender : NodeId} {request : AppendEntriesRequest}

/-!
# Comparing the incoming entries with the log
-/

/-- How the comparison of a request with the log of a node can end. -/
inductive Compared (n : RaftNode storage random) (sender : NodeId)
    (request : AppendEntriesRequest) :
    Except Fault Walk -> RaftNode storage random -> Prop where
  | agreed {seen rest : List LogEntry}
      (hsplit : request.entries = seen ++ rest)
      (hseen : seen <+: n.log.entries.drop request.previousLogIndex)
      (hend : rest = [] ∨
        n.log.entries.length = request.previousLogIndex + seen.length) :
      Compared n sender request (.ok (.finished false rest)) n
  | conflicted {seen rest : List LogEntry} {incoming localEntry : LogEntry}
      (hsplit : request.entries = seen ++ incoming :: rest)
      (hseen : seen <+: n.log.entries.drop request.previousLogIndex)
      (hlocal : n.log.entries[request.previousLogIndex + seen.length]? =
        some localEntry)
      (hterm : localEntry.term ≠ incoming.term)
      (hcommit : n.commitIndex <= request.previousLogIndex + seen.length) :
      Compared n sender request (.ok (.finished true (incoming :: rest)))
        { n with log := { entries :=
          n.log.entries.take (request.previousLogIndex + seen.length) } }
  | rejected {seen rest : List LogEntry} {incoming localEntry : LogEntry}
      (hsplit : request.entries = seen ++ incoming :: rest)
      (hseen : seen <+: n.log.entries.drop request.previousLogIndex)
      (hlocal : n.log.entries[request.previousLogIndex + seen.length]? =
        some localEntry)
      (hterm : localEntry.term ≠ incoming.term)
      (hcommit : request.previousLogIndex + seen.length < n.commitIndex) :
      Compared n sender request (.ok .rejected)
        (n.emit sender (.appendEntriesResponse {
          term := n.currentTerm
          success := false
          matchIndex := 0
          conflictIndex := request.previousLogIndex + seen.length + 1
          conflictTerm := some localEntry.term
          requestId := request.requestId }))
  | mismatched {seen rest : List LogEntry} {incoming localEntry : LogEntry}
      (hsplit : request.entries = seen ++ incoming :: rest)
      (hlocal : n.log.entries[request.previousLogIndex + seen.length]? =
        some localEntry)
      (hterm : localEntry.term = incoming.term)
      (hne : localEntry ≠ incoming) :
      Compared n sender request
        (.error (.raftError "log matching invariant violated")) n

theorem append_prefix_drop {log seen : List LogEntry} {previous : Nat}
    {entry : LogEntry} (hseen : seen <+: log.drop previous)
    (hentry : log[previous + seen.length]? = some entry) :
    seen ++ [entry] <+: log.drop previous := by
  rcases hseen with ⟨rest, hrest⟩
  have hhead : (log.drop previous)[seen.length]? = some entry := by
    rw [List.getElem?_drop]
    exact hentry
  rw [← hrest] at hhead ⊢
  rw [List.getElem?_append_right (Nat.le_refl _), Nat.sub_self] at hhead
  cases rest with
  | nil => cases hhead
  | cons first others =>
      simp at hhead
      rw [hhead]
      exact ⟨others, by simp⟩

theorem ensures_walkEntries_of_seen {seen rest : List LogEntry}
    (hprevious : request.previousLogIndex <= n.log.entries.length)
    (hsplit : request.entries = seen ++ rest)
    (hseen : seen <+: n.log.entries.drop request.previousLogIndex) :
    Ensures (walkEntries sender request rest
      (request.previousLogIndex + seen.length + 1)) n
        (Compared n sender request) := by
  induction rest generalizing seen with
  | nil => exact .agreed hsplit hseen (Or.inl rfl)
  | cons incoming rest ih =>
      unfold walkEntries
      rw [ensures_bind, ensures_get, continues_ok]
      split
      · rename_i hindex
        rw [RaftNode.lastLogIndexLocked_eq] at hindex
        have hlocal := List.getElem?_eq_getElem hindex
        rw [ensures_bind]
        refine ensures_logAt hlocal ?_
        rw [continues_ok]
        split
        · rename_i hterm
          split
          · rename_i hcommit
            simp only [ensures_bind, rejectAppend, sendLocked, ensures_get,
              continues_ok, ensures_modify]
            exact .rejected hsplit hseen hlocal hterm hcommit
          · rename_i hcommit
            rw [ensures_bind, ensures_modify, continues_ok]
            exact .conflicted hsplit hseen hlocal hterm (by lia)
        · rename_i hterm
          have hterm' := not_not.mp hterm
          split
          · rename_i hne
            exact .mismatched hsplit hlocal hterm' hne
          · rename_i heq
            have heq' := not_not.mp heq
            rw [heq'] at hlocal
            have hsplit' : request.entries = (seen ++ [incoming]) ++ rest := by
              rw [hsplit, List.append_assoc]
              rfl
            have hresult := ih hsplit' (append_prefix_drop hseen hlocal)
            rw [List.length_append, List.length_singleton, ← Nat.add_assoc]
              at hresult
            exact hresult
      · rename_i hindex
        rw [RaftNode.lastLogIndexLocked_eq] at hindex
        refine .agreed hsplit hseen (Or.inr ?_)
        have hlength := hseen.length_le
        rw [List.length_drop] at hlength
        lia

theorem ensures_walkEntries
    (hprevious : request.previousLogIndex <= n.log.entries.length) :
    Ensures (walkEntries sender request request.entries
      (request.previousLogIndex + 1)) n (Compared n sender request) := by
  have hsplit : request.entries = [] ++ request.entries := rfl
  exact ensures_walkEntries_of_seen hprevious hsplit (List.nil_prefix ..)

/-!
# Answering
-/

section Storage

variable [RaftStorage storage]

omit [RaftStorage storage] in
theorem Accepts.of_log (h : Accepts call n sender request)
    (hconfig : n'.config = n.config) (hterm : n'.currentTerm = n.currentTerm)
    (hstate : n'.state = n.state)
    (hlength : request.previousLogIndex <= n'.log.entries.length)
    (hlog : n'.log.entries.take request.previousLogIndex =
      n.log.entries.take request.previousLogIndex) :
    Accepts call n' sender request := by
  refine ⟨?_, h.sender_leads, h.current.trans hterm.symm, h.entries_valid,
    hstate.trans h.follows, hlength, ?_⟩
  · unfold Handles
    rw [hconfig]
    exact h.handles
  · rcases h.previous_eq with hzero | hmatch
    · exact Or.inl hzero
    · refine Or.inr ?_
      rw [← hmatch]
      cases hprevious : request.previousLogIndex with
      | zero => rfl
      | succ previous =>
          rw [hprevious] at hlog
          have hentry := congrArg (fun entries => entries[previous]?) hlog
          simp only [List.getElem?_take_of_lt (Nat.lt_succ_self previous)]
            at hentry
          rw [Log.at?_succ, Log.at?_succ, hentry]

theorem ensures_answerAppend (h : WellFormed n)
    (haccepts : Accepts call n sender request)
    (hcontains :
      request.entries <+: n.log.entries.drop request.previousLogIndex) :
    Ensures (answerAppend sender request) n (Explained call n) := by
  unfold answerAppend
  rw [ensures_bind, ensures_get, continues_ok]
  split
  · rename_i hcommit
    simp only [ensures_bind, ensures_modify, continues_ok]
    have hcommitted := h.committed
    have hlow : n.commitIndex <=
        min request.leaderCommit n.log.entries.length := by
      lia
    refine ensures_applyCommittedEntriesLocked h.applied hlow
      (Nat.min_le_right _ _) ?_
    rw [continues_ok]
    exact .returns (path_volatile (path_volatile (path_refl n)
      (.raise hlow (Nat.min_le_right _ _)
        (.announced haccepts hcontains (Nat.min_le_left _ _))))
      (.emit (.acknowledge (haccepts.of_log rfl rfl rfl haccepts.previous_le rfl)
        hcontains)))
  · simp only [ensures_bind, ensures_pure, continues_ok, ensures_get, sendLocked,
      ensures_modify]
    exact .returns (path_volatile (path_refl n)
      (.emit (.acknowledge haccepts hcontains)))

theorem ensures_rewrite (h : WellFormed n) (hquiet : n.outbox = call.outbox)
    (haccepts : Accepts call n sender request)
    (hnew : ¬ request.entries <+: n.log.entries.drop request.previousLogIndex)
    (hkept : n.log.entries.take n.commitIndex <+:
      n.log.entries.take request.previousLogIndex ++ request.entries) :
    Ensures (persistLocked >>= fun _ => answerAppend sender request)
      { n with log := { entries :=
        n.log.entries.take request.previousLogIndex ++ request.entries } }
      (Explained call n) := by
  have hlength : (n.log.entries.take request.previousLogIndex).length =
      request.previousLogIndex := by
    rw [List.length_take]
    exact min_eq_left haccepts.previous_le
  rw [ensures_bind]
  refine ensures_persistLocked_of_durable (path_refl n) hquiet
    (.rewrite haccepts hnew hkept) ?_ ?_
  · intro n1 hsaved hpath
    have hwell := (wellFormed_path h hpath).left
    rcases hsaved with ⟨store, -, rfl⟩
    rw [continues_ok]
    refine ensures_explained_of_path hpath (ensures_answerAppend hwell ?_ ?_)
    · refine haccepts.of_log rfl rfl rfl ?_ ?_
      · simp only [List.length_append, hlength]
        lia
      · exact List.take_left' hlength
    · simp only [List.drop_left' hlength, List.prefix_refl]
  · intro cause n' hpath hinterrupted
    exact .interrupted hpath hinterrupted

omit [RaftStorage storage] in
theorem take_append_rest {log seen : List LogEntry} {previous : Nat}
    (rest : List LogEntry) (hseen : seen <+: log.drop previous) :
    log.take (previous + seen.length) ++ rest =
      log.take previous ++ (seen ++ rest) := by
  rw [List.take_add, ← List.prefix_iff_eq_take.mp hseen, List.append_assoc]

theorem ensures_finishAppend (h : WellFormed n)
    (hquiet : n.outbox = call.outbox)
    (haccepts : Accepts call n sender request) {logChanged : Bool}
    {remaining : List LogEntry}
    (hcompared : Compared n sender request
      (.ok (.finished logChanged remaining)) n') :
    Ensures (finishAppend sender request logChanged remaining) n'
      (Explained call n) := by
  unfold finishAppend
  cases hcompared with
  | agreed hsplit hseen hend =>
      cases remaining with
      | nil =>
          rw [List.append_nil] at hsplit
          rw [← hsplit] at hseen
          simp only [ne_eq, not_true_eq_false, if_false, decide_false,
            Bool.or_self, Bool.false_eq_true, ensures_bind, ensures_pure,
            continues_ok]
          exact ensures_answerAppend h haccepts hseen
      | cons first rest =>
          have hlength := hend.resolve_left (List.cons_ne_nil _ _)
          simp only [ne_eq, List.cons_ne_nil, not_false_eq_true, if_true,
            decide_true, Bool.or_true, ensures_bind, ensures_modify,
            continues_ok]
          have hlog : n.log.entries ++ first :: rest =
              n.log.entries.take request.previousLogIndex ++
                request.entries := by
            rw [hsplit, ← take_append_rest _ hseen, ← hlength, List.take_length]
          have hresult := ensures_rewrite h hquiet haccepts ?_ ?_
          · rw [ensures_bind, ← hlog] at hresult
            exact hresult
          · intro hcontains
            have hle := hcontains.length_le
            rw [hsplit, List.length_append, List.length_drop,
              List.length_cons] at hle
            lia
          · rw [← hlog]
            exact (List.take_prefix _ _).trans (List.prefix_append _ _)
  | @conflicted seen rest incoming localEntry hsplit hseen hlocal hterm
      hcommit =>
      simp only [ne_eq, List.cons_ne_nil, not_false_eq_true, if_true,
        decide_true, Bool.or_true, ensures_bind, ensures_modify, continues_ok]
      have hlog := take_append_rest (incoming :: rest) hseen
      rw [← hsplit] at hlog
      have hresult := ensures_rewrite h hquiet haccepts ?_ ?_
      · rw [ensures_bind, ← hlog] at hresult
        exact hresult
      · intro hcontains
        rw [hsplit] at hcontains
        rcases hcontains with ⟨others, hothers⟩
        have hhead : (n.log.entries.drop request.previousLogIndex)[seen.length]? =
            some incoming := by
          rw [← hothers]
          simp
        rw [List.getElem?_drop, hlocal] at hhead
        cases hhead
        exact hterm rfl
      · rw [← hlog]
        exact (List.take_prefix_take_left hcommit).trans
          (List.prefix_append _ _)

/-!
# The handler of a request
-/

structure Admits (call : Call) (n : RaftNode storage random) (sender : NodeId)
    (request : AppendEntriesRequest) : Prop where
  handles : Handles call n sender (.appendEntriesRequest request)
  sender_leads : request.leaderId = sender
  current : request.term = n.currentTerm
  entries_valid : forall entry, entry ∈ request.entries ->
    entry.term ≠ 0 ∧ entry.term <= request.term
  follows : n.state = .follower

theorem ensures_appendAfterPrevious (h : WellFormed n)
    (hquiet : n.outbox = call.outbox)
    (hadmits : Admits call n sender request) :
    Ensures (appendAfterPrevious sender request) n (Explained call n) := by
  have hreject : forall conflictIndex conflictTerm,
      Rejects n sender request conflictIndex conflictTerm ->
        Explained call n (.ok () : Except Fault Unit)
          (n.emit sender (.appendEntriesResponse {
            term := n.currentTerm
            success := false
            matchIndex := 0
            conflictIndex := conflictIndex
            conflictTerm := conflictTerm
            requestId := request.requestId })) :=
    fun _ _ hrejects => .returns (path_volatile (path_refl n)
      (.emit (.reject hadmits.handles hrejects)))
  unfold appendAfterPrevious
  rw [ensures_bind, ensures_get, continues_ok]
  split
  · rename_i hshort
    exact hreject _ _ (.short hshort)
  · rename_i hprevious
    rw [RaftNode.lastLogIndexLocked_eq, not_lt] at hprevious
    rcases Log.at?_isSome hprevious with ⟨previous, hlookup⟩
    rw [ensures_bind]
    refine ensures_logAt hlookup ?_
    rw [continues_ok]
    split
    · rename_i hmismatch
      rw [ensures_bind]
      refine ensures_conflictStart hprevious ?_
      exact hreject _ _ (.mismatch hlookup hmismatch.left hmismatch.right
        (n.log.runStart_le _ _))
    · rename_i hmatch
      have haccepts : Accepts call n sender request := by
        refine ⟨hadmits.handles, hadmits.sender_leads, hadmits.current,
          hadmits.entries_valid, hadmits.follows, hprevious, ?_⟩
        rcases Nat.eq_zero_or_pos request.previousLogIndex with hzero | hpos
        · exact Or.inl hzero
        · refine Or.inr ?_
          rw [hlookup, Option.map_some]
          by_contra hne
          refine hmatch ⟨hpos, ?_⟩
          intro heq
          exact hne (congrArg some heq)
      rw [ensures_bind]
      refine ensures_mono (ensures_walkEntries hprevious) ?_
      intro r n1 hcompared
      match r, hcompared with
      | .ok (.finished logChanged remaining), hcompared =>
          exact ensures_finishAppend h hquiet haccepts hcompared
      | .ok .rejected, .rejected hsplit _ hlocal hterm hcommit =>
          exact hreject _ _ (.committed hsplit hlocal hterm hcommit)
      | .error _, .mismatched hsplit hlocal hterm hne =>
          refine .refused (path_refl n) (.mismatch haccepts hlocal ?_ hterm hne)
          rw [hsplit]
          simp

theorem ensures_handleAppendEntriesLocked [RandomEngine random]
    (h : WellFormed n) (hquiet : n.outbox = call.outbox)
    (hhandles : Handles call n sender (.appendEntriesRequest request))
    (hterm : request.term <= n.currentTerm) :
    Ensures (handleAppendEntriesLocked sender request) n
      (Explained call n) := by
  have hreject : (request.leaderId ≠ sender ∨ request.term < n.currentTerm ∨
      exists entry, entry ∈ request.entries ∧
        (entry.term = 0 ∨ request.term < entry.term)) ->
      Explained call n (.ok () : Except Fault Unit)
        (n.emit sender (.appendEntriesResponse {
          term := n.currentTerm
          success := false
          matchIndex := 0
          conflictIndex := n.lastLogIndexLocked + 1
          conflictTerm := none
          requestId := request.requestId })) :=
    fun hunfit => .returns (path_volatile (path_refl n)
      (.emit (.reject hhandles (.unfit hunfit))))
  unfold handleAppendEntriesLocked
  rw [ensures_bind, ensures_get, continues_ok]
  split
  · rename_i hsender
    exact hreject (hsender.imp_right Or.inl)
  · rename_i hsender
    split
    · rename_i hinvalid
      rcases List.any_eq_true.mp hinvalid with ⟨entry, hentry, hterm⟩
      simp only [Bool.or_eq_true, decide_eq_true_eq] at hterm
      exact hreject (Or.inr (Or.inr ⟨entry, hentry, hterm⟩))
    · rename_i hentries
      have hleader : request.leaderId = sender := by
        by_contra hne
        exact hsender (Or.inl hne)
      have hcurrent : request.term = n.currentTerm := by
        refine le_antisymm hterm (not_lt.mp ?_)
        intro hlt
        exact hsender (Or.inr hlt)
      have hvalid : forall entry, entry ∈ request.entries ->
          entry.term ≠ 0 ∧ entry.term <= request.term := by
        intro entry hentry
        by_contra hbad
        refine hentries (List.any_eq_true.mpr ⟨entry, hentry, ?_⟩)
        simp only [Bool.or_eq_true, decide_eq_true_eq]
        by_cases hzero : entry.term = 0
        · exact Or.inl hzero
        · refine Or.inr (not_le.mp ?_)
          intro hle
          exact hbad ⟨hzero, hle⟩
      rw [ensures_bind]
      split
      · refine ensures_becomeFollowerLocked_of_current hhandles hleader hcurrent ?_
        intro n1 hpath houtbox hfollower hsame
        have hwell := wellFormed_path h hpath
        rw [continues_ok]
        refine ensures_explained_of_path hpath
          (ensures_appendAfterPrevious hwell.left (houtbox.trans hquiet) ?_)
        refine ⟨?_, hleader, hcurrent.trans hsame.symm, hvalid, hfollower⟩
        unfold Handles
        rw [hwell.right.config]
        exact hhandles
      · rename_i hfollows
        have hfollower : n.state = .follower := by
          by_contra hne
          exact hfollows (Or.inl hne)
        have hpath := path_volatile (path_refl n)
          (volatile_resetElectionTimeoutLocked call n)
        rw [ensures_modify, continues_ok]
        exact ensures_explained_of_path hpath
          (ensures_appendAfterPrevious (wellFormed_path h hpath).left hquiet
            ⟨hhandles, hleader, hcurrent, hvalid, hfollower⟩)

/-!
# The handler of a response
-/

theorem ensures_sendAppendEntriesLocked_explained (h : WellFormed n)
    (hstate : n.state = .leader) (hsender : sender ∈ n.config.peers)
    (hcall : ¬ call.Appends) :
    Ensures (sendAppendEntriesLocked sender) n (Explained call n) := by
  refine ensures_sendAppendEntriesLocked call h hstate hsender hcall ?_
  intro n1 hpath _ _
  exact .returns hpath

omit [RaftStorage storage] in
theorem not_appends_of_response {response : AppendEntriesResponse}
    (hhandles : Handles call n sender (.appendEntriesResponse response)) :
    ¬ call.Appends := by
  rintro ⟨message, request, hsome, hrpc⟩
  rw [hhandles.left] at hsome
  cases hsome
  cases hrpc

theorem ensures_handleAppendSuccess {response : AppendEntriesResponse}
    (h : WellFormed n)
    (hhandles : Handles call n sender (.appendEntriesResponse response))
    (hstate : n.state = .leader) (hterm : response.term = n.currentTerm)
    (hsuccess : response.success = true) :
    Ensures (handleAppendSuccess sender response) n (Explained call n) := by
  have hcall := not_appends_of_response hhandles
  unfold handleAppendSuccess
  rw [ensures_bind, ensures_get, continues_ok]
  split
  · exact .returns (path_refl n)
  · rename_i hmatch
    rw [RaftNode.lastLogIndexLocked_eq, not_lt] at hmatch
    have hconfirms : Confirms call n sender response :=
      ⟨hhandles, hstate, hterm, hsuccess, hmatch⟩
    have hpath := path_volatile (path_refl n) (.record hconfirms)
    have hwell := (wellFormed_path h hpath).left
    rw [ensures_bind, ensures_modify, continues_ok, ensures_bind]
    refine ensures_advanceCommitIndexLocked hwell hstate
      (Or.inr ⟨sender, response, hconfirms⟩) hcall ?_
    intro raised n1 hpath' hleader
    have hwell' := wellFormed_path hwell hpath'
    rw [continues_ok]
    refine ensures_explained_of_path (path_trans hpath hpath') ?_
    split
    · refine ensures_broadcastAppendEntriesLocked call hwell'.left hleader hcall ?_
      intro n2 hpath''
      exact .returns hpath''
    · rw [ensures_bind, ensures_get, continues_ok]
      split
      · refine ensures_sendAppendEntriesLocked_explained hwell'.left hleader ?_
          hcall
        rw [hwell'.right.config]
        exact hhandles.right
      · exact .returns (path_refl n1)

theorem ensures_handleAppendRejection {response : AppendEntriesResponse}
    (h : WellFormed n) (hstate : n.state = .leader)
    (hsender : sender ∈ n.config.peers) (hcall : ¬ call.Appends) :
    Ensures (handleAppendRejection sender response) n (Explained call n) := by
  rcases h.tracked hstate sender hsender with
    ⟨next, reached, requestId, -, hreached, hrequest, hbelow, habove⟩
  unfold handleAppendRejection
  simp only [ensures_bind, ensures_get, continues_ok, ensures_modify,
    NodeMap.touch_of_some hrequest]
  split
  · exact .returns (path_refl n)
  · simp only [ensures_bind]
    refine ensures_retryIndex ?_
    simp only [continues_ok, ensures_bind, ensures_modify,
      NodeMap.touch_of_some hreached]
    have hlow : n.matchIndex.valueAt sender <
        max (max 1 (min (n.log.retryFrom response) (n.lastLogIndexLocked + 1)))
          (n.matchIndex.valueAt sender + 1) := by
      lia
    have hhigh : max (max 1 (min (n.log.retryFrom response) (n.lastLogIndexLocked + 1)))
        (n.matchIndex.valueAt sender + 1) <= n.log.entries.length + 1 := by
      simp only [NodeMap.valueAt, hreached, Option.getD_some,
        RaftNode.lastLogIndexLocked_eq]
      lia
    have hpath : Path call n _ :=
      path_volatile (path_refl n) (.retry hstate hsender hlow hhigh)
    exact ensures_explained_of_path hpath
      (ensures_sendAppendEntriesLocked_explained (wellFormed_path h hpath).left
        hstate hsender hcall)

theorem ensures_handleAppendEntriesResponseLocked
    {response : AppendEntriesResponse} (h : WellFormed n)
    (hhandles : Handles call n sender (.appendEntriesResponse response)) :
    Ensures (handleAppendEntriesResponseLocked sender response) n
      (Explained call n) := by
  unfold handleAppendEntriesResponseLocked
  rw [ensures_bind, ensures_get, continues_ok]
  split
  · exact .returns (path_refl n)
  · rename_i hvalid
    have hstate : n.state = .leader := by
      by_contra hne
      exact hvalid (Or.inl hne)
    have hterm : response.term = n.currentTerm := by
      by_contra hne
      exact hvalid (Or.inr hne)
    split
    · rename_i hsuccess
      exact ensures_handleAppendSuccess h hhandles hstate hterm hsuccess
    · exact ensures_handleAppendRejection h hstate hhandles.right
        (not_appends_of_response hhandles)

end Storage

end Raft
end FTKV
