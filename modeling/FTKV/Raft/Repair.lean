import FTKV.Raft.Reactions
import FTKV.Raft.Repetition

/-!
# Repairing the log of a follower

A leader and one of its followers exchange requests and answers until the
follower confirms.  Every rejection makes the leader start further back: the
follower names the first index of the term that it has in place of the leader's,
and the leader looks for the last index at which it has that term itself.
-/

namespace FTKV
namespace Raft

open Foundation
open Foundation.Effect

/-!
# Two logs
-/

section Logs

variable {entries others : List LogEntry}

def commonLength : List LogEntry -> List LogEntry -> Nat
  | entry :: rest, other :: others =>
      if entry = other then
        commonLength rest others + 1
      else
        0
  | _, _ => 0

theorem commonLength_le_length :
    commonLength entries others <= entries.length ∧
      commonLength entries others <= others.length := by
  induction entries, others using commonLength.induct with
  | case1 entry rest others ih =>
      rw [commonLength, if_pos rfl, List.length_cons, List.length_cons]
      exact ⟨Nat.succ_le_succ ih.left, Nat.succ_le_succ ih.right⟩
  | case2 entry rest other others hne =>
      rw [commonLength, if_neg hne]
      exact ⟨Nat.zero_le _, Nat.zero_le _⟩
  | case3 entries others hend =>
      rw [commonLength.eq_2 _ _ hend]
      exact ⟨Nat.zero_le _, Nat.zero_le _⟩

theorem getElem?_eq_of_lt_commonLength {k : Nat}
    (hk : k < commonLength entries others) : entries[k]? = others[k]? := by
  induction entries, others using commonLength.induct generalizing k with
  | case1 entry rest others ih =>
      rw [commonLength, if_pos rfl] at hk
      cases k with
      | zero => rfl
      | succ k => exact ih (Nat.lt_of_succ_lt_succ hk)
  | case2 entry rest other others hne =>
      rw [commonLength, if_neg hne] at hk
      cases hk
  | case3 entries others hend =>
      rw [commonLength.eq_2 _ _ hend] at hk
      cases hk

/--
An entry of a log is in the other log as well, if that log has an entry of its
term at its index or later.
-/
def Matching (log other : Log) : Prop :=
  forall i, i <= other.entries.length -> forall j, j <= i ->
    j <= log.entries.length ->
    (log.at? j).map LogEntry.term = (other.at? i).map LogEntry.term ->
      other.at? j = log.at? j

instance (log other : Log) : Decidable (Matching log other) :=
  inferInstanceAs (Decidable (forall i, i <= other.entries.length -> _))

def Agreeing (log other : Log) : Prop :=
  forall i, i <= log.entries.length -> i <= other.entries.length ->
    (log.at? i).map LogEntry.term = (other.at? i).map LogEntry.term ->
      log.entries.take i = other.entries.take i

instance (log other : Log) : Decidable (Agreeing log other) :=
  inferInstanceAs (Decidable (forall i, i <= log.entries.length -> _))

theorem compareEntries_of_agreeing {commitIndex index : LogIndex}
    (hterms : forall (k : Nat) (entry other : LogEntry),
      entries[k]? = some entry -> others[k]? = some other ->
        other.term = entry.term -> other = entry)
    (hcommitted : forall k, index + k < commitIndex ->
      entries[k]? = others[k]?) :
    compareEntries commitIndex entries others (index + 1) = .contains ∨
      compareEntries commitIndex entries others (index + 1) = .lacks := by
  induction entries generalizing others index with
  | nil => exact Or.inl rfl
  | cons entry rest ih =>
      cases others with
      | nil => exact Or.inr rfl
      | cons other others =>
          unfold compareEntries
          split
          · rename_i hterm
            rw [if_neg]
            · exact Or.inr rfl
            · intro hcommit
              have hsame := hcommitted 0 hcommit
              cases hsame
              exact hterm rfl
          · rename_i hterm
            have hsame := hterms 0 entry other rfl rfl (not_not.mp hterm)
            rw [if_neg (not_not.mpr hsame)]
            apply ih
            · intro k
              exact hterms (k + 1)
            · intro k hk
              exact hcommitted (k + 1) (by lia)

end Logs

/-!
# A leader and its follower
-/

section Requests

variable {storage random : Type} {leader follower n : RaftNode storage random}
  {request : AppendEntriesRequest}

/-- What the exchange relies on. -/
structure Repairable (leader follower : RaftNode storage random) : Prop where
  leads : leader.state = .leader
  leader_well : WellFormed leader
  follower_well : WellFormed follower
  member : follower.config.nodeId ∈ leader.config.peers
  known : leader.config.nodeId ∈ follower.config.peers
  term : follower.currentTerm <= leader.currentTerm
  entries_valid : forall entry, entry ∈ leader.log.entries ->
    entry.term ≠ 0 ∧ entry.term <= leader.currentTerm
  leader_matching : Matching leader.log follower.log
  follower_matching : Matching follower.log leader.log
  committed : follower.commitIndex <=
    commonLength leader.log.entries follower.log.entries
  matched : leader.matchIndex.valueAt follower.config.nodeId <=
    commonLength leader.log.entries follower.log.entries

structure Awaits (leader : RaftNode storage random) (peer : NodeId)
    (request : AppendEntriesRequest) : Prop where
  sent : leader.outbox.getLast? =
    some ⟨leader.config.nodeId, peer, .appendEntriesRequest request⟩
  next : leader.nextIndex peer = some (request.previousLogIndex + 1)
  term : request.term = leader.currentTerm
  self : request.leaderId = leader.config.nodeId
  previous : (leader.log.at? request.previousLogIndex).map LogEntry.term =
    some request.previousLogTerm
  entries : request.entries = leader.log.entries.drop request.previousLogIndex
  id : leader.appendRequestId.valueAt peer = request.requestId

theorem awaits_withRequest {peer : NodeId} {previous : LogIndex} {entry : LogEntry}
    (hnext : n.nextIndex peer = some (previous + 1))
    (hentry : n.log.at? previous = some entry) :
    Awaits (n.withRequest peer previous entry.term) peer
      (n.requestBehind peer previous entry.term) := by
  constructor
  case sent => exact List.getLast?_concat
  case next => exact hnext
  case term => rfl
  case self => rfl
  case previous =>
    show (n.log.at? previous).map LogEntry.term = some entry.term
    rw [hentry, Option.map_some]
  case entries => rfl
  case id =>
    show ((n.appendRequestId.assign peer _) peer).getD _ = _
    rw [NodeMap.assign_self]
    rfl

theorem Awaits.previous_le {peer : NodeId} (h : Awaits leader peer request) :
    request.previousLogIndex <= leader.log.entries.length := by
  rcases Option.map_eq_some_iff.mp h.previous with ⟨entry, hentry, -⟩
  exact Log.le_length_of_at? hentry

/-!
# What the follower finds
-/

section Finding

variable (h : Repairable leader follower)
  (hawaits : Awaits leader follower.config.nodeId request)

include h hawaits

theorem finds_of_repairable (hattaches : Attaches follower request) :
    follower.finds request = .contains ∨ follower.finds request = .lacks := by
  rw [finds_of_attaches hattaches, hawaits.entries]
  apply compareEntries_of_agreeing
  · intro k entry other hentry hother hterm
    rw [List.getElem?_drop] at hentry hother
    have hboth := h.leader_matching (request.previousLogIndex + k + 1)
      (List.getElem?_eq_some_iff.mp hother).1 _ (Nat.le_refl _)
      (List.getElem?_eq_some_iff.mp hentry).1
    rw [Log.at?_succ, Log.at?_succ, hother, hentry, Option.map_some,
      Option.map_some] at hboth
    exact Option.some.inj (hboth (congrArg some hterm.symm))
  · intro k hk
    rw [List.getElem?_drop, List.getElem?_drop]
    exact getElem?_eq_of_lt_commonLength (Nat.lt_of_lt_of_le hk h.committed)

theorem matched_lt_previous {previous : LogEntry}
    (hprevious : follower.log.at? request.previousLogIndex = some previous)
    (hpos : 0 < request.previousLogIndex)
    (hterm : previous.term ≠ request.previousLogTerm) :
    leader.matchIndex.valueAt follower.config.nodeId <
      request.previousLogIndex := by
  by_contra hconfirmed
  rcases Nat.exists_eq_succ_of_ne_zero (Nat.ne_zero_of_lt hpos) with ⟨last, hlast⟩
  have hcommon : last < commonLength leader.log.entries follower.log.entries := by
    have hmatched := h.matched
    lia
  have hsame := getElem?_eq_of_lt_commonLength hcommon
  have hleader := hawaits.previous
  rw [hlast, Nat.succ_eq_add_one, Log.at?_succ] at hprevious hleader
  rw [hsame, hprevious] at hleader
  exact hterm (Option.some.inj hleader)

theorem regresses_of_repairable {conflictIndex : LogIndex} {conflictTerm : Option Term}
    (hfinds : follower.finds request = .refuses conflictIndex conflictTerm) :
    Regresses leader follower.config.nodeId request conflictIndex conflictTerm := by
  have hmatched : leader.matchIndex.valueAt follower.config.nodeId <=
      follower.log.entries.length :=
    h.matched.trans commonLength_le_length.right
  have hdetached : ¬ Attaches follower request := by
    intro hattaches
    rcases finds_of_repairable h hawaits hattaches with hfound | hfound
    · rw [hfinds] at hfound
      cases hfound
    · rw [hfinds] at hfound
      cases hfound
  unfold RaftNode.finds at hfinds
  cases hprevious : follower.log.at? request.previousLogIndex with
  | none =>
      rw [hprevious] at hfinds
      cases hfinds
      have hshort : follower.log.entries.length < request.previousLogIndex :=
        List.getElem?_eq_none_iff.mp hprevious
      rw [RaftNode.lastLogIndexLocked_eq]
      refine ⟨by lia, by lia, hshort, ?_⟩
      intro last hnone hle _
      rcases Log.at?_isSome hle with ⟨entry, hentry⟩
      rw [hentry] at hnone
      cases hnone
  | some previous =>
      simp only [hprevious] at hfinds
      split at hfinds
      · rename_i hmismatch
        cases hfinds
        refine ⟨hmismatch.left, ?_, Log.runStart_le _ _ _, ?_⟩
        · exact matched_lt_previous h hawaits hprevious hmismatch.left
            hmismatch.right
        · intro last hlast hle _
          by_contra hafter
          -- A later entry of that term would put the follower's entry into
          -- the leader's log as well.
          have hterm : (follower.log.at? request.previousLogIndex).map
              LogEntry.term = (leader.log.at? last).map LogEntry.term := by
            rw [hprevious, hlast, Option.map_some]
          have hleader := hawaits.previous
          rw [h.follower_matching last hle _ (not_lt.mp hafter)
            (Log.le_length_of_at? hprevious) hterm, hprevious] at hleader
          exact hmismatch.right (Option.some.inj hleader)
      · rename_i hmatch
        refine absurd ⟨Log.le_length_of_at? hprevious, ?_⟩ hdetached
        intro hpos
        rw [hprevious, Option.map_some]
        by_contra hne
        exact hmatch ⟨hpos, fun heq => hne (congrArg some heq)⟩

theorem fits_of_awaits : Fits follower leader.config.nodeId request := by
  refine ⟨hawaits.self, ?_, ?_⟩
  · rw [hawaits.term]
    exact h.term
  · intro entry hentry
    rw [hawaits.entries] at hentry
    rw [hawaits.term]
    exact h.entries_valid entry (List.mem_of_mem_drop hentry)

end Finding

end Requests

/-!
# One round
-/

section Rounds

variable {storage random : Type} [RaftStorage storage] [RandomEngine random]
  {leader follower follower' entered : RaftNode storage random}
  {request : AppendEntriesRequest} {response : AppendEntriesResponse}

structure Answers (leader follower : RaftNode storage random)
    (request : AppendEntriesRequest) (response : AppendEntriesResponse)
    (follower' : RaftNode storage random) : Prop where
  term : response.term = leader.currentTerm
  id : response.requestId = request.requestId
  config : follower'.config = follower.config
  current : follower'.currentTerm = leader.currentTerm
  rejected : response.success = false -> Untouched follower follower' ∧
    Regresses leader follower.config.nodeId request response.conflictIndex
      response.conflictTerm
  confirmed : response.success = true ->
    response.matchIndex = leader.log.entries.length ∧
      (Agreeing leader.log follower.log ->
        leader.log.entries <+: follower'.log.entries)

omit [RaftStorage storage] [RandomEngine random] in
theorem confirmed_of_appended (hawaits : Awaits leader follower.config.nodeId request)
    (hattaches : Attaches follower request)
    (happended : Appended request response follower follower') :
    response.matchIndex = leader.log.entries.length ∧
      (Agreeing leader.log follower.log ->
        leader.log.entries <+: follower'.log.entries) := by
  have hprevious := hawaits.previous_le
  constructor
  · rw [happended.matched, hawaits.entries, List.length_drop]
    exact Nat.add_sub_cancel' hprevious
  · intro hagreeing
    have hcommon : leader.log.entries.take request.previousLogIndex =
        follower.log.entries.take request.previousLogIndex := by
      rcases Nat.eq_zero_or_pos request.previousLogIndex with hzero | hpos
      · rw [hzero]
        rfl
      · apply hagreeing _ hprevious hattaches.left
        rw [hawaits.previous, hattaches.right hpos]
    have hkept : follower'.log.entries.take request.previousLogIndex =
        follower.log.entries.take request.previousLogIndex := by
      rw [happended.log]
      split
      · rfl
      · exact List.take_left' (List.length_take_of_le hattaches.left)
    have hheld := happended.held
    have hwhole : leader.log.entries = follower'.log.entries.take
        (request.previousLogIndex + request.entries.length) := by
      rw [List.take_add, hheld, hkept, ← hcommon, hawaits.entries,
        List.take_append_drop]
    rw [hwhole]
    exact List.take_prefix _ _

theorem finds_heed_enters {message : Message} (leaderId : NodeId)
    (henters : Enters message follower entered) :
    (entered.heed leaderId).finds request = follower.finds request := by
  have huntouched := untouched_enters henters
  apply finds_congr
  · rw [heed_log, huntouched.log]
  · rw [heed_commitIndex, huntouched.commit]

theorem answers_of_appendEnds {message : Message} {reply : Rpc}
    (h : Repairable leader follower)
    (hawaits : Awaits leader follower.config.nodeId request)
    (hrpc : message.rpc = .appendEntriesRequest request)
    (henters : Enters message follower entered)
    (hends : AppendEnds leader.config.nodeId request entered (.ok reply)
      follower') :
    exists response, reply = .appendEntriesResponse response ∧
      Answers leader follower request response follower' := by
  have hfits := fits_of_enters henters hrpc (fits_of_awaits h hawaits)
  have hmessage : messageTerm message = leader.currentTerm := by
    unfold messageTerm
    rw [hrpc]
    exact hawaits.term
  have hterm : entered.currentTerm = leader.currentTerm := by
    cases henters with
    | current hbehind =>
        rw [hmessage] at hbehind
        exact le_antisymm h.term hbehind
    | adopted _ hsaved =>
        rcases hsaved with ⟨store, -, rfl⟩
        exact hmessage
  have huntouched := untouched_enters henters
  cases hends with
  | unfit hunfit => exact absurd hfits hunfit
  | settled _ hsettles =>
      have hfinds : (entered.heed request.leaderId).finds request =
          follower.finds request := finds_heed_enters _ henters
      have hheed : Untouched follower (entered.heed request.leaderId) := by
        apply huntouched.trans
        apply untouched_of_same <;> simp
      rcases hsettles.same with ⟨-, -, hcurrent, hconfig, -⟩
      rw [heed_currentTerm, hterm] at hcurrent
      rw [heed_config, henters.same.left] at hconfig
      have hsender : (entered.heed request.leaderId).currentTerm =
          leader.currentTerm := by
        rw [heed_currentTerm, hterm]
      have hreply := reply_of_settles leader.config.nodeId hsettles
      have hsame : Untouched follower' follower' := untouched_of_same rfl rfl rfl
      cases hsettles with
      | refused hrefuses =>
          rw [hfinds] at hrefuses
          refine ⟨_, rfl, hsender, rfl, hconfig, hcurrent, ?_, nofun⟩
          intro _
          exact ⟨hheed, regresses_of_repairable h hawaits hrefuses⟩
      | contained hcontains =>
          rw [hfinds] at hcontains
          rcases hreply with ⟨response, heq, happended, -⟩
          cases heq
          refine ⟨_, rfl, hsender, rfl, hconfig, hcurrent, nofun, ?_⟩
          intro hsuccess
          exact confirmed_of_appended hawaits (contains_of_finds hcontains).left
            ((happended hsuccess).of_untouched hheed hsame)
      | spliced hlacks hsaved =>
          rw [hfinds] at hlacks
          rcases hreply with ⟨response, heq, happended, -⟩
          cases heq
          refine ⟨_, rfl, hsender, rfl, hconfig, hcurrent, nofun, ?_⟩
          intro hsuccess
          exact confirmed_of_appended hawaits (lacks_of_finds hlacks).left
            ((happended hsuccess).of_untouched hheed hsame)

theorem follower_answers {message : Message} {r : Except Fault (Option Message)}
    (h : Repairable leader follower)
    (hawaits : Awaits leader follower.config.nodeId request)
    (hmessage : message =
      ⟨leader.config.nodeId, follower.config.nodeId, .appendEntriesRequest request⟩)
    (hresolves : Resolves message follower r follower')
    (hsaves : forall cause, r ≠ .error (.storage cause)) :
    exists response, r = .ok (some ⟨follower.config.nodeId, leader.config.nodeId,
      .appendEntriesResponse response⟩) ∧
      Answers leader follower request response follower' := by
  have hrpc : message.rpc = .appendEntriesRequest request := by
    rw [hmessage]
  have haddressed : Addressed follower message := by
    rw [hmessage]
    exact ⟨rfl, h.follower_well.isPeerLocked_iff.mpr h.known⟩
  rcases handled_of_resolves hresolves haddressed (Or.inr hsaves) with
    ⟨entered, reply, henters, rfl, hends⟩
  unfold RequestEnds at hends
  rw [hrpc] at hends
  have hsender : message.fromNode = leader.config.nodeId := by
    rw [hmessage]
  have hreceiver : message.toNode = follower.config.nodeId := by
    rw [hmessage]
  rw [hsender] at hends
  cases reply with
  | ok reply =>
      rcases answers_of_appendEnds h hawaits hrpc henters hends with
        ⟨response, rfl, hanswers⟩
      refine ⟨response, ?_, hanswers⟩
      rw [hsender, hreceiver]
      rfl
  | error fault =>
      exfalso
      have hstorage : forall cause, fault ≠ .storage cause := by
        intro cause heq
        rw [heq] at hsaves
        exact hsaves cause rfl
      cases hends with
      | settled _ hsettles =>
          cases hsettles with
          | unsaved => exact hstorage _ rfl
          | violated hviolates =>
              rw [finds_heed_enters _ henters] at hviolates
              have hattaches : Attaches follower request := by
                apply attaches_of_finds
                intro conflictIndex conflictTerm hrefuses
                rw [hviolates] at hrefuses
                cases hrefuses
              rcases finds_of_repairable h hawaits hattaches with hfound | hfound
              · rw [hviolates] at hfound
                cases hfound
              · rw [hviolates] at hfound
                cases hfound

/-!
# The leader's side
-/

theorem ensures_step_current {n : RaftNode storage random} {message : Message}
    {post : Except Fault Bool -> RaftNode storage random -> Prop}
    (haddressed : Addressed n message) (hterm : messageTerm message = n.currentTerm)
    (hdispatch : Ensures (do dispatch message.fromNode message.rpc; pure true) n post) :
    Ensures (RaftNode.step message) n post := by
  apply ensures_stepLocked_enters
  · intro hstranger
    exact absurd haddressed hstranger
  · intro cause n1 _ hlt
    exact absurd hterm (ne_of_gt hlt)
  · intro n1 _ henters
    cases henters with
    | current => exact hdispatch
    | adopted hlt => exact absurd hterm (ne_of_gt hlt)

theorem leader_retries {peer : NodeId} (hwell : WellFormed leader)
    (hleads : leader.state = .leader) (hpeer : peer ∈ leader.config.peers)
    (hid : leader.appendRequestId.valueAt peer = response.requestId)
    (hterm : response.term = leader.currentTerm)
    (hfailure : response.success = false) :
    Ensures (RaftNode.step ⟨peer, leader.config.nodeId,
      .appendEntriesResponse response⟩) leader (fun _ leader' =>
        exists previous previousTerm,
          previous + 1 = leader.retryAt peer response ∧
          Awaits leader' peer (leader.requestBehind peer previous previousTerm) ∧
          leader' = { leader with
            nextIndex := leader'.nextIndex
            appendRequestId := leader'.appendRequestId
            outbox := leader'.outbox }) := by
  refine ensures_step_current ⟨rfl, hwell.isPeerLocked_iff.mpr hpeer⟩ hterm ?_
  rw [ensures_bind]
  show Ensures (handleAppendEntriesResponseLocked peer response) leader _
  unfold handleAppendEntriesResponseLocked
  rw [ensures_bind, ensures_get, continues_ok, if_neg (by simp [hleads, hterm]),
    if_neg (by simp [hfailure])]
  rcases hwell.tracked hleads peer hpeer with
    ⟨next, reached, requestId, -, hreached, hrequest, hbelow, habove⟩
  unfold handleAppendRejection
  simp only [ensures_bind, ensures_get, continues_ok, ensures_modify,
    NodeMap.touch_of_some hrequest]
  rw [if_neg (not_not.mpr hid)]
  simp only [ensures_bind]
  refine ensures_retryIndex ?_
  simp only [continues_ok, ensures_bind, ensures_modify,
    NodeMap.touch_of_some hreached]
  have hbound : leader.retryAt peer response <= leader.log.entries.length + 1 :=
    retryAt_le_length hwell hleads hpeer
  have hpos : 0 < leader.retryAt peer response :=
    Nat.lt_of_lt_of_le (Nat.succ_pos _) (Nat.le_max_right _ _)
  rcases Nat.exists_eq_succ_of_ne_zero (Nat.ne_zero_of_lt hpos) with
    ⟨previous, hprevious⟩
  rcases Log.at?_isSome (Nat.le_of_succ_le_succ (hprevious ▸ hbound)) with
    ⟨entry, hentry⟩
  have hnext : (leader.nextIndex.assign peer (leader.retryAt peer response)) peer =
      some (previous + 1) := by
    rw [NodeMap.assign_self, hprevious]
  refine ensures_sendAppendEntriesLocked_sends (n := { leader with
    nextIndex := leader.nextIndex.assign peer (leader.retryAt peer response) })
    hnext hentry ?_
  exact ⟨previous, entry.term, hprevious.symm, awaits_withRequest hnext hentry, rfl⟩

theorem leader_records {peer : NodeId} (hwell : WellFormed leader)
    (hleads : leader.state = .leader) (hpeer : peer ∈ leader.config.peers)
    (hterm : response.term = leader.currentTerm)
    (hsuccess : response.success = true)
    (hmatch : response.matchIndex = leader.log.entries.length) :
    Ensures (RaftNode.step ⟨peer, leader.config.nodeId,
      .appendEntriesResponse response⟩) leader (fun _ leader' =>
        leader'.matchIndex peer = some leader.log.entries.length ∧
          leader'.log = leader.log) := by
  have hmatched := valueAt_matchIndex_le hwell hleads hpeer
  have hhandles : Handles ((Operation.step ⟨peer, leader.config.nodeId,
      .appendEntriesResponse response⟩).call leader) leader peer
        (.appendEntriesResponse response) := ⟨rfl, hpeer⟩
  have hrecorded := wellFormed_volatile hwell
    (.record ⟨hhandles, hleads, hterm, hsuccess, hmatch.le⟩)
  refine ensures_step_current ⟨rfl, hwell.isPeerLocked_iff.mpr hpeer⟩ hterm ?_
  rw [ensures_bind]
  show Ensures (handleAppendEntriesResponseLocked peer response) leader _
  unfold handleAppendEntriesResponseLocked
  rw [ensures_bind, ensures_get, continues_ok, if_neg (by simp [hleads, hterm]),
    if_pos hsuccess]
  unfold handleAppendSuccess
  rw [ensures_bind, ensures_get, continues_ok, if_neg (by simp [hmatch]),
    ensures_bind, ensures_modify, continues_ok, ensures_bind]
  unfold advanceCommitIndexLocked
  rw [ensures_bind, ensures_get, continues_ok]
  have hreached : (leader.matchIndex.assign peer
      (max (leader.matchIndex.valueAt peer) response.matchIndex)) peer =
        some leader.log.entries.length := by
    rw [NodeMap.assign_self, hmatch, max_eq_right hmatched]
  -- What follows the count sends requests only.
  have hrest : forall advanced : Bool,
      Preserves (fun n : RaftNode storage random => (n.matchIndex, n.log)) (do
        if advanced then
          broadcastAppendEntriesLocked
        else do
          let n <- get
          if n.matchIndex.valueAt peer < n.lastLogIndexLocked then
            sendAppendEntriesLocked peer
          else
            pure ()) := by
    intro advanced
    refine preserves_ite (preserves_broadcastAppendEntriesLocked fun _ _ _ => rfl)
      (preserves_bind preserves_get ?_)
    intro n
    exact preserves_ite (preserves_sendAppendEntriesLocked (fun _ _ _ => rfl) peer)
      (preserves_pure _)
  refine ensures_advanceFrom hrecorded hleads (Nat.le_refl _) ?_ ?_
  · rw [continues_ok]
    refine ensures_mono (hrest false _) ?_
    intro r leader' hview
    rcases Prod.mk.inj hview with ⟨hmatches, hlog⟩
    cases r <;> exact ⟨(congrFun hmatches peer).trans hreached, hlog⟩
  · intro k _ _ _ _
    rw [continues_ok]
    refine ensures_mono (hrest true _) ?_
    intro r leader' hview
    rcases Prod.mk.inj hview with ⟨hmatches, hlog⟩
    cases r <;> exact ⟨(congrFun hmatches peer).trans hreached, hlog⟩

end Rounds

/-!
# The exchange
-/

section Exchange

variable {storage random : Type} [RaftStorage storage] [RandomEngine random]

structure Pair (storage random : Type) where
  leader : RaftNode storage random
  follower : RaftNode storage random

namespace Pair

/--
The follower answers the last request of the leader, and the leader handles the
answer.  A handler that throws gives no answer.
-/
def exchange (pair : Pair storage random) :
    Option (AppendEntriesResponse × Pair storage random) := do
  let request <- pair.leader.outbox.getLast?
  match outcome (RaftNode.handleRequest request) pair.follower with
  | (.ok (some ⟨sender, receiver, .appendEntriesResponse response⟩), follower) =>
      let leader := (outcome (RaftNode.step
        ⟨sender, receiver, .appendEntriesResponse response⟩) pair.leader).2
      some (response, ⟨leader, follower⟩)
  | _ => none

def next (pair : Pair storage random) : LogIndex :=
  pair.leader.nextIndex.valueAt pair.follower.config.nodeId

end Pair

inductive Rejected : Nat -> Pair storage random -> Pair storage random -> Prop where
  | done (pair : Pair storage random) : Rejected 0 pair pair
  | again {rounds : Nat} {pair pair' last : Pair storage random}
      {response : AppendEntriesResponse}
      (hround : pair.exchange = some (response, pair'))
      (hfailure : response.success = false)
      (hrest : Rejected rounds pair' last) : Rejected (rounds + 1) pair last

def Pair.SavesSucceed (pair : Pair storage random) : Prop :=
  forall message, pair.leader.outbox.getLast? = some message ->
    Raft.SavesSucceed pair.follower (.handleRequest message)

variable {leader follower : RaftNode storage random} {pair pair' : Pair storage random}

structure Repairing (leader follower : RaftNode storage random)
    (pair : Pair storage random) : Prop where
  repairable : Repairable pair.leader pair.follower
  awaits : exists request,
    Awaits pair.leader pair.follower.config.nodeId request
  leader_log : pair.leader.log = leader.log
  follower_log : pair.follower.log = follower.log
  follower_config : pair.follower.config = follower.config

structure Repaired (leader follower : RaftNode storage random)
    (pair : Pair storage random) : Prop where
  matched : pair.leader.matchIndex follower.config.nodeId =
    some leader.log.entries.length
  leader_log : pair.leader.log = leader.log
  covered : Agreeing leader.log follower.log ->
    leader.log.entries <+: pair.follower.log.entries

omit [RaftStorage storage] [RandomEngine random] in
theorem Repairable.of_rejected {leader' follower' : RaftNode storage random}
    (h : Repairable leader follower) (hleader : leader' = { leader with
      nextIndex := leader'.nextIndex
      appendRequestId := leader'.appendRequestId
      outbox := leader'.outbox })
    (hleader_well : WellFormed leader') (hfollower_well : WellFormed follower')
    (hconfig : follower'.config = follower.config)
    (hterm : follower'.currentTerm <= leader.currentTerm)
    (huntouched : Untouched follower follower') : Repairable leader' follower' := by
  rw [hleader] at hleader_well ⊢
  refine ⟨h.leads, hleader_well, hfollower_well, ?_, ?_, ?_, h.entries_valid, ?_, ?_,
    ?_, ?_⟩
  · rw [hconfig]
    exact h.member
  · rw [hconfig]
    exact h.known
  · exact hterm
  · rw [huntouched.log]
    exact h.leader_matching
  · rw [huntouched.log]
    exact h.follower_matching
  · rw [huntouched.log, huntouched.commit]
    exact h.committed
  · rw [huntouched.log, hconfig]
    exact h.matched

theorem exchange_eq {request reply : Message} {response : AppendEntriesResponse}
    {follower' : RaftNode storage random}
    (hsent : pair.leader.outbox.getLast? = some request)
    (hrpc : reply.rpc = .appendEntriesResponse response)
    (houtcome : outcome (RaftNode.handleRequest request) pair.follower =
      (.ok (some reply), follower')) :
    pair.exchange = some (response,
      ⟨(outcome (RaftNode.step reply) pair.leader).2, follower'⟩) := by
  rcases reply with ⟨sender, receiver, rpc⟩
  cases hrpc
  unfold Pair.exchange
  rw [hsent]
  simp only [Option.bind_eq_bind, Option.bind_some, houtcome]

theorem answers_of_repairing (h : Repairing leader follower pair)
    (hsaves : pair.SavesSucceed) :
    exists request response follower',
      Awaits pair.leader pair.follower.config.nodeId request ∧
      Answers pair.leader pair.follower request response follower' ∧
      WellFormed follower' ∧
      pair.exchange = some (response, ⟨(outcome (RaftNode.step
        ⟨pair.follower.config.nodeId, pair.leader.config.nodeId,
          .appendEntriesResponse response⟩) pair.leader).2, follower'⟩) := by
  rcases h.awaits with ⟨request, hawaits⟩
  rcases houtcome : outcome (RaftNode.handleRequest ⟨pair.leader.config.nodeId,
    pair.follower.config.nodeId, .appendEntriesRequest request⟩) pair.follower with
    ⟨r, follower'⟩
  have hsaved : forall cause, r ≠ .error (.storage cause) := by
    intro cause heq
    apply hsaves _ hawaits.sent cause
    simp only [Operation.perform, outcome_bind_pure, houtcome, heq]
    rfl
  have hreplied := Replied.requested houtcome
  have hwell := wellFormed_replied h.repairable.follower_well hreplied
  rcases resolves_of_replied h.repairable.follower_well rfl hreplied with
    ⟨before, hresolves, hqueue⟩
  rcases follower_answers h.repairable hawaits rfl hresolves hsaved with
    ⟨response, rfl, hanswers⟩
  refine ⟨request, response, follower', hawaits, ?_, hwell,
    exchange_eq hawaits.sent rfl houtcome⟩
  rw [hqueue]
  refine ⟨hanswers.term, hanswers.id, hanswers.config, hanswers.current, ?_,
    hanswers.confirmed⟩
  intro hfailure
  rcases hanswers.rejected hfailure with ⟨huntouched, hregresses⟩
  exact ⟨huntouched.trans (untouched_of_same rfl rfl rfl), hregresses⟩

theorem exchange_of_repairing (h : Repairing leader follower pair)
    (hsaves : pair.SavesSucceed) :
    exists response pair', pair.exchange = some (response, pair') ∧
      ((response.success = false ∧ Repairing leader follower pair' ∧
          pair'.next < pair.next) ∨
        (response.success = true ∧ Repaired leader follower pair')) := by
  rcases answers_of_repairing h hsaves with
    ⟨request, response, follower', hawaits, hanswers, hwell, hround⟩
  have hrepairable := h.repairable
  refine ⟨response, _, hround, ?_⟩
  cases hsuccess : response.success with
  | false =>
      left
      rcases hanswers.rejected hsuccess with ⟨huntouched, hregresses⟩
      rcases leader_retries hrepairable.leader_well hrepairable.leads
        hrepairable.member (hawaits.id.trans hanswers.id.symm) hanswers.term
        hsuccess with ⟨previous, previousTerm, hprevious, hawaits', hframe⟩
      have hleader_well := (perform_spec hrepairable.leader_well
        (.step ⟨pair.follower.config.nodeId, pair.leader.config.nodeId,
          .appendEntriesResponse response⟩)).left
      simp only [Operation.perform, outcome_bind_pure] at hleader_well
      refine ⟨rfl, ⟨?_, ?_, ?_, ?_, ?_⟩, ?_⟩
      · exact hrepairable.of_rejected hframe hleader_well hwell hanswers.config
          hanswers.current.le huntouched
      · refine ⟨pair.leader.requestBehind pair.follower.config.nodeId previous
          previousTerm, ?_⟩
        show Awaits _ follower'.config.nodeId _
        rw [hanswers.config]
        exact hawaits'
      · show (outcome _ pair.leader).2.log = _
        rw [hframe]
        exact h.leader_log
      · exact huntouched.log.trans h.follower_log
      · exact hanswers.config.trans h.follower_config
      · have hnext : pair.next = request.previousLogIndex + 1 := by
          unfold Pair.next NodeMap.valueAt
          rw [hawaits.next, Option.getD_some]
        have hnext' : (outcome (RaftNode.step ⟨pair.follower.config.nodeId,
            pair.leader.config.nodeId, .appendEntriesResponse response⟩)
              pair.leader).2.nextIndex.valueAt follower'.config.nodeId =
                previous + 1 := by
          unfold NodeMap.valueAt
          rw [hanswers.config, hawaits'.next, Option.getD_some]
          rfl
        show NodeMap.valueAt _ _ < _
        rw [hnext, hnext', hprevious]
        exact Nat.lt_succ_of_le (retryAt_le hregresses)
  | true =>
      right
      rcases hanswers.confirmed hsuccess with ⟨hmatch, hcovered⟩
      rcases leader_records hrepairable.leader_well hrepairable.leads
        hrepairable.member hanswers.term hsuccess hmatch with ⟨hmatched, hlog⟩
      rw [h.leader_log] at hmatched hlog
      rw [h.leader_log, h.follower_log] at hcovered
      refine ⟨rfl, ?_, hlog, hcovered⟩
      rw [← h.follower_config]
      exact hmatched

theorem repaired_of_repairing {bound : Nat} (h : Repairing leader follower pair)
    (hbound : pair.next <= bound)
    (hsaves : forall rounds pair', Rejected rounds pair pair' -> pair'.SavesSucceed) :
    exists rounds before response after, rounds <= bound ∧
      Rejected rounds pair before ∧ before.exchange = some (response, after) ∧
      response.success = true ∧ Repaired leader follower after := by
  induction bound generalizing pair with
  | zero =>
      rcases exchange_of_repairing h (hsaves 0 pair (.done pair)) with
        ⟨response, pair', hround, hrejected | hconfirmed⟩
      · have hlower := hrejected.right.right
        lia
      · exact ⟨0, pair, response, pair', Nat.zero_le _, .done pair, hround,
          hconfirmed⟩
  | succ bound ih =>
      rcases exchange_of_repairing h (hsaves 0 pair (.done pair)) with
        ⟨response, pair', hround, ⟨hfailure, h', hlower⟩ | hconfirmed⟩
      · have hsaves' : forall rounds last, Rejected rounds pair' last ->
            last.SavesSucceed := by
          intro rounds last hrejected
          exact hsaves (rounds + 1) last (.again hround hfailure hrejected)
        rcases ih h' (by lia) hsaves' with
          ⟨rounds, before, response', after, hrounds, hrejected, hlast⟩
        exact ⟨rounds + 1, before, response', after, Nat.succ_le_succ hrounds,
          .again hround hfailure hrejected, hlast⟩
      · exact ⟨0, pair, response, pair', Nat.zero_le _, .done pair, hround,
          hconfirmed⟩

theorem repairing_of_failure {pair' : Pair storage random}
    {response : AppendEntriesResponse} (h : Repairing leader follower pair)
    (hsaves : pair.SavesSucceed) (hround : pair.exchange = some (response, pair'))
    (hfailure : response.success = false) :
    Repairing leader follower pair' ∧ pair'.next < pair.next := by
  rcases exchange_of_repairing h hsaves with ⟨response', pair'', hround', hends⟩
  rw [hround] at hround'
  cases hround'
  rcases hends with hrejected | hconfirmed
  · exact hrejected.right
  · rw [hfailure] at hconfirmed
    cases hconfirmed.left

theorem repairing_of_rejected {rounds : Nat} {start : Pair storage random}
    (h : Repairing leader follower start) (hrejected : Rejected rounds start pair)
    (hsaves : forall rounds pair', Rejected rounds start pair' ->
      Repairing leader follower pair' -> pair'.SavesSucceed) :
    Repairing leader follower pair := by
  induction hrejected with
  | done => exact h
  | @again rounds pair pair' last response hround hfailure hrest ih =>
      have hnext := repairing_of_failure h (hsaves 0 pair (.done pair) h) hround hfailure
      apply ih hnext.left
      intro rounds' pair'' hmore
      exact hsaves (rounds' + 1) pair'' (.again hround hfailure hmore)

def Pair.opening (leader follower : RaftNode storage random) :
    Pair storage random where
  leader := (outcome (sendAppendEntriesLocked follower.config.nodeId) leader).2
  follower := follower

omit [RandomEngine random] in
theorem repairing_opening (h : Repairable leader follower) :
    Repairing leader follower (Pair.opening leader follower) ∧
      (Pair.opening leader follower).next =
        leader.nextIndex.valueAt follower.config.nodeId := by
  rcases h.leader_well.tracked h.leads _ h.member with
    ⟨next, reached, requestId, hnext, -, -, hlow, hhigh⟩
  cases next with
  | zero => cases hlow
  | succ previous =>
      have hprevious : previous <= leader.log.entries.length := by
        lia
      rcases Log.at?_isSome hprevious with ⟨entry, hentry⟩
      have hterm : (leader.log.at? previous).map LogEntry.term =
          some entry.term := by
        rw [hentry, Option.map_some]
      have hsent : Ensures (sendAppendEntriesLocked follower.config.nodeId) leader
          (fun _ leader' => leader' =
            leader.withRequest follower.config.nodeId previous entry.term) :=
        ensures_sendAppendEntriesLocked_sends hnext hentry rfl
      have hvolatile : Volatile (Operation.takeMessages.call leader) leader
          (leader.withRequest follower.config.nodeId previous entry.term) :=
        .replicate h.leads h.member hprevious hterm (not_appends_of_none rfl)
      have hopening : Pair.opening leader follower =
          ⟨leader.withRequest follower.config.nodeId previous entry.term,
            follower⟩ := by
        unfold Pair.opening
        rw [show _ = _ from hsent]
      rw [hopening]
      refine ⟨⟨?_, ?_, rfl, rfl, rfl⟩, rfl⟩
      · exact h.of_rejected rfl (wellFormed_volatile h.leader_well hvolatile)
          h.follower_well rfl h.term (untouched_of_same rfl rfl rfl)
      · exact ⟨_, awaits_withRequest hnext hentry⟩

/--
A leader repairs the log of a follower.  Every rejection lowers the index from
which it sends, so that the follower confirms after at most as many rejections as
that index counts, and the leader then knows that the follower has its whole log.
-/
theorem log_repair_converges (h : Repairable leader follower)
    (hsaves : forall rounds pair,
      Rejected rounds (Pair.opening leader follower) pair -> pair.SavesSucceed) :
    (forall rounds pair response pair',
      Rejected rounds (Pair.opening leader follower) pair ->
      pair.exchange = some (response, pair') -> response.success = false ->
        pair'.next < pair.next) ∧
    exists rounds before response after,
      rounds <= leader.nextIndex.valueAt follower.config.nodeId ∧
      Rejected rounds (Pair.opening leader follower) before ∧
      before.exchange = some (response, after) ∧ response.success = true ∧
      Repaired leader follower after := by
  rcases repairing_opening h with ⟨hopening, hnext⟩
  constructor
  · intro rounds pair response pair' hrejected hround hfailure
    have hrepairing := repairing_of_rejected hopening hrejected
      (fun rounds pair hrejected _ => hsaves rounds pair hrejected)
    exact (repairing_of_failure hrepairing (hsaves _ _ hrejected) hround hfailure).right
  · exact repaired_of_repairing hopening hnext.le hsaves

end Exchange

/-!
# Two exchanges
-/

def thirdLeader (entries : List LogEntry) :
    RaftNode InMemoryRaftStorage LeastEngine where
  config := { nodeId := 1, peers := [2] }
  storage := {}
  random := {}
  state := .leader
  currentTerm := 3
  votedFor := some 1
  leaderId := some 1
  log := { entries := entries }
  members := insert 1 [2].toFinset
  votesReceived := insert 1 [2].toFinset
  nextIndex := NodeMap.empty.assign 2 3
  matchIndex := NodeMap.empty.assign 2 0
  appendRequestId := NodeMap.empty.assign 2 0

def thirdFollower (entries : List LogEntry) :
    RaftNode InMemoryRaftStorage LeastEngine where
  config := { nodeId := 2, peers := [1] }
  storage := {}
  random := {}
  currentTerm := 3
  log := { entries := entries }
  members := insert 2 [1].toFinset

theorem repairable_third {entries others : List LogEntry}
    (hlength : entries.length = 2)
    (hentries : forall entry, entry ∈ entries -> entry.term ≠ 0 ∧ entry.term <= 3)
    (hmatching : Matching ⟨entries⟩ ⟨others⟩)
    (hmatching' : Matching ⟨others⟩ ⟨entries⟩) :
    Repairable (thirdLeader entries) (thirdFollower others) := by
  have hleader : WellFormed (thirdLeader entries) := by
    refine ⟨rfl, ?_, List.nodup_singleton _, rfl, Nat.zero_le _, List.nil_suffix ..,
      Finset.Subset.refl _, ?_⟩
    · simp [thirdLeader]
    · intro _ peer hpeer
      rw [List.mem_singleton.mp hpeer]
      exact ⟨3, 0, 0, rfl, rfl, rfl, Nat.succ_pos 2, by simp [thirdLeader, hlength]⟩
  have hfollower : WellFormed (thirdFollower others) := by
    refine ⟨rfl, ?_, List.nodup_singleton _, rfl, Nat.zero_le _, List.nil_suffix ..,
      Finset.empty_subset _, ?_⟩
    · simp [thirdFollower]
    · intro hstate
      cases hstate
  exact ⟨rfl, hleader, hfollower, List.mem_singleton_self _,
    List.mem_singleton_self _, le_refl _, hentries, hmatching, hmatching',
    Nat.zero_le _, Nat.zero_le _⟩

/-- The follower's entry of term 2 gives way to the leader's entry of term 3. -/
theorem log_repair_converges_third :
    exists rounds before response after, rounds <= 3 ∧
      Rejected rounds (Pair.opening
        (thirdLeader [{ term := 1, command := [7] }, { term := 3, isNoOp := true }])
        (thirdFollower [{ term := 1, command := [7] }, { term := 2, command := [8] }]))
        before ∧
      before.exchange = some (response, after) ∧
      [{ term := 1, command := [7] }, { term := 3, isNoOp := true }] <+:
        after.follower.log.entries := by
  have hrepairable : Repairable
      (thirdLeader [{ term := 1, command := [7] }, { term := 3, isNoOp := true }])
      (thirdFollower [{ term := 1, command := [7] }, { term := 2, command := [8] }]) :=
    repairable_third rfl (by decide) (by decide) (by decide)
  have hsaves : forall pair : Pair InMemoryRaftStorage LeastEngine,
      WellFormed pair.follower -> pair.SavesSucceed :=
    fun pair hwell message _ => savesSucceed_of_save_ok
      (fun state _ => ⟨{ state := state }, rfl⟩) hwell _
  have hopening := (repairing_opening hrepairable).left
  have hexchange := log_repair_converges hrepairable fun rounds pair hrejected =>
    hsaves pair (repairing_of_rejected hopening hrejected fun _ pair _ h =>
      hsaves pair h.repairable.follower_well).repairable.follower_well
  rcases hexchange.right with
    ⟨rounds, before, response, after, hrounds, hrejected, hround, -, hrepaired⟩
  exact ⟨rounds, before, response, after, hrounds, hrejected, hround,
    hrepaired.covered (by decide)⟩

/--
Entries of terms that the other log does not have at all are not compared.  The
logs below differ at index 1 and agree at index 2, and the follower confirms at
once without holding the leader's log.
-/
theorem log_repair_keeps_difference :
    exists leader follower : RaftNode InMemoryRaftStorage LeastEngine,
      Repairable leader follower ∧ Ascending leader.log.entries ∧
      Ascending follower.log.entries ∧
      (forall entry, entry ∈ follower.log.entries ->
        entry.term ≠ 0 ∧ entry.term <= leader.currentTerm) ∧
      exists response after,
        (Pair.opening leader follower).exchange = some (response, after) ∧
        response.success = true ∧
        ¬ leader.log.entries <+: after.follower.log.entries := by
  refine ⟨thirdLeader [{ term := 1, command := [7] }, { term := 3, isNoOp := true }],
    thirdFollower [{ term := 2, command := [8] }, { term := 3, isNoOp := true }],
    repairable_third rfl (by decide) (by decide) (by decide), by decide, by decide,
    by decide, _, _, rfl, rfl, by decide⟩

end Raft
end FTKV
