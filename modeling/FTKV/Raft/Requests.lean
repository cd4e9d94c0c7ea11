import FTKV.Raft.Restart
import FTKV.Raft.Replies

/-!
# What the handlers of requests compute

The handlers of `RequestVoteRequest` and `AppendEntriesRequest` as functions of
the node they find.  The two loops over the log become one comparison of lists,
which finds what a request is to the log; everything that the handler does then
follows from that finding.
-/

namespace FTKV
namespace Raft

open Foundation
open Foundation.Effect

/-!
# Comparing a request with a log
-/

/-- What a request to append entries is to a log. -/
inductive Finding where
  /-- It contradicts the log where the log cannot change. -/
  | refuses (conflictIndex : LogIndex) (conflictTerm : Option Term)
  /-- It has another entry of the same term at some index. -/
  | violates
  /-- The log has the entries already. -/
  | contains
  /-- The log lacks some of the entries. -/
  | lacks
deriving DecidableEq, Repr

def compareEntries (commitIndex : LogIndex) :
    List LogEntry -> List LogEntry -> LogIndex -> Finding
  | [], _, _ => .contains
  | _ :: _, [], _ => .lacks
  | incoming :: rest, held :: others, index =>
      if held.term ≠ incoming.term then
        if index <= commitIndex then
          .refuses index (some held.term)
        else
          .lacks
      else if held ≠ incoming then
        .violates
      else
        compareEntries commitIndex rest others (index + 1)

theorem compareEntries_eq_contains_iff {commitIndex index : LogIndex}
    {incoming held : List LogEntry} :
    compareEntries commitIndex incoming held index = .contains <->
      incoming <+: held := by
  induction incoming, held, index using compareEntries.induct commitIndex with
  | case1 held index => simp [compareEntries]
  | case2 first rest index => simp [compareEntries]
  | case3 first rest other others index hterm hcommit =>
      rw [compareEntries, if_pos hterm, if_pos hcommit, List.cons_prefix_cons]
      constructor
      · intro h
        cases h
      · intro h
        exact absurd (congrArg LogEntry.term h.left.symm) hterm
  | case4 first rest other others index hterm hcommit =>
      rw [compareEntries, if_pos hterm, if_neg hcommit, List.cons_prefix_cons]
      constructor
      · intro h
        cases h
      · intro h
        exact absurd (congrArg LogEntry.term h.left.symm) hterm
  | case5 first rest other others index hterm hne =>
      rw [compareEntries, if_neg hterm, if_pos hne, List.cons_prefix_cons]
      constructor
      · intro h
        cases h
      · intro h
        exact absurd h.left.symm hne
  | case6 first rest other others index hterm heq ih =>
      rw [compareEntries, if_neg hterm, if_neg heq, ih, List.cons_prefix_cons]
      simp [not_not.mp heq]

theorem commitIndex_le_of_lacks {commitIndex index : LogIndex}
    {incoming held : List LogEntry}
    (h : compareEntries commitIndex incoming held (index + 1) = .lacks)
    (hheld : commitIndex <= index + held.length) :
    commitIndex <= index + incoming.length := by
  induction incoming generalizing held index with
  | nil =>
      rw [compareEntries] at h
      cases h
  | cons first rest ih =>
      cases held with
      | nil =>
          rw [List.length_nil] at hheld
          lia
      | cons other others =>
          rw [List.length_cons] at hheld ⊢
          unfold compareEntries at h
          split at h
          · split at h
            · cases h
            · lia
          · split at h
            · cases h
            · have hrest := ih h (by lia)
              lia

theorem Log.isLeast_runStart {log : Log} {term : Term} {index : LogIndex}
    (hpos : 0 < index) (hterm : (log.at? index).map LogEntry.term = some term) :
    IsLeast {start | 1 <= start ∧ forall i, start <= i -> i <= index ->
      (log.at? i).map LogEntry.term = some term} (log.runStart term index) := by
  induction index using runStart.induct log term with
  | case1 => cases hpos
  | case2 =>
      constructor
      · refine ⟨Nat.le_refl 1, ?_⟩
        intro i hlow hhigh
        rw [Nat.le_antisymm hhigh hlow]
        exact hterm
      · intro start hstart
        exact hstart.left
  | case3 below hbelow ih =>
      rcases ih (Nat.succ_pos below) hbelow with ⟨⟨hone, hrun⟩, hleast⟩
      unfold runStart
      rw [if_pos hbelow]
      constructor
      · refine ⟨hone, ?_⟩
        intro i hlow hhigh
        rcases Nat.lt_or_ge i (below + 2) with hlt | hge
        · exact hrun i hlow (by lia)
        · rw [Nat.le_antisymm hhigh hge]
          exact hterm
      · rintro start ⟨hone', hrun'⟩
        exact hleast ⟨hone', fun i hlow hhigh => hrun' i hlow (by lia)⟩
  | case4 below hbelow =>
      unfold runStart
      rw [if_neg hbelow]
      constructor
      · refine ⟨Nat.succ_pos _, ?_⟩
        intro i hlow hhigh
        rw [Nat.le_antisymm hhigh hlow]
        exact hterm
      · rintro start ⟨hone, hrun⟩
        by_contra hlt
        exact hbelow (hrun (below + 1) (by lia) (by lia))

variable {storage random : Type} {n n' : RaftNode storage random}
  {sender : NodeId} {request : AppendEntriesRequest}

def RaftNode.finds (n : RaftNode storage random)
    (request : AppendEntriesRequest) : Finding :=
  match n.log.at? request.previousLogIndex with
  | none => .refuses (n.lastLogIndexLocked + 1) none
  | some previous =>
      if request.previousLogIndex > 0 ∧
          previous.term ≠ request.previousLogTerm then
        .refuses (n.log.runStart previous.term request.previousLogIndex)
          (some previous.term)
      else
        compareEntries n.commitIndex request.entries
          (n.log.entries.drop request.previousLogIndex)
          (request.previousLogIndex + 1)

/-!
# The states and replies of the handler
-/

namespace RaftNode

def rejection (n : RaftNode storage random) (request : AppendEntriesRequest)
    (conflictIndex : LogIndex) (conflictTerm : Option Term) : Rpc :=
  .appendEntriesResponse {
    term := n.currentTerm
    success := false
    matchIndex := 0
    conflictIndex := conflictIndex
    conflictTerm := conflictTerm
    requestId := request.requestId }

def confirmation (n : RaftNode storage random) (request : AppendEntriesRequest) :
    Rpc :=
  .appendEntriesResponse {
    term := n.currentTerm
    success := true
    matchIndex := request.previousLogIndex + request.entries.length
    conflictIndex := request.previousLogIndex + request.entries.length + 1
    conflictTerm := none
    requestId := request.requestId }

def splice (n : RaftNode storage random) (request : AppendEntriesRequest) :
    RaftNode storage random :=
  { n with
    log := { entries :=
      n.log.entries.take request.previousLogIndex ++ request.entries } }

def commitTo (n : RaftNode storage random) (leaderCommit : LogIndex) :
    RaftNode storage random :=
  n.raiseCommit (max n.commitIndex (min leaderCommit n.lastLogIndexLocked))

end RaftNode

theorem raiseCommit_self (happlied : n.lastApplied = n.commitIndex) :
    n.raiseCommit n.commitIndex = n := by
  rcases n
  simp only at happlied
  simp [RaftNode.raiseCommit, RaftNode.unpublished, publications, happlied]

/-!
# Hearing from a leader
-/

section Heeding

variable [RandomEngine random]

namespace RaftNode

def followAnew (n : RaftNode storage random) (leaderId : Option NodeId) :
    RaftNode storage random :=
  { n.asFollower leaderId with
    heartbeatElapsed := 0 }.resetElectionTimeoutLocked

def heed (n : RaftNode storage random) (leaderId : NodeId) :
    RaftNode storage random :=
  if n.state ≠ .follower ∨ n.leaderId ≠ some leaderId then
    n.followAnew (some leaderId)
  else
    n.resetElectionTimeoutLocked

def adopt (n : RaftNode storage random) (term : Term) : RaftNode storage random :=
  { n with currentTerm := term, votedFor := none }.followAnew none

end RaftNode

variable (n : RaftNode storage random) (leaderId : NodeId)

@[simp] theorem heed_log : (n.heed leaderId).log = n.log := by
  unfold RaftNode.heed
  split <;> rfl

@[simp] theorem heed_commitIndex :
    (n.heed leaderId).commitIndex = n.commitIndex := by
  unfold RaftNode.heed
  split <;> rfl

@[simp] theorem heed_lastApplied :
    (n.heed leaderId).lastApplied = n.lastApplied := by
  unfold RaftNode.heed
  split <;> rfl

@[simp] theorem heed_committedEntries :
    (n.heed leaderId).committedEntries = n.committedEntries := by
  unfold RaftNode.heed
  split <;> rfl

@[simp] theorem heed_currentTerm :
    (n.heed leaderId).currentTerm = n.currentTerm := by
  unfold RaftNode.heed
  split <;> rfl

@[simp] theorem heed_config : (n.heed leaderId).config = n.config := by
  unfold RaftNode.heed
  split <;> rfl

@[simp] theorem heed_members : (n.heed leaderId).members = n.members := by
  unfold RaftNode.heed
  split <;> rfl

theorem heed_of_follows (hstate : n.state = .follower)
    (hleader : n.leaderId = some leaderId) :
    n.heed leaderId = n.resetElectionTimeoutLocked := by
  unfold RaftNode.heed
  rw [if_neg]
  intro hchange
  exact hchange.elim (absurd hstate) (absurd hleader)

theorem heed_follows :
    (n.heed leaderId).state = .follower ∧
      (n.heed leaderId).leaderId = some leaderId := by
  unfold RaftNode.heed
  split
  · exact ⟨rfl, rfl⟩
  · rename_i hsame
    rw [not_or, not_not, not_not] at hsame
    exact hsame

end Heeding

/-!
# How the handler ends
-/

def Queues (sender : NodeId)
    (ends : Except Fault Rpc -> RaftNode storage random -> Prop) :
    Except Fault Unit -> RaftNode storage random -> Prop
  | .ok _, n' => exists reply before, ends (.ok reply) before ∧
      n' = before.emit sender reply
  | .error fault, n' => ends (.error fault) n'

section Storage

variable [RaftStorage storage]

/-- How a request that passes the checks of its sender ends. -/
inductive Settles (request : AppendEntriesRequest) (n : RaftNode storage random) :
    Except Fault Rpc -> RaftNode storage random -> Prop where
  | refused {conflictIndex : LogIndex} {conflictTerm : Option Term}
      (hfinds : n.finds request = .refuses conflictIndex conflictTerm) :
      Settles request n (.ok (n.rejection request conflictIndex conflictTerm)) n
  | violated (hfinds : n.finds request = .violates) :
      Settles request n (.error (.raftError "log matching invariant violated")) n
  | contained (hfinds : n.finds request = .contains) :
      Settles request n (.ok (n.confirmation request))
        (n.commitTo request.leaderCommit)
  | spliced {n' : RaftNode storage random} (hfinds : n.finds request = .lacks)
      (hsaved : Saved (n.splice request) n') :
      Settles request n (.ok (n.confirmation request))
        (n'.commitTo request.leaderCommit)
  | unsaved {cause : StorageFault} {n' : RaftNode storage random}
      (hfinds : n.finds request = .lacks)
      (hfailed : SaveFailed (n.splice request) n') :
      Settles request n (.error (.storage cause)) n'

theorem Settles.same {request : AppendEntriesRequest} {r : Except Fault Rpc}
    (h : Settles request n r n') :
    n'.state = n.state ∧ n'.leaderId = n.leaderId ∧
      n'.currentTerm = n.currentTerm ∧ n'.config = n.config ∧
      n'.members = n.members := by
  cases h with
  | refused | violated | contained => exact ⟨rfl, rfl, rfl, rfl, rfl⟩
  | spliced _ hsaved =>
      rcases hsaved with ⟨store, -, rfl⟩
      exact ⟨rfl, rfl, rfl, rfl, rfl⟩
  | unsaved _ hfailed =>
      rcases hfailed with ⟨cause, store, -, rfl⟩
      exact ⟨rfl, rfl, rfl, rfl, rfl⟩

/-!
# The handler of requests to append entries
-/

omit [RaftStorage storage] in
theorem ensures_walkEntries_finding {entries : List LogEntry} {index : LogIndex}
    {post : Except Fault Walk -> RaftNode storage random -> Prop}
    (hindex : index <= n.log.entries.length)
    (hpost : match compareEntries n.commitIndex entries
        (n.log.entries.drop index) (index + 1) with
      | .refuses conflictIndex conflictTerm => post (.ok .rejected)
          (n.emit sender (n.rejection request conflictIndex conflictTerm))
      | .violates =>
          post (.error (.raftError "log matching invariant violated")) n
      | .contains => post (.ok (.finished false [])) n
      | .lacks => forall logChanged remaining n', remaining ≠ [] ->
          { n' with log := n'.log.insertEnd remaining } = { n with
            log := { entries := n.log.entries.take index ++ entries } } ->
          post (.ok (.finished logChanged remaining)) n') :
    Ensures (walkEntries sender request entries (index + 1)) n post := by
  induction entries generalizing index with
  | nil => exact hpost
  | cons incoming rest ih =>
      unfold walkEntries
      rw [ensures_bind, ensures_get, continues_ok,
        RaftNode.lastLogIndexLocked_eq]
      rcases Nat.lt_or_ge index n.log.entries.length with hlt | hge
      · rw [List.drop_eq_getElem_cons hlt, compareEntries] at hpost
        rw [if_pos (Nat.succ_le_of_lt hlt), ensures_bind]
        refine ensures_logAt (List.getElem?_eq_getElem hlt) ?_
        rw [continues_ok]
        split
        · rename_i hterm
          rw [if_pos hterm] at hpost
          split
          · rename_i hcommit
            rw [if_pos hcommit] at hpost
            exact hpost
          · rename_i hcommit
            rw [if_neg hcommit] at hpost
            rw [ensures_bind, ensures_modify, continues_ok]
            exact hpost true (incoming :: rest) _ (List.cons_ne_nil _ _) rfl
        · rename_i hterm
          rw [if_neg hterm] at hpost
          split
          · rename_i hne
            rw [if_pos hne] at hpost
            exact hpost
          · rename_i heq
            rw [if_neg heq] at hpost
            -- The entry that was found equal moves from the request to the log.
            have htake : n.log.entries.take (index + 1) ++ rest =
                n.log.entries.take index ++ incoming :: rest := by
              rw [List.take_succ_eq_append_getElem hlt, not_not.mp heq,
                List.append_assoc]
              rfl
            apply ih hlt
            rw [htake]
            exact hpost
      · have hlength := Nat.le_antisymm hindex hge
        rw [hlength, List.drop_length, compareEntries] at hpost
        rw [if_neg (by lia)]
        apply hpost false (incoming :: rest) n (List.cons_ne_nil _ _)
        rw [List.take_length]
        rfl

omit [RaftStorage storage] in
theorem ensures_answerAppend_commits
    {post : Except Fault Unit -> RaftNode storage random -> Prop}
    (happlied : n.lastApplied = n.commitIndex)
    (hcommitted : n.commitIndex <= n.log.entries.length)
    (hpost : post (.ok ()) ((n.commitTo request.leaderCommit).emit sender
      (n.confirmation request))) :
    Ensures (answerAppend sender request) n post := by
  unfold RaftNode.commitTo at hpost
  rw [RaftNode.lastLogIndexLocked_eq] at hpost
  unfold answerAppend
  rw [ensures_bind, ensures_get, continues_ok, ensures_bind]
  split
  · rename_i hcommit
    rw [ensures_bind, ensures_modify, continues_ok,
      RaftNode.lastLogIndexLocked_eq]
    have hlow : n.commitIndex <= min request.leaderCommit n.log.entries.length :=
      Nat.le_min.mpr ⟨Nat.le_of_lt hcommit, hcommitted⟩
    rw [max_eq_right hlow] at hpost
    exact ensures_applyCommittedEntriesLocked happlied hlow
      (Nat.min_le_right _ _) hpost
  · rename_i hcommit
    rw [max_eq_left ((Nat.min_le_left _ _).trans (not_lt.mp hcommit)),
      raiseCommit_self happlied] at hpost
    exact hpost

theorem ensures_appendAfterPrevious_settles
    (happlied : n.lastApplied = n.commitIndex)
    (hcommitted : n.commitIndex <= n.log.entries.length) :
    Ensures (appendAfterPrevious sender request) n
      (Queues sender (Settles request n)) := by
  unfold appendAfterPrevious
  rw [ensures_bind, ensures_get, continues_ok, RaftNode.lastLogIndexLocked_eq]
  split
  · rename_i hshort
    refine ⟨_, n, .refused ?_, rfl⟩
    have hnone : n.log.at? request.previousLogIndex = none :=
      List.getElem?_eq_none hshort
    unfold RaftNode.finds
    rw [hnone]
    rfl
  · rename_i hprevious
    rw [not_lt] at hprevious
    rcases Log.at?_isSome hprevious with ⟨previous, hlookup⟩
    rw [ensures_bind]
    refine ensures_logAt hlookup ?_
    rw [continues_ok]
    split
    · rename_i hmismatch
      rw [ensures_bind]
      refine ensures_conflictStart hprevious ?_
      refine ⟨_, n, .refused ?_, rfl⟩
      unfold RaftNode.finds
      simp only [hlookup]
      rw [if_pos hmismatch]
    · rename_i hmatch
      have hfinds : n.finds request = compareEntries n.commitIndex
          request.entries (n.log.entries.drop request.previousLogIndex)
            (request.previousLogIndex + 1) := by
        unfold RaftNode.finds
        simp only [hlookup]
        rw [if_neg hmatch]
      rw [ensures_bind]
      apply ensures_walkEntries_finding hprevious
      rw [← hfinds]
      cases hfinding : n.finds request with
      | refuses conflictIndex conflictTerm =>
          exact ⟨_, n, .refused hfinding, rfl⟩
      | violates => exact .violated hfinding
      | contains =>
          change Ensures (finishAppend sender request false []) n
            (Queues sender (Settles request n))
          unfold finishAppend
          simp only [ne_eq, not_true_eq_false, if_false, decide_false,
            Bool.or_self, Bool.false_eq_true, ensures_bind, ensures_pure,
            continues_ok]
          apply ensures_answerAppend_commits happlied hcommitted
          exact ⟨_, _, .contained hfinding, rfl⟩
      | lacks =>
          intro logChanged remaining n1 hremaining hlog
          change Ensures (finishAppend sender request logChanged remaining) n1
            (Queues sender (Settles request n))
          unfold finishAppend
          rw [if_pos hremaining, if_pos (by simp [hremaining]), ensures_bind,
            ensures_modify, continues_ok, ensures_bind, hlog]
          have hreached : n.commitIndex <=
              (n.splice request).log.entries.length := by
            unfold RaftNode.splice
            rw [hfinds] at hfinding
            simp only [List.length_append, List.length_take_of_le hprevious]
            apply commitIndex_le_of_lacks hfinding
            rw [List.length_drop]
            lia
          apply ensures_persistLocked
          · intro n2 hsaved
            have hends := Settles.spliced hfinding hsaved
            rcases hsaved with ⟨store, -, rfl⟩
            rw [continues_ok]
            exact ensures_answerAppend_commits happlied hreached ⟨_, _, hends, rfl⟩
          · intro cause n2 hfailed
            exact .unsaved hfinding hfailed

structure Fits (n : RaftNode storage random) (sender : NodeId)
    (request : AppendEntriesRequest) : Prop where
  sender_leads : request.leaderId = sender
  current : n.currentTerm <= request.term
  entries_valid : forall entry, entry ∈ request.entries ->
    entry.term ≠ 0 ∧ entry.term <= request.term

section Random

variable [RandomEngine random]

inductive AppendEnds (sender : NodeId) (request : AppendEntriesRequest)
    (n : RaftNode storage random) :
    Except Fault Rpc -> RaftNode storage random -> Prop where
  | unfit (hunfit : ¬ Fits n sender request) :
      AppendEnds sender request n
        (.ok (n.rejection request (n.lastLogIndexLocked + 1) none)) n
  | settled {r : Except Fault Rpc} {n' : RaftNode storage random}
      (hfits : Fits n sender request)
      (hsettles : Settles request (n.heed request.leaderId) r n') :
      AppendEnds sender request n r n'

theorem ensures_becomeFollowerLocked_anew {leaderId : Option NodeId}
    {post : Except Fault Unit -> RaftNode storage random -> Prop}
    (hpost : post (.ok ()) (n.followAnew leaderId)) :
    Ensures (becomeFollowerLocked n.currentTerm leaderId) n post := by
  unfold becomeFollowerLocked
  simp only [ensures_bind, ensures_get, continues_ok, lt_self_iff_false,
    decide_false, Bool.false_eq_true, if_false, ensures_pure, ensures_modify]
  exact hpost

theorem ensures_becomeFollowerLocked_adopts {term : Term}
    {post : Except Fault Unit -> RaftNode storage random -> Prop}
    (hterm : n.currentTerm < term)
    (hok : forall n', Saved (n.adopt term) n' -> post (.ok ()) n')
    (herror : forall cause n', SaveFailed (n.adopt term) n' ->
      post (.error (.storage cause)) n') :
    Ensures (becomeFollowerLocked term none) n post := by
  unfold becomeFollowerLocked
  simp only [ensures_bind, ensures_get, continues_ok, hterm, decide_true,
    if_true, ensures_modify]
  exact ensures_persistLocked hok herror

theorem ensures_handleAppendEntriesLocked_ends
    (happlied : n.lastApplied = n.commitIndex)
    (hcommitted : n.commitIndex <= n.log.entries.length) :
    Ensures (handleAppendEntriesLocked sender request) n
      (Queues sender (AppendEnds sender request n)) := by
  have hunfit : ¬ Fits n sender request -> Queues sender
      (AppendEnds sender request n) (.ok ()) (n.emit sender
        (n.rejection request (n.lastLogIndexLocked + 1) none)) :=
    fun hunfit => ⟨_, n, .unfit hunfit, rfl⟩
  unfold handleAppendEntriesLocked
  rw [ensures_bind, ensures_get, continues_ok]
  split
  · rename_i hsender
    apply hunfit
    intro hfits
    rcases hsender with hleader | hstale
    · exact hleader hfits.sender_leads
    · exact not_le.mpr hstale hfits.current
  · rename_i hsender
    rw [not_or, not_not, not_lt] at hsender
    split
    · rename_i hinvalid
      apply hunfit
      intro hfits
      rcases List.any_eq_true.mp hinvalid with ⟨entry, hentry, hterm⟩
      simp only [Bool.or_eq_true, decide_eq_true_eq] at hterm
      rcases hfits.entries_valid entry hentry with ⟨hzero, hle⟩
      exact hterm.elim hzero (not_lt.mpr hle)
    · rename_i hentries
      have hfits : Fits n sender request := by
        refine ⟨hsender.left, hsender.right, ?_⟩
        simpa [not_or] using hentries
      have hsettles : Ensures (appendAfterPrevious sender request)
          (n.heed request.leaderId)
          (Queues sender (AppendEnds sender request n)) := by
        refine ensures_mono (ensures_appendAfterPrevious_settles
          (by simpa using happlied) (by simpa using hcommitted)) ?_
        intro r n1 hsends
        cases r with
        | ok _ =>
            rcases hsends with ⟨reply, before, hends, rfl⟩
            exact ⟨reply, before, .settled hfits hends, rfl⟩
        | error fault => exact .settled hfits hsends
      unfold RaftNode.heed at hsettles
      rw [ensures_bind]
      split
      · rename_i hchange
        rw [if_pos hchange] at hsettles
        exact ensures_becomeFollowerLocked_anew hsettles
      · rename_i hsame
        rw [if_neg hsame] at hsettles
        exact hsettles

/-!
# The handler of requests for votes
-/

structure Grants (n : RaftNode storage random) (sender : NodeId)
    (request : RequestVoteRequest) : Prop where
  candidate : request.candidateId = sender
  current : n.currentTerm <= request.term
  free : n.votedFor = none ∨ n.votedFor = some sender
  log_current : n.candidateLogIsCurrentLocked request = true

def RaftNode.ballot (n : RaftNode storage random) (granted : Bool) : Rpc :=
  .requestVoteResponse { term := n.currentTerm, voteGranted := granted }

inductive VoteEnds (sender : NodeId) (request : RequestVoteRequest)
    (n : RaftNode storage random) :
    Except Fault Rpc -> RaftNode storage random -> Prop where
  | denied (hdenied : ¬ Grants n sender request) :
      VoteEnds sender request n (.ok (n.ballot false)) n
  | repeated (hgrants : Grants n sender request)
      (hvoted : n.votedFor = some sender) :
      VoteEnds sender request n (.ok (n.ballot true)) n.resetElectionTimeoutLocked
  | granted {n' : RaftNode storage random} (hgrants : Grants n sender request)
      (hnone : n.votedFor = none)
      (hsaved : Saved { n with votedFor := some sender } n') :
      VoteEnds sender request n (.ok (n.ballot true))
        n'.resetElectionTimeoutLocked
  | unsaved {cause : StorageFault} {n' : RaftNode storage random}
      (hgrants : Grants n sender request) (hnone : n.votedFor = none)
      (hfailed : SaveFailed { n with votedFor := some sender } n') :
      VoteEnds sender request n (.error (.storage cause)) n'

theorem ensures_handleRequestVoteLocked_ends {request : RequestVoteRequest} :
    Ensures (handleRequestVoteLocked sender request) n
      (Queues sender (VoteEnds sender request n)) := by
  have hdenied : ¬ Grants n sender request -> Queues sender
      (VoteEnds sender request n) (.ok ()) (n.emit sender (n.ballot false)) :=
    fun hdenied => ⟨_, n, .denied hdenied, rfl⟩
  unfold handleRequestVoteLocked
  rw [ensures_bind, ensures_get, continues_ok]
  split
  · rename_i hsender
    apply hdenied
    intro hgrants
    rcases hsender with hcandidate | hstale
    · exact hcandidate hgrants.candidate
    · exact not_le.mpr hstale hgrants.current
  · rename_i hsender
    rw [not_or, not_not, not_lt] at hsender
    rw [ensures_bind]
    split
    · rename_i hgrant
      rw [hgrant]
      rw [Bool.and_eq_true, decide_eq_true_eq, hsender.left] at hgrant
      have hgrants : Grants n sender request :=
        ⟨hsender.left, hsender.right, hgrant.left, hgrant.right⟩
      rw [ensures_bind]
      split
      · rename_i hnew
        rw [hsender.left] at hnew
        have hnone := hgrant.left.resolve_right hnew
        rw [ensures_bind, ensures_modify, continues_ok, hsender.left]
        apply ensures_persistLocked
        · intro n1 hsaved
          have hends := VoteEnds.granted hgrants hnone hsaved
          rcases hsaved with ⟨store, -, rfl⟩
          exact ⟨_, _, hends, rfl⟩
        · intro cause n1 hfailed
          exact .unsaved hgrants hnone hfailed
      · rename_i hvoted
        rw [hsender.left, not_not] at hvoted
        exact ⟨_, _, .repeated hgrants hvoted, rfl⟩
    · rename_i hgrant
      have hdeny : ¬ Grants n sender request := by
        intro hgrants
        apply hgrant
        rw [Bool.and_eq_true, decide_eq_true_eq, hsender.left]
        exact ⟨hgrants.free, hgrants.log_current⟩
      rw [Bool.not_eq_true] at hgrant
      rw [ensures_pure, continues_ok, ensures_bind, ensures_get, continues_ok,
        hgrant]
      exact hdenied hdeny

/-!
# Whole requests
-/

def Addressed (n : RaftNode storage random) (message : Message) : Prop :=
  message.toNode = n.config.nodeId ∧ n.isPeerLocked message.fromNode = true

/-- The node that handles a message: it has taken over a higher term. -/
inductive Enters (message : Message) (n : RaftNode storage random) :
    RaftNode storage random -> Prop where
  | current (hterm : messageTerm message <= n.currentTerm) : Enters message n n
  | adopted {n' : RaftNode storage random}
      (hterm : n.currentTerm < messageTerm message)
      (hsaved : Saved (n.adopt (messageTerm message)) n') : Enters message n n'

theorem ensures_stepLocked_enters {message : Message}
    {post : Except Fault Bool -> RaftNode storage random -> Prop}
    (hignored : ¬ Addressed n message -> post (.ok false) n)
    (hunsaved : forall cause n', Addressed n message ->
      n.currentTerm < messageTerm message ->
        SaveFailed (n.adopt (messageTerm message)) n' ->
          post (.error (.storage cause)) n')
    (henters : forall n', Addressed n message -> Enters message n n' ->
      Ensures (do dispatch message.fromNode message.rpc; pure true) n' post) :
    Ensures (stepLocked message) n post := by
  unfold stepLocked
  rw [ensures_bind, ensures_get, continues_ok]
  split
  · rename_i hstranger
    apply hignored
    intro haddressed
    exact hstranger.elim (absurd haddressed.left) (absurd haddressed.right)
  · rename_i haddressed
    rw [not_or, not_not, not_not] at haddressed
    rw [ensures_bind]
    split
    · rename_i hterm
      apply ensures_becomeFollowerLocked_adopts hterm
      · intro n1 hsaved
        exact henters n1 haddressed (.adopted hterm hsaved)
      · intro cause n1 hfailed
        exact hunsaved cause n1 haddressed hterm hfailed
    · rename_i hterm
      exact henters n haddressed (.current (not_lt.mp hterm))

def RequestEnds (sender : NodeId) (n : RaftNode storage random) :
    Rpc -> Except Fault Rpc -> RaftNode storage random -> Prop
  | .requestVoteRequest request => VoteEnds sender request n
  | .appendEntriesRequest request => AppendEnds sender request n
  | _ => fun _ _ => False

theorem requestEnds_cases {beta : Type} (view : RaftNode storage random -> beta)
    (hview : forall (n : RaftNode storage random) store vote engine timeout elapsed,
      view { n with
        storage := store
        votedFor := vote
        random := engine
        electionTimeout := timeout
        electionElapsed := elapsed } = view n)
    {sender : NodeId} {rpc : Rpc} {r : Except Fault Rpc}
    (hends : RequestEnds sender n rpc r n') :
    n'.state = .follower ∨ view n' = view n := by
  cases rpc with
  | requestVoteRequest request =>
      right
      cases hends with
      | denied => rfl
      | repeated => exact hview n n.storage n.votedFor _ _ _
      | granted _ _ hsaved =>
          rcases hsaved with ⟨store, -, rfl⟩
          exact hview n store (some sender) _ _ _
      | unsaved _ _ hfailed =>
          rcases hfailed with ⟨cause, store, -, rfl⟩
          exact hview n store (some sender) n.random n.electionTimeout
            n.electionElapsed
  | appendEntriesRequest request =>
      cases hends with
      | unfit => exact Or.inr rfl
      | settled _ hsettles =>
          left
          rw [hsettles.same.left]
          exact (heed_follows n request.leaderId).left
  | requestVoteResponse | appendEntriesResponse => exact hends.elim

/-- How a request ends: the reply, or the fault, and the node without the reply. -/
inductive Resolves (message : Message) (n : RaftNode storage random) :
    Except Fault (Option Message) -> RaftNode storage random -> Prop where
  | ignored (hstranger : ¬ Addressed n message) : Resolves message n (.ok none) n
  | unsaved {cause : StorageFault} {n' : RaftNode storage random}
      (haddressed : Addressed n message)
      (hterm : n.currentTerm < messageTerm message)
      (hfailed : SaveFailed (n.adopt (messageTerm message)) n') :
      Resolves message n (.error (.storage cause)) n'
  | answered {entered n' : RaftNode storage random} {reply : Rpc}
      (haddressed : Addressed n message) (henters : Enters message n entered)
      (hends : RequestEnds message.fromNode entered message.rpc (.ok reply) n') :
      Resolves message n
        (.ok (some ⟨message.toNode, message.fromNode, reply⟩)) n'
  | thrown {entered n' : RaftNode storage random} {fault : Fault}
      (haddressed : Addressed n message) (henters : Enters message n entered)
      (hends : RequestEnds message.fromNode entered message.rpc (.error fault) n') :
      Resolves message n (.error fault) n'

inductive Replied (message : Message) (n : RaftNode storage random) :
    Except Fault (Option Message) -> RaftNode storage random -> Prop where
  | requested {r : Except Fault (Option Message)} {n' : RaftNode storage random}
      (houtcome : outcome (RaftNode.handleRequest message) n = (r, n')) :
      Replied message n r n'
  | ignored {n' : RaftNode storage random}
      (houtcome : outcome (RaftNode.step message) n = (.ok false, n')) :
      Replied message n (.ok none) n'
  | queued {reply : Message} {n' : RaftNode storage random}
      (houtcome : outcome (RaftNode.step message) n = (.ok true, n'))
      (houtbox : n'.outbox = n.outbox ++ [reply]) :
      Replied message n (.ok (some reply)) n'
  | thrown {fault : Fault} {n' : RaftNode storage random}
      (houtcome : outcome (RaftNode.step message) n = (.error fault, n')) :
      Replied message n (.error fault) n'

theorem Enters.same {message : Message} (h : Enters message n n') :
    n'.config = n.config ∧ n'.log = n.log ∧ n'.commitIndex = n.commitIndex ∧
      n'.lastApplied = n.lastApplied ∧ n'.committedEntries = n.committedEntries ∧
      n'.outbox = n.outbox := by
  cases h with
  | current => exact ⟨rfl, rfl, rfl, rfl, rfl, rfl⟩
  | adopted hterm hsaved =>
      rcases hsaved with ⟨store, -, rfl⟩
      exact ⟨rfl, rfl, rfl, rfl, rfl, rfl⟩

theorem Enters.wellFormed {message : Message} (henters : Enters message n n')
    (h : WellFormed n) : WellFormed n' := by
  cases henters with
  | current => exact h
  | adopted hterm hsaved =>
      have hadopt : Durable
          { inbox := some message, term := n.currentTerm, outbox := n.outbox } n
          { n.asFollower none with
            currentTerm := messageTerm message
            votedFor := none } := .adopt rfl hterm
      have htimer : Volatile
          { inbox := some message, term := n.currentTerm, outbox := n.outbox }
          { n.asFollower none with
            currentTerm := messageTerm message
            votedFor := none } (n.adopt (messageTerm message)) :=
        .timer _ _ 0 0
      exact wellFormed_saved
        (wellFormed_volatile (wellFormed_durable h hadopt) htimer) hsaved

theorem Enters.addressed {message : Message} (h : Enters message n n')
    (haddressed : Addressed n message) :
    Addressed n' message ∧ messageTerm message <= n'.currentTerm := by
  cases h with
  | current hterm => exact ⟨haddressed, hterm⟩
  | adopted hterm hsaved =>
      rcases hsaved with ⟨store, -, rfl⟩
      exact ⟨haddressed, le_refl _⟩

theorem ensures_dispatch_ends {message : Message}
    (hrequest : RaftNode.isRequest message = true)
    (happlied : n.lastApplied = n.commitIndex)
    (hcommitted : n.commitIndex <= n.log.entries.length) :
    Ensures (dispatch message.fromNode message.rpc) n
      (Queues message.fromNode (RequestEnds message.fromNode n message.rpc)) := by
  rcases message with ⟨sender, receiver, rpc⟩
  cases rpc with
  | requestVoteRequest request => exact ensures_handleRequestVoteLocked_ends
  | appendEntriesRequest request =>
      exact ensures_handleAppendEntriesLocked_ends happlied hcommitted
  | requestVoteResponse response => cases hrequest
  | appendEntriesResponse response => cases hrequest

def Stepped (message : Message) (n : RaftNode storage random) :
    Except Fault Bool -> RaftNode storage random -> Prop
  | .ok false, n' => Resolves message n (.ok none) n'
  | .ok true, n' => exists reply before,
      Resolves message n (.ok (some reply)) before ∧
        n' = { before with outbox := n.outbox ++ [reply] }
  | .error fault, n' => Resolves message n (.error fault) n'

theorem ensures_stepLocked_stepped {message : Message} (h : WellFormed n)
    (hrequest : RaftNode.isRequest message = true) :
    Ensures (stepLocked message) n (Stepped message n) := by
  apply ensures_stepLocked_enters
  · exact Resolves.ignored
  · intro cause n1 haddressed hterm hfailed
    exact .unsaved haddressed hterm hfailed
  · intro entered haddressed henters
    rcases henters.same with ⟨hconfig, hlog, hcommit, happlied, -, hqueue⟩
    have hcommitted := h.committed
    rw [← hcommit, ← hlog] at hcommitted
    have hends : Ensures (dispatch message.fromNode message.rpc) entered
        (fun r n1 => Queues message.fromNode
          (RequestEnds message.fromNode entered message.rpc) r n1 ∧
          Answered message.fromNode message.rpc entered r n1) :=
      ⟨ensures_dispatch_ends hrequest
        (happlied.trans (h.applied.trans hcommit.symm)) hcommitted,
        answering_dispatch hrequest entered⟩
    refine ensures_bind_of hends ?_ ?_
    · rintro _ n1 ⟨⟨reply, before, hreply, rfl⟩, hconfig', rpc, -, houtbox⟩
      have hself : before.config.nodeId = message.toNode := by
        rw [haddressed.left, ← hconfig, ← hconfig']
        rfl
      have hbefore : before.outbox = n.outbox := by
        rw [← hqueue]
        exact (List.append_inj' houtbox rfl).left
      refine ⟨_, before, .answered haddressed henters hreply, ?_⟩
      rw [← hself, ← hbefore]
      rfl
    · rintro fault n1 ⟨hfault, -⟩
      exact .thrown haddressed henters hfault

theorem resolves_of_replied {message : Message}
    {r : Except Fault (Option Message)} (h : WellFormed n)
    (hrequest : RaftNode.isRequest message = true)
    (hreplied : Replied message n r n') :
    exists before, Resolves message n r before ∧
      n' = { before with outbox := n'.outbox } := by
  have hstepped : forall r1 n1, outcome (RaftNode.step message) n = (r1, n1) ->
      Stepped message n r1 n1 := by
    intro r1 n1 houtcome
    have hstepped := ensures_stepLocked_stepped h hrequest
    change Ensures (RaftNode.step message) n _ at hstepped
    unfold Ensures at hstepped
    rw [houtcome] at hstepped
    exact hstepped
  have hqueued : forall reply n1, n1.outbox = n.outbox ++ [reply] ->
      Stepped message n (.ok true) n1 -> exists before,
        Resolves message n (.ok (some reply)) before ∧
          n1 = { before with outbox := n1.outbox } := by
    rintro reply n1 houtbox ⟨other, before, hresolves, rfl⟩
    cases List.append_cancel_left houtbox
    exact ⟨before, hresolves, rfl⟩
  cases hreplied with
  | ignored houtcome => exact ⟨n', hstepped _ _ houtcome, rfl⟩
  | thrown houtcome => exact ⟨n', hstepped _ _ houtcome, rfl⟩
  | queued houtcome houtbox => exact hqueued _ _ houtbox (hstepped _ _ houtcome)
  | requested houtcome =>
      have hrequested := ensures_handleRequest_requested hrequest n
      unfold Ensures at hrequested
      rw [houtcome] at hrequested
      cases hrequested with
      | ignored hstep => exact ⟨n', hstepped _ _ hstep, rfl⟩
      | thrown hstep houtbox => exact ⟨n', hstepped _ _ hstep, rfl⟩
      | answered hstep hanswer houtbox =>
          rcases hqueued _ _ houtbox (hstepped _ _ hstep) with
            ⟨before, hresolves, hsame⟩
          refine ⟨before, hresolves, ?_⟩
          rw [hsame]

end Random

end Storage

end Raft
end FTKV
