import FTKV.Raft.Requests

/-!
# The log after a request to append entries

A request that is confirmed leaves the log as it was if the log has the entries
already, and otherwise puts them behind the previous index in place of
everything that stood there.  A request that is rejected, or that makes the
handler throw, leaves the log, the commit index and the published entries alone.
-/

namespace FTKV
namespace Raft

open Foundation
open Foundation.Effect

variable {storage random : Type} {n n' : RaftNode storage random}
  {sender : NodeId} {request : AppendEntriesRequest}

/-!
# What is found
-/

theorem finds_congr (hlog : n'.log = n.log) (hcommit : n'.commitIndex = n.commitIndex) :
    n'.finds request = n.finds request := by
  unfold RaftNode.finds
  rw [RaftNode.lastLogIndexLocked_eq, RaftNode.lastLogIndexLocked_eq, hlog, hcommit]

/-- The log has an entry at the previous index, of the previous term. -/
def Attaches (n : RaftNode storage random) (request : AppendEntriesRequest) : Prop :=
  request.previousLogIndex <= n.log.entries.length ∧
    (0 < request.previousLogIndex ->
      (n.log.at? request.previousLogIndex).map LogEntry.term =
        some request.previousLogTerm)

theorem finds_of_attaches (h : Attaches n request) :
    n.finds request = compareEntries n.commitIndex request.entries
      (n.log.entries.drop request.previousLogIndex)
        (request.previousLogIndex + 1) := by
  rcases Log.at?_isSome h.left with ⟨previous, hprevious⟩
  have hterm := h.right
  rw [hprevious, Option.map_some] at hterm
  unfold RaftNode.finds
  simp only [hprevious]
  rw [if_neg]
  intro hmismatch
  exact hmismatch.right (Option.some.inj (hterm hmismatch.left))

theorem finds_of_not_attaches (h : ¬ Attaches n request) :
    exists conflictIndex conflictTerm,
      n.finds request = .refuses conflictIndex conflictTerm := by
  unfold RaftNode.finds
  cases hprevious : n.log.at? request.previousLogIndex with
  | none => exact ⟨_, _, rfl⟩
  | some previous =>
      refine ⟨_, _, if_pos ?_⟩
      by_contra hmatch
      apply h
      refine ⟨Log.le_length_of_at? hprevious, ?_⟩
      intro hpos
      rw [hprevious, Option.map_some]
      by_contra hne
      exact hmatch ⟨hpos, fun heq => hne (congrArg some heq)⟩

theorem attaches_of_finds
    (h : forall conflictIndex conflictTerm,
      n.finds request ≠ .refuses conflictIndex conflictTerm) :
    Attaches n request := by
  by_contra hattaches
  rcases finds_of_not_attaches hattaches with ⟨conflictIndex, conflictTerm, heq⟩
  exact h conflictIndex conflictTerm heq

theorem contains_of_finds (h : n.finds request = .contains) :
    Attaches n request ∧
      request.entries <+: n.log.entries.drop request.previousLogIndex := by
  have hattaches : Attaches n request := by
    apply attaches_of_finds
    intro conflictIndex conflictTerm heq
    rw [h] at heq
    cases heq
  rw [finds_of_attaches hattaches] at h
  exact ⟨hattaches, compareEntries_eq_contains_iff.mp h⟩

theorem lacks_of_finds (h : n.finds request = .lacks) :
    Attaches n request ∧
      ¬ request.entries <+: n.log.entries.drop request.previousLogIndex := by
  have hattaches : Attaches n request := by
    apply attaches_of_finds
    intro conflictIndex conflictTerm heq
    rw [h] at heq
    cases heq
  rw [finds_of_attaches hattaches] at h
  refine ⟨hattaches, ?_⟩
  intro hcontains
  rw [compareEntries_eq_contains_iff.mpr hcontains] at h
  cases h

/-!
# What a request leaves behind
-/

/-- The log, the commit index and the published entries are as before. -/
structure Untouched (n n' : RaftNode storage random) : Prop where
  log : n'.log = n.log
  commit : n'.commitIndex = n.commitIndex
  published : n'.published = n.published
  pending : n'.committedEntries = n.committedEntries

structure Appended (request : AppendEntriesRequest)
    (response : AppendEntriesResponse) (n n' : RaftNode storage random) : Prop where
  log : n'.log.entries =
    if request.entries <+: n.log.entries.drop request.previousLogIndex then
      n.log.entries
    else
      n.log.entries.take request.previousLogIndex ++ request.entries
  previous_le : request.previousLogIndex <= n.log.entries.length
  held : (n'.log.entries.drop request.previousLogIndex).take
    request.entries.length = request.entries
  matched : response.matchIndex =
    request.previousLogIndex + request.entries.length
  commit : n'.commitIndex =
    max n.commitIndex (min request.leaderCommit n'.lastLogIndexLocked)

structure Refused (sender : NodeId) (request : AppendEntriesRequest)
    (response : AppendEntriesResponse) (n n' : RaftNode storage random) : Prop where
  untouched : Untouched n n'
  /-- A rejection for the term of the previous entry names the start of its run. -/
  conflict : Fits n sender request -> 0 < request.previousLogIndex ->
    forall previous, n.log.at? request.previousLogIndex = some previous ->
      previous.term ≠ request.previousLogTerm ->
        response.conflictTerm = some previous.term ∧
        IsLeast {start | 1 <= start ∧ forall i, start <= i ->
          i <= request.previousLogIndex ->
            (n.log.at? i).map LogEntry.term = some previous.term}
          response.conflictIndex

theorem untouched_of_same (hlog : n'.log = n.log)
    (hcommit : n'.commitIndex = n.commitIndex)
    (hpending : n'.committedEntries = n.committedEntries) : Untouched n n' := by
  refine ⟨hlog, hcommit, ?_, hpending⟩
  unfold RaftNode.published
  rw [hlog, hcommit]

theorem Untouched.trans {middle : RaftNode storage random}
    (h : Untouched n middle) (h' : Untouched middle n') : Untouched n n' :=
  ⟨h'.log.trans h.log, h'.commit.trans h.commit, h'.published.trans h.published,
    h'.pending.trans h.pending⟩

theorem Appended.of_untouched {response : AppendEntriesResponse}
    {before after : RaftNode storage random}
    (h : Appended request response n n') (hbefore : Untouched before n)
    (hafter : Untouched n' after) : Appended request response before after := by
  constructor
  case log =>
    rw [hafter.log, ← hbefore.log]
    exact h.log
  case previous_le =>
    rw [← hbefore.log]
    exact h.previous_le
  case held =>
    rw [hafter.log]
    exact h.held
  case matched => exact h.matched
  case commit =>
    rw [hafter.commit, ← hbefore.commit, RaftNode.lastLogIndexLocked_eq, hafter.log]
    exact h.commit

theorem Refused.of_untouched {response : AppendEntriesResponse}
    {before after : RaftNode storage random}
    (h : Refused sender request response n n') (hbefore : Untouched before n)
    (hafter : Untouched n' after)
    (hfits : Fits before sender request -> Fits n sender request) :
    Refused sender request response before after := by
  refine ⟨(hbefore.trans h.untouched).trans hafter, ?_⟩
  intro hpass hpos previous hprevious hterm
  rw [← hbefore.log] at hprevious ⊢
  exact h.conflict (hfits hpass) hpos previous hprevious hterm

theorem conflict_of_finds {conflictIndex : LogIndex} {conflictTerm : Option Term}
    {previous : LogEntry}
    (hfinds : n.finds request = .refuses conflictIndex conflictTerm)
    (hpos : 0 < request.previousLogIndex)
    (hprevious : n.log.at? request.previousLogIndex = some previous)
    (hterm : previous.term ≠ request.previousLogTerm) :
    conflictTerm = some previous.term ∧
      IsLeast {start | 1 <= start ∧ forall i, start <= i ->
        i <= request.previousLogIndex ->
          (n.log.at? i).map LogEntry.term = some previous.term} conflictIndex := by
  unfold RaftNode.finds at hfinds
  simp only [hprevious] at hfinds
  rw [if_pos ⟨hpos, hterm⟩] at hfinds
  cases hfinds
  refine ⟨rfl, Log.isLeast_runStart hpos ?_⟩
  rw [hprevious, Option.map_some]

section Storage

variable [RaftStorage storage]

theorem reply_of_settles (sender : NodeId) {reply : Rpc}
    (h : Settles request n (.ok reply) n') :
    exists response, reply = .appendEntriesResponse response ∧
      (response.success = true -> Appended request response n n') ∧
      (response.success = false -> Refused sender request response n n') := by
  cases h with
  | refused hfinds =>
      refine ⟨_, rfl, nofun, fun _ => ⟨untouched_of_same rfl rfl rfl, ?_⟩⟩
      intro _ hpos previous hprevious hterm
      exact conflict_of_finds hfinds hpos hprevious hterm
  | contained hfinds =>
      rcases contains_of_finds hfinds with ⟨hattaches, hcontains⟩
      refine ⟨_, rfl, fun _ => ⟨?_, hattaches.left, ?_, rfl, rfl⟩, nofun⟩
      · rw [if_pos hcontains]
        rfl
      · exact (List.prefix_iff_eq_take.mp hcontains).symm
  | spliced hfinds hsaved =>
      rcases lacks_of_finds hfinds with ⟨hattaches, hlacks⟩
      rcases hsaved with ⟨store, -, rfl⟩
      refine ⟨_, rfl, fun _ => ⟨?_, hattaches.left, ?_, rfl, rfl⟩, nofun⟩
      · rw [if_neg hlacks]
        rfl
      · show ((_ ++ _ : List LogEntry).drop _).take _ = _
        rw [List.drop_left' (List.length_take_of_le hattaches.left),
          List.take_length]

variable [RandomEngine random]

theorem fits_of_enters {message : Message} (henters : Enters message n n')
    (hrpc : message.rpc = .appendEntriesRequest request)
    (hfits : Fits n sender request) : Fits n' sender request := by
  refine ⟨hfits.sender_leads, ?_, hfits.entries_valid⟩
  cases henters with
  | current => exact hfits.current
  | adopted hterm hsaved =>
      rcases hsaved with ⟨store, -, rfl⟩
      show messageTerm message <= request.term
      unfold messageTerm
      rw [hrpc]

theorem untouched_enters {message : Message} (henters : Enters message n n') :
    Untouched n n' := by
  rcases henters.same with ⟨-, hlog, hcommit, -, hpending, -⟩
  exact untouched_of_same hlog hcommit hpending

theorem reply_of_appendEnds {reply : Rpc}
    (h : AppendEnds sender request n (.ok reply) n') :
    exists response, reply = .appendEntriesResponse response ∧
      (response.success = true -> Appended request response n n') ∧
      (response.success = false -> Refused sender request response n n') := by
  cases h with
  | unfit hunfit =>
      refine ⟨_, rfl, nofun, fun _ => ⟨untouched_of_same rfl rfl rfl, ?_⟩⟩
      intro hfits
      exact absurd hfits hunfit
  | settled hfits hsettles =>
      have hheed : Untouched n (n.heed request.leaderId) := by
        apply untouched_of_same <;> simp
      have hsame : Untouched n' n' := untouched_of_same rfl rfl rfl
      rcases reply_of_settles sender hsettles with
        ⟨response, rfl, happended, hrefused⟩
      refine ⟨response, rfl, ?_, ?_⟩
      · intro hsuccess
        exact (happended hsuccess).of_untouched hheed hsame
      · intro hfailure
        apply (hrefused hfailure).of_untouched hheed hsame
        intro _
        exact ⟨hfits.sender_leads, by simpa using hfits.current,
          hfits.entries_valid⟩

theorem untouched_of_appendEnds {fault : Fault}
    (h : AppendEnds sender request n (.error fault) n')
    (hsaves : forall cause, fault ≠ .storage cause) :
    (exists text, fault = .raftError text) ∧ Untouched n n' := by
  cases h with
  | settled hfits hsettles =>
      cases hsettles with
      | violated hfinds =>
          refine ⟨⟨_, rfl⟩, ?_⟩
          apply untouched_of_same <;> simp
      | unsaved => exact absurd rfl (hsaves _)

/--
Whatever state a node has reached, a request to append entries from a peer is
answered or makes the handler throw a `RaftError`, unless a save throws.  A
confirmation means that the entries are in the log behind the previous index, and
that nothing else of the log has changed unless some of them were lacking.
-/
theorem appendEntries_reference {config : RaftConfig} {store : storage}
    {node : RaftNode storage random}
    (hcreate : RaftNode.create config store = .ok node) (ops : List Operation)
    {message : Message} (hrpc : message.rpc = .appendEntriesRequest request)
    (hpeer : message.fromNode ∈ config.peers)
    (hreceiver : message.toNode = config.nodeId)
    {r : Except Fault (Option Message)} {n' : RaftNode storage random}
    (hreplied : Replied message (node.after ops) r n')
    (hsaves : forall cause, r ≠ .error (.storage cause)) :
    (exists response,
      r = .ok (some ⟨message.toNode, message.fromNode,
        .appendEntriesResponse response⟩) ∧
      (response.success = true ->
        Appended request response (node.after ops) n') ∧
      (response.success = false ->
        Refused message.fromNode request response (node.after ops) n')) ∨
    exists text, r = .error (.raftError text) ∧ Untouched (node.after ops) n' := by
  have hfresh := fresh_of_create hcreate
  have hwell := wellFormed_after hfresh.well ops
  have hconfig := (config_after hfresh.well ops).trans hfresh.config_eq
  have hrequest : RaftNode.isRequest message = true := by
    unfold RaftNode.isRequest
    rw [hrpc]
  rcases resolves_of_replied hwell hrequest hreplied with
    ⟨before, hresolves, hsame⟩
  have hafter : Untouched before n' := by
    rw [hsame]
    exact untouched_of_same rfl rfl rfl
  cases hresolves with
  | ignored hstranger =>
      refine absurd ⟨?_, ?_⟩ hstranger
      · rw [hconfig]
        exact hreceiver
      · rw [hwell.isPeerLocked_iff, hconfig]
        exact hpeer
  | unsaved => exact absurd rfl (hsaves _)
  | answered haddressed henters hends =>
      unfold RequestEnds at hends
      rw [hrpc] at hends
      have hbefore := untouched_enters henters
      rcases reply_of_appendEnds hends with ⟨response, rfl, happended, hrefused⟩
      refine Or.inl ⟨response, rfl, ?_, ?_⟩
      · intro hsuccess
        exact (happended hsuccess).of_untouched hbefore hafter
      · intro hfailure
        exact (hrefused hfailure).of_untouched hbefore hafter
          (fits_of_enters henters hrpc)
  | thrown haddressed henters hends =>
      unfold RequestEnds at hends
      rw [hrpc] at hends
      have hfault : forall cause, _ ≠ Fault.storage cause :=
        fun cause heq => hsaves cause (congrArg Except.error heq)
      rcases untouched_of_appendEnds hends hfault with ⟨⟨text, rfl⟩, huntouched⟩
      exact Or.inr ⟨text, rfl,
        ((untouched_enters henters).trans huntouched).trans hafter⟩

/-- The request of node 2 appends its command and commits it. -/
theorem appendEntries_reference_firstAppend :
    exists node n' : RaftNode InMemoryRaftStorage LeastEngine,
      RaftNode.create { nodeId := 1, peers := [2] } {} = .ok node ∧
      n'.log.entries = [{ term := 1, command := [7] }] ∧ n'.commitIndex = 1 ∧
      exists response request, firstAppend.rpc = .appendEntriesRequest request ∧
        Appended request response node n' := by
  have hcreate : RaftNode.create { nodeId := 1, peers := [2] }
      ({} : InMemoryRaftStorage) =
        .ok (_ : RaftNode InMemoryRaftStorage LeastEngine) := rfl
  have hrpc : firstAppend.rpc = .appendEntriesRequest _ := rfl
  have hreference := appendEntries_reference hcreate [] hrpc (by decide) rfl
    (.requested rfl) (fun cause hcause => nomatch hcause)
  rcases hreference with ⟨response, hresponse, happended, -⟩ | ⟨text, htext, -⟩
  · cases hresponse
    exact ⟨_, _, hcreate, rfl, rfl, _, _, hrpc, happended rfl⟩
  · cases htext

end Storage

end Raft
end FTKV
