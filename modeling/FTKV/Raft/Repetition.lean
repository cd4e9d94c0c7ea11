import FTKV.Raft.Reference

/-!
# Requests that are delivered twice

A client repeats a request whose answer it has not seen.  The second delivery is
answered as the first was, and changes nothing that the first has not changed:
what it finds is what the first one left behind.
-/

namespace FTKV
namespace Raft

open Foundation
open Foundation.Effect

variable {storage random : Type} {n n' again last : RaftNode storage random}
  {sender : NodeId} {request : AppendEntriesRequest}

/-- The nodes differ in the election timer, the engine and the queue at most. -/
def SameButTimer (n n' : RaftNode storage random) : Prop :=
  exists engine elapsed timeout outbox, n' = { n with
    random := engine
    electionElapsed := elapsed
    electionTimeout := timeout
    outbox := outbox }

theorem SameButTimer.trans {middle : RaftNode storage random}
    (h : SameButTimer n middle) (h' : SameButTimer middle n') :
    SameButTimer n n' := by
  rcases h with ⟨_, _, _, _, rfl⟩
  rcases h' with ⟨_, _, _, _, rfl⟩
  exact ⟨_, _, _, _, rfl⟩

/-!
# Requests to append entries
-/

theorem finds_contains_of_prefix (hattaches : Attaches n request)
    (hcontains : request.entries <+: n.log.entries.drop request.previousLogIndex) :
    n.finds request = .contains := by
  rw [finds_of_attaches hattaches, compareEntries_eq_contains_iff]
  exact hcontains

theorem finds_splice (hattaches : Attaches n request) :
    (n.splice request).finds request = .contains := by
  have hlength := List.length_take_of_le hattaches.left
  apply finds_contains_of_prefix
  · constructor
    · show _ <= (_ ++ _ : List LogEntry).length
      rw [List.length_append, hlength]
      exact Nat.le_add_right _ _
    · intro hpos
      rw [← hattaches.right hpos]
      cases hprevious : request.previousLogIndex with
      | zero => rfl
      | succ previous =>
          show ((_ ++ _ : List LogEntry)[previous]?).map _ = _
          rw [List.getElem?_append_left (by rw [hlength]; lia),
            List.getElem?_take_of_lt (by lia)]
          rfl
  · show _ <+: (_ ++ _ : List LogEntry).drop _
    rw [List.drop_left' hlength]

theorem commitTo_commitTo (happlied : n.lastApplied = n.commitIndex)
    {leaderCommit : LogIndex}
    (hcommit : min leaderCommit n.lastLogIndexLocked <= n.commitIndex) :
    n.commitTo leaderCommit = n := by
  unfold RaftNode.commitTo
  rw [max_eq_left hcommit]
  exact raiseCommit_self happlied

section Storage

variable [RaftStorage storage]

theorem settles_of_contains {r : Except Fault Rpc}
    (hfinds : n.finds request = .contains) (h : Settles request n r n') :
    r = .ok (n.confirmation request) ∧ n' = n.commitTo request.leaderCommit := by
  cases h with
  | contained => exact ⟨rfl, rfl⟩
  | refused hother | violated hother | spliced hother | unsaved hother =>
      rw [hfinds] at hother
      cases hother

theorem settles_confirmed {r : Except Fault Rpc} (hfinds : n.finds request = .contains)
    (hsame : SameButTimer (n.commitTo request.leaderCommit) again)
    (hagain : Settles request again r last) :
    r = .ok (n.confirmation request) ∧
      SameButTimer (n.commitTo request.leaderCommit) last := by
  rcases contains_of_finds hfinds with ⟨hattaches, hcontains⟩
  have hagree : again.log = n.log ∧ again.currentTerm = n.currentTerm ∧
      again.lastApplied = again.commitIndex ∧ again.commitIndex =
        max n.commitIndex (min request.leaderCommit n.lastLogIndexLocked) := by
    rcases hsame with ⟨_, _, _, _, rfl⟩
    exact ⟨rfl, rfl, rfl, rfl⟩
  rcases hagree with ⟨hlog, hterm, happlied, hcommit⟩
  have hstill : again.finds request = .contains := by
    apply finds_contains_of_prefix
    · unfold Attaches
      rw [hlog]
      exact hattaches
    · rw [hlog]
      exact hcontains
  rcases settles_of_contains hstill hagain with ⟨rfl, rfl⟩
  constructor
  · unfold RaftNode.confirmation
    rw [hterm]
  · rw [commitTo_commitTo happlied]
    · exact hsame
    · rw [hcommit, RaftNode.lastLogIndexLocked_eq, hlog]
      exact Nat.le_max_right _ _

theorem settles_again {r r' : Except Fault Rpc} (h : Settles request n r n')
    (hsaves : forall cause, r ≠ .error (.storage cause))
    (hsame : SameButTimer n' again) (hagain : Settles request again r' last) :
    r' = r ∧ SameButTimer n' last := by
  cases h with
  | refused hfinds =>
      have hagree : again.finds request = n.finds request := by
        rcases hsame with ⟨_, _, _, _, rfl⟩
        rfl
      rw [hfinds] at hagree
      cases hagain with
      | refused hother =>
          rw [hagree] at hother
          cases hother
          rcases hsame with ⟨_, _, _, _, rfl⟩
          exact ⟨rfl, _, _, _, _, rfl⟩
      | violated hother | contained hother | spliced hother | unsaved hother =>
          rw [hagree] at hother
          cases hother
  | violated hfinds =>
      have hagree : again.finds request = n.finds request := by
        rcases hsame with ⟨_, _, _, _, rfl⟩
        rfl
      rw [hfinds] at hagree
      cases hagain with
      | violated => exact ⟨rfl, hsame⟩
      | refused hother | contained hother | spliced hother | unsaved hother =>
          rw [hagree] at hother
          cases hother
  | contained hfinds => exact settles_confirmed hfinds hsame hagain
  | spliced hfinds hsaved =>
      rcases hsaved with ⟨store, -, rfl⟩
      have hspliced : RaftNode.finds { n.splice request with storage := store }
          request = .contains := finds_splice (lacks_of_finds hfinds).left
      exact settles_confirmed hspliced hsame hagain
  | unsaved => exact absurd rfl (hsaves _)

section Random

variable [RandomEngine random]

theorem appendEnds_again {r r' : Except Fault Rpc}
    (h : AppendEnds sender request n r n')
    (hsaves : forall cause, r ≠ .error (.storage cause))
    (hsame : SameButTimer n' again)
    (hagain : AppendEnds sender request again r' last) :
    r' = r ∧ SameButTimer n' last := by
  cases h with
  | unfit hunfit =>
      rcases hsame with ⟨_, _, _, _, rfl⟩
      cases hagain with
      | unfit => exact ⟨rfl, _, _, _, _, rfl⟩
      | settled hfits =>
          exact absurd ⟨hfits.sender_leads, hfits.current, hfits.entries_valid⟩
            hunfit
  | settled hfits hsettles =>
      -- The first delivery has left a follower of the sender.
      rcases hsettles.same with ⟨hstate, hleader, hterm, -, -⟩
      rcases heed_follows n request.leaderId with ⟨hfollows, hknows⟩
      have hagree : again.state = n'.state ∧ again.leaderId = n'.leaderId ∧
          again.currentTerm = n'.currentTerm := by
        rcases hsame with ⟨_, _, _, _, rfl⟩
        exact ⟨rfl, rfl, rfl⟩
      have hheed : SameButTimer n' (again.heed request.leaderId) := by
        rw [heed_of_follows again _ (hagree.left.trans (hstate.trans hfollows))
          (hagree.right.left.trans (hleader.trans hknows))]
        exact hsame.trans ⟨_, _, _, _, rfl⟩
      cases hagain with
      | unfit hunfit =>
          refine absurd ⟨hfits.sender_leads, ?_, hfits.entries_valid⟩ hunfit
          rw [hagree.right.right, hterm, heed_currentTerm]
          exact hfits.current
      | settled _ hsettles' => exact settles_again hsettles hsaves hheed hsettles'

/-!
# Requests for votes
-/

theorem voteEnds_voted {request : RequestVoteRequest} {r : Except Fault Rpc}
    (h : VoteEnds sender request n r n') (hgrants : Grants n sender request)
    (hvoted : n.votedFor = some sender) :
    r = .ok (n.ballot true) ∧ SameButTimer n n' := by
  cases h with
  | denied hdenied => exact absurd hgrants hdenied
  | repeated => exact ⟨rfl, _, _, _, _, rfl⟩
  | granted _ hnone | unsaved _ hnone =>
      rw [hvoted] at hnone
      cases hnone

theorem voteEnds_again {request : RequestVoteRequest} {r r' : Except Fault Rpc}
    (h : VoteEnds sender request n r n')
    (hsaves : forall cause, r ≠ .error (.storage cause))
    (hsame : SameButTimer n' again)
    (hagain : VoteEnds sender request again r' last) :
    r' = r ∧ SameButTimer n' last := by
  cases h with
  | denied hdenied =>
      rcases hsame with ⟨_, _, _, _, rfl⟩
      cases hagain with
      | denied => exact ⟨rfl, _, _, _, _, rfl⟩
      | repeated hgrants | granted hgrants | unsaved hgrants =>
          exact absurd ⟨hgrants.candidate, hgrants.current, hgrants.free,
            hgrants.log_current⟩ hdenied
  | repeated hgrants hvoted =>
      rcases hsame with ⟨_, _, _, _, rfl⟩
      rcases voteEnds_voted hagain ⟨hgrants.candidate, hgrants.current,
        hgrants.free, hgrants.log_current⟩ hvoted with ⟨rfl, hlast⟩
      exact ⟨rfl, SameButTimer.trans ⟨_, _, _, _, rfl⟩ hlast⟩
  | granted hgrants hnone hsaved =>
      rcases hsaved with ⟨store, -, rfl⟩
      rcases hsame with ⟨_, _, _, _, rfl⟩
      rcases voteEnds_voted hagain ⟨hgrants.candidate, hgrants.current,
        Or.inr rfl, hgrants.log_current⟩ rfl with ⟨rfl, hlast⟩
      exact ⟨rfl, SameButTimer.trans ⟨_, _, _, _, rfl⟩ hlast⟩
  | unsaved => exact absurd rfl (hsaves _)

/-!
# Whole requests
-/

theorem requestEnds_again {rpc : Rpc} {r r' : Except Fault Rpc}
    (h : RequestEnds sender n rpc r n')
    (hsaves : forall cause, r ≠ .error (.storage cause))
    (hsame : SameButTimer n' again)
    (hagain : RequestEnds sender again rpc r' last) :
    r' = r ∧ SameButTimer n' last := by
  cases rpc with
  | requestVoteRequest request => exact voteEnds_again h hsaves hsame hagain
  | appendEntriesRequest request => exact appendEnds_again h hsaves hsame hagain
  | requestVoteResponse | appendEntriesResponse => exact h.elim

theorem addressed_of_requestEnds {message : Message} {r : Except Fault Rpc}
    (h : RequestEnds sender n message.rpc r n')
    (haddressed : Addressed n message) (hterm : messageTerm message <= n.currentTerm) :
    Addressed n' message ∧ messageTerm message <= n'.currentTerm := by
  have hsame : n'.config = n.config ∧ n'.members = n.members ∧
      n'.currentTerm = n.currentTerm := by
    generalize message.rpc = rpc at h
    cases rpc with
    | requestVoteRequest request =>
        cases h with
        | denied | repeated => exact ⟨rfl, rfl, rfl⟩
        | granted _ _ hsaved =>
            rcases hsaved with ⟨store, -, rfl⟩
            exact ⟨rfl, rfl, rfl⟩
        | unsaved _ _ hfailed =>
            rcases hfailed with ⟨cause, store, -, rfl⟩
            exact ⟨rfl, rfl, rfl⟩
    | appendEntriesRequest request =>
        cases h with
        | unfit => exact ⟨rfl, rfl, rfl⟩
        | settled _ hsettles =>
            rcases hsettles.same with ⟨-, -, hterm, hconfig, hmembers⟩
            exact ⟨by simpa using hconfig, by simpa using hmembers,
              by simpa using hterm⟩
    | requestVoteResponse | appendEntriesResponse => exact h.elim
  unfold Addressed RaftNode.isPeerLocked at haddressed ⊢
  rw [hsame.left, hsame.right.left, hsame.right.right]
  exact ⟨haddressed, hterm⟩

theorem handled_of_resolves {message : Message} {r : Except Fault (Option Message)}
    (h : Resolves message n r n') (haddressed : Addressed n message)
    (hsaves : messageTerm message <= n.currentTerm ∨
      forall cause, r ≠ .error (.storage cause)) :
    exists entered reply, Enters message n entered ∧
      r = reply.map (fun rpc => some ⟨message.toNode, message.fromNode, rpc⟩) ∧
      RequestEnds message.fromNode entered message.rpc reply n' := by
  cases h with
  | ignored hstranger => exact absurd haddressed hstranger
  | unsaved _ hterm =>
      rcases hsaves with hle | hnever
      · exact absurd hterm (not_lt.mpr hle)
      · exact absurd rfl (hnever _)
  | answered _ henters hends => exact ⟨_, _, henters, rfl, hends⟩
  | thrown _ henters hends => exact ⟨_, .error _, henters, rfl, hends⟩

theorem resolves_again {message : Message}
    {r r' : Except Fault (Option Message)} (h : Resolves message n r n')
    (hsaves : forall cause, r ≠ .error (.storage cause))
    (hsame : SameButTimer n' again) (hagain : Resolves message again r' last) :
    r' = r ∧ SameButTimer n' last := by
  by_cases haddressed : Addressed n message
  · rcases handled_of_resolves h haddressed (Or.inr hsaves) with
      ⟨entered, reply, henters, rfl, hends⟩
    rcases henters.addressed haddressed with ⟨hentered, hterm⟩
    rcases addressed_of_requestEnds hends hentered hterm with ⟨hstill, hbehind⟩
    have haddressed' : Addressed again message ∧
        messageTerm message <= again.currentTerm := by
      rcases hsame with ⟨_, _, _, _, rfl⟩
      exact ⟨hstill, hbehind⟩
    rcases handled_of_resolves hagain haddressed'.left
      (Or.inl haddressed'.right) with ⟨entered', reply', henters', rfl, hends'⟩
    cases henters' with
    | adopted hlt => exact absurd hlt (not_lt.mpr haddressed'.right)
    | current =>
        have hreply : forall cause, reply ≠ .error (.storage cause) := by
          intro cause heq
          rw [heq] at hsaves
          exact hsaves cause rfl
        rcases requestEnds_again hends hreply hsame hends' with ⟨rfl, hlast⟩
        exact ⟨rfl, hlast⟩
  · have hstranger : ¬ Addressed again message := by
      cases h with
      | ignored =>
          rcases hsame with ⟨_, _, _, _, rfl⟩
          exact haddressed
      | unsaved hother | answered hother | thrown hother =>
          exact absurd hother haddressed
    cases h with
    | ignored =>
        cases hagain with
        | ignored => exact ⟨rfl, hsame⟩
        | unsaved hother | answered hother | thrown hother =>
            exact absurd hother hstranger
    | unsaved hother | answered hother | thrown hother =>
        exact absurd hother haddressed

theorem wellFormed_replied {message : Message} {r : Except Fault (Option Message)}
    (h : WellFormed n) (hreplied : Replied message n r n') : WellFormed n' := by
  have hstep := (perform_spec h (.step message)).left
  have hrequest := (perform_spec h (.handleRequest message)).left
  simp only [Operation.perform, outcome_bind_pure] at hstep hrequest
  cases hreplied with
  | requested houtcome =>
      rw [houtcome] at hrequest
      exact hrequest
  | ignored houtcome | queued houtcome | thrown houtcome =>
      rw [houtcome] at hstep
      exact hstep

/--
A request that is delivered twice in a row is answered twice in the same way,
with the same response or the same exception, and the second delivery changes
nothing but the election timer, the random engine and the outbox.
-/
theorem request_idempotent {config : RaftConfig} {store : storage}
    {node : RaftNode storage random}
    (hcreate : RaftNode.create config store = .ok node) (ops : List Operation)
    {message : Message} (hrequest : RaftNode.isRequest message = true)
    {r r' : Except Fault (Option Message)} {first second : RaftNode storage random}
    (hfirst : Replied message (node.after ops) r first)
    (hsecond : Replied message first r' second)
    (hsaves : forall cause, r ≠ .error (.storage cause)) :
    r' = r ∧ SameButTimer first second := by
  have hwell := wellFormed_after (fresh_of_create hcreate).well ops
  rcases resolves_of_replied hwell hrequest hfirst with
    ⟨before, hresolves, hqueue⟩
  rcases resolves_of_replied (wellFormed_replied hwell hfirst) hrequest hsecond with
    ⟨last, hagain, hqueue'⟩
  have hsame : SameButTimer before first := ⟨_, _, _, _, hqueue⟩
  rcases resolves_again hresolves hsaves hsame hagain with ⟨rfl, hlast⟩
  refine ⟨rfl, ?_⟩
  rcases hlast with ⟨_, _, _, _, rfl⟩
  rw [hqueue', hqueue]
  exact ⟨_, _, _, _, rfl⟩

/-- The second delivery of the first request of node 2 is confirmed like the first. -/
theorem request_idempotent_firstAppend :
    exists node first second : RaftNode InMemoryRaftStorage LeastEngine,
      RaftNode.create { nodeId := 1, peers := [2] } {} = .ok node ∧
      first.log.entries = [{ term := 1, command := [7] }] ∧
      SameButTimer first second := by
  have hcreate : RaftNode.create { nodeId := 1, peers := [2] }
      ({} : InMemoryRaftStorage) =
        .ok (_ : RaftNode InMemoryRaftStorage LeastEngine) := rfl
  have hrequest : RaftNode.isRequest firstAppend = true := rfl
  have hidempotent := request_idempotent hcreate [] hrequest (.requested rfl)
    (.requested rfl) (fun cause hcause => nomatch hcause)
  exact ⟨_, _, _, hcreate, rfl, hidempotent.right⟩

end Random

end Storage

end Raft
end FTKV
