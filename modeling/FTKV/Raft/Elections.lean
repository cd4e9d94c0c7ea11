import FTKV.Raft.Behavior

/-!
# Role changes and votes
-/

namespace FTKV
namespace Raft

open Foundation
open Foundation.Effect

variable {storage random : Type} [RaftStorage storage]
  {n n' : RaftNode storage random} {call : Call}

theorem volatile_resetElectionTimeoutLocked [RandomEngine random] (call : Call)
    (n : RaftNode storage random) : Volatile call n n.resetElectionTimeoutLocked :=
  .timer _ _ _ n.heartbeatElapsed

/-!
# Becoming a follower
-/

theorem ensures_becomeFollowerLocked_of_lt [RandomEngine random]
    {message : Message}
    {post : Except Fault Unit -> RaftNode storage random -> Prop}
    (hquiet : n.outbox = call.outbox) (hinbox : call.inbox = some message)
    (hterm : n.currentTerm < messageTerm message)
    (hok : forall n', Path call n n' -> n'.outbox = n.outbox ->
      n'.currentTerm = messageTerm message -> post (.ok ()) n')
    (hfault : forall fault n', Explained call n
      (.error fault : Except Fault Unit) n' -> post (.error fault) n') :
    Ensures (becomeFollowerLocked (messageTerm message) none) n post := by
  unfold becomeFollowerLocked
  rw [ensures_bind, ensures_get, continues_ok]
  simp only [gt_iff_lt, hterm, decide_true, if_true, ensures_bind,
    ensures_modify, continues_ok]
  refine ensures_persistLocked_of_durable
    (path_volatile (path_refl n) (.timer _ _ 0 0)) hquiet
    (.adopt hinbox hterm) ?_ ?_
  · intro n' hsaved hpath
    rcases hsaved with ⟨store, -, rfl⟩
    exact hok _ hpath rfl rfl
  · intro cause n' hpath hinterrupted
    exact hfault _ n' (.interrupted hpath hinterrupted)

theorem ensures_becomeFollowerLocked_of_current [RandomEngine random]
    {sender : NodeId} {request : AppendEntriesRequest}
    {post : Except Fault Unit -> RaftNode storage random -> Prop}
    (hhandles : Handles call n sender (.appendEntriesRequest request))
    (hleader : request.leaderId = sender) (hterm : request.term = n.currentTerm)
    (hok : forall n', Path call n n' -> n'.outbox = n.outbox ->
      n'.state = .follower -> n'.currentTerm = n.currentTerm ->
        post (.ok ()) n') :
    Ensures (becomeFollowerLocked n.currentTerm (some request.leaderId)) n
      post := by
  unfold becomeFollowerLocked
  rw [ensures_bind, ensures_get, continues_ok]
  simp only [gt_iff_lt, lt_irrefl, decide_false, Bool.false_eq_true, if_false,
    ensures_bind, ensures_modify, ensures_pure, continues_ok]
  refine hok _ ?_ rfl rfl rfl
  rw [hleader]
  exact path_volatile (path_volatile (path_refl n) (.timer _ _ 0 0))
    (.follow hhandles hleader hterm)

/-!
# Becoming the leader
-/

theorem ensures_becomeLeaderLocked (h : WellFormed n)
    (hquiet : n.outbox = call.outbox)
    (hstate : n.state = .candidate)
    (hquorum : n.quorumSizeLocked <= n.votesReceived.card)
    (hcall : ¬ call.Appends) (hproposal : call.proposal = none)
    (hinbox : forall message, call.inbox = some message ->
      messageTerm message = n.currentTerm) :
    Ensures becomeLeaderLocked n (Explained call n) := by
  unfold becomeLeaderLocked
  simp only [ensures_bind, ensures_modify, continues_ok]
  refine ensures_persistLocked_of_durable
    (path_volatile (path_refl n) (.timer n.random n.electionTimeout
      n.electionElapsed 0)) hquiet
    (.elect hstate hquorum hcall hproposal hinbox) ?_ ?_
  · intro n1 hsaved hpath
    rw [continues_ok, ensures_bind]
    have hleader : n1.state = .leader := by
      rcases hsaved with ⟨store, -, rfl⟩
      rfl
    have hwell := (wellFormed_path h hpath).left
    refine ensures_advanceCommitIndexLocked hwell hleader
      (Or.inl ⟨_, hsaved⟩) hcall ?_
    intro raised n2 hpath' hleader'
    rw [continues_ok]
    refine ensures_broadcastAppendEntriesLocked call
      (wellFormed_path hwell hpath').left hleader' hcall ?_
    intro n3 hpath''
    exact .returns (path_trans hpath (path_trans hpath' hpath''))
  · intro cause n' hpath hinterrupted
    exact .interrupted hpath hinterrupted

theorem volatile_solicit {peer : NodeId} {outbox : List Message}
    (hstate : n.state = .candidate)
    (hpeer : peer ∈ n.config.peers) :
    Volatile call { n with outbox := outbox }
      { n with outbox := outbox ++ [{
        fromNode := n.config.nodeId
        toNode := peer
        rpc := .requestVoteRequest {
          term := n.currentTerm
          candidateId := n.config.nodeId
          lastLogIndex := n.lastLogIndexLocked
          lastLogTerm := n.lastLogTermLocked } }] } :=
  .emit (.solicit hpeer hstate)

theorem ensures_startElectionLocked [RandomEngine random]
    (h : WellFormed n) (hquiet : n.outbox = call.outbox)
    (hinbox : call.inbox = none) (hproposal : call.proposal = none)
    (hterm : n.currentTerm = call.term) (hstate : n.state ≠ .leader) :
    Ensures startElectionLocked n (Explained call n) := by
  have hcall := not_appends_of_none hinbox
  unfold startElectionLocked
  simp only [ensures_bind, ensures_modify, continues_ok]
  refine ensures_persistLocked_of_durable
    (path_volatile (path_refl n) (.timer _ _ 0 n.heartbeatElapsed)) hquiet
    (.campaign hinbox hproposal hterm hstate) ?_ ?_
  · intro n1 hsaved hpath
    have hcandidate : n1.state = .candidate ∧ n1.outbox = call.outbox := by
      rcases hsaved with ⟨store, -, rfl⟩
      exact ⟨rfl, hquiet⟩
    rw [continues_ok, ensures_bind, ensures_get, continues_ok]
    split
    · rename_i hquorum
      exact ensures_explained_of_path hpath (ensures_becomeLeaderLocked
        (wellFormed_path h hpath).left hcandidate.right hcandidate.left hquorum
        hcall hproposal fun message hmessage => by
          rw [hinbox] at hmessage
          cases hmessage)
    · refine ensures_mono (ensures_forM
        (fun s => Path call n s ∧ exists outbox, s = { n1 with outbox := outbox })
        (fun _ _ => False) ⟨hpath, n1.outbox, rfl⟩ ?_) ?_
      · rintro peer hpeer s ⟨hpath', outbox, rfl⟩
        unfold sendLocked
        rw [ensures_modify]
        exact ⟨path_volatile hpath' (volatile_solicit hcandidate.left hpeer), _, rfl⟩
      · intro r s hr
        cases r with
        | ok _ => exact .returns hr.left
        | error _ => exact hr.elim
  · intro cause n' hpath hinterrupted
    exact .interrupted hpath hinterrupted

section Campaigns

variable [RandomEngine random]

def RaftNode.campaign (n : RaftNode storage random) : RaftNode storage random :=
  { n with
    state := .candidate
    leaderId := none
    currentTerm := n.currentTerm + 1
    votedFor := some n.config.nodeId
    votesReceived := {n.config.nodeId} }.resetElectionTimeoutLocked

theorem ensures_startElectionLocked_campaigns
    {post : Except Fault Unit -> RaftNode storage random -> Prop}
    (helected : forall n', Saved n.campaign n' ->
      n'.quorumSizeLocked <= n'.votesReceived.card ->
        Ensures becomeLeaderLocked n' post)
    (hasked : forall n' outbox, Saved n.campaign n' ->
      n'.votesReceived.card < n'.quorumSizeLocked ->
        post (.ok ()) { n' with outbox := outbox })
    (herror : forall cause n', SaveFailed n.campaign n' ->
      post (.error (.storage cause)) n') :
    Ensures startElectionLocked n post := by
  unfold startElectionLocked
  simp only [ensures_bind, ensures_modify, continues_ok]
  apply ensures_persistLocked
  · intro n1 hsaved
    rw [continues_ok, ensures_bind, ensures_get, continues_ok]
    split
    · rename_i hquorum
      exact helected n1 hsaved hquorum
    · rename_i hshort
      refine ensures_mono (ensures_forM
        (fun s => exists outbox, s = { n1 with outbox := outbox })
        (fun _ _ => False) ⟨n1.outbox, rfl⟩ ?_) ?_
      · rintro peer _ s ⟨outbox, rfl⟩
        exact ⟨_, rfl⟩
      · intro r s hr
        cases r with
        | ok _ =>
            rcases hr with ⟨outbox, rfl⟩
            exact hasked n1 outbox hsaved (not_le.mp hshort)
        | error _ => exact hr.elim
  · exact herror

theorem wellFormed_campaign (h : WellFormed n) (hstate : n.state ≠ .leader) :
    WellFormed n.campaign := by
  have hcampaign : Durable { term := n.currentTerm, outbox := n.outbox } n
      { n with
        state := .candidate
        leaderId := none
        currentTerm := n.currentTerm + 1
        votedFor := some n.config.nodeId
        votesReceived := {n.config.nodeId} } := .campaign rfl rfl rfl hstate
  exact wellFormed_volatile (wellFormed_durable h hcampaign)
    (volatile_resetElectionTimeoutLocked { term := n.currentTerm, outbox := n.outbox } _)

end Campaigns

/-!
# Votes
-/

theorem ensures_handleRequestVoteLocked [RandomEngine random]
    {sender : NodeId} {request : RequestVoteRequest}
    (hquiet : n.outbox = call.outbox)
    (hhandles : Handles call n sender (.requestVoteRequest request))
    (hterm : request.term <= n.currentTerm) :
    Ensures (handleRequestVoteLocked sender request) n (Explained call n) := by
  unfold handleRequestVoteLocked
  rw [ensures_bind, ensures_get, continues_ok]
  split
  · exact .returns (path_volatile (path_refl n) (.emit (.deny hhandles)))
  · rename_i hvalid
    have hcandidate : request.candidateId = sender := by
      by_contra hne
      exact hvalid (Or.inl hne)
    have hcurrent : request.term = n.currentTerm := by
      refine le_antisymm hterm (not_lt.mp ?_)
      intro hlt
      exact hvalid (Or.inr hlt)
    subst hcandidate
    cases hgrant : decide (n.votedFor = none ∨
      n.votedFor = some request.candidateId) &&
        n.candidateLogIsCurrentLocked request with
    | false =>
        simp only [hgrant, Bool.false_eq_true, if_false, ensures_bind,
          ensures_pure, continues_ok, ensures_get]
        exact .returns (path_volatile (path_refl n) (.emit (.deny hhandles)))
    | true =>
        simp only [hgrant, if_true, ensures_bind]
        rw [Bool.and_eq_true, decide_eq_true_eq] at hgrant
        by_cases hvote : n.votedFor = some request.candidateId
        · simp only [hvote, ne_eq, not_true_eq_false, if_false, ensures_pure,
            ensures_modify, continues_ok]
          exact .returns (path_volatile (path_volatile (path_refl n)
            (volatile_resetElectionTimeoutLocked call n))
            (.emit (.grant hhandles rfl hcurrent hvote hgrant.right)))
        · have hnone : n.votedFor = none := hgrant.left.resolve_right hvote
          simp only [hvote, ne_eq, not_false_eq_true, if_true, ensures_bind,
            ensures_modify, continues_ok]
          refine ensures_persistLocked_of_durable (path_refl n) hquiet
            (.vote hhandles rfl hcurrent hnone hgrant.right) ?_ ?_
          · intro n1 hsaved hpath
            rcases hsaved with ⟨store, -, rfl⟩
            exact .returns (path_volatile (path_volatile hpath
              (volatile_resetElectionTimeoutLocked call _))
              (.emit (.grant hhandles rfl hcurrent rfl hgrant.right)))
          · intro cause n' hpath hinterrupted
            exact .interrupted hpath hinterrupted

theorem ensures_handleRequestVoteResponseLocked {sender : NodeId}
    {response : RequestVoteResponse} (h : WellFormed n)
    (hquiet : n.outbox = call.outbox) (hproposal : call.proposal = none)
    (hhandles : Handles call n sender (.requestVoteResponse response)) :
    Ensures (handleRequestVoteResponseLocked sender response) n
      (Explained call n) := by
  have hcall : ¬ call.Appends := by
    rintro ⟨message, request, hsome, hrpc⟩
    rw [hhandles.left] at hsome
    cases hsome
    cases hrpc
  unfold handleRequestVoteResponseLocked
  rw [ensures_bind, ensures_get, continues_ok]
  split
  · exact .returns (path_refl n)
  · rename_i hvalid
    have hstate : n.state = .candidate := by
      by_contra hne
      exact hvalid (Or.inl hne)
    have hterm : response.term = n.currentTerm := by
      by_contra hne
      exact hvalid (Or.inr (Or.inl hne))
    have hgranted : response.voteGranted = true := by
      by_contra hne
      exact hvalid (Or.inr (Or.inr (by simpa using hne)))
    simp only [ensures_bind, ensures_modify, ensures_get, continues_ok]
    have hpath := path_volatile (path_refl n)
      (.tally hhandles hstate hterm hgranted)
    split
    · rename_i hquorum
      refine ensures_explained_of_path hpath (ensures_becomeLeaderLocked
        (wellFormed_path h hpath).left hquiet hstate hquorum hcall hproposal ?_)
      intro message hmessage
      rw [hhandles.left] at hmessage
      cases hmessage
      exact hterm
    · exact .returns hpath

end Raft
end FTKV
