import FTKV.Raft.Repair
import FTKV.Raft.Timing

/-!
# What an operation achieves

Each operation that helps a cluster forward does so for certain, once the storage
takes every save: a node whose election timeout is over campaigns, a member of an
older term answers a request for its vote, a leader appends what is proposed, its
heartbeat puts a request for every peer into the outbox, and the answer to that
request either confirms the log or moves the next request further back.
-/

namespace FTKV
namespace Raft

open Foundation
open Foundation.Effect

/-- The storage takes every save. -/
def TakesSaves (storage : Type) [RaftStorage storage] : Prop :=
  forall state (store : storage), exists store',
    RaftStorage.save state store = (.ok (), store')

section Saves

variable {storage random : Type} [RaftStorage storage]
  {n : RaftNode storage random}

theorem ensures_persistLocked_saved (htakes : TakesSaves storage)
    {post : Except Fault Unit -> RaftNode storage random -> Prop}
    (hpost : forall n', Saved n n' -> post (.ok ()) n') :
    Ensures persistLocked n post := by
  apply ensures_persistLocked hpost
  intro cause n' hfailed
  rcases hfailed with ⟨cause', store, hfailed, -⟩
  rcases htakes n.persistentState n.storage with ⟨store', hsaved⟩
  rw [hsaved] at hfailed
  cases hfailed

end Saves

/-!
# Campaigns
-/

section Campaigns

variable {storage random : Type} {n n' : RaftNode storage random}

def RaftNode.canvass (n : RaftNode storage random) : RequestVoteRequest where
  term := n.currentTerm
  candidateId := n.config.nodeId
  lastLogIndex := n.lastLogIndexLocked
  lastLogTerm := n.lastLogTermLocked

structure Prevails (n n' : RaftNode storage random) : Prop where
  leads : n'.state = .leader
  term : n'.currentTerm = n.currentTerm
  log : n'.log = n.log.pushBack
    { term := n.currentTerm, command := [], isNoOp := true }

structure Canvasses (n n' : RaftNode storage random) : Prop where
  stands : n'.state = .candidate
  term : n'.currentTerm = n.currentTerm + 1
  log : n'.log = n.log
  votes : n'.votesReceived = {n.config.nodeId}
  asked : forall peer, peer ∈ n.config.peers ->
    ⟨n.config.nodeId, peer, .requestVoteRequest n'.canvass⟩ ∈ n'.outbox

theorem ensures_forM_sendLocked {peers : List NodeId} {rpc : Rpc} :
    Ensures (peers.forM fun peer => sendLocked peer rpc) n (fun r n' =>
      r = .ok () ∧ n' = { n with outbox := n.outbox ++ peers.map fun peer =>
        ⟨n.config.nodeId, peer, rpc⟩ }) := by
  induction peers generalizing n with
  | nil =>
      refine ⟨rfl, ?_⟩
      rw [List.map_nil, List.append_nil]
      rfl
  | cons peer rest ih =>
      change Ensures (sendLocked peer rpc >>= fun _ =>
        rest.forM fun peer => sendLocked peer rpc) n _
      unfold sendLocked at ih ⊢
      rw [ensures_bind, ensures_modify, continues_ok]
      apply ensures_mono ih
      intro r n1 hsent
      refine ⟨hsent.left, ?_⟩
      rw [hsent.right, List.map_cons]
      simp only [List.append_assoc, List.singleton_append]

variable [RaftStorage storage]

theorem ensures_becomeLeaderLocked_prevails :
    Ensures becomeLeaderLocked n (fun _ n' => Prevails n n') := by
  have hrest : Preserves officeOf (do
      persistLocked
      let _ <- advanceCommitIndexLocked
      broadcastAppendEntriesLocked : NodeM storage random Unit) := by
    apply preserves_bind (preserves_persistLocked fun _ _ => rfl)
    intro _
    apply preserves_bind (preserves_advanceCommitIndexLocked fun _ _ _ _ _ => rfl)
    intro _
    exact preserves_broadcastAppendEntriesLocked fun _ _ _ => rfl
  have hoffice : Ensures becomeLeaderLocked n
      (fun _ n' => officeOf n' = officeOf n.asLeader) := by
    have hkept := hrest { n.asLeader with heartbeatElapsed := 0 }
    unfold becomeLeaderLocked
    simp only [ensures_bind, ensures_modify, continues_ok] at hkept ⊢
    exact hkept
  apply ensures_mono hoffice
  intro r n1 hsame
  simp only [officeOf, Prod.mk.injEq] at hsame
  exact ⟨hsame.left, hsame.right.left, hsame.right.right⟩

variable [RandomEngine random]

theorem ensures_tick_campaigns (htakes : TakesSaves storage) {elapsed : Int}
    (helects : Elects n elapsed) :
    Ensures (RaftNode.tick elapsed) n (fun _ n' =>
      Prevails n.campaign n' ∨ Canvasses n n') := by
  apply ensures_tick_cases
  · intro hnegative
    exact absurd helects.nonneg (not_le.mpr hnegative)
  · intro hbeats
    exact absurd hbeats.leads helects.waits
  · intro _ hleads _
    exact absurd hleads helects.waits
  · intro _
    unfold startElectionLocked
    simp only [ensures_bind, ensures_modify, continues_ok]
    apply ensures_persistLocked_saved htakes
    intro n1 hsaved
    rcases hsaved with ⟨store, -, rfl⟩
    rw [continues_ok, ensures_bind, ensures_get, continues_ok]
    split
    · apply ensures_mono ensures_becomeLeaderLocked_prevails
      intro r n2 hprevails
      left
      exact ⟨hprevails.leads, hprevails.term, hprevails.log⟩
    · apply ensures_mono ensures_forM_sendLocked
      intro r n2 hsent
      right
      rw [hsent.right]
      constructor
      case stands => rfl
      case term => rfl
      case log => rfl
      case votes => rfl
      case asked =>
        intro peer hpeer
        apply List.mem_append_right
        exact List.mem_map.mpr ⟨peer, hpeer, rfl⟩
  · intro _ _ hearly
    exact absurd helects hearly

end Campaigns

/-!
# Votes
-/

section Votes

variable {storage random : Type} [RaftStorage storage] [RandomEngine random]
  {n n' : RaftNode storage random} {sender : NodeId}

theorem ensures_handleRequest_resolves (htakes : TakesSaves storage)
    (h : WellFormed n) {message : Message}
    (hrequest : RaftNode.isRequest message = true) :
    Ensures (RaftNode.handleRequest message) n (fun r n' =>
      (forall cause, r ≠ .error (.storage cause)) ∧
        exists before, Resolves message n r before ∧
          n' = { before with outbox := n'.outbox }) := by
  constructor
  · intro cause heq
    apply savesSucceed_of_save_ok htakes h (.handleRequest message) cause
    simp only [Operation.perform, outcome_bind_pure, heq]
    rfl
  · exact resolves_of_replied h hrequest (.requested rfl)

structure Polled (n : RaftNode storage random) (request : RequestVoteRequest)
    (n' : RaftNode storage random) : Prop where
  follows : n'.state = .follower
  term : n'.currentTerm = request.term
  log : n'.log = n.log

theorem ensures_handleRequest_polled (htakes : TakesSaves storage)
    (h : WellFormed n) {request : RequestVoteRequest}
    (hpeer : request.candidateId ∈ n.config.peers)
    (hterm : n.currentTerm < request.term) :
    Ensures (RaftNode.handleRequest
        ⟨request.candidateId, n.config.nodeId, .requestVoteRequest request⟩) n
      (fun r n' => r = .ok (some ⟨n.config.nodeId, request.candidateId,
          .requestVoteResponse {
            term := request.term
            voteGranted := n.candidateLogIsCurrentLocked request }⟩) ∧
        Polled n request n') := by
  apply ensures_mono (ensures_handleRequest_resolves htakes h rfl)
  intro r n' hresolved
  rcases hresolved with ⟨hsaves, before, hresolves, hqueue⟩
  rcases handled_of_resolves hresolves ⟨rfl, h.isPeerLocked_iff.mpr hpeer⟩
    (Or.inr hsaves) with ⟨entered, reply, henters, rfl, hends⟩
  rw [hqueue]
  cases henters with
  | current hbehind => exact absurd hterm (not_lt.mpr hbehind)
  | adopted _ hsaved =>
      rcases hsaved with ⟨store, -, rfl⟩
      cases hcurrent : n.candidateLogIsCurrentLocked request with
      | false =>
          cases hends with
          | denied => exact ⟨rfl, rfl, rfl, rfl⟩
          | repeated hgrants | granted hgrants | unsaved hgrants =>
              cases hcurrent.symm.trans hgrants.log_current
      | true =>
          cases hends with
          | denied hdenied =>
              exact absurd ⟨rfl, le_refl _, Or.inl rfl, hcurrent⟩ hdenied
          | repeated _ hvoted => cases hvoted
          | granted _ _ hsaved =>
              rcases hsaved with ⟨store', -, rfl⟩
              exact ⟨rfl, rfl, rfl, rfl⟩
          | unsaved => exact absurd rfl (hsaves _)

theorem ensures_step_vote (h : WellFormed n) (hstands : n.state = .candidate)
    (hpeer : sender ∈ n.config.peers) :
    Ensures (RaftNode.step ⟨sender, n.config.nodeId, .requestVoteResponse {
        term := n.currentTerm, voteGranted := true }⟩) n
      (fun _ n' => Prevails n n' ∨
        n' = { n with votesReceived := insert sender n.votesReceived }) := by
  apply ensures_step_current ⟨rfl, h.isPeerLocked_iff.mpr hpeer⟩ rfl
  rw [ensures_bind]
  show Ensures (handleRequestVoteResponseLocked sender _) n _
  unfold handleRequestVoteResponseLocked
  rw [ensures_bind, ensures_get, continues_ok, if_neg (by simp [hstands])]
  simp only [ensures_bind, ensures_modify, ensures_get, continues_ok]
  split
  · apply ensures_mono ensures_becomeLeaderLocked_prevails
    intro r n' hprevails
    cases r with
    | ok _ => exact Or.inl ⟨hprevails.leads, hprevails.term, hprevails.log⟩
    | error _ => exact Or.inl ⟨hprevails.leads, hprevails.term, hprevails.log⟩
  · exact Or.inr rfl

end Votes

/-!
# Requests of a leader
-/

section Leaders

variable {storage random : Type} {n n' : RaftNode storage random}

/-- The request is out and the leader waits for the answer of the peer. -/
def Expects (n : RaftNode storage random) (peer : NodeId)
    (request : AppendEntriesRequest) : Prop :=
  Awaits { n with
    outbox := [⟨n.config.nodeId, peer, .appendEntriesRequest request⟩] } peer request

theorem expects_of_awaits {peer : NodeId} {request : AppendEntriesRequest}
    (h : Awaits n peer request) : Expects n peer request :=
  ⟨rfl, h.next, h.term, h.self, h.previous, h.entries, h.id⟩

theorem Expects.of_same {peer : NodeId} {request : AppendEntriesRequest}
    (h : Expects n peer request) (hconfig : n'.config = n.config)
    (hterm : n'.currentTerm = n.currentTerm) (hlog : n'.log = n.log)
    (hnext : n'.nextIndex peer = n.nextIndex peer)
    (hid : n'.appendRequestId peer = n.appendRequestId peer) :
    Expects n' peer request := by
  constructor
  case sent => rfl
  case next => exact hnext.trans h.next
  case term => exact h.term.trans hterm.symm
  case self =>
    show _ = n'.config.nodeId
    rw [hconfig]
    exact h.self
  case previous =>
    show (n'.log.at? _).map _ = _
    rw [hlog]
    exact h.previous
  case entries =>
    show _ = n'.log.entries.drop _
    rw [hlog]
    exact h.entries
  case id =>
    show (n'.appendRequestId peer).getD _ = _
    rw [hid]
    exact h.id

structure Asks (peers : List NodeId) (n n' : RaftNode storage random) : Prop where
  same : n' = { n with appendRequestId := n'.appendRequestId, outbox := n'.outbox }
  spared : forall peer, peer ∉ peers ->
    n'.appendRequestId peer = n.appendRequestId peer
  kept : forall message, message ∈ n.outbox -> message ∈ n'.outbox
  asked : forall peer, peer ∈ peers -> exists request, Expects n' peer request ∧
    request.leaderCommit = n.commitIndex ∧
    ⟨n.config.nodeId, peer, .appendEntriesRequest request⟩ ∈ n'.outbox

theorem asks_nil (n : RaftNode storage random) : Asks [] n n := by
  refine ⟨rfl, fun _ _ => rfl, fun _ hmessage => hmessage, ?_⟩
  intro peer hnone
  cases hnone

theorem asks_cons {peer : NodeId} {rest : List NodeId} {previous : LogIndex}
    {entry : LogEntry} (hnext : n.nextIndex peer = some (previous + 1))
    (hentry : n.log.at? previous = some entry) (hfresh : peer ∉ rest)
    (hasks : Asks rest (n.withRequest peer previous entry.term) n') :
    Asks (peer :: rest) n n' := by
  have hsame := hasks.same
  constructor
  case same =>
    rw [hsame]
    rfl
  case spared =>
    intro other hother
    rw [List.mem_cons, not_or] at hother
    rw [hasks.spared other hother.right]
    exact NodeMap.assign_of_ne _ _ hother.left
  case kept =>
    intro message hmessage
    exact hasks.kept message (List.mem_append_left _ hmessage)
  case asked =>
    intro other hother
    rcases List.mem_cons.mp hother with heq | hrest
    · rw [heq]
      refine ⟨n.requestBehind peer previous entry.term, ?_, rfl, ?_⟩
      · have hawaits := expects_of_awaits (awaits_withRequest hnext hentry)
        apply hawaits.of_same
        · rw [hsame]
        · rw [hsame]
        · rw [hsame]
        · rw [hsame]
        · exact hasks.spared peer hfresh
      · exact hasks.kept _ (List.mem_append_right _ (List.mem_singleton_self _))
    · exact hasks.asked other hrest

variable [RaftStorage storage] [RandomEngine random]

theorem ensures_tick_asks (h : WellFormed n) {elapsed : Int}
    (hbeats : Beats n elapsed) :
    Ensures (RaftNode.tick elapsed) n (fun _ n' =>
      Asks n.config.peers { n with heartbeatElapsed := 0 } n') := by
  apply ensures_tick_beats hbeats
  unfold broadcastAppendEntriesLocked
  rw [ensures_bind, ensures_get, continues_ok]
  have hasks : Ensures (n.config.peers.forM sendAppendEntriesLocked)
      { n with heartbeatElapsed := 0 } (fun _ n' => n.config.peers.Nodup ->
        Asks n.config.peers { n with heartbeatElapsed := 0 } n') := by
    apply ensures_forM_sends fun peers n n' => peers.Nodup -> Asks peers n n'
    · intro n _
      exact asks_nil n
    · intro n n' peer rest previous entry hnext hentry hrest hunique
      rw [List.nodup_cons] at hunique
      exact asks_cons hnext hentry hunique.left (hrest hunique.right)
    · intro peer hpeer
      exact exists_next h hbeats.leads hpeer
  apply ensures_mono hasks
  intro r n' hr
  exact hr h.unique

omit [RandomEngine random] in
theorem ensures_propose_appends (htakes : TakesSaves storage) (h : WellFormed n)
    (hleads : n.state = .leader) (hroom : n.log.size ≠ 2 ^ 64 - 1)
    (command : Command) :
    Ensures (RaftNode.propose command) n (fun _ n' =>
      officeOf n' = officeOf (n.withProposal command)) := by
  unfold RaftNode.propose
  rw [ensures_bind, ensures_get, continues_ok, if_neg (not_not.mpr hleads),
    if_neg hroom]
  simp only [ensures_bind, ensures_modify, continues_ok]
  apply ensures_persistLocked_saved htakes
  intro n1 hsaved
  have hdurable : Durable ((Operation.propose command).call n) n
      (n.withProposal command) := .propose rfl rfl hleads
  have hwell := wellFormed_saved (wellFormed_durable h hdurable) hsaved
  have hoffice : n1.state = .leader ∧
      officeOf n1 = officeOf (n.withProposal command) := by
    rcases hsaved with ⟨store, -, rfl⟩
    exact ⟨hleads, rfl⟩
  rw [continues_ok, ensures_bind, ensures_get, continues_ok]
  apply ensures_mono (ensures_announce hwell hoffice.left hsaved _)
  intro r n2 hannounced
  exact hannounced.right.trans hoffice.right

end Leaders

/-!
# Rounds

One round is the answer of a follower and what the leader makes of it.
-/

section Rounds

variable {storage random : Type} [RaftStorage storage] [RandomEngine random]
  {leader follower leader' follower' : RaftNode storage random}
  {request : AppendEntriesRequest} {response : AppendEntriesResponse}

structure AsksAgain (leader : RaftNode storage random) (peer : NodeId)
    (request : AppendEntriesRequest) (leader' : RaftNode storage random) :
    Prop where
  same : leader' = { leader with
    nextIndex := leader'.nextIndex
    appendRequestId := leader'.appendRequestId
    outbox := leader'.outbox }
  asked : exists request', Expects leader' peer request' ∧
    request'.previousLogIndex < request.previousLogIndex ∧
    request'.leaderCommit = leader.commitIndex ∧
    ⟨leader.config.nodeId, peer, .appendEntriesRequest request'⟩ ∈ leader'.outbox

structure Catches (leader : RaftNode storage random) (peer : NodeId)
    (leader' : RaftNode storage random) : Prop where
  leads : leader'.state = .leader
  forward : Forward leader leader'
  matched : leader'.matchIndex peer = some leader.log.entries.length

structure Round (leader follower : RaftNode storage random)
    (request : AppendEntriesRequest) (response : AppendEntriesResponse)
    (leader' follower' : RaftNode storage random) : Prop where
  term : follower'.currentTerm = leader.currentTerm
  rejected : response.success = false ->
    AsksAgain leader follower.config.nodeId request leader'
  confirmed : response.success = true ->
    Catches leader follower.config.nodeId leader' ∧
      (Agreeing leader.log follower.log ->
        leader.log.entries <+: follower'.log.entries) ∧
      min request.leaderCommit follower'.log.entries.length <= follower'.commitIndex

omit [RaftStorage storage] [RandomEngine random] in
theorem Round.leader_keeps (h : Round leader follower request response leader'
    follower') (hleads : leader.state = .leader) :
    leader'.state = .leader ∧ leader'.currentTerm = leader.currentTerm := by
  cases hsuccess : response.success with
  | false =>
      rw [(h.rejected hsuccess).same]
      exact ⟨hleads, rfl⟩
  | true =>
      have hcatches := (h.confirmed hsuccess).left
      exact ⟨hcatches.leads, hcatches.forward.term⟩

theorem commitIndex_of_resolves {sender receiver : NodeId}
    (hresolves : Resolves ⟨sender, receiver, .appendEntriesRequest request⟩ follower
      (.ok (some ⟨receiver, sender, .appendEntriesResponse response⟩)) follower')
    (hsuccess : response.success = true) :
    min request.leaderCommit follower'.log.entries.length <= follower'.commitIndex := by
  cases hresolves with
  | answered _ _ hends =>
      rcases reply_of_appendEnds hends with ⟨response', hresponse, happended, -⟩
      cases hresponse
      rw [(happended hsuccess).commit, RaftNode.lastLogIndexLocked_eq]
      exact Nat.le_max_right _ _

theorem ensures_handleRequest_answers (htakes : TakesSaves storage)
    (h : Repairable leader follower)
    (hexpects : Expects leader follower.config.nodeId request) :
    Ensures (RaftNode.handleRequest ⟨leader.config.nodeId, follower.config.nodeId,
        .appendEntriesRequest request⟩) follower (fun r follower' =>
      exists response, r = .ok (some ⟨follower.config.nodeId,
          leader.config.nodeId, .appendEntriesResponse response⟩) ∧
        Answers leader follower request response follower' ∧
        (response.success = true ->
          min request.leaderCommit follower'.log.entries.length <=
            follower'.commitIndex)) := by
  apply ensures_mono (ensures_handleRequest_resolves htakes h.follower_well rfl)
  intro r follower' hresolved
  rcases hresolved with ⟨hsaves, before, hresolves, hqueue⟩
  have hrepairable : Repairable { leader with outbox := [⟨leader.config.nodeId,
      follower.config.nodeId, .appendEntriesRequest request⟩] } follower := by
    apply h.of_rejected rfl _ h.follower_well rfl h.term
      (untouched_of_same rfl rfl rfl)
    exact ⟨h.leader_well.members, h.leader_well.self, h.leader_well.unique,
      h.leader_well.applied, h.leader_well.committed, h.leader_well.pending,
      h.leader_well.votes, h.leader_well.tracked⟩
  rcases follower_answers hrepairable hexpects rfl hresolves hsaves with
    ⟨response, rfl, hanswers⟩
  refine ⟨response, rfl, ?_, ?_⟩
  · rw [hqueue]
    refine ⟨hanswers.term, hanswers.id, hanswers.config, hanswers.current, ?_,
      hanswers.confirmed⟩
    intro hfailure
    rcases hanswers.rejected hfailure with ⟨huntouched, hregresses⟩
    exact ⟨huntouched.trans (untouched_of_same rfl rfl rfl), hregresses.previous,
      hregresses.confirmed, hregresses.conflict, hregresses.found⟩
  · intro hsuccess
    rw [hqueue]
    show min _ before.log.entries.length <= before.commitIndex
    exact commitIndex_of_resolves hresolves hsuccess

theorem ensures_step_catches (htakes : TakesSaves storage) {peer : NodeId}
    (hwell : WellFormed leader)
    (hleads : leader.state = .leader) (hpeer : peer ∈ leader.config.peers)
    (hterm : response.term = leader.currentTerm) (hsuccess : response.success = true)
    (hmatch : response.matchIndex = leader.log.entries.length) :
    Ensures (RaftNode.step ⟨peer, leader.config.nodeId,
      .appendEntriesResponse response⟩) leader (fun _ leader' =>
        Catches leader peer leader') := by
  have hrecords := leader_records hwell hleads hpeer hterm hsuccess hmatch
  have hstate : Ensures (RaftNode.step ⟨peer, leader.config.nodeId,
      .appendEntriesResponse response⟩) leader (fun _ leader' =>
        leader'.state = leader.state) := by
    have hkept : Preserves (fun n : RaftNode storage random => n.state)
        (do dispatch peer (.appendEntriesResponse response); pure true) :=
      preserves_bind (preserves_handleAppendEntriesResponseLocked
        (fun _ _ _ _ _ _ _ _ => rfl) peer response) fun _ => preserves_pure _
    refine ensures_step_current ⟨rfl, hwell.isPeerLocked_iff.mpr hpeer⟩ hterm ?_
    exact hkept leader
  have hpath := path_of_explained (ensures_perform hwell (.step ⟨peer,
    leader.config.nodeId, .appendEntriesResponse response⟩)).explained
    (savesSucceed_of_save_ok htakes hwell _)
  simp only [Operation.handled, Operation.perform, outcome_bind_pure] at hpath
  refine ⟨(show _ = _ from hstate).trans hleads, ?_, hrecords.left⟩
  cases calms_path rfl hpath with
  | retired hrank =>
      rw [show _ = _ from hstate] at hrank
      exact absurd hrank (Nat.lt_irrefl _)
  | stayed _ hforward => exact hforward hleads

theorem ensures_step_round (htakes : TakesSaves storage)
    (h : Repairable leader follower)
    (hexpects : Expects leader follower.config.nodeId request)
    (hanswers : Answers leader follower request response follower')
    (hcommit : response.success = true ->
      min request.leaderCommit follower'.log.entries.length <= follower'.commitIndex) :
    Ensures (RaftNode.step ⟨follower.config.nodeId, leader.config.nodeId,
      .appendEntriesResponse response⟩) leader (fun _ leader' =>
        Round leader follower request response leader' follower') := by
  cases hsuccess : response.success with
  | false =>
      rcases hanswers.rejected hsuccess with ⟨-, hregresses⟩
      have hretry : leader.retryAt follower.config.nodeId response <=
          request.previousLogIndex := retryAt_le hregresses
      apply ensures_mono (leader_retries h.leader_well h.leads h.member
        (hexpects.id.trans hanswers.id.symm) hanswers.term hsuccess)
      intro r leader' hretries
      rcases hretries with ⟨previous, previousTerm, hprevious, hawaits, hframe⟩
      refine ⟨hanswers.current, ?_, ?_⟩
      · intro _
        refine ⟨hframe, _, expects_of_awaits hawaits, ?_, rfl, ?_⟩
        · show previous < _
          lia
        · have hconfig : leader'.config = leader.config := by rw [hframe]
          rw [← hconfig]
          exact List.mem_of_getLast? hawaits.sent
      · intro hconfirmed
        rw [hsuccess] at hconfirmed
        cases hconfirmed
  | true =>
      rcases hanswers.confirmed hsuccess with ⟨hmatch, hcovered⟩
      apply ensures_mono (ensures_step_catches htakes h.leader_well h.leads h.member
        hanswers.term hsuccess hmatch)
      intro r leader' hcatches
      refine ⟨hanswers.current, ?_, ?_⟩
      · intro hfailure
        rw [hsuccess] at hfailure
        cases hfailure
      · intro _
        exact ⟨hcatches, hcovered, hcommit hsuccess⟩

theorem exists_round (htakes : TakesSaves storage) (h : Repairable leader follower)
    (hexpects : Expects leader follower.config.nodeId request) :
    exists response follower',
      outcome (RaftNode.handleRequest ⟨leader.config.nodeId,
          follower.config.nodeId, .appendEntriesRequest request⟩) follower =
        (.ok (some ⟨follower.config.nodeId, leader.config.nodeId,
          .appendEntriesResponse response⟩), follower') ∧
      Round leader follower request response (outcome (RaftNode.step
        ⟨follower.config.nodeId, leader.config.nodeId,
          .appendEntriesResponse response⟩) leader).2 follower' := by
  rcases ensures_handleRequest_answers htakes h hexpects with
    ⟨response, hreply, hanswers, hcommit⟩
  exact ⟨response, _, Prod.ext hreply rfl,
    ensures_step_round htakes h hexpects hanswers hcommit⟩

end Rounds

end Raft
end FTKV
