import FTKV.Cluster.Deliveries
import FTKV.Cluster.Moves
import FTKV.Raft.Reactions
import FTKV.Raft.Restart

/-!
# Weights of messages

While no node changes its role and no leader goes forward, a delivery replaces a
message by a lighter one: a leader that was refused goes back to an earlier index
than it has tried.
-/

namespace FTKV
namespace Raft

open Foundation
open Foundation.Effect
open Consensus

/-!
# Logs in a cluster
-/

section Logs

variable {storage random : Type} {n : RaftNode storage random}
  {request : AppendEntriesRequest}

theorem ascendingRequest_of_announces (h : Restartable n)
    (hannounces : Announces n request) : AscendingRequest request := by
  have hsplit := h.ascending
  unfold Ascending at hsplit
  rw [← List.take_append_drop request.previousLogIndex n.log.entries,
    List.pairwise_append] at hsplit
  rcases hsplit with ⟨-, hdrop, hbetween⟩
  rw [← hannounces.entries] at hdrop hbetween
  refine ⟨hdrop, ?_⟩
  intro hpositive entry hentry
  obtain ⟨previous, hprevious⟩ := Nat.exists_eq_succ_of_ne_zero hpositive
  have hterm := hannounces.previous_term
  rw [hprevious, Log.at?_succ] at hterm
  rcases Option.map_eq_some_iff.mp hterm with ⟨before, hbefore, hsame⟩
  have hkept : (n.log.entries.take request.previousLogIndex)[previous]? =
      some before := by
    rw [hprevious, List.getElem?_take_of_lt (Nat.lt_succ_self previous)]
    exact hbefore
  rw [← hsame]
  exact hbetween before (List.mem_of_getElem? hkept) entry hentry

variable [RaftStorage storage] [RandomEngine random] {membership : Membership}
  {run : Execution storage random membership}

theorem restartable_run (shadow : Shadow run) (k : Nat) :
    forall id, id ∈ membership.members -> Restartable ((run.states k).nodes id) := by
  rcases exists_schedule run with ⟨schedule⟩
  have hcreated : forall {config : RaftConfig} {store : storage}
      {node : RaftNode storage random},
      RaftNode.create config store = .ok node -> Restartable node :=
    fun hcreate =>
      restartable_of_accepted (fresh_of_create hcreate) (accepted_of_create hcreate)
  induction k using Nat.strong_induction_on with
  | h k ih =>
      intro id hid
      cases k with
      | zero =>
          rcases run.starts.nodes id hid with ⟨store, -, hcreate⟩
          exact hcreated hcreate
      | succ k =>
          have hnode := ih k (Nat.lt_succ_self k) id hid
          have hmoved := (schedule.advances shadow k).members id hid
          generalize (run.states (k + 1)).nodes id = node at hmoved
          cases hmoved with
          | idle => exact hnode
          | rebuilt hstore hcreate => exact hcreated hcreate
          | operated hevent hdelivers hreturns =>
              apply restartable_perform hnode (shadow.represents k hid).well hreturns
              constructor
              · intro message request hinbox hrewrites
                rcases exists_announces shadow
                  (Or.inl (Cluster.mem_network_of_delivers hdelivers hinbox))
                  hrewrites.rpc with ⟨j, leader, hjk, hleader, -, hannounces⟩
                exact ascendingRequest_of_announces
                  (ih j (Nat.lt_succ_of_le hjk) leader hleader) hannounces
              · intro ⟨elapsed, _, _, hlast⟩
                exact run.terms k id hid hlast

end Logs

/-!
# Rejections

A follower of the leader's term rejects a request only at an index that the
leader has not seen confirmed, and reports an earlier one.
-/

section Rejections

variable {storage random : Type} {membership : Membership} {leader id : NodeId}
  {l n : RaftNode storage random} {w : RaftWorld} {request : AppendEntriesRequest}
  [RaftStorage storage]

theorem take_match_isPrefix (hl : Represents membership leader l w)
    (hn : Represents membership id n w) (hinv : Inv (majority membership.members) w)
    (hleads : l.state = .leader) (hterm : n.currentTerm <= l.currentTerm)
    (hpeer : id ∈ l.config.peers) :
    l.log.entries.take (l.matchIndex.valueAt id) <+: n.log.entries := by
  rcases hl.well.tracked hleads id hpeer with ⟨_, reached, _, _, hreached, _, _, _⟩
  rw [NodeMap.valueAt, hreached, Option.getD_some]
  rcases hl.matched hleads id hpeer reached hreached with hzero | hreceipt
  · rw [hzero, List.take_zero]
    exact List.nil_prefix
  · have hkept := hn.take_lead_isPrefix hinv hreceipt hterm
    rw [(hl.leader hinv hleads).right] at hkept
    exact hkept

omit [RaftStorage storage] in
theorem at?_eq_of_rooted {log log' : Log} {index last : LogIndex} {entry : LogEntry}
    (hrooted : Rooted w log.entries) (hrooted' : Rooted w log'.entries)
    (hpos : 0 < index) (hle : index <= last) (hentry : log.at? index = some entry)
    (hlast : (log'.at? last).map LogEntry.term = some entry.term) :
    log'.at? index = some entry := by
  obtain ⟨position, rfl⟩ := Nat.exists_eq_succ_of_ne_zero (Nat.ne_of_gt hpos)
  obtain ⟨position', rfl⟩ := Nat.exists_eq_succ_of_ne_zero (Nat.ne_of_gt
    (Nat.lt_of_lt_of_le hpos hle))
  rw [Log.at?_succ] at hentry hlast ⊢
  rcases Option.map_eq_some_iff.mp hlast with ⟨entry', hentry', hterm⟩
  exact rooted_getElem?_eq hrooted hrooted' hentry hentry' (Nat.le_of_succ_le_succ hle)
    hterm.symm

section Snapshots

variable {log : List LogEntry} (hl : Represents membership leader l w)
  (hn : Represents membership id n w) (hinv : Inv (majority membership.members) w)
  (hleads : l.state = .leader) (hterm : n.currentTerm = l.currentTerm)
  (hsnapshot : Snapshot (majority membership.members) w l.currentTerm leader
    request.previousLogIndex request.previousLogTerm request.entries
    request.leaderCommit log)

include hl hinv hleads hsnapshot

theorem snapshot_isPrefix : log <+: l.log.entries := by
  have hlog := hsnapshot.lead
  rw [(hl.leader hinv hleads).right] at hlog
  exact hlog

theorem mem_log_of_snapshot {entry : LogEntry} (hentry : entry ∈ request.entries) :
    entry ∈ l.log.entries := by
  rw [hsnapshot.suffix_eq] at hentry
  exact (snapshot_isPrefix hl hinv hleads hsnapshot).subset (List.mem_of_mem_drop hentry)

theorem at?_ne_of_mismatch {previous : LogEntry}
    (hne : previous.term ≠ request.previousLogTerm) :
    l.log.at? request.previousLogIndex ≠ some previous := by
  intro hsame
  have hstamp : stampAt l.log.entries request.previousLogIndex = previous.term :=
    stampAt_eq (by rw [hsame]; rfl)
  rw [← stampAt_of_isPrefix (snapshot_isPrefix hl hinv hleads hsnapshot)
    hsnapshot.previous_le, ← hsnapshot.stamp_eq] at hstamp
  exact hne hstamp.symm

include hn hterm

theorem regresses_of_mismatch {previous : LogEntry} {start : LogIndex}
    (hpeer : id ∈ l.config.peers)
    (hprevious : n.log.at? request.previousLogIndex = some previous)
    (hpos : 0 < request.previousLogIndex)
    (hne : previous.term ≠ request.previousLogTerm)
    (hstart : start <= request.previousLogIndex) :
    Regresses l id request start (some previous.term) := by
  have hdiffers := at?_ne_of_mismatch hl hinv hleads hsnapshot hne
  refine ⟨hpos, ?_, hstart, ?_⟩
  · by_contra hconfirmed
    have htake := take_eq_take_of_take_isPrefix
      (take_match_isPrefix hl hn hinv hleads hterm.le hpeer) (not_lt.mp hconfirmed)
      (valueAt_matchIndex_le hl.well hleads hpeer)
    exact hdiffers ((at?_eq_of_take htake).trans hprevious)
  · intro last hlast _ _
    by_contra hafter
    exact hdiffers (at?_eq_of_rooted (hn.rooted hinv) (hl.rooted hinv) hpos
      (not_lt.mp hafter) hprevious hlast)

omit hl hleads in
theorem term_eq_of_committed {seen rest : List LogEntry}
    {incoming localEntry : LogEntry}
    (hsplit : request.entries = seen ++ incoming :: rest)
    (hlocal : n.log.entries[request.previousLogIndex + seen.length]? =
      some localEntry)
    (hlt : request.previousLogIndex + seen.length < n.commitIndex) :
    localEntry.term = incoming.term := by
  have hincoming : request.entries[seen.length]? = some incoming := by
    rw [hsplit]
    simp
  have hsettled := settled_mono (evolves_refl _) hterm.le (List.take_prefix _ _)
    (Nat.le_refl _) (hn.settled hinv)
  exact congrArg LogEntry.term
    (hsnapshot.entry_eq_of_settled hinv hsettled hlocal hincoming hlt)

end Snapshots

theorem regresses_of_rejects {conflictIndex : LogIndex} {conflictTerm : Option Term}
    (hl : Represents membership leader l w) (hn : Represents membership id n w)
    (hinv : Inv (majority membership.members) w) (hleads : l.state = .leader)
    (hterm : n.currentTerm = l.currentTerm) (hpeer : id ∈ l.config.peers)
    (hterms : forall entry, entry ∈ l.log.entries -> entry.term ≠ 0)
    (hsender : request.leaderId = leader) (hcurrent : request.term = l.currentTerm)
    (hsent : .entries request.term request.leaderId request.previousLogIndex
      request.previousLogTerm request.entries request.leaderCommit ∈ w.sent)
    (hrejects : Rejects n leader request conflictIndex conflictTerm) :
    Regresses l id request conflictIndex conflictTerm := by
  rcases exists_snapshot hinv.logs hsent with ⟨log, hsnapshot⟩
  rw [hcurrent, hsender] at hsnapshot
  cases hrejects with
  | unfit hunfit =>
      rcases hunfit with hother | hlow | ⟨entry, hentry, hbad⟩
      · exact absurd hsender hother
      · rw [hcurrent, hterm] at hlow
        exact absurd hlow (lt_irrefl _)
      · have hmember := mem_log_of_snapshot hl hinv hleads hsnapshot hentry
        rcases hbad with hzero | hhigh
        · exact absurd hzero (hterms entry hmember)
        · rw [hcurrent] at hhigh
          exact absurd (hl.term_le hinv hmember) (not_le_of_gt hhigh)
  | short hshort =>
      have hlength := (take_match_isPrefix hl hn hinv hleads hterm.le hpeer).length_le
      have hmatched := valueAt_matchIndex_le hl.well hleads hpeer
      rw [List.length_take] at hlength
      refine ⟨by lia, by lia, hshort, ?_⟩
      intro last hnone hle _
      rcases Log.at?_isSome hle with ⟨entry, hentry⟩
      rw [hentry] at hnone
      cases hnone
  | mismatch hprevious hpos hne hstart =>
      exact regresses_of_mismatch hl hn hinv hleads hterm hsnapshot hpeer hprevious
        hpos hne hstart
  | committed hsplit hlocal hne hlt =>
      exact absurd (term_eq_of_committed hn hinv hterm hsnapshot hsplit hlocal hlt)
        hne

end Rejections

/-!
# Weights

A response that makes the leader send a request weighs more than that request,
and a request weighs more than any response to it.  Requests that are out of date
weigh more than all requests the leader could still send.
-/

section Weights

variable {storage random : Type}

def requestWeight (l : RaftNode storage random) (request : AppendEntriesRequest) :
    Nat :=
  if l.state = .leader then
    if request.term = l.currentTerm ∧
        l.log.entries.length <= request.previousLogIndex + request.entries.length then
      2 * (request.previousLogIndex + 1)
    else
      2 * (l.log.entries.length + 1) + 2
  else
    2

def responseWeight (l : RaftNode storage random) (sender : NodeId)
    (response : AppendEntriesResponse) : Nat :=
  if l.state = .leader ∧ response.term = l.currentTerm then
    if response.success = true then
      if response.matchIndex < l.log.entries.length then
        2 * (l.log.entries.length + 1) + 1
      else
        1
    else
      2 * l.retryAt sender response + 1
  else
    1

/-- The weight of a message depends on the leader that sends or receives it. -/
def weight (nodes : NodeId -> RaftNode storage random) (message : Message) : Nat :=
  match message.rpc with
  | .requestVoteRequest _ => 2
  | .requestVoteResponse _ => 1
  | .appendEntriesRequest request => requestWeight (nodes message.fromNode) request
  | .appendEntriesResponse response =>
      responseWeight (nodes message.toNode) message.fromNode response

variable {l l' n : RaftNode storage random} {sender : NodeId}
  {request : AppendEntriesRequest} {response : AppendEntriesResponse}
  {nodes : NodeId -> RaftNode storage random} {message : Message}

theorem two_le_requestWeight : 2 <= requestWeight l request := by
  unfold requestWeight
  split_ifs <;> lia

theorem responseWeight_pos : 0 < responseWeight l sender response := by
  unfold responseWeight
  split_ifs <;> lia

theorem weight_pos : 0 < weight nodes message := by
  unfold weight
  split
  · exact Nat.succ_pos 1
  · exact Nat.succ_pos 0
  · exact Nat.lt_of_lt_of_le (Nat.succ_pos 1) two_le_requestWeight
  · exact responseWeight_pos

theorem requestWeight_eq (h : Still l l') (request : AppendEntriesRequest) :
    requestWeight l' request = requestWeight l request := by
  unfold requestWeight
  rw [h.state]
  by_cases hleads : l.state = .leader
  · have hunmoved := h.unmoved hleads
    rw [hunmoved.term, hunmoved.log]
  · rw [if_neg hleads, if_neg hleads]

theorem responseWeight_eq (h : Still l l') (sender : NodeId)
    (response : AppendEntriesResponse) :
    responseWeight l' sender response = responseWeight l sender response := by
  unfold responseWeight
  rw [h.state]
  by_cases hleads : l.state = .leader
  · have hunmoved := h.unmoved hleads
    unfold RaftNode.retryAt
    simp only [hunmoved.term, hunmoved.log, hunmoved.matched,
      RaftNode.lastLogIndexLocked_eq]
  · rw [if_neg (fun hboth => hleads hboth.left),
      if_neg (fun hboth => hleads hboth.left)]

theorem weight_eq {nodes' : NodeId -> RaftNode storage random}
    (h : forall id, Still (nodes id) (nodes' id)) : weight nodes' = weight nodes := by
  funext message
  unfold weight
  split
  · rfl
  · rfl
  · exact requestWeight_eq (h _) _
  · exact responseWeight_eq (h _) _ _

theorem requestWeight_lt {next : LogIndex} (hleads : l.state = .leader)
    (hterm : response.term = l.currentTerm) (hnext : next <= l.log.entries.length + 1)
    (hreason : (response.success = true ∧ response.matchIndex < l.log.entries.length) ∨
      (response.success = false ∧ next = l.retryAt sender response))
    (hcarries : CarriesFrom l next request) :
    requestWeight l request < responseWeight l sender response := by
  have hprevious := hcarries.previous
  have hlength : l.log.entries.length <=
      request.previousLogIndex + request.entries.length := by
    rw [hcarries.entries, List.length_drop]
    lia
  unfold requestWeight responseWeight
  rw [if_pos hleads, if_pos ⟨hcarries.term, hlength⟩, if_pos ⟨hleads, hterm⟩]
  rcases hreason with ⟨hsuccess, hbehind⟩ | ⟨hfailure, hretry⟩
  · rw [if_pos hsuccess, if_pos hbehind]
    lia
  · rw [hfailure, if_neg Bool.false_ne_true, ← hretry]
    lia

end Weights

/-!
# Deliveries
-/

section Deliveries

variable {storage random : Type} [RaftStorage storage] {membership : Membership}
  {leader id : NodeId} {l n : RaftNode storage random} {w : RaftWorld} {call : Call}
  {message : Message} {request : AppendEntriesRequest}
  {response : AppendEntriesResponse}

theorem responseWeight_lt (hl : Represents membership leader l w)
    (hn : Represents membership id n w) (hinv : Inv (majority membership.members) w)
    (hpeer : id ∈ l.config.peers)
    (hterms : forall entry, entry ∈ l.log.entries -> entry.term ≠ 0)
    (hsender : request.leaderId = leader)
    (hsent : .entries request.term request.leaderId request.previousLogIndex
      request.previousLogTerm request.entries request.leaderCommit ∈ w.sent)
    (hinbox : call.inbox = some message)
    (hrpc : message.rpc = .appendEntriesRequest request)
    (hemit : MayEmit call n leader (.appendEntriesResponse response)) :
    responseWeight l id response < requestWeight l request := by
  have hsame : forall {other : AppendEntriesRequest},
      Handles call n leader (.appendEntriesRequest other) -> other = request := by
    intro other hhandles
    have hother := hhandles.left
    rw [hinbox] at hother
    rw [Option.some.inj hother] at hrpc
    cases hrpc
    rfl
  by_cases hcurrent : l.state = .leader ∧ response.term = l.currentTerm
  · rcases hcurrent with ⟨hleads, hterm⟩
    unfold responseWeight requestWeight
    rw [if_pos ⟨hleads, hterm⟩, if_pos hleads]
    cases hemit with
    | acknowledge haccepts hcontains =>
        cases hsame haccepts.handles
        have hlive : request.term = l.currentTerm := haccepts.current.trans hterm
        rw [if_pos rfl]
        split_ifs <;> lia
    | reject hhandles hrejects =>
        cases hsame hhandles
        rw [if_neg Bool.false_ne_true]
        split_ifs with hlive
        · have hregresses := regresses_of_rejects hl hn hinv hleads hterm hpeer hterms
            hsender hlive.left hsent hrejects
          have hlighter : forall {index : LogIndex}, index <= request.previousLogIndex ->
              2 * index + 1 < 2 * (request.previousLogIndex + 1) := by
            lia
          exact hlighter (retryAt_le hregresses)
        · exact Nat.succ_lt_succ (Nat.lt_succ_of_le (Nat.mul_le_mul_left 2
            (retryAt_le_length hl.well hleads hpeer)))
  · unfold responseWeight
    rw [if_neg hcurrent]
    exact two_le_requestWeight

variable [LawfulRaftStorage storage] [RandomEngine random]
  {run : Execution storage random membership} {k : Nat}

theorem weight_answer_lt (shadow : Shadow run) {op : Operation} {answer : Message}
    (hmessage : message ∈ (run.states k).network)
    (hinbox : op.inbox = some message) (hreceiver : message.toNode = id)
    (hid : id ∈ membership.members)
    (hrpc : message.rpc = .appendEntriesRequest request)
    (hanswer : answer ∈ op.enqueues ((run.states k).nodes id))
    (hresponse : answer.rpc = .appendEntriesResponse response)
    (hsender : answer.toNode = message.fromNode) :
    weight (run.states k).nodes answer < weight (run.states k).nodes message := by
  have hnode := shadow.represents k hid
  have hbacked := (shadow.refines k).network message hmessage
  rcases backed_appendEntriesRequest hbacked hrpc with ⟨hne, hleader, hsent⟩
  rcases exists_announces shadow (Or.inl hmessage) hrpc with
    ⟨-, leader, -, hmember, hsame, -⟩
  rw [hsame] at hleader
  rcases emitted_of_enqueues hnode.well hanswer with ⟨middle, hpath, hsends, -, -⟩
  have hinbox' : forall other, (op.call ((run.states k).nodes id)).inbox = some other ->
      Backed (shadow.worlds k) other := by
    intro other hother
    rw [show op.inbox = some other from hother] at hinbox
    rw [Option.some.inj hinbox]
    exact hbacked
  -- The state in which the answer was sent is represented in a later world.
  rcases simulate_path hid hnode hinbox' (run.terms k id hid) hpath with
    ⟨w, hacts, hmiddle⟩
  have hapart : leader ≠ id := by
    rw [hleader, ← hreceiver]
    exact hne
  have hl := shadow.represents k hmember
  have hl' := hl.frame (sent_subset_acts hacts) (replica_acts_of_ne hacts hapart)
  have hpeer := hl.mem_peers hmember hid (Ne.symm hapart)
  have hinv := (inv_steps (shadow.inv k) (steps_of_acts hacts)).left
  have hterms : forall entry, entry ∈ ((run.states k).nodes leader).log.entries ->
      entry.term ≠ 0 :=
    fun entry hentry => ((restartable_run shadow k leader hmember).terms entry hentry).left
  rcases answer with ⟨sender, receiver, rpc⟩
  cases hresponse
  rw [← hleader] at hsender
  cases hsender
  unfold weight
  rw [hrpc, ← hleader]
  cases hsends with
  | emit hemit =>
      have hself := hmiddle.nodeId_eq hid
      show responseWeight _ middle.config.nodeId _ < _
      rw [hself]
      exact responseWeight_lt hl' hmiddle hinv hpeer hterms hsame
        (sent_subset_acts hacts hsent) hinbox hrpc hemit

def Lightens (nodes : NodeId -> RaftNode storage random) (id : NodeId) (op : Operation)
    (message : Message) : Prop :=
  ((op.enqueues (nodes id)).map (weight nodes)).sum < weight nodes message

section Lightens

omit [LawfulRaftStorage storage]

variable {nodes : NodeId -> RaftNode storage random} {op : Operation}

theorem lightens_of_silent (h : op.enqueues (nodes id) = []) :
    Lightens nodes id op message := by
  unfold Lightens
  rw [h]
  exact weight_pos

theorem lightens_of_single {answer : Message} (h : op.enqueues (nodes id) = [answer])
    (hlt : weight nodes answer < weight nodes message) :
    Lightens nodes id op message := by
  unfold Lightens
  rw [h, List.map_singleton, List.sum_singleton]
  exact hlt

end Lightens

/-- A delivery that moves neither a role nor a leader replaces its message. -/
theorem delivery_lowers (shadow : Shadow run) {op : Operation}
    (hmessage : message ∈ (run.states k).network) (hinbox : op.inbox = some message)
    (hreceiver : message.toNode = id) (hid : id ∈ membership.members)
    (hstill : Still ((run.states k).nodes id) (op.handled ((run.states k).nodes id))) :
    Lightens (run.states k).nodes id op message := by
  have hnode := shadow.represents k hid
  cases hrpc : message.rpc with
  | requestVoteRequest request =>
      rcases enqueues_request ((run.states k).nodes id) hinbox
        (by simp [RaftNode.isRequest, hrpc]) with
        henqueues | ⟨answer, hanswer, henqueues⟩
      · exact lightens_of_silent henqueues
      · apply lightens_of_single henqueues
        rw [hrpc] at hanswer
        cases hanswer with
        | vote _ response => simp [weight, hrpc]
  | appendEntriesRequest request =>
      rcases enqueues_request ((run.states k).nodes id) hinbox
        (by simp [RaftNode.isRequest, hrpc]) with
        henqueues | ⟨answer, hanswer, henqueues⟩
      · exact lightens_of_silent henqueues
      · apply lightens_of_single henqueues
        rw [hrpc] at hanswer
        cases hanswer with
        | append =>
            exact weight_answer_lt shadow hmessage hinbox hreceiver hid hrpc
              (henqueues ▸ List.mem_singleton_self _) rfl rfl
  | requestVoteResponse response =>
      rcases handled_of_step hinbox (Or.inl rfl)
        (ensures_stepLocked_voteResponse ((run.states k).nodes id) hrpc) with
        houtbox | hrank
      · exact lightens_of_silent (enqueues_eq_nil houtbox)
      · rw [hstill.state] at hrank
        exact absurd hrank (Nat.lt_irrefl _)
  | appendEntriesResponse response =>
      have hresponds := handled_of_step hinbox (.quiet rfl)
        (ensures_stepLocked_appendResponse hnode.well hrpc)
      cases hresponds with
      | quiet houtbox => exact lightens_of_silent (enqueues_eq_nil houtbox)
      | advanced hstate hcommit =>
          rw [(hstill.unmoved hstate).commit] at hcommit
          exact absurd hcommit (Nat.lt_irrefl _)
      | resent hstate hterm hnext hreason hrequest houtbox =>
          apply lightens_of_single (enqueues_of_outbox houtbox)
          simp only [weight, hrpc, hnode.nodeId_eq hid, hreceiver]
          exact requestWeight_lt hstate hterm hnext hreason hrequest

end Deliveries

end Raft
end FTKV
