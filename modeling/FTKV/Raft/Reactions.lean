import FTKV.Raft.Emissions
import FTKV.Raft.Proposals
import Mathlib.Algebra.Order.BigOperators.Group.List
import Mathlib.Algebra.Order.Group.Nat

/-!
# What a delivery makes of a node

A delivery makes no node more active than it was.  A leader that stays leader
keeps its log and goes forward: its commit index and its match indexes only grow.
Unless it commits, it answers a response with at most one request.
-/

namespace FTKV
namespace Raft

open Foundation
open Foundation.Effect

/-!
# Activity
-/

section Activity

variable {storage random : Type} {n n' n'' : RaftNode storage random} {call : Call}

def NodeState.rank : NodeState -> Nat
  | .follower => 0
  | .leader => 1
  | .candidate => 2

structure Forward (n n' : RaftNode storage random) : Prop where
  config : n'.config = n.config
  term : n'.currentTerm = n.currentTerm
  log : n'.log = n.log
  commit : n.commitIndex <= n'.commitIndex
  matched : forall id, n.matchIndex.valueAt id <= n'.matchIndex.valueAt id
  foreign : forall id, id ∉ n.config.peers ->
    n'.matchIndex.valueAt id = n.matchIndex.valueAt id

inductive Calms (n n' : RaftNode storage random) : Prop where
  | retired (hrank : n'.state.rank < n.state.rank)
  | stayed (hstate : n'.state = n.state)
      (hforward : n.state = .leader -> Forward n n')

theorem forward_trans (h : Forward n n') (h' : Forward n' n'') : Forward n n'' := by
  constructor
  case config => exact h'.config.trans h.config
  case term => exact h'.term.trans h.term
  case log => exact h'.log.trans h.log
  case commit => exact Nat.le_trans h.commit h'.commit
  case matched => exact fun id => Nat.le_trans (h.matched id) (h'.matched id)
  case foreign =>
    intro id hid
    rw [h'.foreign id (h.config.symm ▸ hid), h.foreign id hid]

theorem calms_trans (h : Calms n n') (h' : Calms n' n'') : Calms n n'' := by
  cases h with
  | retired hrank =>
      cases h' with
      | retired hrank' => exact .retired (Nat.lt_trans hrank' hrank)
      | stayed hstate' => exact .retired (hstate' ▸ hrank)
  | stayed hstate hforward =>
      cases h' with
      | retired hrank' => exact .retired (hstate ▸ hrank')
      | stayed hstate' hforward' =>
          refine .stayed (hstate'.trans hstate) ?_
          intro hleads
          exact forward_trans (hforward hleads) (hforward' (hstate.trans hleads))

theorem calms_of_follows (hstate : n'.state = .follower) : Calms n n' := by
  cases hbefore : n.state with
  | follower =>
      refine .stayed (hstate.trans hbefore.symm) ?_
      intro hleads
      rw [hbefore] at hleads
      cases hleads
  | candidate | leader =>
      apply Calms.retired
      rw [hstate, hbefore]
      decide

theorem calms_of_same (hstate : n'.state = n.state) (hconfig : n'.config = n.config)
    (hterm : n'.currentTerm = n.currentTerm) (hlog : n'.log = n.log)
    (hcommit : n'.commitIndex = n.commitIndex) (hmatch : n'.matchIndex = n.matchIndex) :
    Calms n n' := by
  refine .stayed hstate fun _ => ⟨hconfig, hterm, hlog, Nat.le_of_eq hcommit.symm,
    ?_, ?_⟩
  · intro id
    rw [hmatch]
  · intro id _
    rw [hmatch]

theorem forward_record {sender : NodeId} {response : AppendEntriesResponse}
    {next : NodeMap LogIndex} (hsender : sender ∈ n.config.peers) :
    Forward n { n with
      matchIndex := n.matchIndex.assign sender
        (max (n.matchIndex.valueAt sender) response.matchIndex)
      nextIndex := next } := by
  refine ⟨rfl, rfl, rfl, Nat.le_refl _, ?_, ?_⟩
  · intro id
    by_cases hid : id = sender
    · rw [hid]
      simp [NodeMap.valueAt]
    · simp [NodeMap.valueAt, NodeMap.assign_of_ne _ _ hid]
  · intro id hforeign
    have hid : id ≠ sender := fun heq => hforeign (heq ▸ hsender)
    simp [NodeMap.valueAt, NodeMap.assign_of_ne _ _ hid]

theorem calms_durable {message : Message} (hinbox : call.inbox = some message)
    (hdurable : Durable call n n') : Calms n n' := by
  cases hdurable with
  | adopt => exact calms_of_follows rfl
  | campaign hnone =>
      rw [hinbox] at hnone
      cases hnone
  | elect hstate =>
      apply Calms.retired
      rw [hstate]
      exact Nat.lt_succ_self 1
  | vote => exact calms_of_same rfl rfl rfl rfl rfl rfl
  | rewrite haccepts =>
      refine .stayed rfl ?_
      intro hleads
      rw [haccepts.follows] at hleads
      cases hleads
  | propose hnone =>
      rw [hinbox] at hnone
      cases hnone

variable [RaftStorage storage]

theorem calms_volatile (hvolatile : Volatile call n n') : Calms n n' := by
  cases hvolatile with
  | timer | tally | emit | replicate | retry =>
      exact calms_of_same rfl rfl rfl rfl rfl rfl
  | follow => exact calms_of_follows rfl
  | record hconfirms =>
      exact .stayed rfl fun _ => forward_record hconfirms.left.right
  | raise hlow =>
      exact .stayed rfl fun _ =>
        ⟨rfl, rfl, rfl, hlow, fun _ => Nat.le_refl _, fun _ _ => rfl⟩

theorem calms_path {message : Message} (hinbox : call.inbox = some message)
    (hpath : Path call n n') : Calms n n' := by
  induction hpath with
  | refl => exact calms_of_same rfl rfl rfl rfl rfl rfl
  | tail _ haction ih =>
      cases haction with
      | volatile hvolatile => exact calms_trans ih (calms_volatile hvolatile)
      | durable hquiet hdurable hsaved =>
          rcases hsaved with ⟨store, -, rfl⟩
          exact calms_trans (calms_trans ih (calms_durable hinbox hdurable))
            (calms_of_same rfl rfl rfl rfl rfl rfl)

theorem currentTerm_path {message : Message} (hinbox : call.inbox = some message)
    (hpath : Path call n n') :
    n'.currentTerm = n.currentTerm ∨ n'.currentTerm = messageTerm message := by
  induction hpath with
  | refl => exact Or.inl rfl
  | tail _ haction ih =>
      cases haction with
      | volatile hvolatile =>
          have hterm := congrArg PersistentState.currentTerm
            (persistentState_volatile hvolatile).right
          exact ih.imp hterm.trans hterm.trans
      | durable hquiet hdurable hsaved =>
          rcases hsaved with ⟨store, -, rfl⟩
          cases hdurable with
          | adopt hother hterm =>
              rw [hinbox] at hother
              cases hother
              exact Or.inr rfl
          | campaign hnone =>
              rw [hinbox] at hnone
              cases hnone
          | elect | vote | rewrite | propose => exact ih

end Activity

/-!
# Progress of a leader
-/

section Progress

variable {storage random : Type} {n n' : RaftNode storage random}

/-- What a leader has left to commit and to replicate. -/
def RaftNode.gap (n : RaftNode storage random) : Nat :=
  if n.state = .leader then
    n.log.entries.length - n.commitIndex + (n.config.peers.map fun peer =>
      n.log.entries.length - n.matchIndex.valueAt peer).sum
  else
    0

structure Unmoved (n n' : RaftNode storage random) : Prop where
  config : n'.config = n.config
  term : n'.currentTerm = n.currentTerm
  log : n'.log = n.log
  commit : n'.commitIndex = n.commitIndex
  matched : forall id, n'.matchIndex.valueAt id = n.matchIndex.valueAt id

structure Still (n n' : RaftNode storage random) : Prop where
  state : n'.state = n.state
  unmoved : n.state = .leader -> Unmoved n n'

theorem still_refl (n : RaftNode storage random) : Still n n :=
  ⟨rfl, fun _ => ⟨rfl, rfl, rfl, rfl, fun _ => rfl⟩⟩

theorem Still.gap_eq (h : Still n n') : n'.gap = n.gap := by
  unfold RaftNode.gap
  rw [h.state]
  split
  · rename_i hleads
    have hunmoved := h.unmoved hleads
    rw [hunmoved.log, hunmoved.commit, hunmoved.config]
    simp only [hunmoved.matched]
  · rfl

theorem valueAt_matchIndex_le (h : WellFormed n) (hstate : n.state = .leader)
    {peer : NodeId} (hpeer : peer ∈ n.config.peers) :
    n.matchIndex.valueAt peer <= n.log.entries.length := by
  rcases h.tracked hstate peer hpeer with ⟨next, reached, _, _, hreached, _, hlt, hle⟩
  rw [NodeMap.valueAt, hreached, Option.getD_some]
  lia

theorem forward_cases (h' : WellFormed n') (hstate : n'.state = n.state)
    (hleads : n.state = .leader) (hforward : Forward n n') :
    n'.gap < n.gap ∨ Still n n' := by
  have hcommitted := h'.committed
  have hmatched : forall peer, peer ∈ n.config.peers ->
      n'.matchIndex.valueAt peer <= n.log.entries.length := by
    intro peer hpeer
    rw [← hforward.log]
    apply valueAt_matchIndex_le h' (hstate.trans hleads)
    rw [hforward.config]
    exact hpeer
  rw [hforward.log] at hcommitted
  have hcommit := hforward.commit
  have hpeers : (n.config.peers.map fun peer =>
      n.log.entries.length - n'.matchIndex.valueAt peer).sum <=
        (n.config.peers.map fun peer =>
          n.log.entries.length - n.matchIndex.valueAt peer).sum :=
    List.sum_le_sum fun peer _ => Nat.sub_le_sub_left (hforward.matched peer) _
  unfold RaftNode.gap
  rw [hstate, if_pos hleads, if_pos hleads, hforward.log, hforward.config]
  by_cases hraised : n.commitIndex < n'.commitIndex
  · left
    lia
  by_cases hsame : forall peer, peer ∈ n.config.peers ->
      n'.matchIndex.valueAt peer = n.matchIndex.valueAt peer
  · right
    refine ⟨hstate, fun _ => ⟨hforward.config, hforward.term, hforward.log, by lia, ?_⟩⟩
    intro id
    by_cases hid : id ∈ n.config.peers
    · exact hsame id hid
    · exact hforward.foreign id hid
  · left
    push Not at hsame
    rcases hsame with ⟨peer, hpeer, hne⟩
    have hgrown := Nat.lt_of_le_of_ne (hforward.matched peer) (Ne.symm hne)
    have hbound := hmatched peer hpeer
    have hless : (n.config.peers.map fun peer =>
        n.log.entries.length - n'.matchIndex.valueAt peer).sum <
          (n.config.peers.map fun peer =>
            n.log.entries.length - n.matchIndex.valueAt peer).sum :=
      List.sum_lt_sum _ _
        (fun peer _ => Nat.sub_le_sub_left (hforward.matched peer) _)
        ⟨peer, hpeer, by lia⟩
    lia

theorem calms_cases (h' : WellFormed n') (hcalms : Calms n n') :
    n'.state.rank < n.state.rank ∨ (n'.state = n.state ∧ n'.gap < n.gap) ∨
      Still n n' := by
  cases hcalms with
  | retired hrank => exact Or.inl hrank
  | stayed hstate hforward =>
      right
      by_cases hleads : n.state = .leader
      · exact (forward_cases h' hstate hleads (hforward hleads)).imp_left
          fun hgap => ⟨hstate, hgap⟩
      · exact Or.inr ⟨hstate, fun hleader => absurd hleader hleads⟩

end Progress

/-!
# Responses
-/

section Responses

variable {storage random : Type} {n n' : RaftNode storage random} {call : Call}
  {sender : NodeId} {response : AppendEntriesResponse}

def RaftNode.retryAt (n : RaftNode storage random) (sender : NodeId)
    (response : AppendEntriesResponse) : LogIndex :=
  max (max 1 (min (n.log.retryFrom response) (n.lastLogIndexLocked + 1)))
    (n.matchIndex.valueAt sender + 1)

theorem retryAt_le_length (h : WellFormed n) (hstate : n.state = .leader)
    (hsender : sender ∈ n.config.peers) :
    n.retryAt sender response <= n.log.entries.length + 1 := by
  have hmatched := valueAt_matchIndex_le h hstate hsender
  unfold RaftNode.retryAt
  rw [RaftNode.lastLogIndexLocked_eq]
  lia

structure Regresses (n : RaftNode storage random) (id : NodeId)
    (request : AppendEntriesRequest) (conflictIndex : LogIndex)
    (conflictTerm : Option Term) : Prop where
  previous : 0 < request.previousLogIndex
  confirmed : n.matchIndex.valueAt id < request.previousLogIndex
  conflict : conflictIndex <= request.previousLogIndex
  found : forall last, (n.log.at? last).map LogEntry.term = conflictTerm ->
    last <= n.log.entries.length -> 0 < last -> last < request.previousLogIndex

theorem retryAt_le {id : NodeId} {request : AppendEntriesRequest}
    (h : Regresses n id request response.conflictIndex response.conflictTerm) :
    n.retryAt id response <= request.previousLogIndex := by
  rcases h with ⟨hprevious, hconfirmed, hconflict, hfound⟩
  have hretry : n.log.retryFrom response <= request.previousLogIndex := by
    rcases n.log.retryFrom_cases response with heq | ⟨last, heq, hpos, hle, hterm⟩
    · rw [heq]
      exact hconflict
    · rw [heq]
      exact hfound last hterm hle hpos
  unfold RaftNode.retryAt
  lia

structure CarriesFrom (n : RaftNode storage random) (next : LogIndex)
    (request : AppendEntriesRequest) : Prop where
  term : request.term = n.currentTerm
  previous : request.previousLogIndex + 1 = next
  entries : request.entries = n.log.entries.drop request.previousLogIndex

/-- What a response to a request makes of a node. -/
inductive Responds (sender : NodeId) (response : AppendEntriesResponse)
    (n n' : RaftNode storage random) : Prop where
  | quiet (houtbox : n'.outbox = n.outbox)
  | advanced (hstate : n.state = .leader) (hcommit : n.commitIndex < n'.commitIndex)
  | resent {next : LogIndex} {request : AppendEntriesRequest}
      (hstate : n.state = .leader) (hterm : response.term = n.currentTerm)
      (hnext : next <= n.log.entries.length + 1)
      (hreason : (response.success = true ∧
          response.matchIndex < n.log.entries.length) ∨
        (response.success = false ∧ next = n.retryAt sender response))
      (hrequest : CarriesFrom n next request)
      (houtbox : n'.outbox = n.outbox ++
        [⟨n.config.nodeId, sender, .appendEntriesRequest request⟩])

theorem ensures_sendAppendEntriesLocked_carries {next : LogIndex} (hpos : 0 < next)
    (hnext : n.nextIndex sender = some next)
    (hbound : next <= n.log.entries.length + 1) :
    Ensures (sendAppendEntriesLocked sender) n (fun _ n' =>
      exists request, CarriesFrom n next request ∧ n'.outbox = n.outbox ++
        [⟨n.config.nodeId, sender, .appendEntriesRequest request⟩]) := by
  cases next with
  | zero => cases hpos
  | succ previous =>
      rcases Log.at?_isSome (Nat.le_of_succ_le_succ hbound) with ⟨entry, hentry⟩
      apply ensures_sendAppendEntriesLocked_sends hnext hentry
      exact ⟨_, ⟨rfl, rfl, rfl⟩, rfl⟩

theorem responds_handleAppendRejection (h : WellFormed n) (hstate : n.state = .leader)
    (hterm : response.term = n.currentTerm) (hsuccess : response.success = false)
    (hsender : sender ∈ n.config.peers) :
    Ensures (handleAppendRejection sender response) n
      (fun _ n' => Responds sender response n n') := by
  rcases h.tracked hstate sender hsender with
    ⟨next, reached, requestId, -, hreached, hrequest, hbelow, habove⟩
  unfold handleAppendRejection
  simp only [ensures_bind, ensures_get, continues_ok, ensures_modify,
    NodeMap.touch_of_some hrequest]
  split
  · exact .quiet rfl
  · simp only [ensures_bind]
    refine ensures_retryIndex ?_
    simp only [continues_ok, ensures_bind, ensures_modify,
      NodeMap.touch_of_some hreached]
    have hbound : n.retryAt sender response <= n.log.entries.length + 1 :=
      retryAt_le_length h hstate hsender
    refine ensures_mono (ensures_sendAppendEntriesLocked_carries
      (Nat.lt_of_lt_of_le (Nat.succ_pos _) (Nat.le_max_right _ _))
      (NodeMap.assign_self ..) hbound) ?_
    rintro r n' ⟨request, hcarries, houtbox⟩
    exact .resent hstate hterm hbound (Or.inr ⟨hsuccess, rfl⟩)
      ⟨hcarries.term, hcarries.previous, hcarries.entries⟩ houtbox

variable [RaftStorage storage]

theorem responds_handleAppendSuccess (h : WellFormed n)
    (hhandles : Handles call n sender (.appendEntriesResponse response))
    (hstate : n.state = .leader) (hterm : response.term = n.currentTerm)
    (hsuccess : response.success = true) :
    Ensures (handleAppendSuccess sender response) n
      (fun _ n' => Responds sender response n n') := by
  unfold handleAppendSuccess
  rw [ensures_bind, ensures_get, continues_ok]
  split
  · exact .quiet rfl
  · rename_i hmatch
    rw [RaftNode.lastLogIndexLocked_eq, not_lt] at hmatch
    have hwell := wellFormed_volatile h
      (.record ⟨hhandles, hstate, hterm, hsuccess, hmatch⟩)
    rw [ensures_bind, ensures_modify, continues_ok, ensures_bind]
    unfold advanceCommitIndexLocked
    rw [ensures_bind, ensures_get, continues_ok]
    refine ensures_advanceFrom hwell hstate (Nat.le_refl _) ?_ ?_
    · rw [continues_ok, if_neg Bool.false_ne_true, ensures_bind, ensures_get,
        continues_ok]
      split
      · rename_i hbehind
        rcases hwell.tracked hstate sender hhandles.right with
          ⟨next, reached, _, hnext, hreached, _, hlt, hle⟩
        refine ensures_mono (ensures_sendAppendEntriesLocked_carries (by lia) hnext
          hle) ?_
        rintro r n' ⟨request, hrequest, houtbox⟩
        have hless : max (n.matchIndex.valueAt sender) response.matchIndex <
            n.log.entries.length := by
          simpa [NodeMap.valueAt] using hbehind
        exact .resent hstate hterm hle
          (Or.inl ⟨hsuccess, (max_lt_iff.mp hless).right⟩)
          ⟨hrequest.term, hrequest.previous, hrequest.entries⟩ houtbox
      · exact .quiet rfl
    · intro k hlow hhigh _ _
      rw [continues_ok, if_pos rfl]
      have hkeeps : Preserves (fun n : RaftNode storage random => n.commitIndex)
          broadcastAppendEntriesLocked :=
        preserves_broadcastAppendEntriesLocked fun _ _ _ => rfl
      refine ensures_mono (hkeeps _) ?_
      intro r n' hcommit
      exact .advanced hstate (Nat.lt_of_lt_of_eq hlow hcommit.symm)

theorem responds_handleAppendEntriesResponseLocked (h : WellFormed n)
    (hhandles : Handles call n sender (.appendEntriesResponse response)) :
    Ensures (handleAppendEntriesResponseLocked sender response) n
      (fun _ n' => Responds sender response n n') := by
  unfold handleAppendEntriesResponseLocked
  rw [ensures_bind, ensures_get, continues_ok]
  split
  · exact .quiet rfl
  · rename_i hvalid
    rw [not_or, not_not, not_not] at hvalid
    split
    · rename_i hsuccess
      exact responds_handleAppendSuccess h hhandles hvalid.left hvalid.right hsuccess
    · rename_i hfailure
      exact responds_handleAppendRejection h hvalid.left hvalid.right
        (Bool.eq_false_iff.mpr hfailure) hhandles.right

end Responses

/-!
# Whole deliveries
-/

section Deliveries

variable {storage random : Type} [RaftStorage storage]
  {n : RaftNode storage random} {message : Message}

theorem ensures_becomeLeaderLocked_leads :
    Ensures becomeLeaderLocked n (fun _ n' => n'.state = .leader) := by
  have hkeeps : Preserves (fun n : RaftNode storage random => n.state) (do
      persistLocked
      let _ <- advanceCommitIndexLocked
      broadcastAppendEntriesLocked) := by
    refine preserves_bind (preserves_persistLocked fun _ _ => rfl) ?_
    intro _
    refine preserves_bind
      (preserves_advanceCommitIndexLocked fun _ _ _ _ _ => rfl) ?_
    intro _
    exact preserves_broadcastAppendEntriesLocked fun _ _ _ => rfl
  unfold becomeLeaderLocked
  simp only [ensures_bind, ensures_modify, continues_ok]
  have hstate := hkeeps { n.asLeader with heartbeatElapsed := 0 }
  simp only [ensures_bind] at hstate
  exact hstate

variable [RandomEngine random]

theorem ensures_becomeFollowerLocked_follows (term : Term) (leaderId : Option NodeId) :
    Ensures (becomeFollowerLocked term leaderId) n
      (fun _ n' => n'.state = .follower ∧ n'.outbox = n.outbox) := by
  have hquiet := quiet_becomeFollowerLocked term leaderId n
  refine ⟨?_, (Prod.mk.inj hquiet).left⟩
  have hfollows : Ensures (becomeFollowerLocked term leaderId) n
      (fun _ n' => n'.state = .follower) := by
    unfold becomeFollowerLocked
    simp only [ensures_bind, ensures_get, continues_ok]
    have hsaves : Preserves (fun n : RaftNode storage random => n.state)
        (persistLocked : NodeM storage random Unit) :=
      preserves_persistLocked fun _ _ => rfl
    split
    · simp only [ensures_modify, continues_ok]
      exact hsaves _
    · rfl
  exact hfollows

theorem ensures_stepLocked_of_dispatch
    {post : Except Fault Bool -> RaftNode storage random -> Prop}
    (hignored : post (.ok false) n)
    (hfault : forall fault n', n'.outbox = n.outbox -> post (.error fault) n')
    (hfollower : forall n', n'.state = .follower -> n'.outbox = n.outbox ->
      Ensures (do dispatch message.fromNode message.rpc; pure true) n' post)
    (hcurrent : message.toNode = n.config.nodeId ->
      n.isPeerLocked message.fromNode = true ->
        Ensures (do dispatch message.fromNode message.rpc; pure true) n post) :
    Ensures (stepLocked message) n post := by
  unfold stepLocked
  rw [ensures_bind, ensures_get, continues_ok]
  split
  · exact hignored
  · rename_i haddressed
    rw [not_or, not_not, not_not] at haddressed
    rw [ensures_bind]
    split
    · refine ensures_mono (ensures_becomeFollowerLocked_follows _ _) ?_
      rintro r n' ⟨hstate, houtbox⟩
      cases r with
      | ok _ => exact hfollower n' hstate houtbox
      | error fault => exact hfault fault n' houtbox
    · exact hcurrent haddressed.left haddressed.right

theorem ensures_stepLocked_voteResponse (n : RaftNode storage random)
    {response : RequestVoteResponse} (hrpc : message.rpc = .requestVoteResponse response) :
    Ensures (stepLocked message) n (fun _ n' =>
      n'.outbox = n.outbox ∨ n'.state.rank < n.state.rank) := by
  refine ensures_stepLocked_of_dispatch (Or.inl rfl) (fun _ _ => Or.inl) ?_ ?_
  · intro n' hstate houtbox
    rw [hrpc, ensures_bind]
    show Ensures (handleRequestVoteResponseLocked _ _) n' _
    unfold handleRequestVoteResponseLocked
    rw [ensures_bind, ensures_get, continues_ok, if_pos]
    · exact Or.inl houtbox
    · rw [hstate]
      exact Or.inl nofun
  · intro _ _
    rw [hrpc, ensures_bind]
    show Ensures (handleRequestVoteResponseLocked _ _) n _
    unfold handleRequestVoteResponseLocked
    rw [ensures_bind, ensures_get, continues_ok]
    split
    · exact Or.inl rfl
    · rename_i hvalid
      rw [not_or, not_not] at hvalid
      simp only [ensures_bind, ensures_modify, ensures_get, continues_ok]
      split
      · refine ensures_mono ensures_becomeLeaderLocked_leads ?_
        intro r n' hleads
        have hrank : n'.state.rank < n.state.rank := by
          rw [hleads, hvalid.left]
          exact Nat.lt_succ_self 1
        cases r with
        | ok _ => exact Or.inr hrank
        | error _ => exact Or.inr hrank
      · exact Or.inl rfl

theorem ensures_stepLocked_appendResponse {response : AppendEntriesResponse}
    (h : WellFormed n) (hrpc : message.rpc = .appendEntriesResponse response) :
    Ensures (stepLocked message) n
      (fun _ n' => Responds message.fromNode response n n') := by
  refine ensures_stepLocked_of_dispatch (.quiet rfl) (fun _ _ => .quiet) ?_ ?_
  · intro n' hstate houtbox
    rw [hrpc, ensures_bind]
    show Ensures (handleAppendEntriesResponseLocked _ _) n' _
    unfold handleAppendEntriesResponseLocked
    rw [ensures_bind, ensures_get, continues_ok, if_pos]
    · exact .quiet houtbox
    · rw [hstate]
      exact Or.inl nofun
  · intro hreceiver hpeer
    have hhandles : Handles ((Operation.step message).call n) n message.fromNode
        (.appendEntriesResponse response) := by
      refine ⟨?_, h.isPeerLocked_iff.mp hpeer⟩
      show some message = _
      rw [← hreceiver, ← hrpc]
    rw [hrpc, ensures_bind]
    refine ensures_mono (responds_handleAppendEntriesResponseLocked h hhandles) ?_
    intro r n' hresponds
    cases r with
    | ok _ => exact hresponds
    | error _ => exact hresponds

/-!
# Operations that deliver
-/

theorem handled_cases (n : RaftNode storage random) {op : Operation}
    (hinbox : op.inbox = some message) :
    op.handled n = n ∨ op.handled n = (outcome (stepLocked message) n).2 := by
  cases op with
  | step other =>
      cases hinbox
      right
      show (outcome (stepLocked message >>= fun _ => pure ({} : Output)) n).2 = _
      rw [outcome_bind_pure]
  | handleRequest other =>
      cases hinbox
      by_cases hrequest : RaftNode.isRequest message = false
      · exact Or.inl (if_pos hrequest)
      · exact Or.inr (if_neg hrequest)
  | tick | propose | takeMessages | takeCommittedEntries => cases hinbox

theorem handled_of_step {op : Operation} {post : RaftNode storage random -> Prop}
    (hinbox : op.inbox = some message) (hsame : post n)
    (hstep : Ensures (stepLocked message) n fun _ => post) : post (op.handled n) := by
  rcases handled_cases n hinbox with hhandled | hhandled
  · rw [hhandled]
    exact hsame
  · rw [hhandled]
    exact hstep

theorem perm_outbox_handleRequest (message : Message) :
    Ensures (Operation.handleRequest message).perform n (fun r n' =>
      ((outputOf r).messages ++ n'.outbox).Perm
        ((Operation.handleRequest message).handled n).outbox) := by
  by_cases hrequest : RaftNode.isRequest message = false
  · have hhandled : (Operation.handleRequest message).handled n = n := if_pos hrequest
    rw [hhandled]
    simp only [Operation.perform, RaftNode.handleRequest, if_pos hrequest]
    exact List.Perm.refl _
  · have hhandled : (Operation.handleRequest message).handled n =
        (outcome (RaftNode.step message) n).2 := if_neg hrequest
    rw [hhandled]
    refine ensures_bind_of (ensures_handleRequest_requested
      (Bool.not_eq_false _ ▸ hrequest) n) ?_ ?_
    · intro value n' hrequested
      cases hrequested with
      | ignored hstep =>
          rw [hstep]
          exact List.Perm.refl _
      | answered hstep hanswer houtbox =>
          rw [hstep]
          show List.Perm ([_] ++ n.outbox) _
          rw [houtbox]
          exact List.perm_append_comm
    · intro fault n' hrequested
      cases hrequested with
      | thrown hstep houtbox =>
          rw [hstep]
          exact List.Perm.refl _

theorem perm_outbox {op : Operation} (hinbox : op.inbox = some message) :
    Ensures op.perform n (fun r n' =>
      ((outputOf r).messages ++ n'.outbox).Perm (op.handled n).outbox) := by
  cases op with
  | step other =>
      have hstep : Ensures (RaftNode.step other) n (fun _ _ => True) := trivial
      have hsilent : Ensures (Operation.step other).perform n
          (fun r _ => (outputOf r).messages = []) :=
        ensures_bind_of hstep (fun _ _ _ => rfl) (fun _ _ _ => rfl)
      show List.Perm (_ ++ _) (outcome (Operation.step other).perform n).2.outbox
      rw [show _ = [] from hsilent]
      exact List.Perm.refl _
  | handleRequest other => exact perm_outbox_handleRequest other
  | tick | propose | takeMessages | takeCommittedEntries => cases hinbox

theorem enqueues_of_outbox {op : Operation} {new : List Message}
    (houtbox : (op.handled n).outbox = n.outbox ++ new) : op.enqueues n = new := by
  unfold Operation.enqueues
  rw [houtbox, List.drop_left]

theorem enqueues_eq_nil {op : Operation}
    (houtbox : (op.handled n).outbox = n.outbox) : op.enqueues n = [] := by
  apply enqueues_of_outbox
  rw [houtbox, List.append_nil]

theorem enqueues_request (n : RaftNode storage random) {op : Operation}
    (hinbox : op.inbox = some message)
    (hrequest : RaftNode.isRequest message = true) :
    op.enqueues n = [] ∨ exists answer, AnswerTo message.rpc answer ∧
      op.enqueues n = [⟨message.toNode, message.fromNode, answer⟩] := by
  have hstep : Ensures (stepLocked message) n (fun _ n' => n'.outbox = n.outbox ∨
      exists answer, AnswerTo message.rpc answer ∧ n'.outbox =
        n.outbox ++ [⟨message.toNode, message.fromNode, answer⟩]) := by
    refine ensures_mono (ensures_stepLocked_request hrequest n) ?_
    intro r n' hdelivered
    cases hdelivered with
    | ignored => exact Or.inl rfl
    | thrown houtbox => exact Or.inl houtbox
    | answered hreceiver hconfig hanswer houtbox =>
        exact Or.inr ⟨_, hanswer, houtbox⟩
  rcases handled_of_step hinbox (Or.inl rfl) hstep with
    houtbox | ⟨answer, hanswer, houtbox⟩
  · exact Or.inl (enqueues_eq_nil houtbox)
  · exact Or.inr ⟨answer, hanswer, enqueues_of_outbox houtbox⟩

end Deliveries

end Raft
end FTKV
