import FTKV.Raft.Incarnation

/-!
# Requests are answered once

From any state at all, the handler of a request either throws without having
queued anything, or returns with exactly one message queued: the answer to the
request.  `handle_request` therefore finds that answer and leaves the outbox as
it was.
-/

namespace FTKV
namespace Raft

open Foundation
open Foundation.Effect

variable {storage random result result' : Type}

/-!
# Computations that queue nothing
-/

abbrev Quiet (x : NodeM storage random result) : Prop :=
  Preserves (fun n => (n.outbox, n.config)) x

theorem preserves_logAt {beta : Type} {view : RaftNode storage random -> beta}
    (index : LogIndex) :
    Preserves view (logAt index : NodeM storage random LogEntry) := by
  refine preserves_bind preserves_get ?_
  intro n
  cases n.log.at? index with
  | none => exact preserves_throw _
  | some entry => exact preserves_pure _

theorem quiet_conflictStart (conflictTerm : Term) (index : LogIndex) :
    Quiet (conflictStart conflictTerm index : NodeM storage random LogIndex) := by
  induction index using conflictStart.induct with
  | case1 => exact preserves_pure _
  | case2 => exact preserves_pure _
  | case3 below ih =>
      unfold conflictStart
      refine preserves_bind (preserves_logAt _) ?_
      intro entry
      exact preserves_ite ih (preserves_pure _)

theorem preserves_applyCommittedEntriesLocked {beta : Type}
    {view : RaftNode storage random -> beta}
    (hview : forall (n : RaftNode storage random) applied entries,
      view { n with lastApplied := applied, committedEntries := entries } = view n) :
    Preserves view (applyCommittedEntriesLocked : NodeM storage random Unit) := by
  refine preserves_bind preserves_get ?_
  intro n
  induction n.commitIndex - n.lastApplied with
  | zero => exact preserves_pure _
  | succ rounds ih =>
      unfold applyRounds
      refine preserves_bind (preserves_modify fun n => hview n _ _) ?_
      intro _
      refine preserves_bind preserves_get ?_
      intro n
      refine preserves_bind (preserves_logAt _) ?_
      intro entry
      refine preserves_bind (preserves_ite (preserves_pure _)
        (preserves_modify fun n => hview n _ _)) ?_
      intro _
      exact ih

section Storage

variable [RaftStorage storage]

theorem preserves_persistLocked {beta : Type} {view : RaftNode storage random -> beta}
    (hview : forall (n : RaftNode storage random) store,
      view { n with storage := store } = view n) :
    Preserves view (persistLocked : NodeM storage random Unit) := by
  intro n
  unfold persistLocked
  rw [ensures_bind, ensures_get, continues_ok]
  rcases RaftStorage.save n.persistentState n.storage with ⟨saved, store⟩
  cases saved <;> exact hview n store

theorem quiet_persistLocked : Quiet (persistLocked : NodeM storage random Unit) :=
  preserves_persistLocked fun _ _ => rfl

theorem quiet_becomeFollowerLocked [RandomEngine random] (term : Term)
    (leaderId : Option NodeId) :
    Quiet (becomeFollowerLocked term leaderId : NodeM storage random Unit) := by
  unfold becomeFollowerLocked
  refine preserves_bind preserves_get ?_
  intro n
  refine preserves_bind (preserves_ite (preserves_modify fun _ => rfl)
    (preserves_pure _)) ?_
  intro _
  refine preserves_bind (preserves_modify fun _ => rfl) ?_
  intro _
  refine preserves_bind (preserves_modify fun _ => rfl) ?_
  intro _
  exact preserves_ite quiet_persistLocked (preserves_pure _)

end Storage

/-!
# Computations that answer
-/

/-- The answer has the kind of the request and its identifier. -/
inductive AnswerTo : Rpc -> Rpc -> Prop where
  | vote (request : RequestVoteRequest) (response : RequestVoteResponse) :
      AnswerTo (.requestVoteRequest request) (.requestVoteResponse response)
  | append {request : AppendEntriesRequest} {response : AppendEntriesResponse}
      (hrequest : response.requestId = request.requestId) :
      AnswerTo (.appendEntriesRequest request) (.appendEntriesResponse response)

def Answered (sender : NodeId) (request : Rpc) (n : RaftNode storage random) :
    Except Fault result -> RaftNode storage random -> Prop
  | .ok _, n' => n'.config = n.config ∧ exists rpc, AnswerTo request rpc ∧
      n'.outbox = n.outbox ++ [⟨n.config.nodeId, sender, rpc⟩]
  | .error _, n' => n'.outbox = n.outbox

def Answering (sender : NodeId) (request : Rpc)
    (x : NodeM storage random result) : Prop :=
  forall n, Ensures x n (Answered sender request n)

variable {sender : NodeId} {rpc : Rpc}

theorem answering_send {answer : Rpc} (hanswer : AnswerTo rpc answer) :
    Answering sender rpc (sendLocked sender answer : NodeM storage random Unit) :=
  fun _ => ⟨rfl, answer, hanswer, rfl⟩

theorem answering_throw (fault : Fault) :
    Answering sender rpc (throw fault : NodeM storage random result) :=
  fun _ => rfl

theorem answering_bind {x : NodeM storage random result}
    {f : result -> NodeM storage random result'} (hx : Quiet x)
    (hf : forall value, Answering sender rpc (f value)) :
    Answering sender rpc (x >>= f) := by
  intro n
  refine ensures_bind_of (hx n) ?_ ?_
  · intro value n1 hquiet
    rcases Prod.mk.inj hquiet with ⟨houtbox, hconfig⟩
    refine ensures_mono (hf value n1) ?_
    intro r n2 hanswered
    unfold Answered at hanswered ⊢
    rw [houtbox, hconfig] at hanswered
    exact hanswered
  · intro fault n1 hquiet
    exact (Prod.mk.inj hquiet).left

theorem answering_bind_pure {x : NodeM storage random result}
    {f : result -> result'} (hx : Answering sender rpc x) :
    Answering sender rpc (x >>= fun value => pure (f value)) := by
  intro n
  refine ensures_bind_of (hx n) ?_ ?_
  · intro value n1 hanswered
    exact hanswered
  · intro fault n1 hanswered
    exact hanswered

theorem answering_ite {condition : Prop} [Decidable condition]
    {x y : NodeM storage random result} (hx : Answering sender rpc x)
    (hy : Answering sender rpc y) :
    Answering sender rpc (if condition then x else y) := by
  split
  · exact hx
  · exact hy

/-!
# The handlers of requests
-/

section Handlers

variable [RaftStorage storage]

theorem answering_handleRequestVoteLocked [RandomEngine random]
    (request : RequestVoteRequest) :
    Answering sender (.requestVoteRequest request)
      (handleRequestVoteLocked sender request : NodeM storage random Unit) := by
  unfold handleRequestVoteLocked
  refine answering_bind preserves_get ?_
  intro n
  refine answering_ite (answering_send (.vote _ _)) ?_
  refine answering_bind (preserves_ite (preserves_bind (preserves_ite (preserves_bind
    (preserves_modify fun _ => rfl) (fun _ => quiet_persistLocked))
    (preserves_pure _)) (fun _ => preserves_modify fun _ => rfl))
    (preserves_pure _)) ?_
  intro _
  exact answering_bind preserves_get (fun _ => answering_send (.vote _ _))

omit [RaftStorage storage] in
theorem answering_rejectAppend (request : AppendEntriesRequest)
    (conflictIndex : LogIndex) (conflictTerm : Option Term) :
    Answering sender (.appendEntriesRequest request)
      (rejectAppend sender request conflictIndex conflictTerm :
        NodeM storage random Unit) :=
  answering_bind preserves_get (fun _ => answering_send (.append rfl))

omit [RaftStorage storage] in
theorem answering_walkEntries {request : AppendEntriesRequest}
    {finish : Bool -> List LogEntry -> NodeM storage random Unit}
    (hfinish : forall logChanged remaining,
      Answering sender (.appendEntriesRequest request) (finish logChanged remaining))
    (entries : List LogEntry) (entryIndex : LogIndex) :
    Answering sender (.appendEntriesRequest request) (do
      match <- walkEntries sender request entries entryIndex with
      | .rejected => pure ()
      | .finished logChanged remaining => finish logChanged remaining) := by
  induction entries generalizing entryIndex with
  | nil => exact hfinish _ _
  | cons incoming rest ih =>
      unfold walkEntries
      rw [bind_assoc]
      refine answering_bind preserves_get ?_
      intro n
      split
      · rw [bind_assoc]
        refine answering_bind (preserves_logAt _) ?_
        intro localEntry
        split
        · split
          · rw [bind_assoc]
            exact answering_bind_pure (answering_rejectAppend _ _ _)
          · rw [bind_assoc]
            refine answering_bind (preserves_modify fun _ => rfl) ?_
            intro _
            exact hfinish _ _
        · split
          · exact answering_throw _
          · exact ih _
      · exact hfinish _ _

omit [RaftStorage storage] in
theorem answering_answerAppend (request : AppendEntriesRequest) :
    Answering sender (.appendEntriesRequest request)
      (answerAppend sender request : NodeM storage random Unit) := by
  unfold answerAppend
  refine answering_bind preserves_get ?_
  intro n
  refine answering_bind (preserves_ite (preserves_bind
    (preserves_modify fun _ => rfl)
    (fun _ => preserves_applyCommittedEntriesLocked fun _ _ _ => rfl)) (preserves_pure _)) ?_
  intro _
  exact answering_bind preserves_get (fun _ => answering_send (.append rfl))

theorem answering_finishAppend (request : AppendEntriesRequest)
    (logChanged : Bool) (remaining : List LogEntry) :
    Answering sender (.appendEntriesRequest request)
      (finishAppend sender request logChanged remaining :
        NodeM storage random Unit) := by
  unfold finishAppend
  refine answering_bind (preserves_ite
    (preserves_modify fun _ => rfl) (preserves_pure _)) ?_
  intro _
  refine answering_bind (preserves_ite quiet_persistLocked (preserves_pure _)) ?_
  intro _
  exact answering_answerAppend request

theorem answering_appendAfterPrevious (request : AppendEntriesRequest) :
    Answering sender (.appendEntriesRequest request)
      (appendAfterPrevious sender request : NodeM storage random Unit) := by
  unfold appendAfterPrevious
  refine answering_bind preserves_get ?_
  intro n
  refine answering_ite (answering_rejectAppend _ _ _) ?_
  refine answering_bind (preserves_logAt _) ?_
  intro previous
  refine answering_ite ?_ ?_
  · refine answering_bind (quiet_conflictStart _ _) ?_
    intro conflictIndex
    exact answering_rejectAppend _ _ _
  · exact answering_walkEntries (answering_finishAppend request) _ _

theorem answering_handleAppendEntriesLocked [RandomEngine random]
    (request : AppendEntriesRequest) :
    Answering sender (.appendEntriesRequest request)
      (handleAppendEntriesLocked sender request : NodeM storage random Unit) := by
  unfold handleAppendEntriesLocked
  refine answering_bind preserves_get ?_
  intro n
  refine answering_ite (answering_rejectAppend _ _ _) ?_
  refine answering_ite (answering_rejectAppend _ _ _) ?_
  refine answering_bind (preserves_ite (quiet_becomeFollowerLocked _ _)
    (preserves_modify fun _ => rfl)) ?_
  intro _
  exact answering_appendAfterPrevious request

variable [RandomEngine random]

theorem answering_dispatch {message : Message}
    (hrequest : RaftNode.isRequest message = true) :
    Answering message.fromNode message.rpc
      (dispatch message.fromNode message.rpc : NodeM storage random Unit) := by
  rcases message with ⟨sender, receiver, rpc⟩
  cases rpc with
  | requestVoteRequest request => exact answering_handleRequestVoteLocked request
  | appendEntriesRequest request => exact answering_handleAppendEntriesLocked request
  | requestVoteResponse response => cases hrequest
  | appendEntriesResponse response => cases hrequest

/-!
# Whole deliveries
-/

inductive Delivered (message : Message) (n : RaftNode storage random) :
    Except Fault Bool -> RaftNode storage random -> Prop where
  /-- The sender is not a member, or the message is for another node. -/
  | ignored : Delivered message n (.ok false) n
  | answered {n' : RaftNode storage random} {answer : Rpc}
      (hreceiver : message.toNode = n.config.nodeId)
      (hconfig : n'.config = n.config) (hanswer : AnswerTo message.rpc answer)
      (houtbox : n'.outbox =
        n.outbox ++ [⟨message.toNode, message.fromNode, answer⟩]) :
      Delivered message n (.ok true) n'
  | thrown {n' : RaftNode storage random} {fault : Fault}
      (houtbox : n'.outbox = n.outbox) : Delivered message n (.error fault) n'

theorem ensures_stepLocked_request {message : Message}
    (hrequest : RaftNode.isRequest message = true)
    (n : RaftNode storage random) :
    Ensures (stepLocked message) n (Delivered message n) := by
  unfold stepLocked
  rw [ensures_bind, ensures_get, continues_ok]
  split
  · exact .ignored
  · rename_i haddressed
    have hreceiver : message.toNode = n.config.nodeId := by
      by_contra hne
      exact haddressed (Or.inl hne)
    have hanswering : Answering message.fromNode message.rpc (do
        (if messageTerm message > n.currentTerm then
          becomeFollowerLocked (messageTerm message) none
        else
          pure ())
        dispatch message.fromNode message.rpc : NodeM storage random Unit) :=
      answering_bind (preserves_ite (quiet_becomeFollowerLocked _ _) (preserves_pure _))
        (fun _ => answering_dispatch hrequest)
    rw [← bind_assoc]
    refine ensures_bind_of (hanswering n) ?_ ?_
    · rintro _ n1 ⟨hconfig, answer, hanswer, houtbox⟩
      rw [← hreceiver] at houtbox
      exact .answered hreceiver hconfig hanswer houtbox
    · intro fault n1 houtbox
      exact .thrown houtbox

omit [RaftStorage storage] [RandomEngine random] in
theorem outbox_of_unanswered {message : Message} {n n' : RaftNode storage random}
    {r : Except Fault Bool} (hdelivered : Delivered message n r n')
    (hr : r ≠ .ok true) : n'.outbox = n.outbox := by
  cases hdelivered with
  | ignored => rfl
  | answered => exact absurd rfl hr
  | thrown houtbox => exact houtbox

theorem outcome_step_of_not_peer {message : Message} {n : RaftNode storage random}
    (hpeer : n.isPeerLocked message.fromNode = false) :
    outcome (RaftNode.step message) n = (.ok false, n) := by
  have hstranger : ¬ n.isPeerLocked message.fromNode = true := by
    rw [hpeer]
    exact Bool.false_ne_true
  have hstep : Ensures (RaftNode.step message) n
      (fun r n' => (r, n') = (.ok false, n)) := by
    unfold RaftNode.step stepLocked
    rw [ensures_bind, ensures_get, continues_ok, if_pos (Or.inr hstranger)]
    rfl
  exact hstep

theorem takeAnswer_singleton {message : Message} {answer : Rpc}
    (hanswer : AnswerTo message.rpc answer) :
    RaftNode.takeAnswer message [⟨message.toNode, message.fromNode, answer⟩] =
      some (⟨message.toNode, message.fromNode, answer⟩, []) := by
  have hanswers : RaftNode.answers message
      ⟨message.toNode, message.fromNode, answer⟩ = true := by
    rcases message with ⟨sender, receiver, rpc⟩
    cases hanswer with
    | vote => simp [RaftNode.answers]
    | append hrequest => simp [RaftNode.answers, hrequest]
  unfold RaftNode.takeAnswer
  rw [if_pos hanswers]

omit [RaftStorage storage] [RandomEngine random] in
theorem preserves_handOver {beta : Type} {view : RaftNode storage random -> beta}
    (hview : forall (n : RaftNode storage random) outbox,
      view { n with outbox := outbox } = view n)
    (message : Message) (firstNewMessage : Nat) (handled : Bool) :
    Preserves view (if handled = false then
        pure none
      else do
        let n <- get
        match RaftNode.takeAnswer message (n.outbox.drop firstNewMessage) with
        | none => pure none
        | some (answer, others) => do
            set { n with outbox := n.outbox.take firstNewMessage ++ others }
            pure (some answer) : NodeM storage random (Option Message)) := by
  refine preserves_ite (preserves_pure _) ?_
  intro n
  rw [ensures_bind, ensures_get, continues_ok]
  cases RaftNode.takeAnswer message (n.outbox.drop firstNewMessage) with
  | none => rfl
  | some taken => exact hview n _

/-- How `handle_request` ends, compared with the delivery of the request. -/
inductive Requested (message : Message) (n : RaftNode storage random) :
    Except Fault (Option Message) -> RaftNode storage random -> Prop where
  | ignored (hstep : outcome (RaftNode.step message) n = (.ok false, n)) :
      Requested message n (.ok none) n
  | answered {n' : RaftNode storage random} {answer : Rpc}
      (hstep : outcome (RaftNode.step message) n = (.ok true, n'))
      (hanswer : AnswerTo message.rpc answer)
      (houtbox : n'.outbox =
        n.outbox ++ [⟨message.toNode, message.fromNode, answer⟩]) :
      Requested message n (.ok (some ⟨message.toNode, message.fromNode, answer⟩))
        { n' with outbox := n.outbox }
  | thrown {n' : RaftNode storage random} {fault : Fault}
      (hstep : outcome (RaftNode.step message) n = (.error fault, n'))
      (houtbox : n'.outbox = n.outbox) : Requested message n (.error fault) n'

/-- `handle_request` delivers the request and hands out the answer it queued. -/
theorem ensures_handleRequest_requested {message : Message}
    (hrequest : RaftNode.isRequest message = true)
    (n : RaftNode storage random) :
    Ensures (RaftNode.handleRequest message) n (Requested message n) := by
  have hstep : Ensures (stepLocked message) n (fun r n' =>
      Delivered message n r n' ∧ outcome (RaftNode.step message) n = (r, n')) :=
    ⟨ensures_stepLocked_request hrequest n, rfl⟩
  unfold RaftNode.handleRequest
  rw [if_neg (by rw [hrequest]; exact Bool.true_eq_false.mp)]
  simp only [ensures_bind, ensures_get, continues_ok]
  refine ensures_mono hstep ?_
  rintro r n' ⟨hdelivered, houtcome⟩
  cases hdelivered with
  | ignored => exact .ignored houtcome
  | thrown houtbox => exact .thrown houtcome houtbox
  | answered hreceiver hconfig hanswer houtbox =>
      rw [continues_ok, if_neg Bool.true_eq_false.mp, ensures_bind, ensures_get,
        continues_ok, houtbox, List.drop_left, takeAnswer_singleton hanswer]
      simp only [ensures_bind, ensures_set, continues_ok, ensures_pure,
        List.take_left, List.append_nil]
      exact .answered houtcome hanswer houtbox

end Handlers

end Raft
end FTKV
