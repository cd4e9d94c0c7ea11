import FTKV.Grpc.Client
import FTKV.Grpc.Server
import FTKV.Raft.Replies

/-!
# One call of the Raft service

What a call of the service does to the node behind it, and what the client makes
of the reply.  No status of the service is retryable, so the client attempts a
call once.
-/

namespace FTKV
namespace Rpc

open Foundation
open Foundation.Effect
open Raft (Message RaftNode RaftStorage RandomEngine)

/-!
# The reply of the service
-/

theorem caughtStatus_final {text : String} {fault : Fault} {status : Status}
    (hstatus : caughtStatus text fault = some status) :
    status.code ≠ .ok ∧ isRetryable status.code = false := by
  unfold caughtStatus at hstatus
  split at hstatus <;> cases hstatus <;> exact ⟨nofun, rfl⟩

theorem caughtStatus_eq_none {text : String} {fault : Fault}
    (hstatus : caughtStatus text fault = none) : fault = .raft .undefinedBehavior := by
  unfold caughtStatus at hstatus
  split at hstatus <;> cases hstatus
  rfl

section Service

variable {storage random response : Type} [RaftStorage storage]
  [RandomEngine random] [Inhabited response]

inductive Served (message : Message) (convert : Raft.Rpc -> Except Fault response)
    (n : RaftNode storage random) :
    Except Fault (Reply response) -> RaftNode storage random -> Prop where
  | answered {n' : RaftNode storage random} {answer : Raft.Rpc} {value : response}
      (hstep : outcome (RaftNode.step message) n = (.ok true, n'))
      (hanswer : Raft.AnswerTo message.rpc answer)
      (houtbox : n'.outbox =
        n.outbox ++ [⟨message.toNode, message.fromNode, answer⟩])
      (hconvert : convert answer = .ok value) :
      Served message convert n (.ok ⟨{}, value⟩) { n' with outbox := n.outbox }
  | refused {n' : RaftNode storage random} {r : Except Raft.Fault Bool}
      {status : Status}
      (hstep : outcome (RaftNode.step message) n = (r, n'))
      (hnone : r ≠ .ok true) (houtbox : n'.outbox = n.outbox)
      (hcode : status.code ≠ .ok) (hfinal : isRetryable status.code = false) :
      Served message convert n (.ok ⟨status, default⟩) n'
  | undefined {n' : RaftNode storage random} {r : Except Raft.Fault Bool}
      {fault : Fault}
      (hstep : outcome (RaftNode.step message) n = (r, n'))
      (hnone : r ≠ .ok true) (houtbox : n'.outbox = n.outbox)
      (hfault : fault = .raft .undefinedBehavior) :
      Served message convert n (.error fault) n'

def Handled (message : Message) (convert : Raft.Rpc -> Except Fault response)
    (n : RaftNode storage random) :
    Except Fault (Reply response) -> RaftNode storage random -> Prop
  | .ok reply, n' => Served message convert n (.ok reply) n'
  | .error _, n' => exists r, outcome (RaftNode.step message) n = (r, n') ∧
      r ≠ .ok true ∧ n'.outbox = n.outbox

variable {message : Message} {convert : Raft.Rpc -> Except Fault response}
  {notMember : String} {n : RaftNode storage random}

theorem ensures_handle (hreceiver : message.toNode = n.config.nodeId)
    (hrequest : RaftNode.isRequest message = true)
    (hconvert : forall answer, Raft.AnswerTo message.rpc answer ->
      exists value, convert answer = .ok value) :
    Ensures (do
      let value <- RaftService.handle message.fromNode message.rpc notMember convert
      pure (⟨{}, value⟩ : Reply response)) n (Handled message convert n) := by
  have hmessage : message = ⟨message.fromNode, n.config.nodeId, message.rpc⟩ := by
    rw [← hreceiver]
  unfold RaftService.handle
  simp only [ensures_bind, ensures_get, continues_ok, ensures_raising]
  rw [← hmessage]
  refine ensures_mono (Raft.ensures_handleRequest_requested hrequest n) ?_
  intro r n' hrequested
  cases hrequested with
  | ignored hstep =>
      refine ⟨_, hstep, ?_, rfl⟩
      intro hhandled
      cases hhandled
  | thrown hstep houtbox =>
      refine ⟨_, hstep, ?_, houtbox⟩
      intro hhandled
      cases hhandled
  | @answered n' answer hstep hanswer houtbox =>
      rcases hconvert answer hanswer with ⟨value, hvalue⟩
      simp only [Except.mapError, continues_ok, ensures_ofExcept, hvalue]
      exact .answered hstep hanswer houtbox hvalue

theorem ensures_runHandler (text : String) (hreceiver : message.toNode = n.config.nodeId)
    (hrequest : RaftNode.isRequest message = true)
    (hconvert : forall answer, Raft.AnswerTo message.rpc answer ->
      exists value, convert answer = .ok value) :
    Ensures (runHandler { outOfRangeText := text }
      (RaftService.handle message.fromNode message.rpc notMember convert)) n
      (Served message convert n) := by
  unfold runHandler
  rw [if_neg Bool.false_ne_true]
  refine ensures_tryCatch (ensures_handle hreceiver hrequest hconvert) ?_ ?_
  · intro reply n' hserved
    exact hserved
  · rintro fault n' ⟨r, hstep, hnone, houtbox⟩
    cases hstatus : caughtStatus text fault with
    | none => exact .undefined hstep hnone houtbox (caughtStatus_eq_none hstatus)
    | some status =>
        rcases caughtStatus_final hstatus with ⟨hcode, hfinal⟩
        exact .refused hstep hnone houtbox hcode hfinal

end Service

/-!
# The call of the client
-/

section Client

variable {world response : Type} {client : GrpcClient world} {operation : String}
  {attempt : Effect world Fault (Reply response)} {s : world}

/-- What a caller can rely on once one attempt has ended for good. -/
def Concludes (post : Except Fault response -> world -> Prop) :
    Except Fault (Reply response) -> world -> Prop
  | .ok reply, s' =>
      (reply.status.code = .ok ∧ post (.ok reply.response) s') ∨
        (reply.status.code ≠ .ok ∧ isRetryable reply.status.code = false ∧
          forall error, post (.error (.grpcError error)) s')
  | .error fault, s' => post (.error fault) s'

theorem ensures_call {post : Except Fault response -> world -> Prop}
    (hattempts : client.options.maxAttempts ≠ 0)
    (hattempt : Ensures attempt s (Concludes post)) :
    Ensures (client.call operation attempt) s post := by
  rcases Nat.exists_eq_succ_of_ne_zero hattempts with ⟨left, hleft⟩
  unfold GrpcClient.call invokeWithRetry
  rw [hleft]
  unfold attemptFrom
  simp only [ensures_bind]
  refine ensures_mono hattempt ?_
  intro r s' hconcludes
  cases r with
  | error fault => exact hconcludes
  | ok reply =>
      rw [continues_ok]
      rcases hconcludes with ⟨hcode, hpost⟩ | ⟨hcode, hfinal, hpost⟩
      · rw [if_pos (Or.inl hcode), ensures_pure, continues_ok]
        rw [if_neg (not_not.mpr hcode)]
        exact hpost
      · rw [if_pos (Or.inr (Or.inl hfinal)), ensures_pure, continues_ok]
        rw [if_pos hcode]
        exact hpost _

end Client

/-!
# Retries

An invariant of the attempts is an invariant of the loop.  The loop ends with the
reply of its last attempt, and it never runs out of rounds.
-/

section Retries

variable {world response : Type} {options : GrpcClientOptions}
  {sleepFor : Int -> Effect world Fault Unit}
  {attempt : Effect world Fault (Reply response)}

/-- An attempt keeps the invariant and ends with a reply; what a reply that is ok
brings along is `acknowledged`. -/
def Keeps (invariant : world -> Prop) (acknowledged : response -> world -> Prop)
    (attempt : Effect world Fault (Reply response)) : Prop :=
  forall s, invariant s -> Ensures attempt s (fun r s' =>
    exists reply, r = .ok reply ∧ invariant s' ∧
      (reply.status.code = .ok -> acknowledged reply.response s'))

def Pauses (invariant : world -> Prop)
    (sleepFor : Int -> Effect world Fault Unit) : Prop :=
  forall pause s, invariant s -> Ensures (sleepFor pause) s (fun r s' =>
    r = .ok () ∧ invariant s')

variable {invariant : world -> Prop} {acknowledged : response -> world -> Prop}

theorem ensures_attemptFrom (hattempt : Keeps invariant acknowledged attempt)
    (hpause : Pauses invariant sleepFor) (left number : Nat) (backoff : Int)
    (hleft : number + left = options.maxAttempts) (s : world)
    (hs : invariant s) :
    Ensures (attemptFrom options sleepFor attempt (left + 1) number backoff) s
      (fun r s' => exists result, r = .ok result ∧ invariant s' ∧
        (result.status.code = .ok -> acknowledged result.response s')) := by
  induction left generalizing number backoff s with
  | zero =>
      unfold attemptFrom
      rw [ensures_bind]
      apply ensures_mono (hattempt s hs)
      rintro _ s' ⟨reply, rfl, hs', hreply⟩
      have hlast : number = options.maxAttempts := hleft
      rw [continues_ok, if_pos (Or.inr (Or.inr hlast)), ensures_pure]
      exact ⟨_, rfl, hs', hreply⟩
  | succ left ih =>
      unfold attemptFrom
      rw [ensures_bind]
      apply ensures_mono (hattempt s hs)
      rintro _ s' ⟨reply, rfl, hs', hreply⟩
      rw [continues_ok]
      split
      · rw [ensures_pure]
        exact ⟨_, rfl, hs', hreply⟩
      · rw [ensures_bind]
        apply ensures_mono (hpause backoff s' hs')
        rintro _ s'' ⟨rfl, hs''⟩
        exact ih (number + 1) _ (by lia) s'' hs''

theorem ensures_call_retried {client : GrpcClient world} {operation : String}
    (hattempts : client.options.maxAttempts ≠ 0)
    (hattempt : Keeps invariant acknowledged attempt)
    (hpause : Pauses invariant client.sleepFor) {s : world} (hs : invariant s) :
    Ensures (client.call operation attempt) s (fun r s' => invariant s' ∧
      ((exists value, r = .ok value ∧ acknowledged value s') ∨
        exists error, r = .error (.grpcError error))) := by
  rcases Nat.exists_eq_succ_of_ne_zero hattempts with ⟨left, hleft⟩
  unfold GrpcClient.call invokeWithRetry
  rw [hleft, ensures_bind]
  apply ensures_mono (ensures_attemptFrom hattempt hpause left 1 _ (by lia) s hs)
  rintro _ s' ⟨result, rfl, hs', hresult⟩
  rw [continues_ok]
  by_cases hcode : result.status.code = .ok
  · rw [if_neg (not_not.mpr hcode), ensures_pure]
    exact ⟨hs', Or.inl ⟨_, rfl, hresult hcode⟩⟩
  · rw [if_pos hcode, ensures_throw]
    exact ⟨hs', Or.inr ⟨_, rfl⟩⟩

end Retries

end Rpc
end FTKV
