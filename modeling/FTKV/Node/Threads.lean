import FTKV.Node.NodeRuntime

/-!
# The threads of a process

`NodeRuntime::start` runs one ticker and as many workers as there are peers, and
`NodeRuntime::stop` ends them.  The ticker puts the messages of the node into a
queue and the workers send them.  The threads share a flag, the queue, the mutex
of the queue and a condition variable.

## Granularity

A step of a thread is one access to what the threads share.  A section that
holds the mutex is one step if it has one access; a worker that waits has three,
and between its test and its wait it still holds the mutex.  `start` and `stop`
are called by one thread, one after the other, as `main` does.

## Exceptions

`RaftNode::tick` and `RaftNode::step` throw when a save fails, and nothing in
`ticker_loop` or `worker_loop` catches that; `send_message` catches only what the
client throws when a call fails.  An exception that leaves a thread ends the
process, so that no thread takes a step any more.
-/

namespace FTKV
namespace Node

open Raft (NodeId Message)

/-!
# Calls of the service
-/

inductive RaftCall where
  | requestVote (request : Rpc.V1.RequestVoteRequest)
  | appendEntries (request : Rpc.V1.AppendEntriesRequest)
deriving DecidableEq, Repr

inductive RaftAnswer where
  | requestVote (response : Rpc.V1.RequestVoteResponse)
  | appendEntries (response : Rpc.V1.AppendEntriesResponse)
deriving DecidableEq, Repr

def RaftAnswer.toRpc : RaftAnswer -> Raft.Rpc
  | .requestVote response => .requestVoteResponse response.toResponse
  | .appendEntries response => .appendEntriesResponse response.toResponse

/--
What `send_message` does before the first attempt: it finds the client of the
peer, and the client checks who sends.  Only requests are sent.
-/
def prepare (config : NodeRuntimeConfig) (message : Message) :
    Except Rpc.Fault (Option RaftCall) :=
  match config.peers.entries.lookup message.toNode with
  | none => .ok none
  | some _ =>
      match message.rpc with
      | .requestVoteRequest request =>
          if request.candidateId ≠ config.nodeId then
            .error (.invalidArgument "RequestVote sender must match candidate ID")
          else
            .ok (some (.requestVote (Rpc.V1.RequestVoteRequest.ofRequest request)))
      | .appendEntriesRequest request =>
          if request.leaderId ≠ config.nodeId then
            .error (.invalidArgument "AppendEntries sender must match leader ID")
          else
            .ok (some (.appendEntries
              (Rpc.V1.AppendEntriesRequest.ofRequest request)))
      | _ => .ok none

/-!
# Program counters
-/

/-- Where a worker is in `send_message`. -/
inductive Sending where
  | calling
  | attempting (number ticket : Nat) (call : RaftCall)
  | pausing (number : Nat) (call : RaftCall)
  | responding (rpc : Raft.Rpc)
deriving DecidableEq, Repr

/-- Where a worker is in `worker_loop`. -/
inductive Worker where
  | locking
  /-- It holds the mutex and is about to test the predicate of the wait. -/
  | testing
  /-- It holds the mutex, the predicate was false, and it is about to block. -/
  | suspending
  | waiting
  | sending (message : Message) (phase : Sending)
  | returned
deriving DecidableEq, Repr

/-- Where the ticker is in `ticker_loop`; no thread is `absent`. -/
inductive Ticker where
  | absent
  | testing
  | sleeping
  | ticking
  | taking
  | enqueueing (messages : List Message)
  | notifying
  | returned
deriving DecidableEq, Repr

inductive Ending where
  | stop
  | start
deriving DecidableEq, Repr

/-- Where the main thread is in `start` or `stop`. -/
inductive Control where
  | idle
  | startingServer
  | startingWorkers
  | reporting
  | abandoning
  | clearing
  | notifying (ending : Ending)
  | joiningTicker (ending : Ending)
  | joiningWorkers (ending : Ending) (joined : Nat)
deriving DecidableEq, Repr

structure Threads where
  running : Bool := false
  /-- The worker that holds the mutex of the queue between two steps. -/
  holder : Option Nat := none
  queue : List Message := []
  ticker : Ticker := .absent
  workers : List Worker := []
  control : Control := .idle
  /-- The server accepts calls. -/
  serving : Bool := false
  /-- An exception has left a thread, and `std::terminate` has ended the process. -/
  terminated : Bool := false
deriving DecidableEq, Repr

inductive Action where
  | start
  | stop
  | control
  /-- An exception leaves the body of `start`. -/
  | fail
  | ticker
  | ticked
  | taken (messages : List Message)
  | worker (i : Nat)
  /-- A wait may end although nothing was notified. -/
  | wake (i : Nat)
  | call (i ticket : Nat)
  | conclude (i : Nat) (reply : Rpc.Reply RaftAnswer)
  | responded (i : Nat)
  /-- The node throws at the ticker, or at the worker of the number. -/
  | throws (worker : Option Nat)

/-!
# Steps
-/

def Worker.notified : Worker -> Worker
  | .waiting => .locking
  | worker => worker

def Sending.conclude (message : Message) (number : Nat) (call : RaftCall)
    (reply : Rpc.Reply RaftAnswer) : Worker :=
  if reply.status.code = .ok then
    .sending message (.responding reply.response.toRpc)
  else if Rpc.isRetryable reply.status.code ∧
      number ≠ NodeRuntime.clientOptions.maxAttempts then
    .sending message (.pausing number call)
  else
    -- The client throws `GrpcError`, and `send_message` catches it.
    .locking

namespace Threads

def put (t : Threads) (i : Nat) (worker : Worker) : Threads :=
  { t with workers := t.workers.set i worker }

def notifyAll (t : Threads) : Threads :=
  { t with workers := t.workers.map Worker.notified }

def stepTicker (t : Threads) : Option Threads :=
  match t.ticker with
  | .testing => some { t with ticker := if t.running then .sleeping else .returned }
  | .sleeping => some { t with ticker := if t.running then .ticking else .returned }
  | .enqueueing [] => some { t with ticker := .testing }
  | .enqueueing (message :: messages) =>
      if t.holder = none then
        some { t with queue := t.queue ++ message :: messages, ticker := .notifying }
      else
        none
  | .notifying => some { t.notifyAll with ticker := .testing }
  | _ => none

def stepWorker (t : Threads) (i : Nat) : Option Threads :=
  match t.workers[i]? with
  | some .locking =>
      if t.holder = none then
        some { t.put i .testing with holder := some i }
      else
        none
  | some .testing =>
      match t.queue with
      | message :: rest =>
          some { t.put i (.sending message .calling) with holder := none, queue := rest }
      | [] =>
          if t.running then
            some (t.put i .suspending)
          else
            some { t.put i .returned with holder := none }
  | some .suspending => some { t.put i .waiting with holder := none }
  | _ => none

def stepControl (config : NodeRuntimeConfig) (t : Threads) : Option Threads :=
  match t.control with
  | .startingServer => some { t with serving := true, control := .startingWorkers }
  | .startingWorkers =>
      if t.workers.length < config.peers.entries.length then
        some { t with workers := t.workers ++ [.locking] }
      else
        some { t with ticker := .testing, control := .reporting }
  | .reporting => some { t with control := .idle }
  | .abandoning => some { t with running := false, control := .notifying .start }
  | .clearing =>
      if t.holder = none then
        some { t with queue := [], control := .notifying .stop }
      else
        none
  | .notifying ending => some { t.notifyAll with control := .joiningTicker ending }
  | .joiningTicker ending =>
      if t.ticker = .absent ∨ t.ticker = .returned then
        some { t with ticker := .absent, control := .joiningWorkers ending 0 }
      else
        none
  | .joiningWorkers ending joined =>
      match t.workers[joined]? with
      | some .returned => some { t with control := .joiningWorkers ending (joined + 1) }
      | some _ => none
      | none => some { t with workers := [], serving := false, control := .idle }
  | .idle => none

def stepCall (config : NodeRuntimeConfig) (t : Threads) (i ticket : Nat) :
    Option Threads :=
  match t.workers[i]? with
  | some (.sending message .calling) =>
      match prepare config message with
      | .ok none => some (t.put i .locking)
      | .ok (some call) =>
          some (t.put i (.sending message (.attempting 1 ticket call)))
      -- `std::invalid_argument` is not among what `send_message` catches.
      | .error _ => some { t with terminated := true }
  | some (.sending message (.pausing number call)) =>
      some (t.put i (.sending message (.attempting (number + 1) ticket call)))
  | _ => none

def step (config : NodeRuntimeConfig) (t : Threads) : Action -> Option Threads
  | .start =>
      if t.control = .idle then
        if t.running then
          -- "node runtime is already running"
          some t
        else
          some { t with running := true, control := .startingServer }
      else
        none
  | .stop =>
      if t.control = .idle then
        if t.running then
          some { t with running := false, control := .clearing }
        else
          some t
      else
        none
  | .control => t.stepControl config
  | .fail =>
      if t.control = .startingServer ∨ t.control = .startingWorkers ∨
          t.control = .reporting then
        some { t with control := .abandoning }
      else
        none
  | .ticker => t.stepTicker
  | .ticked => if t.ticker = .ticking then some { t with ticker := .taking } else none
  | .taken messages =>
      if t.ticker = .taking then
        some { t with ticker := .enqueueing messages }
      else
        none
  | .worker i => t.stepWorker i
  | .wake i =>
      if t.workers[i]? = some .waiting then some (t.put i .locking) else none
  | .call i ticket => t.stepCall config i ticket
  | .conclude i reply =>
      match t.workers[i]? with
      | some (.sending message (.attempting number _ call)) =>
          some (t.put i (Sending.conclude message number call reply))
      | _ => none
  | .responded i =>
      match t.workers[i]? with
      | some (.sending _ (.responding _)) => some (t.put i .locking)
      | _ => none
  | .throws none =>
      if t.ticker = .ticking then some { t with terminated := true } else none
  | .throws (some i) =>
      match t.workers[i]? with
      | some (.sending _ (.responding _)) => some { t with terminated := true }
      | _ => none

def next (config : NodeRuntimeConfig) (t : Threads) (action : Action) : Option Threads :=
  if t.terminated then none else t.step config action

theorem next_eq_some_iff {config : NodeRuntimeConfig} {t t' : Threads} {action : Action} :
    t.next config action = some t' <->
      t.terminated = false ∧ t.step config action = some t' := by
  unfold next
  cases t.terminated <;> simp

end Threads

/-!
# What a step can do
-/

/-- What a step does to the messages in the queue; a wait that ends by itself is seen. -/
inductive Observation where
  | silent
  | takes (messages : List Message)
  | sends (message : Message)
  | clears (messages : List Message)
  | wakes (i : Nat)
  /-- The worker goes on with its call. -/
  | exchanges (i : Nat)
deriving DecidableEq, Repr

def Threads.observe (t : Threads) : Action -> Observation
  | .taken messages => .takes messages
  | .worker i =>
      if t.workers[i]? = some .testing then
        match t.queue with
        | message :: _ => .sends message
        | [] => .silent
      else
        .silent
  | .control => if t.control = .clearing then .clears t.queue else .silent
  | .wake i => .wakes i
  | .call i _ => .exchanges i
  | .conclude i _ => .exchanges i
  | .responded i => .exchanges i
  | _ => .silent

variable {config : NodeRuntimeConfig} {t t' : Threads}

inductive Worker.Proceeds (config : NodeRuntimeConfig) : Worker -> Worker -> Prop where
  | skips {message : Message} (hnone : prepare config message = .ok none) :
      Worker.Proceeds config (.sending message .calling) .locking
  | begins {message : Message} {call : RaftCall} (ticket : Nat)
      (hcall : prepare config message = .ok (some call)) :
      Worker.Proceeds config (.sending message .calling)
        (.sending message (.attempting 1 ticket call))
  | resumes (message : Message) (number ticket : Nat) (call : RaftCall) :
      Worker.Proceeds config (.sending message (.pausing number call))
        (.sending message (.attempting (number + 1) ticket call))
  | concludes (message : Message) (number ticket : Nat) (call : RaftCall)
      (reply : Rpc.Reply RaftAnswer) :
      Worker.Proceeds config (.sending message (.attempting number ticket call))
        (Sending.conclude message number call reply)
  | responds (message : Message) (rpc : Raft.Rpc) :
      Worker.Proceeds config (.sending message (.responding rpc)) .locking

inductive Ticker.Proceeds (running : Bool) : Ticker -> Ticker -> Prop where
  | tests : Ticker.Proceeds running .testing (if running then .sleeping else .returned)
  | wakes : Ticker.Proceeds running .sleeping (if running then .ticking else .returned)
  | ticks : Ticker.Proceeds running .ticking .taking
  | skips : Ticker.Proceeds running (.enqueueing []) .testing

/-- The node may throw at a thread that is here. -/
def Threads.InNode (t : Threads) : Prop :=
  t.ticker = .ticking ∨
    exists (i : Nat) (message : Message) (rpc : Raft.Rpc),
      t.workers[i]? = some (.sending message (.responding rpc))

inductive Threads.Moves (config : NodeRuntimeConfig) (t : Threads) :
    Observation -> Threads -> Prop where
  | repeats (hidle : t.control = .idle) : Threads.Moves config t .silent t
  | starts (hidle : t.control = .idle) (hstopped : t.running = false) :
      Threads.Moves config t .silent
        { t with running := true, control := .startingServer }
  | serves (hcontrol : t.control = .startingServer) :
      Threads.Moves config t .silent
        { t with serving := true, control := .startingWorkers }
  | spawns (hcontrol : t.control = .startingWorkers)
      (hfew : t.workers.length < config.peers.entries.length) :
      Threads.Moves config t .silent { t with workers := t.workers ++ [.locking] }
  | launches (hcontrol : t.control = .startingWorkers)
      (hall : ¬ t.workers.length < config.peers.entries.length) :
      Threads.Moves config t .silent
        { t with ticker := .testing, control := .reporting }
  | reports (hcontrol : t.control = .reporting) :
      Threads.Moves config t .silent { t with control := .idle }
  | fails (hcontrol : t.control = .startingServer ∨ t.control = .startingWorkers ∨
      t.control = .reporting) :
      Threads.Moves config t .silent { t with control := .abandoning }
  | abandons (hcontrol : t.control = .abandoning) :
      Threads.Moves config t .silent
        { t with running := false, control := .notifying .start }
  | stops (hidle : t.control = .idle) (hrunning : t.running = true) :
      Threads.Moves config t .silent { t with running := false, control := .clearing }
  | clears (hcontrol : t.control = .clearing) (hfree : t.holder = none) :
      Threads.Moves config t (.clears t.queue)
        { t with queue := [], control := .notifying .stop }
  | notifies {ending : Ending} (hcontrol : t.control = .notifying ending) :
      Threads.Moves config t .silent
        { t.notifyAll with control := .joiningTicker ending }
  | joinsTicker {ending : Ending} (hcontrol : t.control = .joiningTicker ending)
      (hticker : t.ticker = .absent ∨ t.ticker = .returned) :
      Threads.Moves config t .silent
        { t with ticker := .absent, control := .joiningWorkers ending 0 }
  | joinsWorker {ending : Ending} {joined : Nat}
      (hcontrol : t.control = .joiningWorkers ending joined)
      (hworker : t.workers[joined]? = some .returned) :
      Threads.Moves config t .silent
        { t with control := .joiningWorkers ending (joined + 1) }
  | closes {ending : Ending} {joined : Nat}
      (hcontrol : t.control = .joiningWorkers ending joined)
      (hall : t.workers[joined]? = none) :
      Threads.Moves config t .silent
        { t with workers := [], serving := false, control := .idle }
  | ticks {ticker : Ticker} (hticker : Ticker.Proceeds t.running t.ticker ticker) :
      Threads.Moves config t .silent { t with ticker := ticker }
  | takes (messages : List Message) (hticker : t.ticker = .taking) :
      Threads.Moves config t (.takes messages)
        { t with ticker := .enqueueing messages }
  | enqueues {messages : List Message} (hticker : t.ticker = .enqueueing messages)
      (hfree : t.holder = none) :
      Threads.Moves config t .silent
        { t with queue := t.queue ++ messages, ticker := .notifying }
  | announces (hticker : t.ticker = .notifying) :
      Threads.Moves config t .silent { t.notifyAll with ticker := .testing }
  | locks {i : Nat} (hworker : t.workers[i]? = some .locking)
      (hfree : t.holder = none) :
      Threads.Moves config t .silent { t.put i .testing with holder := some i }
  | sends {i : Nat} {message : Message} {rest : List Message}
      (hworker : t.workers[i]? = some .testing) (hqueue : t.queue = message :: rest) :
      Threads.Moves config t (.sends message)
        { t.put i (.sending message .calling) with holder := none, queue := rest }
  | yields {i : Nat} (hworker : t.workers[i]? = some .testing) (hqueue : t.queue = [])
      (hrunning : t.running = true) :
      Threads.Moves config t .silent (t.put i .suspending)
  | exits {i : Nat} (hworker : t.workers[i]? = some .testing) (hqueue : t.queue = [])
      (hstopped : t.running = false) :
      Threads.Moves config t .silent { t.put i .returned with holder := none }
  | suspends {i : Nat} (hworker : t.workers[i]? = some .suspending) :
      Threads.Moves config t .silent { t.put i .waiting with holder := none }
  | wakes {i : Nat} (hworker : t.workers[i]? = some .waiting) :
      Threads.Moves config t (.wakes i) (t.put i .locking)
  | proceeds {i : Nat} {worker worker' : Worker} (hworker : t.workers[i]? = some worker)
      (hproceeds : worker.Proceeds config worker') :
      Threads.Moves config t (.exchanges i) (t.put i worker')
  | throws (hthread : t.InNode) :
      Threads.Moves config t .silent { t with terminated := true }
  | refuses {i : Nat} {message : Message} {fault : Rpc.Fault}
      (hworker : t.workers[i]? = some (.sending message .calling))
      (hprepare : prepare config message = .error fault) :
      Threads.Moves config t (.exchanges i) { t with terminated := true }

namespace Threads

theorem moves_stepTicker (hnext : t.stepTicker = some t') :
    Moves config t .silent t' := by
  unfold stepTicker at hnext
  cases hticker : t.ticker with
  | testing =>
      simp only [hticker, Option.some.injEq] at hnext
      rw [← hnext]
      exact .ticks (hticker ▸ .tests)
  | sleeping =>
      simp only [hticker, Option.some.injEq] at hnext
      rw [← hnext]
      exact .ticks (hticker ▸ .wakes)
  | enqueueing messages =>
      cases messages with
      | nil =>
          simp only [hticker, Option.some.injEq] at hnext
          rw [← hnext]
          exact .ticks (hticker ▸ .skips)
      | cons message messages =>
          simp only [hticker, Option.ite_none_right_eq_some, Option.some.injEq] at hnext
          rw [← hnext.right]
          exact .enqueues hticker hnext.left
  | notifying =>
      simp only [hticker, Option.some.injEq] at hnext
      rw [← hnext]
      exact .announces hticker
  | absent => simp [hticker] at hnext
  | ticking => simp [hticker] at hnext
  | taking => simp [hticker] at hnext
  | returned => simp [hticker] at hnext

theorem moves_stepWorker {i : Nat} (hnext : t.stepWorker i = some t') :
    Moves config t (t.observe (.worker i)) t' := by
  unfold stepWorker at hnext
  simp only [observe]
  cases hworker : t.workers[i]? with
  | none => simp [hworker] at hnext
  | some worker =>
      cases worker with
      | locking =>
          simp only [hworker, Option.ite_none_right_eq_some, Option.some.injEq] at hnext
          rw [← hnext.right]
          rw [if_neg (by simp)]
          exact .locks hworker hnext.left
      | testing =>
          rw [if_pos rfl]
          cases hqueue : t.queue with
          | cons message rest =>
              simp only [hworker, hqueue, Option.some.injEq] at hnext
              rw [← hnext]
              exact .sends hworker hqueue
          | nil =>
              cases hrunning : t.running with
              | true =>
                  simp only [hworker, hqueue, hrunning, if_true, Option.some.injEq]
                    at hnext
                  rw [← hnext]
                  exact .yields hworker hqueue hrunning
              | false =>
                  simp only [hworker, hqueue, hrunning, Bool.false_eq_true, if_false,
                    Option.some.injEq] at hnext
                  rw [← hnext]
                  exact .exits hworker hqueue hrunning
      | suspending =>
          simp only [hworker, Option.some.injEq] at hnext
          rw [← hnext]
          rw [if_neg (by simp)]
          exact .suspends hworker
      | waiting => simp [hworker] at hnext
      | sending message phase => simp [hworker] at hnext
      | returned => simp [hworker] at hnext

theorem moves_stepControl (hnext : t.stepControl config = some t') :
    Moves config t (t.observe .control) t' := by
  unfold stepControl at hnext
  simp only [observe]
  cases hcontrol : t.control with
  | idle => simp [hcontrol] at hnext
  | startingServer =>
      simp only [hcontrol, Option.some.injEq] at hnext
      rw [← hnext]
      rw [if_neg (by simp)]
      exact .serves hcontrol
  | startingWorkers =>
      simp only [hcontrol] at hnext
      rw [if_neg (by simp)]
      by_cases hfew : t.workers.length < config.peers.entries.length
      · rw [if_pos hfew] at hnext
        cases hnext
        have hspawns := Moves.spawns hcontrol hfew
        rw [hcontrol] at hspawns
        exact hspawns
      · rw [if_neg hfew] at hnext
        cases hnext
        exact .launches hcontrol hfew
  | reporting =>
      simp only [hcontrol, Option.some.injEq] at hnext
      rw [← hnext]
      rw [if_neg (by simp)]
      exact .reports hcontrol
  | abandoning =>
      simp only [hcontrol, Option.some.injEq] at hnext
      rw [← hnext]
      rw [if_neg (by simp)]
      exact .abandons hcontrol
  | clearing =>
      simp only [hcontrol, Option.ite_none_right_eq_some, Option.some.injEq] at hnext
      rw [← hnext.right]
      rw [if_pos rfl]
      exact .clears hcontrol hnext.left
  | notifying ending =>
      simp only [hcontrol, Option.some.injEq] at hnext
      rw [← hnext]
      rw [if_neg (by simp)]
      exact .notifies hcontrol
  | joiningTicker ending =>
      simp only [hcontrol, Option.ite_none_right_eq_some, Option.some.injEq] at hnext
      rw [← hnext.right]
      rw [if_neg (by simp)]
      exact .joinsTicker hcontrol hnext.left
  | joiningWorkers ending joined =>
      simp only [hcontrol] at hnext
      rw [if_neg (by simp)]
      cases hworker : t.workers[joined]? with
      | none =>
          simp only [hworker, Option.some.injEq] at hnext
          rw [← hnext]
          exact .closes hcontrol hworker
      | some worker =>
          cases worker with
          | returned =>
              simp only [hworker, Option.some.injEq] at hnext
              rw [← hnext]
              exact .joinsWorker hcontrol hworker
          | locking => simp [hworker] at hnext
          | testing => simp [hworker] at hnext
          | suspending => simp [hworker] at hnext
          | waiting => simp [hworker] at hnext
          | sending message phase => simp [hworker] at hnext

theorem moves_stepCall {i ticket : Nat} (hnext : t.stepCall config i ticket = some t') :
    Moves config t (.exchanges i) t' := by
  unfold stepCall at hnext
  cases hworker : t.workers[i]? with
  | none => simp [hworker] at hnext
  | some worker =>
      cases worker with
      | sending message phase =>
          cases phase with
          | calling =>
              simp only [hworker] at hnext
              cases hprepare : prepare config message with
              | error fault =>
                  simp only [hprepare, Option.some.injEq] at hnext
                  rw [← hnext]
                  exact .refuses hworker hprepare
              | ok call? =>
                  cases call? with
                  | none =>
                      simp only [hprepare, Option.some.injEq] at hnext
                      rw [← hnext]
                      exact .proceeds hworker (.skips hprepare)
                  | some call =>
                      simp only [hprepare, Option.some.injEq] at hnext
                      rw [← hnext]
                      exact .proceeds hworker (.begins ticket hprepare)
          | pausing number call =>
              simp only [hworker, Option.some.injEq] at hnext
              rw [← hnext]
              exact .proceeds hworker (.resumes message number ticket call)
          | attempting number ticket call => simp [hworker] at hnext
          | responding rpc => simp [hworker] at hnext
      | locking => simp [hworker] at hnext
      | testing => simp [hworker] at hnext
      | suspending => simp [hworker] at hnext
      | waiting => simp [hworker] at hnext
      | returned => simp [hworker] at hnext

theorem moves_of_next {action : Action} (hnext : t.next config action = some t') :
    Moves config t (t.observe action) t' := by
  rcases next_eq_some_iff.mp hnext with ⟨_, hnext⟩
  cases action with
  | start =>
      simp only [step, Option.ite_none_right_eq_some] at hnext
      rcases hnext with ⟨hidle, hnext⟩
      cases hrunning : t.running with
      | true =>
          rw [hrunning, if_pos rfl] at hnext
          cases hnext
          exact .repeats hidle
      | false =>
          rw [hrunning, if_neg Bool.false_ne_true] at hnext
          cases hnext
          exact .starts hidle hrunning
  | stop =>
      simp only [step, Option.ite_none_right_eq_some] at hnext
      rcases hnext with ⟨hidle, hnext⟩
      cases hrunning : t.running with
      | true =>
          rw [hrunning, if_pos rfl] at hnext
          cases hnext
          exact .stops hidle hrunning
      | false =>
          rw [hrunning, if_neg Bool.false_ne_true] at hnext
          cases hnext
          exact .repeats hidle
  | control => exact moves_stepControl hnext
  | fail =>
      simp only [step, Option.ite_none_right_eq_some, Option.some.injEq] at hnext
      rw [← hnext.right]
      exact .fails hnext.left
  | ticker => exact moves_stepTicker hnext
  | ticked =>
      simp only [step, Option.ite_none_right_eq_some, Option.some.injEq] at hnext
      rw [← hnext.right]
      exact .ticks (hnext.left ▸ .ticks)
  | taken messages =>
      simp only [step, Option.ite_none_right_eq_some, Option.some.injEq] at hnext
      rw [← hnext.right]
      exact .takes messages hnext.left
  | worker i => exact moves_stepWorker hnext
  | wake i =>
      simp only [step, Option.ite_none_right_eq_some, Option.some.injEq] at hnext
      rw [← hnext.right]
      exact .wakes hnext.left
  | call i ticket => exact moves_stepCall hnext
  | conclude i reply =>
      simp only [step] at hnext
      split at hnext
      · rename_i message number ticket call hworker
        cases hnext
        exact .proceeds hworker (.concludes message number ticket call reply)
      · cases hnext
  | responded i =>
      simp only [step] at hnext
      split at hnext
      · rename_i message rpc hworker
        cases hnext
        exact .proceeds hworker (.responds message rpc)
      · cases hnext
  | throws worker =>
      cases worker with
      | none =>
          simp only [step, Option.ite_none_right_eq_some, Option.some.injEq] at hnext
          rw [← hnext.right]
          exact .throws (Or.inl hnext.left)
      | some i =>
          simp only [step] at hnext
          split at hnext
          · rename_i message rpc hworker
            cases hnext
            exact .throws (Or.inr ⟨i, message, rpc, hworker⟩)
          · cases hnext

/-!
# Stages of the main thread
-/

/-- What the main thread has started and not ended yet. -/
def Staged (t : Threads) : Prop :=
  match t.control with
  | .idle => t.running = false ->
      t.workers = [] ∧ t.ticker = .absent ∧ t.serving = false
  | .startingServer => t.running = true ∧ t.workers = [] ∧ t.ticker = .absent
  | .startingWorkers => t.running = true ∧ t.ticker = .absent
  | .reporting => t.running = true
  | .abandoning => t.running = true
  | .clearing => t.running = false
  | .notifying _ => t.running = false
  | .joiningTicker _ => t.running = false
  | .joiningWorkers _ joined => t.running = false ∧ t.ticker = .absent ∧
      forall i, i < joined -> t.workers[i]? = some .returned

structure Beside (t t' : Threads) : Prop where
  control : t'.control = t.control
  running : t'.running = t.running
  serving : t'.serving = t.serving
  workers : t'.workers.length = t.workers.length
  ticker : t.ticker = .absent -> t'.ticker = .absent
  returned : forall i : Nat, t.workers[i]? = some .returned ->
    t'.workers[i]? = some .returned

theorem staged_beside (h : Staged t) (hbeside : Beside t t') : Staged t' := by
  unfold Staged at h ⊢
  have hnone : t.workers = [] -> t'.workers = [] := by
    intro hworkers
    apply List.length_eq_zero_iff.mp
    rw [hbeside.workers, hworkers]
    rfl
  rw [hbeside.control, hbeside.running, hbeside.serving]
  cases hcontrol : t.control with
  | idle =>
      simp only [hcontrol] at h
      intro hstopped
      rcases h hstopped with ⟨hworkers, hticker, hserving⟩
      exact ⟨hnone hworkers, hbeside.ticker hticker, hserving⟩
  | startingServer =>
      simp only [hcontrol] at h
      exact ⟨h.left, hnone h.right.left, hbeside.ticker h.right.right⟩
  | startingWorkers =>
      simp only [hcontrol] at h
      exact ⟨h.left, hbeside.ticker h.right⟩
  | joiningWorkers ending joined =>
      simp only [hcontrol] at h
      rcases h with ⟨hstopped, hticker, hjoined⟩
      exact ⟨hstopped, hbeside.ticker hticker,
        fun i hi => hbeside.returned i (hjoined i hi)⟩
  | reporting => simpa only [hcontrol] using h
  | abandoning => simpa only [hcontrol] using h
  | clearing => simpa only [hcontrol] using h
  | notifying ending => simpa only [hcontrol] using h
  | joiningTicker ending => simpa only [hcontrol] using h

theorem getElem?_put_of_ne {i j : Nat} {worker : Worker} (hne : i ≠ j) :
    (t.put i worker).workers[j]? = t.workers[j]? :=
  List.getElem?_set_ne hne

theorem getElem?_put_self {i : Nat} {worker worker' : Worker}
    (hworker : t.workers[i]? = some worker) :
    (t.put i worker').workers[i]? = some worker' := by
  have hi := (List.getElem?_eq_some_iff.mp hworker).choose
  exact List.getElem?_set_self hi

theorem returned_put {i j : Nat} {worker worker' : Worker}
    (hworker : t.workers[i]? = some worker) (hne : worker ≠ .returned)
    (hj : t.workers[j]? = some .returned) :
    (t.put i worker').workers[j]? = some .returned := by
  by_cases hij : i = j
  · subst hij
    rw [hworker] at hj
    exact absurd (Option.some.inj hj) hne
  · rw [getElem?_put_of_ne hij, hj]

theorem returned_notifyAll {j : Nat} (hj : t.workers[j]? = some .returned) :
    t.notifyAll.workers[j]? = some .returned := by
  unfold notifyAll
  rw [List.getElem?_map, hj]
  rfl

theorem beside_put {i : Nat} {worker : Worker} (worker' : Worker)
    (hworker : t.workers[i]? = some worker) (hne : worker ≠ .returned) :
    Beside t (t.put i worker') :=
  ⟨rfl, rfl, rfl, List.length_set, id, fun _ hj => returned_put hworker hne hj⟩

theorem beside_notifyAll : Beside t t.notifyAll :=
  ⟨rfl, rfl, rfl, List.length_map _, id, fun _ hj => returned_notifyAll hj⟩

end Threads

theorem Worker.Proceeds.ne_returned {worker worker' : Worker}
    (h : worker.Proceeds config worker') : worker ≠ .returned := by
  cases h <;> intro heq <;> cases heq

theorem Ticker.Proceeds.ne_absent {running : Bool} {ticker ticker' : Ticker}
    (h : ticker.Proceeds running ticker') : ticker ≠ .absent := by
  cases h <;> intro heq <;> cases heq

namespace Threads

theorem staged_moves {seen : Observation} (h : Staged t)
    (hmoves : Moves config t seen t') : Staged t' := by
  have hbeside : forall {t1 : Threads}, Beside t t1 -> Staged t1 :=
    fun hbeside => staged_beside h hbeside
  cases hmoves with
  | repeats hidle => exact h
  | starts hidle hstopped =>
      unfold Staged at h
      simp only [hidle] at h
      rcases h hstopped with ⟨hworkers, hticker, -⟩
      exact ⟨rfl, hworkers, hticker⟩
  | serves hcontrol =>
      unfold Staged at h
      simp only [hcontrol] at h
      exact ⟨h.left, h.right.right⟩
  | spawns hcontrol hfew =>
      unfold Staged at h ⊢
      simp only [hcontrol] at h ⊢
      exact h
  | launches hcontrol hall =>
      unfold Staged at h
      simp only [hcontrol] at h
      exact h.left
  | reports hcontrol =>
      unfold Staged at h
      simp only [hcontrol] at h
      intro hstopped
      rw [h] at hstopped
      cases hstopped
  | fails hcontrol =>
      unfold Staged at h
      rcases hcontrol with hcontrol | hcontrol | hcontrol
      · simp only [hcontrol] at h
        exact h.left
      · simp only [hcontrol] at h
        exact h.left
      · simp only [hcontrol] at h
        exact h
  | abandons hcontrol => exact rfl
  | stops hidle hrunning => exact rfl
  | clears hcontrol hfree =>
      unfold Staged at h
      simp only [hcontrol] at h
      exact h
  | notifies hcontrol =>
      unfold Staged at h
      simp only [hcontrol] at h
      exact h
  | joinsTicker hcontrol hticker =>
      unfold Staged at h
      simp only [hcontrol] at h
      exact ⟨h, rfl, fun i hi => absurd hi (Nat.not_lt_zero i)⟩
  | joinsWorker hcontrol hworker =>
      unfold Staged at h
      simp only [hcontrol] at h
      refine ⟨h.left, h.right.left, ?_⟩
      intro i hi
      rcases Nat.lt_succ_iff_lt_or_eq.mp hi with hlt | heq
      · exact h.right.right i hlt
      · rw [heq]
        exact hworker
  | closes hcontrol hall =>
      unfold Staged at h
      simp only [hcontrol] at h
      exact fun _ => ⟨rfl, h.right.left, rfl⟩
  | ticks hticker =>
      exact hbeside ⟨rfl, rfl, rfl, rfl,
        fun habsent => absurd habsent hticker.ne_absent, fun _ hj => hj⟩
  | takes messages hticker =>
      refine hbeside ⟨rfl, rfl, rfl, rfl, ?_, fun _ hj => hj⟩
      intro habsent
      rw [hticker] at habsent
      cases habsent
  | enqueues hticker hfree =>
      refine hbeside ⟨rfl, rfl, rfl, rfl, ?_, fun _ hj => hj⟩
      intro habsent
      rw [hticker] at habsent
      cases habsent
  | announces hticker =>
      have hnotified := beside_notifyAll (t := t)
      refine hbeside ⟨rfl, rfl, rfl, hnotified.workers, ?_, hnotified.returned⟩
      intro habsent
      rw [hticker] at habsent
      cases habsent
  | locks hworker hfree =>
      have hput := beside_put .testing hworker (by simp)
      exact hbeside ⟨rfl, rfl, rfl, hput.workers, id, hput.returned⟩
  | @sends i message rest hworker hqueue =>
      have hput := beside_put (.sending message .calling) hworker (by simp)
      exact hbeside ⟨rfl, rfl, rfl, hput.workers, id, hput.returned⟩
  | yields hworker hqueue hrunning => exact hbeside (beside_put _ hworker (by simp))
  | exits hworker hqueue hstopped =>
      have hput := beside_put .returned hworker (by simp)
      exact hbeside ⟨rfl, rfl, rfl, hput.workers, id, hput.returned⟩
  | suspends hworker =>
      have hput := beside_put .waiting hworker (by simp)
      exact hbeside ⟨rfl, rfl, rfl, hput.workers, id, hput.returned⟩
  | wakes hworker => exact hbeside (beside_put _ hworker (by simp))
  | proceeds hworker hproceeds =>
      exact hbeside (beside_put _ hworker hproceeds.ne_returned)
  | throws hthread => exact hbeside ⟨rfl, rfl, rfl, rfl, id, fun _ hj => hj⟩
  | refuses hworker hprepare => exact hbeside ⟨rfl, rfl, rfl, rfl, id, fun _ hj => hj⟩

end Threads

/-!
# Runs
-/

inductive Threads.Runs (config : NodeRuntimeConfig) :
    List Observation -> Threads -> Prop where
  | nil : Threads.Runs config [] {}
  | snoc {t t' : Threads} {seen : List Observation} {action : Action}
      (hruns : Threads.Runs config seen t) (hnext : t.next config action = some t') :
      Threads.Runs config (seen ++ [t.observe action]) t'

variable {seen : List Observation}

def Threads.follow (config : NodeRuntimeConfig) (t : Threads) :
    List Action -> Option (List Observation × Threads)
  | [] => some ([], t)
  | action :: actions =>
      match t.next config action with
      | none => none
      | some t' => (t'.follow config actions).map fun (seen, last) =>
          (t.observe action :: seen, last)

theorem Threads.runs_follow {actions : List Action} {more : List Observation}
    (hruns : Runs config seen t) (hfollow : t.follow config actions = some (more, t')) :
    Runs config (seen ++ more) t' := by
  induction actions generalizing t seen more with
  | nil =>
      cases hfollow
      rw [List.append_nil]
      exact hruns
  | cons action actions ih =>
      unfold follow at hfollow
      cases hnext : t.next config action with
      | none => simp [hnext] at hfollow
      | some t1 =>
          simp only [hnext, Option.map_eq_some_iff, Prod.exists, Prod.mk.injEq] at hfollow
          rcases hfollow with ⟨rest, last, hrest, rfl, rfl⟩
          have hnow := ih (.snoc hruns hnext) hrest
          rw [List.append_assoc] at hnow
          exact hnow

theorem Threads.staged_runs (hruns : Runs config seen t) : t.Staged := by
  induction hruns with
  | nil => exact fun _ => ⟨rfl, rfl, rfl⟩
  | snoc hruns hnext ih => exact staged_moves ih (moves_of_next hnext)

/-!
# The queue

Every message that the ticker has taken from the node is in one place: it has
left the queue, is in the queue, or is still with the ticker.
-/

namespace Observation

def taken : Observation -> List Message
  | .takes messages => messages
  | _ => []

def sent : Observation -> List Message
  | .sends message => [message]
  | _ => []

def departed : Observation -> List Message
  | .sends message => [message]
  | .clears messages => messages
  | _ => []

end Observation

def Ticker.held : Ticker -> List Message
  | .enqueueing messages => messages
  | _ => []

def Threads.pending (t : Threads) : List Message :=
  t.queue ++ t.ticker.held

theorem Ticker.Proceeds.held_eq {running : Bool} {ticker ticker' : Ticker}
    (h : ticker.Proceeds running ticker') : ticker'.held = ticker.held := by
  cases h with
  | tests => cases running <;> rfl
  | wakes => cases running <;> rfl
  | ticks => rfl
  | skips => rfl

namespace Threads

theorem pending_moves {observation : Observation} (hstaged : Staged t)
    (hmoves : Moves config t observation t') :
    t.pending ++ observation.taken = observation.departed ++ t'.pending := by
  have hsame : forall {t1 : Threads}, t1.queue = t.queue ->
      t1.ticker.held = t.ticker.held -> t.pending ++ [] = [] ++ t1.pending := by
    intro t1 hqueue hheld
    unfold pending
    rw [hqueue, hheld]
    exact List.append_nil _
  cases hmoves with
  | launches hcontrol hall =>
      unfold Staged at hstaged
      simp only [hcontrol] at hstaged
      refine hsame rfl ?_
      rw [hstaged.right]
      rfl
  | clears hcontrol hfree =>
      simp [pending, Observation.taken, Observation.departed]
  | joinsTicker hcontrol hticker =>
      refine hsame rfl ?_
      rcases hticker with hticker | hticker
      · rw [hticker]
      · rw [hticker]
        rfl
  | ticks hticker => exact hsame rfl hticker.held_eq
  | takes messages hticker =>
      simp [pending, hticker, Ticker.held, Observation.taken, Observation.departed]
  | enqueues hticker hfree =>
      simp [pending, hticker, Ticker.held, Observation.taken, Observation.departed]
  | announces hticker =>
      refine hsame rfl ?_
      rw [hticker]
      rfl
  | sends hworker hqueue =>
      simp [pending, put, hqueue, Observation.taken, Observation.departed]
  | repeats hidle => exact hsame rfl rfl
  | starts hidle hstopped => exact hsame rfl rfl
  | serves hcontrol => exact hsame rfl rfl
  | spawns hcontrol hfew => exact hsame rfl rfl
  | reports hcontrol => exact hsame rfl rfl
  | fails hcontrol => exact hsame rfl rfl
  | abandons hcontrol => exact hsame rfl rfl
  | stops hidle hrunning => exact hsame rfl rfl
  | notifies hcontrol => exact hsame rfl rfl
  | joinsWorker hcontrol hworker => exact hsame rfl rfl
  | closes hcontrol hall => exact hsame rfl rfl
  | locks hworker hfree => exact hsame rfl rfl
  | yields hworker hqueue hrunning => exact hsame rfl rfl
  | exits hworker hqueue hstopped => exact hsame rfl rfl
  | suspends hworker => exact hsame rfl rfl
  | wakes hworker => exact hsame rfl rfl
  | proceeds hworker hproceeds => exact hsame rfl rfl
  | throws hthread => exact hsame rfl rfl
  | refuses hworker hprepare => exact hsame rfl rfl

theorem mem_pending_moves {observation : Observation} (hstaged : Staged t)
    (hmoves : Moves config t observation t') {message : Message}
    (hmessage : message ∈ t'.pending) :
    message ∈ t.pending ∨ message ∈ observation.taken := by
  have hconserved := pending_moves hstaged hmoves
  apply List.mem_append.mp
  rw [hconserved]
  exact List.mem_append_right _ hmessage

theorem mem_workers_moves {observation : Observation}
    (hmoves : Moves config t observation t') {worker : Worker}
    (hworker : worker ∈ t'.workers) :
    worker ∈ t.workers ∨ (forall message phase, worker ≠ .sending message phase) ∨
      (exists message, message ∈ t.pending ∧ worker = .sending message .calling) ∨
      exists i before, observation = .exchanges i ∧ t.workers[i]? = some before ∧
        before.Proceeds config worker := by
  have hset : forall {i : Nat} {worker' : Worker}, worker ∈ t.workers.set i worker' ->
      (forall message phase, worker' ≠ .sending message phase) ->
      worker ∈ t.workers ∨ (forall message phase, worker ≠ .sending message phase) := by
    intro i worker' hmem hidle
    rcases List.mem_or_eq_of_mem_set hmem with hold | rfl
    · exact Or.inl hold
    · exact Or.inr hidle
  have hleft : worker ∈ t.workers ∨ (forall message phase, worker ≠ .sending message phase) ->
      worker ∈ t.workers ∨ (forall message phase, worker ≠ .sending message phase) ∨
      (exists message, message ∈ t.pending ∧ worker = .sending message .calling) ∨
      exists i before, observation = .exchanges i ∧ t.workers[i]? = some before ∧
        before.Proceeds config worker :=
    fun h => h.imp_right Or.inl
  have hnotified : worker ∈ t.workers.map Worker.notified ->
      worker ∈ t.workers ∨ (forall message phase, worker ≠ .sending message phase) := by
    intro hmem
    rcases List.mem_map.mp hmem with ⟨before, hbefore, rfl⟩
    cases before with
    | waiting => exact Or.inr (by simp [Worker.notified])
    | sending message phase => exact Or.inl hbefore
    | locking => exact Or.inl hbefore
    | testing => exact Or.inl hbefore
    | suspending => exact Or.inl hbefore
    | returned => exact Or.inl hbefore
  cases hmoves with
  | spawns hcontrol hfew =>
      apply hleft
      rcases List.mem_append.mp hworker with hold | hnew
      · exact Or.inl hold
      · cases List.mem_singleton.mp hnew
        exact Or.inr (by simp)
  | closes hcontrol hall => cases hworker
  | notifies hcontrol => exact hleft (hnotified hworker)
  | announces hticker => exact hleft (hnotified hworker)
  | locks hbefore hfree => exact hleft (hset hworker (by simp))
  | @sends i message rest hbefore hqueue =>
      rcases List.mem_or_eq_of_mem_set hworker with hold | rfl
      · exact Or.inl hold
      · refine Or.inr (Or.inr (Or.inl ⟨message, ?_, rfl⟩))
        unfold pending
        rw [hqueue]
        exact List.mem_cons_self ..
  | yields hbefore hqueue hrunning => exact hleft (hset hworker (by simp))
  | exits hbefore hqueue hstopped => exact hleft (hset hworker (by simp))
  | suspends hbefore => exact hleft (hset hworker (by simp))
  | wakes hbefore => exact hleft (hset hworker (by simp))
  | proceeds hbefore hproceeds =>
      rcases List.mem_or_eq_of_mem_set hworker with hold | rfl
      · exact Or.inl hold
      · exact Or.inr (Or.inr (Or.inr ⟨_, _, rfl, hbefore, hproceeds⟩))
  | repeats hidle => exact Or.inl hworker
  | starts hidle hstopped => exact Or.inl hworker
  | serves hcontrol => exact Or.inl hworker
  | launches hcontrol hall => exact Or.inl hworker
  | reports hcontrol => exact Or.inl hworker
  | fails hcontrol => exact Or.inl hworker
  | abandons hcontrol => exact Or.inl hworker
  | stops hidle hrunning => exact Or.inl hworker
  | clears hcontrol hfree => exact Or.inl hworker
  | joinsTicker hcontrol hticker => exact Or.inl hworker
  | joinsWorker hcontrol hjoined => exact Or.inl hworker
  | ticks hticker => exact Or.inl hworker
  | takes messages hticker => exact Or.inl hworker
  | enqueues hticker hfree => exact Or.inl hworker
  | throws hthread => exact Or.inl hworker
  | refuses hbefore hprepare => exact Or.inl hworker

theorem taken_eq_departed_append (hruns : Runs config seen t) :
    seen.flatMap Observation.taken =
      seen.flatMap Observation.departed ++ t.pending := by
  induction hruns with
  | nil => rfl
  | snoc hruns hnext ih =>
      have hstep := pending_moves (staged_runs hruns) (moves_of_next hnext)
      rw [List.flatMap_append, List.flatMap_append, List.flatMap_singleton,
        List.flatMap_singleton, ih, List.append_assoc, List.append_assoc, hstep]

theorem sent_sublist_departed :
    (seen.flatMap Observation.sent).Sublist (seen.flatMap Observation.departed) := by
  induction seen with
  | nil => exact List.Sublist.refl _
  | cons observation seen ih =>
      rw [List.flatMap_cons, List.flatMap_cons]
      refine List.Sublist.append ?_ ih
      cases observation with
      | sends message => exact List.Sublist.refl _
      | clears messages => exact List.nil_sublist _
      | wakes i => exact List.Sublist.refl _
      | exchanges i => exact List.Sublist.refl _
      | silent => exact List.Sublist.refl _
      | takes messages => exact List.Sublist.refl _

theorem departed_eq_sent
    (hkept : forall messages, .clears messages ∈ seen -> messages = []) :
    seen.flatMap Observation.departed = seen.flatMap Observation.sent := by
  induction seen with
  | nil => rfl
  | cons observation seen ih =>
      have hrest := ih fun messages hmem => hkept messages (List.mem_cons_of_mem _ hmem)
      rw [List.flatMap_cons, List.flatMap_cons, hrest]
      cases observation with
      | clears messages =>
          rw [hkept messages (List.mem_cons_self ..)]
          rfl
      | wakes i => rfl
      | exchanges i => rfl
      | silent => rfl
      | takes messages => rfl
      | sends message => rfl

/--
However the threads are scheduled, the workers get the messages in the order in
which the ticker has taken them from the node, each of them once.  A message
leaves the queue otherwise only when `stop` clears it.
-/
theorem queue_keeps_messages (hruns : Runs config seen t) :
    seen.flatMap Observation.taken =
        seen.flatMap Observation.departed ++ (t.queue ++ t.ticker.held) ∧
      (seen.flatMap Observation.sent).Sublist (seen.flatMap Observation.taken) ∧
      ((forall messages, .clears messages ∈ seen -> messages = []) ->
        seen.flatMap Observation.taken =
          seen.flatMap Observation.sent ++ (t.queue ++ t.ticker.held)) := by
  have hconserved := taken_eq_departed_append hruns
  refine ⟨hconserved, ?_, ?_⟩
  · rw [hconserved]
    exact sent_sublist_departed.trans (List.sublist_append_left _ _)
  · intro hkept
    rw [← departed_eq_sent hkept]
    exact hconserved

def firstSend : List Action :=
  [.start, .control, .control, .control, .control, .ticker, .ticker, .ticked,
    .taken [pairRequest, pairRequest], .ticker, .worker 0, .ticker, .worker 0]

theorem queue_keeps_messages_firstSend : exists seen t,
    Runs pairRuntime.config seen t ∧
      seen.flatMap Observation.taken = [pairRequest, pairRequest] ∧
      seen.flatMap Observation.departed = [pairRequest] ∧
      t.queue ++ t.ticker.held = [pairRequest] := by
  have hfollow : exists seen t,
      ({} : Threads).follow pairRuntime.config firstSend = some (seen, t) ∧
        seen.flatMap Observation.departed = [pairRequest] ∧
        t.queue ++ t.ticker.held = [pairRequest] :=
    ⟨_, _, rfl, rfl, rfl⟩
  rcases hfollow with ⟨seen, t, hfollow, hdeparted, hpending⟩
  have hruns := runs_follow .nil hfollow
  have hconserved := (queue_keeps_messages hruns).left
  rw [List.nil_append, hdeparted, hpending] at hconserved
  exact ⟨seen, t, hruns, hconserved, hdeparted, hpending⟩

end Threads

end Node
end FTKV
