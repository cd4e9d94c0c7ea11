import FTKV.Foundation.Effects
import FTKV.Raft.Storage
import Mathlib.Data.Finset.Dedup
import Mathlib.Logic.Function.Basic

/-!
# The Raft node

The state and the operations of `RaftNode`, function by function.  A public
operation runs under the node's mutex, so it is one computation over the node
state.  An exception ends the operation and keeps what had been written by
then, which is how the node continues after the gRPC handler has caught it.

## Undefined behaviour

Subscripts into `log_` are unchecked in the source.  Here an access outside the
vector stops the operation with `Fault.undefinedBehavior`, so that a proof that
an operation never ends that way is a proof that every access is in range.
-/

namespace FTKV
namespace Raft

open Foundation

inductive Fault where
  | invalidArgument (message : String)
  | raftError (message : String)
  | outOfRange
  | undefinedBehavior
  | storage (cause : StorageFault)
deriving DecidableEq, Repr

/-!
# The log

`log_` is a vector whose first element is the sentinel `LogEntry{}` that keeps
log indexes one-based.  The sentinel is pushed by the constructor and never
removed, so only the entries behind it are stored.
-/

structure Log where
  entries : List LogEntry := []
deriving DecidableEq, Repr

namespace Log

def toList (log : Log) : List LogEntry :=
  {} :: log.entries

def size (log : Log) : Nat :=
  log.toList.length

def at? (log : Log) (index : LogIndex) : Option LogEntry :=
  log.toList[index]?

def back (log : Log) : LogEntry :=
  log.entries.getLast?.getD {}

def pushBack (log : Log) (entry : LogEntry) : Log :=
  { entries := log.entries ++ [entry] }

/-- `resize` to a smaller size that keeps the sentinel. -/
def resize (log : Log) (size : Nat) : Log :=
  { entries := (log.toList.take size).tail }

def insertEnd (log : Log) (entries : List LogEntry) : Log :=
  { entries := log.entries ++ entries }

@[simp] theorem size_eq (log : Log) : log.size = log.entries.length + 1 := rfl

@[simp] theorem at?_zero (log : Log) : log.at? 0 = some {} := rfl

@[simp] theorem at?_succ (log : Log) (index : LogIndex) :
    log.at? (index + 1) = log.entries[index]? := rfl

@[simp] theorem toList_drop_succ (log : Log) (index : LogIndex) :
    log.toList.drop (index + 1) = log.entries.drop index := rfl

@[simp] theorem entries_pushBack (log : Log) (entry : LogEntry) :
    (log.pushBack entry).entries = log.entries ++ [entry] := rfl

@[simp] theorem entries_insertEnd (log : Log) (entries : List LogEntry) :
    (log.insertEnd entries).entries = log.entries ++ entries := rfl

@[simp] theorem entries_resize_succ (log : Log) (size : Nat) :
    (log.resize (size + 1)).entries = log.entries.take size := rfl

theorem at?_isSome {log : Log} {index : LogIndex}
    (hindex : index <= log.entries.length) :
    exists entry, log.at? index = some entry := by
  cases index with
  | zero => exact ⟨{}, rfl⟩
  | succ index =>
      rw [at?_succ]
      exact ⟨_, List.getElem?_eq_getElem hindex⟩

theorem le_length_of_at? {log : Log} {index : LogIndex} {entry : LogEntry}
    (hentry : log.at? index = some entry) : index <= log.entries.length :=
  Nat.le_of_lt_succ (List.getElem?_eq_some_iff.mp hentry).1

end Log

/-!
# The hash maps

An `std::unordered_map` keyed by node is a partial function.  `operator[]`
inserts a default value for an absent key, `at` throws.
-/

abbrev NodeMap (value : Type) := NodeId -> Option value

namespace NodeMap

variable {value : Type}

def empty : NodeMap value :=
  fun _ => none

def assign (map : NodeMap value) (key : NodeId) (v : value) : NodeMap value :=
  Function.update map key (some v)

def assignAll (map : NodeMap value) (keys : List NodeId) (v : value) :
    NodeMap value :=
  keys.foldl (fun m key => m.assign key v) map

def valueAt [Inhabited value] (map : NodeMap value) (key : NodeId) : value :=
  (map key).getD default

/-- The map after `operator[]` has been evaluated. -/
def touch [Inhabited value] (map : NodeMap value) (key : NodeId) :
    NodeMap value :=
  map.assign key (map.valueAt key)

@[simp] theorem assign_self (map : NodeMap value) (key : NodeId) (v : value) :
    map.assign key v key = some v :=
  Function.update_self ..

theorem assign_of_ne (map : NodeMap value) {key other : NodeId} (v : value)
    (hne : other ≠ key) : map.assign key v other = map other :=
  Function.update_of_ne hne ..

theorem assignAll_eq (map : NodeMap value) (keys : List NodeId) (v : value)
    (key : NodeId) :
    map.assignAll keys v key = if key ∈ keys then some v else map key := by
  unfold assignAll
  induction keys generalizing map with
  | nil => simp
  | cons first rest ih =>
      rw [List.foldl_cons, ih]
      by_cases hrest : key ∈ rest
      · simp [hrest]
      · by_cases hfirst : key = first
        · subst hfirst
          simp
        · simp [hrest, hfirst, assign_of_ne]

theorem touch_of_some [Inhabited value] {map : NodeMap value} {key : NodeId}
    {v : value} (hkey : map key = some v) : map.touch key = map := by
  funext other
  by_cases hother : other = key
  · subst hother
    simp [touch, valueAt, hkey]
  · simp [touch, assign_of_ne, hother]

end NodeMap

/-!
# Node state
-/

structure RaftNode (storage random : Type) where
  config : RaftConfig
  storage : storage
  random : random
  state : NodeState := .follower
  currentTerm : Term := 0
  votedFor : Option NodeId := none
  leaderId : Option NodeId := none
  log : Log := {}
  commitIndex : LogIndex := 0
  lastApplied : LogIndex := 0
  electionElapsed : Int := 0
  electionTimeout : Int := 0
  heartbeatElapsed : Int := 0
  members : Finset NodeId := ∅
  votesReceived : Finset NodeId := ∅
  nextIndex : NodeMap LogIndex := NodeMap.empty
  matchIndex : NodeMap LogIndex := NodeMap.empty
  appendRequestId : NodeMap UInt64 := NodeMap.empty
  outbox : List Message := []
  committedEntries : List CommittedEntry := []

abbrev NodeM (storage random result : Type) :=
  Effect (RaftNode storage random) Fault result

section Queries

variable {storage random : Type}

namespace RaftNode

def lastLogIndexLocked (n : RaftNode storage random) : LogIndex :=
  n.log.size - 1

def lastLogTermLocked (n : RaftNode storage random) : Term :=
  n.log.back.term

def quorumSizeLocked (n : RaftNode storage random) : Nat :=
  n.members.card / 2 + 1

def isPeerLocked (n : RaftNode storage random) (nodeId : NodeId) : Bool :=
  nodeId ≠ n.config.nodeId && nodeId ∈ n.members

@[simp] theorem lastLogIndexLocked_eq (n : RaftNode storage random) :
    n.lastLogIndexLocked = n.log.entries.length := rfl

def candidateLogIsCurrentLocked (n : RaftNode storage random)
    (request : RequestVoteRequest) : Bool :=
  request.lastLogTerm > n.lastLogTermLocked ||
    (request.lastLogTerm = n.lastLogTermLocked &&
      request.lastLogIndex >= n.lastLogIndexLocked)

def persistentState (n : RaftNode storage random) : PersistentState where
  currentTerm := n.currentTerm
  votedFor := n.votedFor
  log := n.log.entries

end RaftNode

end Queries

section Operations

variable {storage random : Type} [RaftStorage storage] [RandomEngine random]

/-!
# Small steps
-/

def RaftNode.resetElectionTimeoutLocked (n : RaftNode storage random) :
    RaftNode storage random :=
  let draw := RandomEngine.uniformInt n.config.electionTimeoutMin
    n.config.electionTimeoutMax n.random
  { n with
    electionTimeout := draw.1
    random := draw.2
    electionElapsed := 0 }

def persistLocked : NodeM storage random Unit := do
  let n <- get
  match RaftStorage.save n.persistentState n.storage with
  | (.ok _, storage) => set { n with storage := storage }
  | (.error cause, storage) => do
      set { n with storage := storage }
      throw (.storage cause)

def sendLocked (peer : NodeId) (rpc : Rpc) : NodeM storage random Unit :=
  modify fun n => { n with
    outbox := n.outbox ++
      [{ fromNode := n.config.nodeId, toNode := peer, rpc := rpc }] }

/-- The subscript `log_[index]`. -/
def logAt (index : LogIndex) : NodeM storage random LogEntry := do
  match (<- get).log.at? index with
  | some entry => pure entry
  | none => throw .undefinedBehavior

/-- The range from `std::next(log_.begin(), index)` to `log_.end()`. -/
def logFrom (index : LogIndex) : NodeM storage random (List LogEntry) := do
  let n <- get
  if index <= n.log.size then
    pure (n.log.toList.drop index)
  else
    throw .undefinedBehavior

/-- `index - 1U` on 64-bit unsigned integers. -/
def predecessor (index : LogIndex) : LogIndex :=
  if index = 0 then 2 ^ 64 - 1 else index - 1

/-!
# Committing and applying
-/

/-- The loop of `apply_committed_entries_locked`, for a number of rounds. -/
def applyRounds : Nat -> NodeM storage random Unit
  | 0 => pure ()
  | rounds + 1 => do
      modify fun n => { n with lastApplied := n.lastApplied + 1 }
      let index := (<- get).lastApplied
      let entry <- logAt index
      (if entry.isNoOp then
        pure ()
      else
        modify fun n => { n with
          committedEntries := n.committedEntries ++
            [{ index := index, term := entry.term, command := entry.command }] })
      applyRounds rounds

def applyCommittedEntriesLocked : NodeM storage random Unit := do
  let n <- get
  applyRounds (n.commitIndex - n.lastApplied)

def countReplicated (candidate : LogIndex) :
    List NodeId -> Nat -> NodeM storage random Nat
  | [], replicated => pure replicated
  | peer :: rest, replicated => do
      let reached := (<- get).matchIndex.valueAt peer
      modify fun n => { n with matchIndex := n.matchIndex.touch peer }
      countReplicated candidate rest
        (if reached >= candidate then replicated + 1 else replicated)

/-- The loop of `advance_commit_index_locked`, from a candidate downwards. -/
def advanceFrom : LogIndex -> NodeM storage random Bool
  | 0 => pure false
  | below + 1 => do
      let n <- get
      if below + 1 > n.commitIndex then do
        let entry <- logAt (below + 1)
        if entry.term ≠ n.currentTerm then
          advanceFrom below
        else do
          let replicated <- countReplicated (below + 1) n.config.peers 1
          if replicated >= n.quorumSizeLocked then do
            modify fun n => { n with commitIndex := below + 1 }
            applyCommittedEntriesLocked
            pure true
          else
            advanceFrom below
      else
        pure false

def advanceCommitIndexLocked : NodeM storage random Bool := do
  advanceFrom (<- get).lastLogIndexLocked

/-!
# Replication requests
-/

def sendAppendEntriesLocked (peer : NodeId) : NodeM storage random Unit := do
  let n <- get
  match n.nextIndex peer with
  | none => throw .outOfRange
  | some nextIndex => do
      let previousIndex := predecessor nextIndex
      let entries <- logFrom nextIndex
      let requestId := n.appendRequestId.valueAt peer + 1
      modify fun n => { n with
        appendRequestId := n.appendRequestId.assign peer requestId }
      let previous <- logAt previousIndex
      sendLocked peer (.appendEntriesRequest {
        term := n.currentTerm
        leaderId := n.config.nodeId
        previousLogIndex := previousIndex
        previousLogTerm := previous.term
        entries := entries
        leaderCommit := n.commitIndex
        requestId := requestId })

def broadcastAppendEntriesLocked : NodeM storage random Unit := do
  (<- get).config.peers.forM sendAppendEntriesLocked

/-!
# Role changes
-/

def becomeFollowerLocked (term : Term) (leaderId : Option NodeId) :
    NodeM storage random Unit := do
  let termChanged := decide (term > (<- get).currentTerm)
  (if termChanged then
    modify fun n => { n with currentTerm := term, votedFor := none }
  else
    pure ())
  modify fun n => { n with
    state := .follower
    leaderId := leaderId
    votesReceived := ∅
    nextIndex := NodeMap.empty
    matchIndex := NodeMap.empty
    appendRequestId := NodeMap.empty
    heartbeatElapsed := 0 }
  modify RaftNode.resetElectionTimeoutLocked
  if termChanged then
    persistLocked
  else
    pure ()

def becomeLeaderLocked : NodeM storage random Unit := do
  modify fun n => { n with
    state := .leader
    leaderId := some n.config.nodeId
    heartbeatElapsed := 0 }
  modify fun n => { n with
    nextIndex := n.nextIndex.assignAll n.config.peers (n.lastLogIndexLocked + 1)
    matchIndex := n.matchIndex.assignAll n.config.peers 0
    appendRequestId := n.appendRequestId.assignAll n.config.peers 0 }
  -- The current-term no-op safely commits entries inherited from an earlier
  -- leader.
  modify fun n => { n with
    log := n.log.pushBack { term := n.currentTerm, command := [], isNoOp := true } }
  persistLocked
  let _ <- advanceCommitIndexLocked
  broadcastAppendEntriesLocked

def startElectionLocked : NodeM storage random Unit := do
  modify fun n => { n with
    state := .candidate
    leaderId := none
    currentTerm := n.currentTerm + 1
    votedFor := some n.config.nodeId
    votesReceived := {n.config.nodeId} }
  modify RaftNode.resetElectionTimeoutLocked
  persistLocked
  let n <- get
  if n.votesReceived.card >= n.quorumSizeLocked then
    becomeLeaderLocked
  else
    n.config.peers.forM fun peer =>
      sendLocked peer (.requestVoteRequest {
        term := n.currentTerm
        candidateId := n.config.nodeId
        lastLogIndex := n.lastLogIndexLocked
        lastLogTerm := n.lastLogTermLocked })

/-!
# Votes
-/

def handleRequestVoteLocked (sender : NodeId) (request : RequestVoteRequest) :
    NodeM storage random Unit := do
  let n <- get
  if request.candidateId ≠ sender ∨ request.term < n.currentTerm then
    sendLocked sender (.requestVoteResponse {
      term := n.currentTerm, voteGranted := false })
  else do
    let canVote := decide
      (n.votedFor = none ∨ n.votedFor = some request.candidateId)
    let grantVote := canVote && n.candidateLogIsCurrentLocked request
    (if grantVote then do
      (if n.votedFor ≠ some request.candidateId then do
        modify fun n => { n with votedFor := some request.candidateId }
        persistLocked
      else
        pure ())
      modify RaftNode.resetElectionTimeoutLocked
    else
      pure ())
    sendLocked sender (.requestVoteResponse {
      term := (<- get).currentTerm, voteGranted := grantVote })

def handleRequestVoteResponseLocked (sender : NodeId)
    (response : RequestVoteResponse) : NodeM storage random Unit := do
  let n <- get
  if n.state ≠ .candidate ∨ response.term ≠ n.currentTerm ∨
      response.voteGranted = false then
    pure ()
  else do
    modify fun n => { n with votesReceived := insert sender n.votesReceived }
    let n <- get
    if n.votesReceived.card >= n.quorumSizeLocked then
      becomeLeaderLocked
    else
      pure ()

/-!
# Replication on a follower
-/

/-- The lambda `reject` of `handle_append_entries_locked`. -/
def rejectAppend (sender : NodeId) (request : AppendEntriesRequest)
    (conflictIndex : LogIndex) (conflictTerm : Option Term) :
    NodeM storage random Unit := do
  sendLocked sender (.appendEntriesResponse {
    term := (<- get).currentTerm
    success := false
    matchIndex := 0
    conflictIndex := conflictIndex
    conflictTerm := conflictTerm
    requestId := request.requestId })

/-- The scan for the first index of the run of the conflicting term. -/
def conflictStart (conflictTerm : Term) : LogIndex -> NodeM storage random LogIndex
  | 0 => pure 0
  | 1 => pure 1
  | below + 2 => do
      let entry <- logAt (below + 1)
      if entry.term = conflictTerm then
        conflictStart conflictTerm (below + 1)
      else
        pure (below + 2)

inductive Walk where
  | rejected
  | finished (logChanged : Bool) (remaining : List LogEntry)
deriving DecidableEq, Repr

/-- The loop that compares incoming entries with the local log. -/
def walkEntries (sender : NodeId) (request : AppendEntriesRequest) :
    List LogEntry -> LogIndex -> NodeM storage random Walk
  | [], _ => pure (.finished false [])
  | incoming :: rest, entryIndex => do
      let n <- get
      if entryIndex <= n.lastLogIndexLocked then do
        let localEntry <- logAt entryIndex
        if localEntry.term ≠ incoming.term then
          if entryIndex <= n.commitIndex then do
            rejectAppend sender request entryIndex (some localEntry.term)
            pure .rejected
          else do
            modify fun n => { n with log := n.log.resize entryIndex }
            pure (.finished true (incoming :: rest))
        else if localEntry ≠ incoming then
          throw (.raftError "log matching invariant violated")
        else
          walkEntries sender request rest (entryIndex + 1)
      else
        pure (.finished false (incoming :: rest))

/-- The end of the handler: commit what the leader has committed and answer. -/
def answerAppend (sender : NodeId) (request : AppendEntriesRequest) :
    NodeM storage random Unit := do
  let n <- get
  (if request.leaderCommit > n.commitIndex then do
    modify fun n => { n with
      commitIndex := min request.leaderCommit n.lastLogIndexLocked }
    applyCommittedEntriesLocked
  else
    pure ())
  let matchIndex := request.previousLogIndex + request.entries.length
  sendLocked sender (.appendEntriesResponse {
    term := (<- get).currentTerm
    success := true
    matchIndex := matchIndex
    conflictIndex := matchIndex + 1
    conflictTerm := none
    requestId := request.requestId })

/-- What follows the comparison: append, persist, commit and answer. -/
def finishAppend (sender : NodeId) (request : AppendEntriesRequest)
    (logChanged : Bool) (remaining : List LogEntry) :
    NodeM storage random Unit := do
  (if remaining ≠ [] then
    modify fun n => { n with log := n.log.insertEnd remaining }
  else
    pure ())
  (if logChanged || remaining ≠ [] then
    persistLocked
  else
    pure ())
  answerAppend sender request

/-- The part of `handle_append_entries_locked` after the sender is accepted. -/
def appendAfterPrevious (sender : NodeId) (request : AppendEntriesRequest) :
    NodeM storage random Unit := do
  let n <- get
  if request.previousLogIndex > n.lastLogIndexLocked then
    rejectAppend sender request (n.lastLogIndexLocked + 1) none
  else do
    let previous <- logAt request.previousLogIndex
    if request.previousLogIndex > 0 ∧
        previous.term ≠ request.previousLogTerm then do
      let conflictIndex <- conflictStart previous.term request.previousLogIndex
      rejectAppend sender request conflictIndex (some previous.term)
    else do
      let walk <- walkEntries sender request request.entries
        (request.previousLogIndex + 1)
      match walk with
      | .rejected => pure ()
      | .finished logChanged remaining =>
          finishAppend sender request logChanged remaining

def handleAppendEntriesLocked (sender : NodeId)
    (request : AppendEntriesRequest) : NodeM storage random Unit := do
  let n <- get
  if request.leaderId ≠ sender ∨ request.term < n.currentTerm then
    rejectAppend sender request (n.lastLogIndexLocked + 1) none
  else if request.entries.any
      (fun entry => entry.term = 0 || entry.term > request.term) then
    rejectAppend sender request (n.lastLogIndexLocked + 1) none
  else do
    (if n.state ≠ .follower ∨ n.leaderId ≠ some request.leaderId then
      becomeFollowerLocked n.currentTerm (some request.leaderId)
    else
      modify RaftNode.resetElectionTimeoutLocked)
    appendAfterPrevious sender request

/-!
# Replication on the leader
-/

/-- The scan for the last entry of the conflicting term, from an index down. -/
def lastIndexOfTerm (conflictTerm : Term) :
    LogIndex -> NodeM storage random (Option LogIndex)
  | 0 => pure none
  | below + 1 => do
      let entry <- logAt (below + 1)
      if entry.term = conflictTerm then
        pure (some (below + 1))
      else
        lastIndexOfTerm conflictTerm below

def retryIndex (response : AppendEntriesResponse) :
    NodeM storage random LogIndex := do
  match response.conflictTerm with
  | none => pure response.conflictIndex
  | some conflictTerm => do
      let found <- lastIndexOfTerm conflictTerm (<- get).lastLogIndexLocked
      match found with
      | some index => pure (index + 1)
      | none => pure response.conflictIndex

def handleAppendSuccess (sender : NodeId) (response : AppendEntriesResponse) :
    NodeM storage random Unit := do
  let n <- get
  if response.matchIndex > n.lastLogIndexLocked then
    pure ()
  else do
    modify fun n => { n with
      matchIndex := n.matchIndex.assign sender
        (max (n.matchIndex.valueAt sender) response.matchIndex)
      nextIndex := n.nextIndex.assign sender
        (max (n.nextIndex.valueAt sender) (response.matchIndex + 1)) }
    let advanced <- advanceCommitIndexLocked
    if advanced then
      broadcastAppendEntriesLocked
    else do
      let n <- get
      if n.matchIndex.valueAt sender < n.lastLogIndexLocked then
        sendAppendEntriesLocked sender
      else
        pure ()

def handleAppendRejection (sender : NodeId) (response : AppendEntriesResponse) :
    NodeM storage random Unit := do
  let n <- get
  modify fun n => { n with appendRequestId := n.appendRequestId.touch sender }
  if n.appendRequestId.valueAt sender ≠ response.requestId then
    pure ()
  else do
    let index <- retryIndex response
    modify fun n => { n with
      nextIndex := n.nextIndex.assign sender
        (max (max 1 (min index (n.lastLogIndexLocked + 1)))
          (n.matchIndex.valueAt sender + 1))
      matchIndex := n.matchIndex.touch sender }
    sendAppendEntriesLocked sender

def handleAppendEntriesResponseLocked (sender : NodeId)
    (response : AppendEntriesResponse) : NodeM storage random Unit := do
  let n <- get
  if n.state ≠ .leader ∨ response.term ≠ n.currentTerm then
    pure ()
  else if response.success then
    handleAppendSuccess sender response
  else
    handleAppendRejection sender response

/-!
# Public operations
-/

/-- The visitor that `step_locked` applies to the message. -/
def dispatch (sender : NodeId) : Rpc -> NodeM storage random Unit
  | .requestVoteRequest request => handleRequestVoteLocked sender request
  | .requestVoteResponse response =>
      handleRequestVoteResponseLocked sender response
  | .appendEntriesRequest request => handleAppendEntriesLocked sender request
  | .appendEntriesResponse response =>
      handleAppendEntriesResponseLocked sender response

def stepLocked (message : Message) : NodeM storage random Bool := do
  let n <- get
  if message.toNode ≠ n.config.nodeId ∨ ¬ n.isPeerLocked message.fromNode then
    pure false
  else do
    let incomingTerm := messageTerm message
    (if incomingTerm > n.currentTerm then
      becomeFollowerLocked incomingTerm none
    else
      pure ())
    dispatch message.fromNode message.rpc
    pure true

namespace RaftNode

def tick (elapsed : Int) : NodeM storage random Unit := do
  if elapsed < 0 then
    throw (.invalidArgument "elapsed time must not be negative")
  else do
    let n <- get
    if n.state = .leader then
      if elapsed >= n.config.heartbeatInterval - n.heartbeatElapsed then do
        modify fun n => { n with heartbeatElapsed := 0 }
        broadcastAppendEntriesLocked
      else
        modify fun n => { n with heartbeatElapsed := n.heartbeatElapsed + elapsed }
    else if elapsed >= n.electionTimeout - n.electionElapsed then
      startElectionLocked
    else
      modify fun n => { n with electionElapsed := n.electionElapsed + elapsed }

def step (message : Message) : NodeM storage random Bool :=
  stepLocked message

def propose (command : Command) : NodeM storage random (Option LogIndex) := do
  let n <- get
  if n.state ≠ .leader then
    pure none
  else if n.log.size = 2 ^ 64 - 1 then
    throw (.raftError "Raft log index overflow")
  else do
    modify fun n => { n with
      log := n.log.pushBack
        { term := n.currentTerm, command := command, isNoOp := false } }
    persistLocked
    let index := (<- get).lastLogIndexLocked
    let _ <- advanceCommitIndexLocked
    broadcastAppendEntriesLocked
    pure (some index)

def takeMessages : NodeM storage random (List Message) := do
  let messages := (<- get).outbox
  modify fun n => { n with outbox := [] }
  pure messages

def takeCommittedEntries : NodeM storage random (List CommittedEntry) := do
  let entries := (<- get).committedEntries
  modify fun n => { n with committedEntries := [] }
  pure entries

/-- The outgoing message answers the request, in the sense of `handle_request`. -/
def answers (request outgoing : Message) : Bool :=
  outgoing.toNode = request.fromNode &&
    match request.rpc, outgoing.rpc with
    | .requestVoteRequest _, .requestVoteResponse _ => true
    | .appendEntriesRequest appendRequest, .appendEntriesResponse response =>
        response.requestId = appendRequest.requestId
    | _, _ => false

def takeAnswer (request : Message) : List Message -> Option (Message × List Message)
  | [] => none
  | outgoing :: rest =>
      if answers request outgoing then
        some (outgoing, rest)
      else
        (takeAnswer request rest).map fun (answer, others) =>
          (answer, outgoing :: others)

def isRequest (message : Message) : Bool :=
  match message.rpc with
  | .requestVoteRequest _ => true
  | .appendEntriesRequest _ => true
  | _ => false

def handleRequest (message : Message) :
    NodeM storage random (Option Message) := do
  if isRequest message = false then
    throw (.invalidArgument "Raft message must contain a request")
  else do
    let firstNewMessage := (<- get).outbox.length
    let handled <- stepLocked message
    if handled = false then
      pure none
    else do
      let n <- get
      match takeAnswer message (n.outbox.drop firstNewMessage) with
      | none => pure none
      | some (answer, others) => do
          set { n with outbox := n.outbox.take firstNewMessage ++ others }
          pure (some answer)

/-!
# Construction
-/

/-- The loop of `validate_config` that inserts the peers one by one. -/
def insertMembers : List NodeId -> Finset NodeId -> Except Fault (Finset NodeId)
  | [], members => .ok members
  | peer :: rest, members =>
      if peer ∈ members then
        .error (.invalidArgument "Raft members must be unique")
      else
        insertMembers rest (insert peer members)

def validateConfig (config : RaftConfig) : Except Fault Unit :=
  if config.heartbeatInterval <= 0 ∨ config.electionTimeoutMin <= 0 ∨
      config.electionTimeoutMax < config.electionTimeoutMin ∨
      config.electionTimeoutMin <= config.heartbeatInterval then
    .error (.invalidArgument "invalid Raft timing configuration")
  else
    (insertMembers config.peers {config.nodeId}).map fun _ => ()

/-- The loop of the constructor over the persisted entries. -/
def validateLog (currentTerm : Term) : Term -> List LogEntry -> Except Fault Unit
  | _, [] => .ok ()
  | previousTerm, entry :: rest =>
      if entry.term = 0 ∨ entry.term > currentTerm ∨
          entry.term < previousTerm then
        .error (.raftError "persisted Raft log is invalid")
      else
        validateLog currentTerm entry.term rest

def VoteIsMember (members : Finset NodeId) : Option NodeId -> Prop
  | none => True
  | some vote => vote ∈ members

instance (members : Finset NodeId) (vote : Option NodeId) :
    Decidable (VoteIsMember members vote) :=
  match vote with
  | none => isTrue trivial
  | some vote => inferInstanceAs (Decidable (vote ∈ members))

/-- The constructor of `RaftNode`. -/
def create (config : RaftConfig) (store : storage) :
    Except Fault (RaftNode storage random) := do
  validateConfig config
  let members := insert config.nodeId config.peers.toFinset
  match RaftStorage.load store with
  | .error cause => .error (.storage cause)
  | .ok persisted =>
      if VoteIsMember members persisted.votedFor then do
        validateLog persisted.currentTerm 0 persisted.log
        let node : RaftNode storage random := {
          config := config
          storage := store
          random := RandomEngine.seed
            (config.randomSeed ^^^ (config.nodeId * 0x9e3779b97f4a7c15))
          currentTerm := persisted.currentTerm
          votedFor := persisted.votedFor
          log := { entries := persisted.log }
          members := members }
        .ok node.resetElectionTimeoutLocked
      else
        .error (.raftError "persisted vote references a non-member")

end RaftNode

end Operations

end Raft
end FTKV
