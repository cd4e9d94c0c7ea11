import FTKV.Grpc.Protocol

/-!
# The Raft service

The handlers of `GrpcServer::RaftService`.  A handler converts the wire message,
lets the node handle it and converts the answer back.  An exception becomes the
status of the call.
-/

namespace FTKV
namespace Rpc

open Foundation

/-!
# Handlers
-/

/-- When the call is cancelled, as `grpc::ServerContext` reports it. -/
structure ServerContext where
  cancelledBefore : Bool := false
  cancelledAfter : Bool := false
  /-- What the library says in the exception of `unordered_map::at`. -/
  outOfRangeText : String := ""
deriving DecidableEq, Repr

/--
The status for an exception, by the clauses of `run_handler`.  Undefined
behaviour is no exception, and nothing catches it.
-/
def caughtStatus (outOfRangeText : String) : Fault -> Option Status
  | .invalidArgument message => some ⟨.invalidArgument, message⟩
  | .logicError message => some ⟨.internal, message⟩
  | .grpcError error => some ⟨.internal, error.what⟩
  | .raft (.invalidArgument message) => some ⟨.invalidArgument, message⟩
  | .raft (.raftError message) => some ⟨.failedPrecondition, message⟩
  | .raft (.storage (.raftError message)) => some ⟨.failedPrecondition, message⟩
  | .raft (.storage (.storageError message)) => some ⟨.internal, message⟩
  | .raft .outOfRange => some ⟨.internal, outOfRangeText⟩
  | .raft .undefinedBehavior => none

/-- Run a handler; a response that it has not filled stays as it was created. -/
def runHandler {state response : Type} [Inhabited response]
    (context : ServerContext) (operation : Effect state Fault response) :
    Effect state Fault (Reply response) :=
  if context.cancelledBefore then
    pure ⟨⟨.cancelled, "request was cancelled"⟩, default⟩
  else
    tryCatch
      (do
        let response <- operation
        if context.cancelledAfter then
          pure ⟨⟨.cancelled, "request deadline elapsed"⟩, response⟩
        else
          pure ⟨{}, response⟩)
      (fun fault =>
        match caughtStatus context.outOfRangeText fault with
        | some status => pure ⟨status, default⟩
        | none => throw fault)

/-!
# Conversions

The fields that the handlers read from a request and set in a response.
-/

namespace V1

def RequestVoteRequest.toRequest (request : RequestVoteRequest) :
    Raft.RequestVoteRequest where
  term := request.term
  candidateId := request.candidateId
  lastLogIndex := request.lastLogIndex
  lastLogTerm := request.lastLogTerm

def RequestVoteResponse.ofResponse (response : Raft.RequestVoteResponse) :
    RequestVoteResponse where
  term := response.term
  voteGranted := response.voteGranted

def RaftLogEntry.toEntry (entry : RaftLogEntry) : Raft.LogEntry where
  term := entry.term
  command := entry.command
  isNoOp := entry.isNoOp

def AppendEntriesRequest.toRequest (request : AppendEntriesRequest) :
    Raft.AppendEntriesRequest where
  term := request.term
  leaderId := request.leaderId
  previousLogIndex := request.previousLogIndex
  previousLogTerm := request.previousLogTerm
  leaderCommit := request.leaderCommit
  requestId := request.requestId
  entries := request.entries.map RaftLogEntry.toEntry

def AppendEntriesResponse.ofResponse (response : Raft.AppendEntriesResponse) :
    AppendEntriesResponse where
  term := response.term
  success := response.success
  matchIndex := response.matchIndex
  conflictIndex := response.conflictIndex
  hasConflictTerm := response.conflictTerm.isSome
  -- The field is set only when there is a term, and is zero otherwise.
  conflictTerm := response.conflictTerm.getD 0
  requestId := response.requestId

end V1

/-!
# The service
-/

namespace RaftService

variable {storage random : Type} [Raft.RaftStorage storage]
  [Raft.RandomEngine random]

def handle {response : Type} (sender : Raft.NodeId) (request : Raft.Rpc)
    (notMember : String) (convert : Raft.Rpc -> Except Fault response) :
    Effect (Raft.RaftNode storage random) Fault response := do
  let n <- get
  let message <- Effect.raising Fault.raft (Raft.RaftNode.handleRequest
    { fromNode := sender, toNode := n.config.nodeId, rpc := request })
  match message with
  | none => throw (.invalidArgument notMember)
  | some answer => ofExcept (convert answer.rpc)

def convertVote : Raft.Rpc -> Except Fault V1.RequestVoteResponse
  | .requestVoteResponse response =>
      .ok (V1.RequestVoteResponse.ofResponse response)
  | _ => .error (.logicError "Raft node did not produce a RequestVote response")

def convertAppend : Raft.Rpc -> Except Fault V1.AppendEntriesResponse
  | .appendEntriesResponse response =>
      .ok (V1.AppendEntriesResponse.ofResponse response)
  | _ => .error (.logicError "Raft node did not produce an AppendEntries response")

def requestVote (context : ServerContext) (request : V1.RequestVoteRequest) :
    Effect (Raft.RaftNode storage random) Fault
      (Reply V1.RequestVoteResponse) :=
  runHandler context (handle request.candidateId
    (.requestVoteRequest request.toRequest)
    "RequestVote sender is not a cluster member" convertVote)

def appendEntries (context : ServerContext) (request : V1.AppendEntriesRequest) :
    Effect (Raft.RaftNode storage random) Fault
      (Reply V1.AppendEntriesResponse) :=
  runHandler context (handle request.leaderId
    (.appendEntriesRequest request.toRequest)
    "AppendEntries sender is not a cluster member" convertAppend)

end RaftService

end Rpc
end FTKV
