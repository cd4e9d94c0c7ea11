import FTKV.Grpc.Protocol

/-!
# The RPC client

`GrpcClient` reaches a server through a generated stub and repeats an attempt
that ended with a retryable status.  The state on which stubs and pauses act is
everything outside the client.
-/

namespace FTKV
namespace Rpc

open Foundation

/-!
# Retries
-/

structure GrpcClientOptions where
  timeout : Int := 500
  maxAttempts : Nat := 3
  initialBackoff : Int := 10
  maximumBackoff : Int := 100
deriving DecidableEq, Repr

def isRetryable (code : StatusCode) : Bool :=
  code = .unavailable || code = .deadlineExceeded ||
    code = .resourceExhausted || code = .aborted

/-- The status of the last attempt, its number and the response it has filled. -/
structure InvocationResult (response : Type) where
  status : Status
  attempts : Nat
  response : response

section Retries

variable {world response : Type}

/-- The loop of `invoke_with_retry`, with the number of rounds it has left. -/
def attemptFrom (options : GrpcClientOptions)
    (sleepFor : Int -> Effect world Fault Unit)
    (operation : Effect world Fault (Reply response)) :
    Nat -> Nat -> Int -> Effect world Fault (InvocationResult response)
  | 0, _, _ => throw (.logicError "gRPC retry loop terminated unexpectedly")
  | left + 1, attempt, backoff => do
      let reply <- operation
      if reply.status.code = .ok ∨ isRetryable reply.status.code = false ∨
          attempt = options.maxAttempts then
        pure ⟨reply.status, attempt, reply.response⟩
      else do
        sleepFor backoff
        attemptFrom options sleepFor operation left (attempt + 1)
          (min options.maximumBackoff (backoff * 2))

def invokeWithRetry (options : GrpcClientOptions)
    (sleepFor : Int -> Effect world Fault Unit)
    (operation : Effect world Fault (Reply response)) :
    Effect world Fault (InvocationResult response) :=
  attemptFrom options sleepFor operation options.maxAttempts 1
    options.initialBackoff

end Retries

/-!
# Errors
-/

def errorText (operation : String) (status : Status) (attempts : Nat) : String :=
  let message := operation ++ " failed after " ++ toString attempts ++ " attempt(s)"
  if status.message.isEmpty then
    message
  else
    message ++ ": " ++ status.message

def grpcError (operation : String) (status : Status) (attempts : Nat) :
    GrpcError where
  what := errorText operation status attempts
  statusCode := status.code
  attempts := attempts

/-!
# Conversions

The fields that the calls set in a request and read from a response.
-/

namespace V1

def RequestVoteRequest.ofRequest (request : Raft.RequestVoteRequest) :
    RequestVoteRequest where
  term := request.term
  candidateId := request.candidateId
  lastLogIndex := request.lastLogIndex
  lastLogTerm := request.lastLogTerm

def RequestVoteResponse.toResponse (response : RequestVoteResponse) :
    Raft.RequestVoteResponse where
  term := response.term
  voteGranted := response.voteGranted

def RaftLogEntry.ofEntry (entry : Raft.LogEntry) : RaftLogEntry where
  term := entry.term
  command := entry.command
  isNoOp := entry.isNoOp

def AppendEntriesRequest.ofRequest (request : Raft.AppendEntriesRequest) :
    AppendEntriesRequest where
  term := request.term
  leaderId := request.leaderId
  previousLogIndex := request.previousLogIndex
  previousLogTerm := request.previousLogTerm
  leaderCommit := request.leaderCommit
  requestId := request.requestId
  entries := request.entries.map RaftLogEntry.ofEntry

def AppendEntriesResponse.toResponse (response : AppendEntriesResponse) :
    Raft.AppendEntriesResponse where
  term := response.term
  success := response.success
  matchIndex := response.matchIndex
  conflictIndex := response.conflictIndex
  conflictTerm :=
    if response.hasConflictTerm then some response.conflictTerm else none
  requestId := response.requestId

end V1

/-!
# The client
-/

structure RaftStub (world : Type) where
  requestVote : V1.RequestVoteRequest ->
    Effect world Fault (Reply V1.RequestVoteResponse)
  appendEntries : V1.AppendEntriesRequest ->
    Effect world Fault (Reply V1.AppendEntriesResponse)

structure GrpcClient (world : Type) where
  options : GrpcClientOptions
  raftStub : RaftStub world
  sleepFor : Int -> Effect world Fault Unit

namespace GrpcClient

variable {world : Type}

def call {response : Type} (client : GrpcClient world) (operation : String)
    (attempt : Effect world Fault (Reply response)) :
    Effect world Fault response := do
  let result <- invokeWithRetry client.options client.sleepFor attempt
  if result.status.code ≠ .ok then
    throw (.grpcError (grpcError operation result.status result.attempts))
  else
    pure result.response

def requestVote (client : GrpcClient world) (sender : Raft.NodeId)
    (request : Raft.RequestVoteRequest) :
    Effect world Fault Raft.RequestVoteResponse :=
  if request.candidateId ≠ sender then
    throw (.invalidArgument "RequestVote sender must match candidate ID")
  else do
    let response <- client.call "RequestVote"
      (client.raftStub.requestVote (V1.RequestVoteRequest.ofRequest request))
    pure response.toResponse

def appendEntries (client : GrpcClient world) (sender : Raft.NodeId)
    (request : Raft.AppendEntriesRequest) :
    Effect world Fault Raft.AppendEntriesResponse :=
  if request.leaderId ≠ sender then
    throw (.invalidArgument "AppendEntries sender must match leader ID")
  else do
    let response <- client.call "AppendEntries"
      (client.raftStub.appendEntries (V1.AppendEntriesRequest.ofRequest request))
    pure response.toResponse

end GrpcClient

end Rpc
end FTKV
