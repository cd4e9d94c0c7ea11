import FTKV.Raft.Node

/-!
# Messages and statuses of the RPC service

The messages that `kvstore.proto` declares for the service `Raft`, the status
that ends a call, and the exceptions of the client and the server.  A field that
is not set has its default value.
-/

namespace FTKV
namespace Rpc

open Raft (NodeId Term LogIndex Command)

/-!
# Messages
-/

namespace V1

structure RaftLogEntry where
  term : Term := 0
  command : Command := []
  isNoOp : Bool := false
deriving DecidableEq, Inhabited, Repr

structure AppendEntriesRequest where
  term : Term := 0
  leaderId : NodeId := 0
  previousLogIndex : LogIndex := 0
  previousLogTerm : Term := 0
  entries : List RaftLogEntry := []
  leaderCommit : LogIndex := 0
  requestId : UInt64 := 0
deriving DecidableEq, Inhabited, Repr

structure AppendEntriesResponse where
  term : Term := 0
  success : Bool := false
  matchIndex : LogIndex := 0
  conflictIndex : LogIndex := 0
  hasConflictTerm : Bool := false
  conflictTerm : Term := 0
  requestId : UInt64 := 0
deriving DecidableEq, Inhabited, Repr

structure RequestVoteRequest where
  term : Term := 0
  candidateId : NodeId := 0
  lastLogIndex : LogIndex := 0
  lastLogTerm : Term := 0
deriving DecidableEq, Inhabited, Repr

structure RequestVoteResponse where
  term : Term := 0
  voteGranted : Bool := false
deriving DecidableEq, Inhabited, Repr

end V1

/-!
# Statuses
-/

inductive StatusCode where
  | ok
  | cancelled
  | unknown
  | invalidArgument
  | deadlineExceeded
  | notFound
  | alreadyExists
  | permissionDenied
  | resourceExhausted
  | failedPrecondition
  | aborted
  | outOfRange
  | unimplemented
  | internal
  | unavailable
  | dataLoss
  | unauthenticated
deriving DecidableEq, Repr

structure Status where
  code : StatusCode := .ok
  message : String := ""
deriving DecidableEq, Repr

/-- What a call of a stub gives its caller. -/
structure Reply (response : Type) where
  status : Status
  response : response

/-!
# Exceptions
-/

structure GrpcError where
  what : String
  statusCode : StatusCode
  attempts : Nat
deriving DecidableEq, Repr

inductive Fault where
  | invalidArgument (message : String)
  | logicError (message : String)
  | grpcError (error : GrpcError)
  | raft (fault : Raft.Fault)
deriving DecidableEq, Repr

end Rpc
end FTKV
