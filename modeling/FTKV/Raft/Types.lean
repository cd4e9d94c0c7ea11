import Mathlib.Data.Finset.Card
import Mathlib.Data.Finset.Insert
import Mathlib.Data.UInt
import Mathlib.Order.BoundedOrder.Basic

/-!
# Raft data types

The types of `raft.h`: log entries, the four RPC messages, the node
configuration and the persistent state.

Terms, node identifiers and request identifiers are the 64-bit unsigned
integers of the source and wrap around like them.  Log indexes are natural
numbers: every index a node computes is bounded by the size of a vector in
memory.  Durations are milliseconds.
-/

namespace FTKV
namespace Raft

abbrev NodeId := UInt64

abbrev Term := UInt64

abbrev LogIndex := Nat

/-- The bytes of a `std::string`. -/
abbrev Command := List UInt8

/-!
# Terms as an order

The consensus argument compares terms and descends through them, so it needs
the numeric order of the 64-bit integers as an order with a least element.
-/

instance : LinearOrder Term where
  le_refl _ := UInt64.le_refl _
  le_trans _ _ _ := UInt64.le_trans
  le_antisymm _ _ := UInt64.le_antisymm
  le_total := UInt64.le_total
  lt_iff_le_not_ge _ _ := by lia
  toDecidableLE := fun _ _ => inferInstance
  toDecidableEq := inferInstance
  toDecidableLT := fun _ _ => inferInstance

instance : OrderBot Term where
  bot := 0
  bot_le t := by
    change (0 : UInt64) <= t
    lia

instance : WellFoundedLT Term where
  wf := by
    refine Subrelation.wf (r := InvImage (· < ·) UInt64.toNat) ?_
      (InvImage.wf UInt64.toNat Nat.lt_wfRel.wf)
    intro s t hst
    exact UInt64.lt_iff_toNat_lt.mp hst

theorem term_lt_succ {t : Term} (ht : t ≠ 18446744073709551615) :
    t < t + 1 := by
  lia

/-!
# Log entries
-/

inductive NodeState where
  | follower
  | candidate
  | leader
deriving DecidableEq, Repr

structure LogEntry where
  term : Term := 0
  command : Command := []
  isNoOp : Bool := false
deriving DecidableEq, Repr

structure CommittedEntry where
  index : LogIndex := 0
  term : Term := 0
  command : Command := []
deriving DecidableEq, Repr

/-!
# Messages
-/

structure RequestVoteRequest where
  term : Term := 0
  candidateId : NodeId := 0
  lastLogIndex : LogIndex := 0
  lastLogTerm : Term := 0
deriving DecidableEq, Repr

structure RequestVoteResponse where
  term : Term := 0
  voteGranted : Bool := false
deriving DecidableEq, Repr

structure AppendEntriesRequest where
  term : Term := 0
  leaderId : NodeId := 0
  previousLogIndex : LogIndex := 0
  previousLogTerm : Term := 0
  entries : List LogEntry := []
  leaderCommit : LogIndex := 0
  requestId : UInt64 := 0
deriving DecidableEq, Repr

structure AppendEntriesResponse where
  term : Term := 0
  success : Bool := false
  matchIndex : LogIndex := 0
  conflictIndex : LogIndex := 1
  conflictTerm : Option Term := none
  requestId : UInt64 := 0
deriving DecidableEq, Repr

inductive Rpc where
  | requestVoteRequest (request : RequestVoteRequest)
  | requestVoteResponse (response : RequestVoteResponse)
  | appendEntriesRequest (request : AppendEntriesRequest)
  | appendEntriesResponse (response : AppendEntriesResponse)
deriving DecidableEq, Repr

/-- `Message`; the fields `from` and `to` of the source. -/
structure Message where
  fromNode : NodeId := 0
  toNode : NodeId := 0
  rpc : Rpc
deriving DecidableEq, Repr

def messageTerm (message : Message) : Term :=
  match message.rpc with
  | .requestVoteRequest request => request.term
  | .requestVoteResponse response => response.term
  | .appendEntriesRequest request => request.term
  | .appendEntriesResponse response => response.term

/-!
# Configuration and persistent state
-/

structure RaftConfig where
  nodeId : NodeId := 0
  peers : List NodeId := []
  electionTimeoutMin : Int := 150
  electionTimeoutMax : Int := 300
  heartbeatInterval : Int := 50
  randomSeed : UInt64 := 0x72616674
deriving DecidableEq, Repr

structure PersistentState where
  currentTerm : Term := 0
  votedFor : Option NodeId := none
  log : List LogEntry := []
deriving DecidableEq, Repr

end Raft
end FTKV
