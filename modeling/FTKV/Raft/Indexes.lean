import FTKV.Raft.Emissions

/-!
# Indexes stay within the log

A peer may send any index.  The node computes with an index only after it has
compared it with its log, so every index that it keeps, uses as a subscript or
sends is at most the size of the vector `log_`.  That size is a `std::size_t`,
and index arithmetic on 64-bit integers therefore never wraps around.
-/

namespace FTKV
namespace Raft

open Foundation
open Foundation.Effect

def Rpc.indexes : Rpc -> List LogIndex
  | .requestVoteRequest request => [request.lastLogIndex]
  | .requestVoteResponse _ => []
  | .appendEntriesRequest request =>
      [request.previousLogIndex, request.previousLogIndex + request.entries.length,
        request.leaderCommit]
  | .appendEntriesResponse response => [response.matchIndex, response.conflictIndex]

/-!
# Messages
-/

def WithinLog (log : Log) (rpc : Rpc) : Prop :=
  forall index, index ∈ rpc.indexes -> index <= log.size

section Messages

variable {storage random : Type} {n n' : RaftNode storage random} {call : Call}

theorem Rejects.conflict_le {sender : NodeId} {request : AppendEntriesRequest}
    {conflictIndex : LogIndex} {conflictTerm : Option Term}
    (hrejects : Rejects n sender request conflictIndex conflictTerm)
    (h : WellFormed n) : conflictIndex <= n.log.entries.length + 1 := by
  have hcommitted := h.committed
  cases hrejects with
  | unfit | short => exact Nat.le_refl _
  | mismatch hprevious hpos hterm hstart =>
      have hlength := Log.le_length_of_at? hprevious
      lia
  | committed hsplit hlocal hterm hcommit => lia

theorem withinLog_mayEmit (h : WellFormed n) {peer : NodeId} {rpc : Rpc}
    (hemit : MayEmit call n peer rpc) : WithinLog n.log rpc := by
  intro index hindex
  cases hemit with
  | deny | grant => cases hindex
  | solicit hpeer hstate =>
      rw [List.mem_singleton.mp hindex]
      exact Nat.le_succ _
  | reject hhandles hrejects =>
      have hconflict := hrejects.conflict_le h
      simp only [Rpc.indexes, List.mem_pair] at hindex
      rw [Log.size_eq]
      lia
  | acknowledge haccepts hcontains =>
      have hprevious := haccepts.previous_le
      have hlength := hcontains.length_le
      simp only [Rpc.indexes, List.mem_pair] at hindex
      rw [List.length_drop] at hlength
      rw [Log.size_eq]
      lia

theorem withinLog_sends (h : WellFormed n) {message : Message}
    (hsends : Sends call n message) : WithinLog n.log message.rpc := by
  cases hsends with
  | emit hemit => exact withinLog_mayEmit h hemit
  | replicate hstate hpeer hprevious hterm hcall =>
      intro index hindex
      have hcommitted := h.committed
      simp only [Rpc.indexes, List.mem_cons, List.not_mem_nil, or_false,
        List.length_drop] at hindex
      rw [Log.size_eq]
      lia

theorem withinLog_emitted [RaftStorage storage] (h : WellFormed n)
    {message : Message} (hemitted : Emitted call n message n') :
    WithinLog n'.log message.rpc := by
  rcases hemitted with ⟨middle, hpath, hsends, hpersistent, -⟩
  have hlog : n'.log.entries = middle.log.entries :=
    congrArg PersistentState.log hpersistent
  have hwithin := withinLog_sends (wellFormed_path h hpath).left hsends
  unfold WithinLog at hwithin ⊢
  rw [Log.size_eq] at hwithin ⊢
  rw [hlog]
  exact hwithin

end Messages

/-!
# Computed indexes
-/

/-- The values of `entry_index` while the incoming entries are compared. -/
def entryIndexes (log : Log) : List LogEntry -> LogIndex -> List LogIndex
  | [], index => [index]
  | incoming :: rest, index =>
      index :: if log.at? index = some incoming then
        entryIndexes log rest (index + 1)
      else
        []

theorem lt_size_of_at? {log : Log} {index : LogIndex} {entry : LogEntry}
    (hentry : log.at? index = some entry) : index < log.size :=
  (List.getElem?_eq_some_iff.mp hentry).choose

theorem entryIndexes_le {log : Log} {entries : List LogEntry} {start : LogIndex}
    (hstart : start <= log.size) (index : LogIndex)
    (hindex : index ∈ entryIndexes log entries start) : index <= log.size := by
  induction entries generalizing start with
  | nil =>
      rw [List.mem_singleton.mp hindex]
      exact hstart
  | cons incoming rest ih =>
      unfold entryIndexes at hindex
      rcases List.mem_cons.mp hindex with rfl | hlater
      · exact hstart
      · split at hlater
        · rename_i hentry
          exact ih (lt_size_of_at? hentry) hlater
        · cases hlater

variable {storage random : Type}

/--
The indexes that the node keeps, and those that it computes from the message of a
peer, do not exceed the size of its log.
-/
structure IndexesInRange (n : RaftNode storage random) : Prop where
  applied : n.lastApplied <= n.commitIndex
  committed : n.commitIndex <= n.lastLogIndexLocked
  tracked : n.state = .leader -> forall peer, peer ∈ n.config.peers ->
    exists next reached request, n.nextIndex peer = some next ∧
      n.matchIndex peer = some reached ∧ n.appendRequestId peer = some request ∧
      reached < next ∧ next <= n.lastLogIndexLocked + 1
  compared : forall request : AppendEntriesRequest,
    request.previousLogIndex <= n.lastLogIndexLocked ->
    forall index,
      index ∈ entryIndexes n.log request.entries (request.previousLogIndex + 1) ->
      index <= n.log.size
  retried : forall response : AppendEntriesResponse,
    exists index, outcome (retryIndex response) n = (.ok index, n) ∧
      (index = response.conflictIndex ∨ index <= n.log.size)

theorem indexesInRange_of_wellFormed {n : RaftNode storage random}
    (h : WellFormed n) : IndexesInRange n := by
  constructor
  case applied => exact Nat.le_of_eq h.applied
  case committed => exact h.committed
  case tracked => exact h.tracked
  case compared =>
    intro request hprevious
    exact entryIndexes_le (Nat.succ_le_succ hprevious)
  case retried =>
    intro response
    have hretry : Ensures (retryIndex response) n (fun r n' => exists index,
        (r, n') = (.ok index, n) ∧
          (index = response.conflictIndex ∨ index <= n.log.size)) := by
      apply ensures_retryIndex
      refine ⟨_, rfl, ?_⟩
      apply (n.log.retryFrom_cases response).imp_right
      rintro ⟨last, hlast, -, hle, -⟩
      rw [hlast, Log.size_eq]
      exact Nat.succ_le_succ hle
    exact hretry

variable [RaftStorage storage]

theorem ne_error_of_explained {call : Call} {n n' : RaftNode storage random}
    {result : Type} {r : Except Fault result} (h : Explained call n r n') :
    r ≠ .error .undefinedBehavior ∧ r ≠ .error .outOfRange := by
  cases h with
  | returns hpath => exact ⟨nofun, nofun⟩
  | interrupted hpath hinterrupted => exact ⟨nofun, nofun⟩
  | refused hpath hrefusal =>
      cases hrefusal <;> exact ⟨nofun, nofun⟩

/-!
# Every run
-/

variable [RandomEngine random]

/--
Whatever has been done to a node and whichever saves have failed, its indexes
are in range, and so is every subscript, lookup and message of the next
operation.
-/
theorem indexes_in_range {config : RaftConfig} {store : storage}
    {node : RaftNode storage random}
    (hcreate : RaftNode.create config store = .ok node)
    (ops : List Operation) :
    IndexesInRange (node.after ops) ∧ forall op : Operation,
      (outcome op.perform (node.after ops)).1 ≠ .error .undefinedBehavior ∧
      (outcome op.perform (node.after ops)).1 ≠ .error .outOfRange ∧
      forall message, message ∈ op.enqueues (node.after ops) ->
        forall index, index ∈ message.rpc.indexes ->
          index <= (op.handled (node.after ops)).log.size := by
  have hwell := wellFormed_after (fresh_of_create hcreate).well ops
  generalize node.after ops = n at hwell ⊢
  refine ⟨indexesInRange_of_wellFormed hwell, ?_⟩
  intro op
  have hexplained := (ensures_perform hwell op).explained
  rcases ne_error_of_explained hexplained with ⟨hsubscript, hlookup⟩
  refine ⟨hsubscript, hlookup, ?_⟩
  intro message hmessage
  exact withinLog_emitted hwell (emitted_of_enqueues hwell hmessage)

theorem indexes_in_range_firstVote :
    exists node : RaftNode InMemoryRaftStorage LeastEngine,
      RaftNode.create { nodeId := 1, peers := [2] } {} = .ok node ∧
      (node.after [.tick 300, .step firstVote]).state = .leader ∧
      IndexesInRange (node.after [.tick 300, .step firstVote]) := by
  have hcreate : RaftNode.create { nodeId := 1, peers := [2] }
      ({} : InMemoryRaftStorage) =
        .ok (_ : RaftNode InMemoryRaftStorage LeastEngine) := rfl
  refine ⟨_, hcreate, by decide, ?_⟩
  exact (indexes_in_range hcreate [.tick 300, .step firstVote]).left

end Raft
end FTKV
