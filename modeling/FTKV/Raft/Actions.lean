import FTKV.Raft.Node
import Mathlib.Data.List.Infix
import Mathlib.Logic.Relation

/-!
# What an operation can do to a node

An operation of a node is a sequence of atomic actions.  The actions that change
the persistent state are followed by a save; if that save throws, the operation
ends there and the change stays in memory only.

`Volatile` and `Durable` list the actions with the conditions under which the
code performs them.  A property of a node is then proved once per action, and
holds of every operation, whatever its messages and whichever saves fail.
-/

namespace FTKV
namespace Raft

open Foundation

/-!
# Published entries
-/

def publication (entry : LogEntry) (index : LogIndex) : Option CommittedEntry :=
  if entry.isNoOp then
    none
  else
    some { index := index, term := entry.term, command := entry.command }

def publications (entries : List LogEntry) (first : LogIndex) :
    List CommittedEntry :=
  (entries.zipIdx first).filterMap fun position =>
    publication position.1 position.2

theorem publications_cons (entry : LogEntry) (rest : List LogEntry)
    (first : LogIndex) :
    publications (entry :: rest) first =
      (publication entry first).toList ++ publications rest (first + 1) := by
  unfold publications
  rw [List.zipIdx_cons, List.filterMap_cons]
  cases publication entry first <;> rfl

theorem publications_append (front rest : List LogEntry) (first : LogIndex) :
    publications (front ++ rest) first =
      publications front first ++ publications rest (first + front.length) := by
  unfold publications
  rw [List.zipIdx_append, List.filterMap_append]

variable {storage random : Type}

namespace RaftNode

def published (n : RaftNode storage random) : List CommittedEntry :=
  publications (n.log.entries.take n.commitIndex) 1

def unpublished (n : RaftNode storage random) (index : LogIndex) :
    List CommittedEntry :=
  publications ((n.log.entries.drop n.commitIndex).take (index - n.commitIndex))
    (n.commitIndex + 1)

/-!
# Updates
-/

def emit (n : RaftNode storage random) (peer : NodeId) (rpc : Rpc) :
    RaftNode storage random :=
  { n with
    outbox := n.outbox ++
      [{ fromNode := n.config.nodeId, toNode := peer, rpc := rpc }] }

def asFollower (n : RaftNode storage random) (leaderId : Option NodeId) :
    RaftNode storage random :=
  { n with
    state := .follower
    leaderId := leaderId
    votesReceived := ∅
    nextIndex := NodeMap.empty
    matchIndex := NodeMap.empty
    appendRequestId := NodeMap.empty }

def asLeader (n : RaftNode storage random) : RaftNode storage random :=
  { n with
    state := .leader
    leaderId := some n.config.nodeId
    nextIndex := n.nextIndex.assignAll n.config.peers (n.lastLogIndexLocked + 1)
    matchIndex := n.matchIndex.assignAll n.config.peers 0
    appendRequestId := n.appendRequestId.assignAll n.config.peers 0
    log := n.log.pushBack
      { term := n.currentTerm, command := [], isNoOp := true } }

def raiseCommit (n : RaftNode storage random) (index : LogIndex) :
    RaftNode storage random :=
  { n with
    commitIndex := index
    lastApplied := index
    committedEntries := n.committedEntries ++ n.unpublished index }

end RaftNode

/-!
# Well-formed nodes
-/

def Tracked (n : RaftNode storage random) (peer : NodeId) : Prop :=
  exists next reached request, n.nextIndex peer = some next ∧
    n.matchIndex peer = some reached ∧ n.appendRequestId peer = some request ∧
    reached < next ∧ next <= n.log.entries.length + 1

structure WellFormed (n : RaftNode storage random) : Prop where
  members : n.members = insert n.config.nodeId n.config.peers.toFinset
  self : n.config.nodeId ∉ n.config.peers
  unique : n.config.peers.Nodup
  applied : n.lastApplied = n.commitIndex
  committed : n.commitIndex <= n.log.entries.length
  pending : n.committedEntries <:+ n.published
  votes : n.votesReceived ⊆ n.members
  tracked : n.state = .leader -> forall peer, peer ∈ n.config.peers ->
    Tracked n peer

theorem WellFormed.isPeerLocked_iff {n : RaftNode storage random}
    (h : WellFormed n) {peer : NodeId} :
    n.isPeerLocked peer = true <-> peer ∈ n.config.peers := by
  unfold RaftNode.isPeerLocked
  rw [h.members]
  simp only [Bool.and_eq_true, decide_eq_true_eq, Finset.mem_insert,
    List.mem_toFinset]
  constructor
  · rintro ⟨hne, heq | hmem⟩
    · exact absurd heq hne
    · exact hmem
  · intro hmem
    refine ⟨?_, Or.inr hmem⟩
    intro heq
    rw [heq] at hmem
    exact h.self hmem

/-!
# Calls

An action is performed on behalf of a call: the delivery of a message, or a
tick or proposal.
-/

structure Call where
  inbox : Option Message := none
  /-- The command that the call proposes. -/
  proposal : Option Command := none
  /-- The term in which the call found the node. -/
  term : Term
  /-- The messages that the call found in the outbox. -/
  outbox : List Message

def Call.Appends (call : Call) : Prop :=
  exists message request, call.inbox = some message ∧
    message.rpc = .appendEntriesRequest request

theorem not_appends_of_none {call : Call} (hinbox : call.inbox = none) :
    ¬ call.Appends := by
  rintro ⟨message, request, hsome, _⟩
  rw [hinbox] at hsome
  cases hsome

def Handles (call : Call) (n : RaftNode storage random) (sender : NodeId)
    (rpc : Rpc) : Prop :=
  call.inbox =
      some { fromNode := sender, toNode := n.config.nodeId, rpc := rpc } ∧
    sender ∈ n.config.peers

structure Accepts (call : Call) (n : RaftNode storage random) (sender : NodeId)
    (request : AppendEntriesRequest) : Prop where
  handles : Handles call n sender (.appendEntriesRequest request)
  sender_leads : request.leaderId = sender
  current : request.term = n.currentTerm
  entries_valid : forall entry, entry ∈ request.entries ->
    entry.term ≠ 0 ∧ entry.term <= request.term
  follows : n.state = .follower
  previous_le : request.previousLogIndex <= n.log.entries.length
  previous_eq : request.previousLogIndex = 0 ∨
    (n.log.at? request.previousLogIndex).map LogEntry.term =
      some request.previousLogTerm

def Confirms (call : Call) (n : RaftNode storage random) (sender : NodeId)
    (response : AppendEntriesResponse) : Prop :=
  Handles call n sender (.appendEntriesResponse response) ∧
    n.state = .leader ∧ response.term = n.currentTerm ∧
    response.success = true ∧ response.matchIndex <= n.log.entries.length

def replicatedOn (n : RaftNode storage random) (index : LogIndex) :
    List NodeId :=
  n.config.peers.filter fun peer => index <= n.matchIndex.valueAt peer

section Storage

variable [RaftStorage storage]

/-!
# Saves
-/

/-- The storage holds the node's persistent state. -/
def Mirrored (n : RaftNode storage random) : Prop :=
  RaftStorage.load n.storage = .ok n.persistentState

def Saved (n n' : RaftNode storage random) : Prop :=
  exists store, RaftStorage.save n.persistentState n.storage =
    (.ok (), store) ∧ n' = { n with storage := store }

def SaveFailed (n n' : RaftNode storage random) : Prop :=
  exists cause store, RaftStorage.save n.persistentState n.storage =
    (.error cause, store) ∧ n' = { n with storage := store }

theorem mirrored_of_saved [LawfulRaftStorage storage]
    {n n' : RaftNode storage random} (h : Saved n n') : Mirrored n' := by
  rcases h with ⟨store, hsave, rfl⟩
  exact LawfulRaftStorage.load_of_save_ok _ _ _ _ hsave

/-!
# Actions
-/

inductive Rejects (n : RaftNode storage random) (sender : NodeId)
    (request : AppendEntriesRequest) : LogIndex -> Option Term -> Prop where
  | unfit (hunfit : request.leaderId ≠ sender ∨ request.term < n.currentTerm ∨
        exists entry, entry ∈ request.entries ∧
          (entry.term = 0 ∨ request.term < entry.term)) :
      Rejects n sender request (n.log.entries.length + 1) none
  | short (hshort : n.log.entries.length < request.previousLogIndex) :
      Rejects n sender request (n.log.entries.length + 1) none
  | mismatch {previous : LogEntry} {start : LogIndex}
      (hprevious : n.log.at? request.previousLogIndex = some previous)
      (hpos : 0 < request.previousLogIndex)
      (hterm : previous.term ≠ request.previousLogTerm)
      (hstart : start <= request.previousLogIndex) :
      Rejects n sender request start (some previous.term)
  | committed {seen rest : List LogEntry} {incoming localEntry : LogEntry}
      (hsplit : request.entries = seen ++ incoming :: rest)
      (hlocal : n.log.entries[request.previousLogIndex + seen.length]? =
        some localEntry)
      (hterm : localEntry.term ≠ incoming.term)
      (hcommit : request.previousLogIndex + seen.length < n.commitIndex) :
      Rejects n sender request (request.previousLogIndex + seen.length + 1)
        (some localEntry.term)

inductive MayEmit (call : Call) (n : RaftNode storage random) :
    NodeId -> Rpc -> Prop where
  | solicit {peer : NodeId} (hpeer : peer ∈ n.config.peers)
      (hstate : n.state = .candidate) :
      MayEmit call n peer (.requestVoteRequest {
        term := n.currentTerm
        candidateId := n.config.nodeId
        lastLogIndex := n.lastLogIndexLocked
        lastLogTerm := n.lastLogTermLocked })
  | deny {sender : NodeId} {request : RequestVoteRequest}
      (hhandles : Handles call n sender (.requestVoteRequest request)) :
      MayEmit call n sender (.requestVoteResponse {
        term := n.currentTerm, voteGranted := false })
  | grant {sender : NodeId} {request : RequestVoteRequest}
      (hhandles : Handles call n sender (.requestVoteRequest request))
      (hcandidate : request.candidateId = sender)
      (hterm : request.term = n.currentTerm)
      (hvote : n.votedFor = some sender)
      (hcurrent : n.candidateLogIsCurrentLocked request = true) :
      MayEmit call n sender (.requestVoteResponse {
        term := n.currentTerm, voteGranted := true })
  | reject {sender : NodeId} {request : AppendEntriesRequest}
      {conflictIndex : LogIndex} {conflictTerm : Option Term}
      (hhandles : Handles call n sender (.appendEntriesRequest request))
      (hrejects : Rejects n sender request conflictIndex conflictTerm) :
      MayEmit call n sender (.appendEntriesResponse {
        term := n.currentTerm
        success := false
        matchIndex := 0
        conflictIndex := conflictIndex
        conflictTerm := conflictTerm
        requestId := request.requestId })
  | acknowledge {sender : NodeId} {request : AppendEntriesRequest}
      (haccepts : Accepts call n sender request)
      (hcontains :
        request.entries <+: n.log.entries.drop request.previousLogIndex) :
      MayEmit call n sender (.appendEntriesResponse {
        term := n.currentTerm
        success := true
        matchIndex := request.previousLogIndex + request.entries.length
        conflictIndex := request.previousLogIndex + request.entries.length + 1
        conflictTerm := none
        requestId := request.requestId })

/-- What lets a node raise its commit index. -/
inductive MayRaise (call : Call) (n : RaftNode storage random)
    (index : LogIndex) : Prop where
  | confirmed (hstate : n.state = .leader)
      (hterm : (n.log.at? index).map LogEntry.term = some n.currentTerm)
      (hquorum :
        n.quorumSizeLocked <= (replicatedOn n index).length + 1)
      (hsaved : (exists before, Saved before n) ∨ exists sender response,
        Confirms call n sender response)
      (hcall : ¬ call.Appends)
  | announced {sender : NodeId} {request : AppendEntriesRequest}
      (haccepts : Accepts call n sender request)
      (hcontains :
        request.entries <+: n.log.entries.drop request.previousLogIndex)
      (hindex : index <= request.leaderCommit)

/-- The actions that leave the persistent state alone. -/
inductive Volatile (call : Call) (n : RaftNode storage random) :
    RaftNode storage random -> Prop where
  | timer (engine : random) (timeout elapsed heartbeat : Int) :
      Volatile call n { n with
        random := engine
        electionTimeout := timeout
        electionElapsed := elapsed
        heartbeatElapsed := heartbeat }
  | follow {sender : NodeId} {request : AppendEntriesRequest}
      (hhandles : Handles call n sender (.appendEntriesRequest request))
      (hleader : request.leaderId = sender)
      (hterm : request.term = n.currentTerm) :
      Volatile call n (n.asFollower (some sender))
  | tally {sender : NodeId} {response : RequestVoteResponse}
      (hhandles : Handles call n sender (.requestVoteResponse response))
      (hstate : n.state = .candidate)
      (hterm : response.term = n.currentTerm)
      (hgranted : response.voteGranted = true) :
      Volatile call n { n with
        votesReceived := insert sender n.votesReceived }
  | emit {peer : NodeId} {rpc : Rpc} (hemit : MayEmit call n peer rpc) :
      Volatile call n (n.emit peer rpc)
  | replicate {peer : NodeId} {previous : LogIndex} {previousTerm : Term}
      {requestId : UInt64} (hstate : n.state = .leader)
      (hpeer : peer ∈ n.config.peers)
      (hprevious : previous <= n.log.entries.length)
      (hterm : (n.log.at? previous).map LogEntry.term = some previousTerm)
      (hcall : ¬ call.Appends) :
      Volatile call n ({ n with
        appendRequestId := n.appendRequestId.assign peer requestId }.emit peer
          (.appendEntriesRequest {
            term := n.currentTerm
            leaderId := n.config.nodeId
            previousLogIndex := previous
            previousLogTerm := previousTerm
            entries := n.log.entries.drop previous
            leaderCommit := n.commitIndex
            requestId := requestId }))
  | record {sender : NodeId} {response : AppendEntriesResponse}
      (hconfirms : Confirms call n sender response) :
      Volatile call n { n with
        matchIndex := n.matchIndex.assign sender
          (max (n.matchIndex.valueAt sender) response.matchIndex)
        nextIndex := n.nextIndex.assign sender
          (max (n.nextIndex.valueAt sender) (response.matchIndex + 1)) }
  | retry {sender : NodeId} {next : LogIndex} (hstate : n.state = .leader)
      (hsender : sender ∈ n.config.peers)
      (hlow : n.matchIndex.valueAt sender < next)
      (hhigh : next <= n.log.entries.length + 1) :
      Volatile call n { n with nextIndex := n.nextIndex.assign sender next }
  | raise {index : LogIndex} (hlow : n.commitIndex <= index)
      (hhigh : index <= n.log.entries.length)
      (hmay : MayRaise call n index) :
      Volatile call n (n.raiseCommit index)

/-- The changes of the persistent state that a save follows. -/
inductive Durable (call : Call) (n : RaftNode storage random) :
    RaftNode storage random -> Prop where
  | adopt {message : Message} (hinbox : call.inbox = some message)
      (hterm : n.currentTerm < messageTerm message) :
      Durable call n { n.asFollower none with
        currentTerm := messageTerm message
        votedFor := none }
  | campaign (hinbox : call.inbox = none) (hproposal : call.proposal = none)
      (hterm : n.currentTerm = call.term) (hstate : n.state ≠ .leader) :
      Durable call n { n with
        state := .candidate
        leaderId := none
        currentTerm := n.currentTerm + 1
        votedFor := some n.config.nodeId
        votesReceived := {n.config.nodeId} }
  | elect (hstate : n.state = .candidate)
      (hquorum : n.quorumSizeLocked <= n.votesReceived.card)
      (hcall : ¬ call.Appends) (hproposal : call.proposal = none)
      (hinbox : forall message, call.inbox = some message ->
        messageTerm message = n.currentTerm) : Durable call n n.asLeader
  | vote {sender : NodeId} {request : RequestVoteRequest}
      (hhandles : Handles call n sender (.requestVoteRequest request))
      (hcandidate : request.candidateId = sender)
      (hterm : request.term = n.currentTerm) (hnone : n.votedFor = none)
      (hcurrent : n.candidateLogIsCurrentLocked request = true) :
      Durable call n { n with votedFor := some sender }
  | rewrite {sender : NodeId} {request : AppendEntriesRequest}
      (haccepts : Accepts call n sender request)
      (hnew :
        ¬ request.entries <+: n.log.entries.drop request.previousLogIndex)
      (hkept : n.log.entries.take n.commitIndex <+:
        n.log.entries.take request.previousLogIndex ++ request.entries) :
      Durable call n { n with
        log := { entries :=
          n.log.entries.take request.previousLogIndex ++ request.entries } }
  | propose {command : Command} (hinbox : call.inbox = none)
      (hproposal : call.proposal = some command) (hstate : n.state = .leader) :
      Durable call n { n with
        log := n.log.pushBack
          { term := n.currentTerm, command := command, isNoOp := false } }

/-- A call saves what it changes before it sends anything. -/
inductive Action (call : Call) (n n' : RaftNode storage random) : Prop where
  | volatile (hvolatile : Volatile call n n')
  | durable {middle : RaftNode storage random}
      (hquiet : n.outbox = call.outbox) (hdurable : Durable call n middle)
      (hsaved : Saved middle n')

/-- A change whose save throws. -/
def Interrupted (call : Call) (n n' : RaftNode storage random) : Prop :=
  n.outbox = call.outbox ∧
    exists middle, Durable call n middle ∧ SaveFailed middle n'

def Path (call : Call) :
    RaftNode storage random -> RaftNode storage random -> Prop :=
  Relation.ReflTransGen (Action call)

/-!
# Explained outcomes
-/

inductive Refusal (call : Call) (n : RaftNode storage random) :
    Fault -> Prop where
  | argument {message : String} : Refusal call n (.invalidArgument message)
  | overflow (hsize : n.log.size = 2 ^ 64 - 1) :
      Refusal call n (.raftError "Raft log index overflow")
  | mismatch {sender : NodeId} {request : AppendEntriesRequest} {offset : Nat}
      {localEntry incoming : LogEntry}
      (haccepts : Accepts call n sender request)
      (hlocal : n.log.entries[request.previousLogIndex + offset]? =
        some localEntry)
      (hincoming : request.entries[offset]? = some incoming)
      (hterm : localEntry.term = incoming.term)
      (hne : localEntry ≠ incoming) :
      Refusal call n (.raftError "log matching invariant violated")

/-- The outcome of an operation is that of a path of actions. -/
inductive Explained {result : Type} (call : Call)
    (n : RaftNode storage random) :
    Except Fault result -> RaftNode storage random -> Prop where
  | returns {value : result} {n' : RaftNode storage random}
      (hpath : Path call n n') : Explained call n (.ok value) n'
  | interrupted {cause : StorageFault} {middle n' : RaftNode storage random}
      (hpath : Path call n middle) (hinterrupted : Interrupted call middle n') :
      Explained call n (.error (.storage cause)) n'
  | refused {fault : Fault} {n' : RaftNode storage random}
      (hpath : Path call n n') (hrefusal : Refusal call n' fault) :
      Explained call n (.error fault) n'

theorem path_refl {call : Call} (n : RaftNode storage random) : Path call n n :=
  Relation.ReflTransGen.refl

theorem path_trans {call : Call} {n n' n'' : RaftNode storage random}
    (h : Path call n n') (h' : Path call n' n'') : Path call n n'' :=
  Relation.ReflTransGen.trans h h'

theorem path_volatile {call : Call} {n n' n'' : RaftNode storage random}
    (h : Path call n n') (hvolatile : Volatile call n' n'') : Path call n n'' :=
  Relation.ReflTransGen.tail h (.volatile hvolatile)

theorem path_durable {call : Call} {n n' middle n'' : RaftNode storage random}
    (h : Path call n n') (hquiet : n'.outbox = call.outbox)
    (hdurable : Durable call n' middle) (hsaved : Saved middle n'') :
    Path call n n'' :=
  Relation.ReflTransGen.tail h (.durable hquiet hdurable hsaved)

theorem explained_of_path {result : Type} {call : Call}
    {n n' n'' : RaftNode storage random} {r : Except Fault result}
    (h : Path call n n') (hexplained : Explained call n' r n'') :
    Explained call n r n'' := by
  cases hexplained with
  | returns hpath => exact .returns (path_trans h hpath)
  | interrupted hpath hinterrupted =>
      exact .interrupted (path_trans h hpath) hinterrupted
  | refused hpath hrefusal => exact .refused (path_trans h hpath) hrefusal

end Storage

end Raft
end FTKV
