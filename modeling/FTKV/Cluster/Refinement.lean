import FTKV.Cluster.Model
import FTKV.Consensus.Commitment
import FTKV.Raft.Durability

/-!
# Nodes refine replicas

A node refines a replica of the abstract protocol: each of its actions is a
sequence of abstract actions, and every message it sends is backed by a packet.
-/

namespace FTKV
namespace Raft

open Foundation
open Consensus

instance : Stamped LogEntry Term where
  stamp := LogEntry.term

abbrev RaftWorld := World NodeId Term LogEntry

/-!
# The abstract view of a node
-/

def roleOf : NodeState -> Role
  | .follower => .follower
  | .candidate => .candidate
  | .leader => .leader

variable {storage random : Type}

def replicaOf (n : RaftNode storage random) : Replica NodeId Term LogEntry where
  current := n.currentTerm
  vote := n.votedFor
  log := n.log.entries
  role := roleOf n.state
  commit := n.commitIndex

/-- A packet stands behind what the message says. -/
def Backed (w : RaftWorld) (message : Message) : Prop :=
  match message.rpc with
  | .requestVoteRequest request =>
      .solicitation request.term request.candidateId request.lastLogIndex
        request.lastLogTerm ∈ w.sent
  | .requestVoteResponse response => response.voteGranted = true ->
      .ballot response.term message.fromNode message.toNode ∈ w.sent
  | .appendEntriesRequest request => message.fromNode ≠ message.toNode ∧
      request.leaderId = message.fromNode ∧
      .entries request.term request.leaderId request.previousLogIndex
        request.previousLogTerm request.entries request.leaderCommit ∈ w.sent
  | .appendEntriesResponse response => response.success = true ->
      .receipt response.term message.fromNode response.matchIndex ∈ w.sent

theorem backed_mono {w w' : RaftWorld} {message : Message}
    (hsent : w.sent ⊆ w'.sent) (h : Backed w message) : Backed w' message := by
  unfold Backed at h ⊢
  split
  · rename_i request hrpc
    simp only [hrpc] at h
    exact hsent h
  · rename_i response hrpc
    simp only [hrpc] at h
    exact fun hgranted => hsent (h hgranted)
  · rename_i request hrpc
    simp only [hrpc] at h
    exact ⟨h.left, h.right.left, hsent h.right.right⟩
  · rename_i response hrpc
    simp only [hrpc] at h
    exact fun hsuccess => hsent (h hsuccess)

theorem backed_appendEntriesRequest {w : RaftWorld} {message : Message}
    {request : AppendEntriesRequest} (h : Backed w message)
    (hrpc : message.rpc = .appendEntriesRequest request) :
    message.fromNode ≠ message.toNode ∧ request.leaderId = message.fromNode ∧
      .entries request.term request.leaderId request.previousLogIndex
        request.previousLogTerm request.entries request.leaderCommit ∈ w.sent := by
  unfold Backed at h
  rw [hrpc] at h
  exact h

theorem backed_appendEntriesResponse {w : RaftWorld} {message : Message}
    {response : AppendEntriesResponse} (h : Backed w message)
    (hrpc : message.rpc = .appendEntriesResponse response)
    (hsuccess : response.success = true) :
    .receipt response.term message.fromNode response.matchIndex ∈ w.sent := by
  unfold Backed at h
  rw [hrpc] at h
  exact h hsuccess

/-!
# Terms of log positions
-/

theorem stampAt_eq {log : Log} {index : LogIndex} {term : Term}
    (h : (log.at? index).map LogEntry.term = some term) :
    stampAt log.entries index = term := by
  cases index with
  | zero =>
      cases h
      rfl
  | succ index =>
      rw [Log.at?_succ] at h
      change (log.entries[index]?.map LogEntry.term).getD ⊥ = term
      rw [h]
      rfl

theorem lastStamp_eq (n : RaftNode storage random) :
    lastStamp n.log.entries = n.lastLogTermLocked := by
  unfold lastStamp RaftNode.lastLogTermLocked Log.back
  rw [List.getLast?_eq_getElem?]
  cases hlength : n.log.entries.length with
  | zero =>
      rw [List.length_eq_zero_iff.mp hlength]
      rfl
  | succ k =>
      have hlt : k < n.log.entries.length := by
        lia
      rw [Nat.add_sub_cancel, stampAt_succ (List.getElem?_eq_getElem hlt),
        List.getElem?_eq_getElem hlt]
      rfl

theorem upToDate_of_current {n : RaftNode storage random}
    {request : RequestVoteRequest}
    (h : n.candidateLogIsCurrentLocked request = true) :
    UpToDate request.lastLogIndex request.lastLogTerm n.log.entries := by
  unfold RaftNode.candidateLogIsCurrentLocked at h
  unfold UpToDate
  rw [lastStamp_eq]
  simpa using h

/-!
# The refinement relation
-/

def Acts (membership : Membership) (id : NodeId) : RaftWorld -> RaftWorld -> Prop :=
  Relation.ReflTransGen (Act (majority membership.members) id)

section Storage

variable [RaftStorage storage]

/-- The node is member `id` and its replica and packets tell the same story. -/
structure Represents (membership : Membership) (id : NodeId)
    (n : RaftNode storage random) (w : RaftWorld) : Prop where
  config : n.config = membership.config id
  well : WellFormed n
  mirrored : Mirrored n
  replica : w.replica id = replicaOf n
  votes : n.state = .candidate -> forall voter, voter ∈ n.votesReceived ->
    voter = id ∨ .ballot n.currentTerm voter id ∈ w.sent
  matched : n.state = .leader -> forall peer, peer ∈ n.config.peers ->
    forall reached, n.matchIndex peer = some reached ->
      reached = 0 ∨ .receipt n.currentTerm peer reached ∈ w.sent
  outbox : forall message, message ∈ n.outbox -> Backed w message

variable {membership : Membership} {id : NodeId}
  {n n' : RaftNode storage random} {w w' : RaftWorld} {call : Call}

theorem Represents.nodeId_eq (h : Represents membership id n w)
    (hid : id ∈ membership.members) : n.config.nodeId = id := by
  rw [h.config]
  exact membership.nodeId_eq id hid

theorem Represents.members_eq (h : Represents membership id n w)
    (hid : id ∈ membership.members) : n.members = membership.members := by
  rw [h.well.members, h.nodeId_eq hid, h.config]
  exact membership.peers_eq id hid

theorem Represents.role_eq (h : Represents membership id n w)
    {state : NodeState} (hstate : n.state = state) :
    (w.replica id).role = roleOf state := by
  rw [h.replica, ← hstate]
  rfl

theorem Represents.mem_peers {peer : NodeId} (h : Represents membership id n w)
    (hid : id ∈ membership.members) (hpeer : peer ∈ membership.members)
    (hne : peer ≠ id) : peer ∈ n.config.peers := by
  have hmem := membership.peers_eq id hid ▸ hpeer
  rw [h.config]
  exact List.mem_toFinset.mp (Finset.mem_of_mem_insert_of_ne hmem hne)

theorem Represents.step (h : Represents membership id n w)
    (hwell : WellFormed n') (hconfig : n'.config = n.config)
    (hmirrored : Mirrored n') (hsent : w.sent ⊆ w'.sent)
    (hreplica : w'.replica id = replicaOf n')
    (hvotes : n'.state = .candidate -> forall voter,
      voter ∈ n'.votesReceived -> voter = id ∨
        (n.state = .candidate ∧ n'.currentTerm = n.currentTerm ∧
          voter ∈ n.votesReceived) ∨
        .ballot n'.currentTerm voter id ∈ w'.sent)
    (hmatched : n'.state = .leader -> forall peer, peer ∈ n.config.peers ->
      forall reached, n'.matchIndex peer = some reached -> reached = 0 ∨
        (n.state = .leader ∧ n'.currentTerm = n.currentTerm ∧
          n.matchIndex peer = some reached) ∨
        .receipt n'.currentTerm peer reached ∈ w'.sent)
    (houtbox : forall message, message ∈ n'.outbox ->
      message ∈ n.outbox ∨ Backed w' message) :
    Represents membership id n' w' := by
  refine ⟨hconfig.trans h.config, hwell, hmirrored, hreplica, ?_, ?_, ?_⟩
  · intro hstate voter hvoter
    rcases hvotes hstate voter hvoter with hself | hold | hnew
    · exact Or.inl hself
    · rcases hold with ⟨hcandidate, hterm, hmem⟩
      rw [hterm]
      rcases h.votes hcandidate voter hmem with hself | hballot
      · exact Or.inl hself
      · exact Or.inr (hsent hballot)
    · exact Or.inr hnew
  · intro hstate peer hpeer reached hreached
    rw [hconfig] at hpeer
    rcases hmatched hstate peer hpeer reached hreached with hzero | hold | hnew
    · exact Or.inl hzero
    · rcases hold with ⟨hleader, hterm, hsame⟩
      rw [hterm]
      rcases h.matched hleader peer hpeer reached hsame with hzero | hreceipt
      · exact Or.inl hzero
      · exact Or.inr (hsent hreceipt)
    · exact Or.inr hnew
  · intro message hmessage
    rcases houtbox message hmessage with hold | hnew
    · exact backed_mono hsent (h.outbox message hold)
    · exact hnew

theorem Represents.step_of_same (h : Represents membership id n w)
    (hwell : WellFormed n') (hconfig : n'.config = n.config)
    (hmirrored : Mirrored n') (hsent : w.sent ⊆ w'.sent)
    (hreplica : w'.replica id = replicaOf n') (hstate : n'.state = n.state)
    (hterm : n'.currentTerm = n.currentTerm)
    (hvotes : n'.votesReceived = n.votesReceived)
    (hmatched : n'.matchIndex = n.matchIndex)
    (houtbox : forall message, message ∈ n'.outbox ->
      message ∈ n.outbox ∨ Backed w' message) :
    Represents membership id n' w' := by
  refine h.step hwell hconfig hmirrored hsent hreplica ?_ ?_ houtbox
  · intro hcandidate voter hvoter
    rw [hstate] at hcandidate
    rw [hvotes] at hvoter
    exact Or.inr (Or.inl ⟨hcandidate, hterm, hvoter⟩)
  · intro hleader peer _ reached hreached
    rw [hstate] at hleader
    rw [hmatched] at hreached
    exact Or.inr (Or.inl ⟨hleader, hterm, hreached⟩)

/-!
# The invariants at a node
-/

section Invariants

variable (h : Represents membership id n w)
  (hinv : Inv (majority membership.members) w)

include h hinv

theorem Represents.leader (hleads : n.state = .leader) :
    w.winner n.currentTerm = some id ∧ w.lead n.currentTerm = n.log.entries := by
  have hleader := hinv.reigns.leader id (h.role_eq hleads)
  rw [h.replica] at hleader
  exact hleader

theorem Represents.rooted : Rooted w n.log.entries := by
  have hrooted := hinv.logs.logs id
  rw [h.replica] at hrooted
  exact hrooted

theorem Represents.term_le {entry : LogEntry} (hentry : entry ∈ n.log.entries) :
    entry.term <= n.currentTerm := by
  have hstamps := hinv.logs.stamps id
  rw [h.replica] at hstamps
  exact hstamps entry hentry

theorem Represents.settled :
    Settled (majority membership.members) w n.currentTerm n.log.entries
      n.commitIndex := by
  have hsettled := hinv.commits.settled id
  rw [h.replica] at hsettled
  exact hsettled

theorem Represents.take_lead_isPrefix {term : Term} {reached : LogIndex}
    (hreceipt : .receipt term id reached ∈ w.sent) (hterm : n.currentTerm <= term) :
    (w.lead term).take reached <+: n.log.entries := by
  have hkept := hinv.receipts.kept _ _ _ (hinv.receipts.sent _ _ _ hreceipt)
  rw [h.replica] at hkept
  rcases hkept with hkept | ⟨u, hlow, hhigh, -⟩
  · exact hkept
  · exact absurd (le_trans hhigh hterm) (not_le_of_gt hlow)

end Invariants

end Storage

end Raft
end FTKV
