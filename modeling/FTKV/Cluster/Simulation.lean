import FTKV.Cluster.Refinement

/-!
# Simulation of the node's actions

Each action of a node is matched by abstract actions of its replica.  The
messages that it handles must be backed by packets; the messages that it sends
then are.
-/

namespace FTKV
namespace Raft

open Foundation
open Consensus

variable {storage random : Type} [RaftStorage storage]
  {membership : Membership} {id : NodeId} {n n' : RaftNode storage random}
  {w w' : RaftWorld} {call : Call}

/-!
# The premises of abstract actions
-/

theorem connects_of_accepts {sender : NodeId} {request : AppendEntriesRequest}
    (h : Represents membership id n w)
    (hinbox : forall message, call.inbox = some message -> Backed w message)
    (haccepts : Accepts call n sender request) :
    Connects w id request.leaderId request.previousLogIndex
      request.previousLogTerm request.entries request.leaderCommit := by
  have hpacket := (hinbox _ haccepts.handles.left).right.right
  unfold Connects
  rw [h.replica]
  change _ ∧ request.previousLogIndex <= n.log.entries.length ∧
    (_ ∨ stampAt n.log.entries request.previousLogIndex = _)
  refine ⟨?_, haccepts.previous_le, ?_⟩
  · change Packet.entries n.currentTerm _ _ _ _ _ ∈ w.sent
    rw [← haccepts.current]
    exact hpacket
  · rcases haccepts.previous_eq with hzero | hmatch
    · exact Or.inl hzero
    · exact Or.inr (stampAt_eq hmatch)

theorem mayCommit_of_confirmed {index : LogIndex}
    (hid : id ∈ membership.members) (h : Represents membership id n w)
    (hpos : 0 < index) (hstate : n.state = .leader)
    (hterm : (n.log.at? index).map LogEntry.term = some n.currentTerm)
    (hquorum : n.quorumSizeLocked <= (replicatedOn n index).length + 1) :
    MayCommit (majority membership.members) w id index := by
  have hself : id ∉ (replicatedOn n index).toFinset := by
    intro hmem
    have hpeer := (List.mem_filter.mp (List.mem_toFinset.mp hmem)).left
    rw [← h.nodeId_eq hid] at hpeer
    exact h.well.self hpeer
  have hcard : (insert id (replicatedOn n index).toFinset).card =
      (replicatedOn n index).length + 1 := by
    have hnodup : (replicatedOn n index).Nodup := h.well.unique.filter _
    rw [Finset.card_insert_of_notMem hself, List.toFinset_card_of_nodup hnodup]
  refine .leader (Q := insert id (replicatedOn n index).toFinset)
    (h.role_eq hstate) ?_ ⟨?_, ?_⟩ ?_
  · rw [h.replica]
    exact stampAt_eq hterm
  · intro voter hvoter
    rcases Finset.mem_insert.mp hvoter with heq | hmem
    · rw [heq]
      exact hid
    · rw [← h.members_eq hid]
      exact mem_members_of_peer h.well
        (List.mem_filter.mp (List.mem_toFinset.mp hmem)).left
  · rw [hcard, ← h.members_eq hid]
    exact hquorum
  · intro voter hvoter
    rcases Finset.mem_insert.mp hvoter with heq | hmem
    · exact Or.inl heq
    · rcases List.mem_filter.mp (List.mem_toFinset.mp hmem) with
        ⟨hpeer, hreached⟩
      rcases h.well.tracked hstate voter hpeer with
        ⟨_, reached, _, _, hmatch, _⟩
      have hle : index <= reached := by
        simpa [NodeMap.valueAt, hmatch] using hreached
      rcases h.matched hstate voter hpeer reached hmatch with hzero | hreceipt
      · lia
      · refine Or.inr ⟨reached, hle, ?_⟩
        rw [h.replica]
        exact hreceipt

/-!
# Sending
-/

theorem simulate_emit {peer : NodeId} {rpc : Rpc} {requests : NodeMap UInt64}
    (h : Represents membership id n w)
    (hwell : WellFormed ({ n with appendRequestId := requests }.emit peer rpc))
    (hsent : w.sent ⊆ w'.sent) (hreplica : w'.replica id = w.replica id)
    (hbacked : Backed w' ⟨n.config.nodeId, peer, rpc⟩) :
    Represents membership id
      ({ n with appendRequestId := requests }.emit peer rpc) w' := by
  refine h.step_of_same hwell rfl h.mirrored hsent (hreplica.trans h.replica) rfl
    rfl rfl rfl ?_
  intro message hmessage
  rcases List.mem_append.mp hmessage with hold | hnew
  · exact Or.inl hold
  · rw [List.mem_singleton.mp hnew]
    exact Or.inr hbacked

theorem simulate_confirm {sender : NodeId} {request : AppendEntriesRequest}
    (h : Represents membership id n w)
    (hinbox : forall message, call.inbox = some message -> Backed w message)
    (haccepts : Accepts call n sender request)
    (hcontains :
      request.entries <+: n.log.entries.drop request.previousLogIndex) :
    exists w', Acts membership id w w' ∧ Represents membership id n w' ∧
      request.previousLogIndex + request.entries.length <=
        w'.receipts id (w'.replica id).current := by
  have hrole : (w.replica id).role = .follower := h.role_eq haccepts.follows
  have haccept : Act (majority membership.members) id w _ :=
    .accept hrole (connects_of_accepts h hinbox haccepts)
  have hsame : splice (w.replica id).log request.previousLogIndex
      request.entries = (w.replica id).log := by
    rw [h.replica]
    exact if_pos hcontains
  rw [hsame] at haccept
  refine ⟨_, .single haccept, ?_, by simp⟩
  refine h.step_of_same h.well rfl h.mirrored (fun _ hp => hp) ?_ rfl rfl rfl rfl
    (fun _ hmessage => Or.inl hmessage)
  simpa using h.replica

theorem simulate_mayEmit {peer : NodeId} {rpc : Rpc}
    (hid : id ∈ membership.members) (h : Represents membership id n w)
    (hwell : WellFormed (n.emit peer rpc))
    (hinbox : forall message, call.inbox = some message -> Backed w message)
    (hemit : MayEmit call n peer rpc) :
    exists w', Acts membership id w w' ∧
      Represents membership id (n.emit peer rpc) w' := by
  have hself := h.nodeId_eq hid
  cases hemit with
  | solicit hpeer hstate =>
      have hrole : (w.replica id).role = .candidate := h.role_eq hstate
      have hsend := MaySend.solicitation hrole
      refine ⟨_, .single (.send hsend), simulate_emit h hwell
        (Set.subset_insert _ _) rfl (Or.inl ?_)⟩
      rw [h.replica, hself, ← lastStamp_eq]
      rfl
  | deny hhandles =>
      exact ⟨w, .refl, simulate_emit h hwell (fun _ hp => hp) rfl
        (fun hgranted => absurd hgranted Bool.false_ne_true)⟩
  | grant hhandles hcandidate hterm hvote =>
      have hsend := MaySend.ballot (w := w) (i := id) (c := peer) (by
        rw [h.replica]
        exact hvote)
      refine ⟨_, .single (.send hsend), simulate_emit h hwell
        (Set.subset_insert _ _) rfl (fun _ => Or.inl ?_)⟩
      rw [h.replica, hself]
      rfl
  | reject hhandles =>
      exact ⟨w, .refl, simulate_emit h hwell (fun _ hp => hp) rfl
        (fun hsuccess => absurd hsuccess Bool.false_ne_true)⟩
  | acknowledge haccepts hcontains =>
      rcases simulate_confirm h hinbox haccepts hcontains with
        ⟨w', hacts, h', hreceipts⟩
      have hsend := MaySend.receipt hreceipts
      refine ⟨_, hacts.tail (.send hsend), simulate_emit h' hwell
        (Set.subset_insert _ _) rfl (fun _ => Or.inl ?_)⟩
      rw [h'.replica, hself]
      rfl

/-!
# Volatile actions
-/

theorem matched_of_record {sender peer : NodeId}
    {response : AppendEntriesResponse} {reached : LogIndex}
    (h : Represents membership id n w)
    (hinbox : forall message, call.inbox = some message -> Backed w message)
    (hconfirms : Confirms call n sender response)
    (hpeer : peer ∈ n.config.peers)
    (hreached : n.matchIndex.assign sender
      (max (n.matchIndex.valueAt sender) response.matchIndex) peer =
        some reached) :
    n.matchIndex peer = some reached ∨
      .receipt n.currentTerm peer reached ∈ w.sent := by
  rcases hconfirms with ⟨hhandles, hstate, hterm, hsuccess, _⟩
  by_cases heq : peer = sender
  · subst heq
    rcases h.well.tracked hstate peer hpeer with ⟨_, before, _, _, hmatch, _⟩
    rw [NodeMap.assign_self, NodeMap.valueAt, hmatch] at hreached
    cases hreached
    rcases le_total response.matchIndex before with hle | hle
    · left
      rw [hmatch]
      exact congrArg some (max_eq_left hle).symm
    · right
      change Packet.receipt _ _ (max before response.matchIndex) ∈ _
      rw [max_eq_right hle, ← hterm]
      exact hinbox _ hhandles.left hsuccess
  · left
    rwa [NodeMap.assign_of_ne _ _ heq] at hreached

theorem simulate_raise {index : LogIndex} (hid : id ∈ membership.members)
    (h : Represents membership id n w) (hwell : WellFormed (n.raiseCommit index))
    (hinbox : forall message, call.inbox = some message -> Backed w message)
    (hlow : n.commitIndex <= index) (hhigh : index <= n.log.entries.length)
    (hmay : MayRaise call n index) :
    exists w', Acts membership id w w' ∧
      Represents membership id (n.raiseCommit index) w' := by
  rcases Nat.eq_zero_or_pos index with hzero | hpos
  · have hcommit : n.commitIndex = index := by
      lia
    refine ⟨w, .refl, h.step_of_same hwell rfl h.mirrored (fun _ hp => hp) ?_ rfl
      rfl rfl rfl (fun _ hmessage => Or.inl hmessage)⟩
    rw [h.replica, replicaOf, hcommit]
    rfl
  have hmay' : MayCommit (majority membership.members) w id index := by
    cases hmay with
    | confirmed hstate hterm hquorum hsaved hcall =>
        exact mayCommit_of_confirmed hid h hpos hstate hterm hquorum
    | announced haccepts hcontains hindex =>
        refine .follower (connects_of_accepts h hinbox haccepts) ?_ hindex
        rw [h.replica]
        exact hcontains
  refine ⟨_, .single (.commit (k := index) ?_ ?_ hmay'), ?_⟩
  · rw [h.replica]
    exact hlow
  · rw [h.replica]
    exact hhigh
  · refine h.step_of_same hwell rfl h.mirrored (fun _ hp => hp) ?_ rfl rfl rfl rfl
      (fun _ hmessage => Or.inl hmessage)
    rw [World.put_replica, if_pos rfl, h.replica]
    rfl

theorem maySend_entries {previous : LogIndex} {previousTerm : Term}
    (h : Represents membership id n w) (hstate : n.state = .leader)
    (hprevious : previous <= n.log.entries.length)
    (hterm : (n.log.at? previous).map LogEntry.term = some previousTerm) :
    MaySend w id (.entries n.currentTerm id previous previousTerm
      (n.log.entries.drop previous) n.commitIndex) := by
  have hrole : (w.replica id).role = .leader := h.role_eq hstate
  have hle : previous <= (w.replica id).log.length := by
    rw [h.replica]
    exact hprevious
  have hsend := MaySend.entries hrole hle
  rw [h.replica] at hsend
  rw [← stampAt_eq hterm]
  exact hsend

theorem simulate_volatile (hid : id ∈ membership.members)
    (h : Represents membership id n w)
    (hinbox : forall message, call.inbox = some message -> Backed w message)
    (hvolatile : Volatile call n n') :
    exists w', Acts membership id w w' ∧ Represents membership id n' w' := by
  have hwell := wellFormed_volatile h.well hvolatile
  have hself := h.nodeId_eq hid
  cases hvolatile with
  | timer | retry =>
      exact ⟨w, .refl, h.step_of_same hwell rfl h.mirrored (fun _ hp => hp)
        h.replica rfl rfl rfl rfl (fun _ hmessage => Or.inl hmessage)⟩
  | follow hhandles hleader hterm =>
      refine ⟨_, .single (.retire (le_refl _) (le_refl _)), ?_⟩
      refine h.step hwell rfl h.mirrored (fun _ hp => hp) ?_ ?_ ?_
        (fun _ hmessage => Or.inl hmessage)
      · rw [World.put_replica, if_pos rfl, if_pos rfl, h.replica]
        rfl
      · exact fun hstate => nomatch hstate
      · exact fun hstate => nomatch hstate
  | tally hhandles hstate hterm hgranted =>
      refine ⟨w, .refl, h.step hwell rfl h.mirrored (fun _ hp => hp) h.replica ?_
        ?_ (fun _ hmessage => Or.inl hmessage)⟩
      · intro _ voter hvoter
        rcases Finset.mem_insert.mp hvoter with heq | hold
        · have hballot := hinbox _ hhandles.left hgranted
          rw [hterm, hself, ← heq] at hballot
          exact Or.inr (Or.inr hballot)
        · exact Or.inr (Or.inl ⟨hstate, rfl, hold⟩)
      · intro hleader
        exact absurd (hstate.symm.trans hleader) (by decide)
  | emit hemit => exact simulate_mayEmit hid h hwell hinbox hemit
  | replicate hstate hpeer hprevious hterm hcall =>
      have hsend := maySend_entries h hstate hprevious hterm
      refine ⟨_, .single (.send hsend), simulate_emit h hwell
        (Set.subset_insert _ _) rfl ⟨?_, rfl, Or.inl ?_⟩⟩
      · exact (ne_of_mem_of_not_mem hpeer h.well.self).symm
      · rw [hself]
  | record hconfirms =>
      refine ⟨w, .refl, h.step hwell rfl h.mirrored (fun _ hp => hp) h.replica ?_
        ?_ (fun _ hmessage => Or.inl hmessage)⟩
      · exact fun hstate voter hvoter => Or.inr (Or.inl ⟨hstate, rfl, hvoter⟩)
      · intro hstate peer hpeer reached hreached
        rcases matched_of_record h hinbox hconfirms hpeer hreached with
          hold | hnew
        · exact Or.inr (Or.inl ⟨hstate, rfl, hold⟩)
        · exact Or.inr (Or.inr hnew)
  | raise hlow hhigh hmay =>
      exact simulate_raise hid h hwell hinbox hlow hhigh hmay

/-!
# Durable actions
-/

theorem simulate_elect (hid : id ∈ membership.members)
    (h : Represents membership id n w) (hstate : n.state = .candidate)
    (hquorum : n.quorumSizeLocked <= n.votesReceived.card) :
    exists w', Acts membership id w w' ∧ w.sent ⊆ w'.sent ∧
      w'.replica id = replicaOf n.asLeader := by
  have hrole : (w.replica id).role = .candidate := h.role_eq hstate
  have hmajority :
      (majority membership.members).IsQuorum n.votesReceived := by
    rw [← h.members_eq hid]
    exact ⟨h.well.votes, hquorum⟩
  have hballots : forall voter, voter ∈ n.votesReceived -> voter = id ∨
      .ballot (w.replica id).current voter id ∈ w.sent := by
    rw [h.replica]
    exact h.votes hstate
  have hwin := Act.win hrole hmajority hballots
  refine ⟨_, .tail (.single hwin) (.extend
    (e := { term := n.currentTerm, command := [], isNoOp := true }) ?_ ?_),
    fun _ hp => hp, ?_⟩
  · simp only [World.crown_replica, World.put_replica, if_true]
  · simp only [World.crown_replica, World.put_replica, if_true, h.replica]
    rfl
  · simp only [World.confirm_replica, World.lengthen_replica,
      World.crown_replica, World.put_replica, if_true, h.replica]
    rfl

/-- Every change of the persistent state is an abstract action. -/
theorem simulate_durable (hid : id ∈ membership.members)
    (h : Represents membership id n w)
    (hinbox : forall message, call.inbox = some message -> Backed w message)
    (hbound : call.term ≠ 18446744073709551615)
    (hdurable : Durable call n n') :
    exists w', Acts membership id w w' ∧ w.sent ⊆ w'.sent ∧
      w'.replica id = replicaOf n' := by
  have hself := h.nodeId_eq hid
  cases hdurable with
  | @adopt message hin hterm =>
      have hle : (w.replica id).current <= messageTerm message := by
        rw [h.replica]
        exact hterm.le
      refine ⟨_, .single (.retire hle (le_refl _)), fun _ hp => hp, ?_⟩
      rw [World.put_replica, if_pos rfl, h.replica]
      have hne : messageTerm message ≠ (replicaOf n).current := hterm.ne'
      rw [if_neg hne]
      rfl
  | campaign hin hproposal hterm hstate =>
      have hlt : (w.replica id).current < n.currentTerm + 1 := by
        rw [h.replica]
        rw [← hterm] at hbound
        exact term_lt_succ hbound
      refine ⟨_, .single (.campaign hlt), fun _ hp => hp, ?_⟩
      rw [World.recordBallot_replica, World.put_replica, if_pos rfl, h.replica,
        ← hself]
      rfl
  | elect hstate hquorum hcall hproposal hin => exact simulate_elect hid h hstate hquorum
  | @vote sender request hhandles hcandidate hterm hnone hcurrent =>
      have hsolicited : .solicitation (w.replica id).current sender
          request.lastLogIndex request.lastLogTerm ∈ w.sent := by
        rw [h.replica]
        have hbacked := hinbox _ hhandles.left
        change Packet.solicitation _ _ _ _ ∈ w.sent at hbacked
        rwa [hcandidate, hterm] at hbacked
      have hvote : (w.replica id).vote = none := by
        rw [h.replica]
        exact hnone
      have hupToDate : UpToDate request.lastLogIndex request.lastLogTerm
          (w.replica id).log := by
        rw [h.replica]
        exact upToDate_of_current hcurrent
      refine ⟨_, .single (.grant hsolicited hvote hupToDate), fun _ hp => hp, ?_⟩
      rw [World.recordBallot_replica, World.put_replica, if_pos rfl, h.replica]
      rfl
  | rewrite haccepts hnew hkept =>
      have hrole : (w.replica id).role = .follower := h.role_eq haccepts.follows
      have hconnects := connects_of_accepts h hinbox haccepts
      have hsplice : splice (replicaOf n).log _ _ = _ ++ _ := if_neg hnew
      refine ⟨_, .single (.accept hrole hconnects), fun _ hp => hp, ?_⟩
      rw [World.confirm_replica, World.put_replica, if_pos rfl, h.replica,
        hsplice]
      rfl
  | @propose command hin hproposal hstate =>
      have hrole : (w.replica id).role = .leader := h.role_eq hstate
      have hstamp : stamp (⟨n.currentTerm, command, false⟩ : LogEntry) =
          (w.replica id).current := by
        rw [h.replica]
        rfl
      refine ⟨_, .single (.extend hrole hstamp), fun _ hp => hp, ?_⟩
      rw [World.confirm_replica, World.lengthen_replica, World.put_replica,
        if_pos rfl, h.replica]
      rfl

theorem represents_saved {middle : RaftNode storage random}
    [LawfulRaftStorage storage] (hid : id ∈ membership.members)
    (h : Represents membership id n w) (hdurable : Durable call n middle)
    (hsaved : Saved middle n') (hsent : w.sent ⊆ w'.sent)
    (hreplica : w'.replica id = replicaOf middle) :
    Represents membership id n' w' := by
  have hself := h.nodeId_eq hid
  have hwell := wellFormed_saved (wellFormed_durable h.well hdurable) hsaved
  have hmirrored := mirrored_of_saved hsaved
  rcases hsaved with ⟨store, _, rfl⟩
  cases hdurable with
  | adopt hin hterm =>
      exact h.step hwell rfl hmirrored hsent hreplica
        (fun hstate => nomatch hstate) (fun hstate => nomatch hstate)
        (fun _ hmessage => Or.inl hmessage)
  | campaign hin hproposal hterm hstate =>
      refine h.step hwell rfl hmirrored hsent hreplica ?_
        (fun hleader => nomatch hleader) (fun _ hmessage => Or.inl hmessage)
      intro _ voter hvoter
      exact Or.inl ((Finset.mem_singleton.mp hvoter).trans hself)
  | elect hstate hquorum hcall hproposal hin =>
      refine h.step hwell rfl hmirrored hsent hreplica
        (fun hcandidate => nomatch hcandidate) ?_
        (fun _ hmessage => Or.inl hmessage)
      intro _ peer hpeer reached hreached
      change n.matchIndex.assignAll n.config.peers 0 peer = _ at hreached
      rw [NodeMap.assignAll_eq, if_pos hpeer] at hreached
      exact Or.inl (Option.some.inj hreached).symm
  | vote | rewrite | propose =>
      exact h.step_of_same hwell rfl hmirrored hsent hreplica rfl rfl rfl rfl
        (fun _ hmessage => Or.inl hmessage)

/-!
# Operations
-/

theorem sent_subset_acts (hacts : Acts membership id w w') :
    w.sent ⊆ w'.sent := by
  induction hacts with
  | refl => exact fun _ hp => hp
  | tail _ hact ih => exact fun _ hp => sent_subset_act hact (ih hp)

theorem steps_of_acts (hacts : Acts membership id w w') :
    Steps (majority membership.members) w w' :=
  Relation.ReflTransGen.mono (fun _ _ hact => ⟨id, hact⟩) w w' hacts

theorem replica_acts_of_ne (hacts : Acts membership id w w') {v : NodeId}
    (hv : v ≠ id) : w'.replica v = w.replica v := by
  induction hacts with
  | refl => rfl
  | tail _ hact ih => rw [act_replica_of_ne hact hv, ih]

theorem Represents.frame (h : Represents membership id n w)
    (hsent : w.sent ⊆ w'.sent) (hreplica : w'.replica id = w.replica id) :
    Represents membership id n w' :=
  h.step_of_same h.well rfl h.mirrored hsent (hreplica.trans h.replica) rfl rfl rfl
    rfl (fun _ hmessage => Or.inl hmessage)

section Lawful

variable [LawfulRaftStorage storage]

theorem simulate_action (hid : id ∈ membership.members)
    (h : Represents membership id n w)
    (hinbox : forall message, call.inbox = some message -> Backed w message)
    (hbound : call.term ≠ 18446744073709551615) (haction : Action call n n') :
    exists w', Acts membership id w w' ∧ Represents membership id n' w' := by
  cases haction with
  | volatile hvolatile => exact simulate_volatile hid h hinbox hvolatile
  | durable hquiet hdurable hsaved =>
      rcases simulate_durable hid h hinbox hbound hdurable with
        ⟨w', hacts, hsent, hreplica⟩
      exact ⟨w', hacts, represents_saved hid h hdurable hsaved hsent hreplica⟩

theorem simulate_path (hid : id ∈ membership.members)
    (h : Represents membership id n w)
    (hinbox : forall message, call.inbox = some message -> Backed w message)
    (hbound : call.term ≠ 18446744073709551615) (hpath : Path call n n') :
    exists w', Acts membership id w w' ∧ Represents membership id n' w' := by
  induction hpath with
  | refl => exact ⟨w, .refl, h⟩
  | tail _ haction ih =>
      rcases ih with ⟨middle, hacts, hmiddle⟩
      have hinbox' : forall message, call.inbox = some message ->
          Backed middle message := fun message hin =>
        backed_mono (sent_subset_acts hacts) (hinbox message hin)
      rcases simulate_action hid hmiddle hinbox' hbound haction with
        ⟨w', hacts', h'⟩
      exact ⟨w', hacts.trans hacts', h'⟩

end Lawful

/-!
# Restarts
-/

theorem Fresh.replica_eq {config : RaftConfig} {store : storage}
    {state : PersistentState} (h : Fresh config store n)
    (hload : RaftStorage.load store = .ok state) :
    replicaOf n =
      ⟨state.currentTerm, state.votedFor, state.log, .follower, 0⟩ := by
  have hmirrored := h.mirrored
  unfold Mirrored at hmirrored
  rw [h.storage_eq, hload] at hmirrored
  rw [Except.ok.inj hmirrored]
  unfold replicaOf
  rw [h.follows, h.commit]
  rfl

theorem Fresh.represents {store : storage}
    (h : Fresh (membership.config id) store n)
    (hreplica : w.replica id = replicaOf n) : Represents membership id n w := by
  refine ⟨h.config_eq, h.well, h.mirrored, hreplica, ?_, ?_, ?_⟩
  · intro hstate
    exact absurd (h.follows.symm.trans hstate) (by decide)
  · intro hstate
    exact absurd (h.follows.symm.trans hstate) (by decide)
  · rw [h.outbox]
    intro message hnone
    cases hnone

theorem simulate_restart [RandomEngine random] {store : storage}
    (h : Represents membership id n w)
    (hload : RaftStorage.load store = .ok n.persistentState)
    (hcreate : RaftNode.create (membership.config id) store = .ok n') :
    exists w', Acts membership id w w' ∧ Represents membership id n' w' := by
  have hfresh := fresh_of_create hcreate
  refine ⟨_, .single (.retire (le_refl _) (Nat.zero_le _)), hfresh.represents ?_⟩
  rw [World.put_replica, if_pos rfl, if_pos rfl, h.replica,
    hfresh.replica_eq hload]
  rfl

end Raft
end FTKV
