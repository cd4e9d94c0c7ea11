import FTKV.Raft.Operations

/-!
# One incarnation of a node

A node from its construction on, under any sequence of operations.  The messages
are arbitrary, and any save may throw.
-/

namespace FTKV
namespace Raft

open Foundation
open Foundation.Effect

/-!
# Construction
-/

theorem insertMembers_ok {peers : List NodeId} {members result : Finset NodeId}
    (hinsert : RaftNode.insertMembers peers members = .ok result) :
    peers.Nodup ∧ forall peer, peer ∈ peers -> peer ∉ members := by
  induction peers generalizing members with
  | nil =>
      refine ⟨List.nodup_nil, ?_⟩
      intro peer hpeer
      cases hpeer
  | cons first rest ih =>
      unfold RaftNode.insertMembers at hinsert
      split at hinsert
      · cases hinsert
      · rename_i hfirst
        rcases ih hinsert with ⟨hnodup, hfresh⟩
        constructor
        · refine List.nodup_cons.mpr ⟨?_, hnodup⟩
          intro hmem
          exact hfresh first hmem (Finset.mem_insert_self _ _)
        · intro peer hpeer
          rcases List.mem_cons.mp hpeer with heq | hrest
          · rw [heq]
            exact hfirst
          · intro hmem
            exact hfresh peer hrest (Finset.mem_insert_of_mem hmem)

theorem validateConfig_ok {config : RaftConfig}
    (hvalid : RaftNode.validateConfig config = .ok ()) :
    config.nodeId ∉ config.peers ∧ config.peers.Nodup := by
  unfold RaftNode.validateConfig at hvalid
  split at hvalid
  · cases hvalid
  · cases hinsert : RaftNode.insertMembers config.peers {config.nodeId} with
    | error fault =>
        rw [hinsert] at hvalid
        cases hvalid
    | ok members =>
        rcases insertMembers_ok hinsert with ⟨hnodup, hfresh⟩
        refine ⟨?_, hnodup⟩
        intro hmem
        exact hfresh _ hmem (Finset.mem_singleton_self _)

variable {storage random : Type} [RaftStorage storage] [RandomEngine random]
  {n n' : RaftNode storage random}

structure Accepted (config : RaftConfig) (store : storage)
    (persisted : PersistentState) : Prop where
  valid : RaftNode.validateConfig config = .ok ()
  load : RaftStorage.load store = .ok persisted
  vote : RaftNode.VoteIsMember (insert config.nodeId config.peers.toFinset)
    persisted.votedFor
  log : RaftNode.validateLog persisted.currentTerm 0 persisted.log = .ok ()

def RaftNode.built (config : RaftConfig) (store : storage)
    (persisted : PersistentState) : RaftNode storage random :=
  RaftNode.resetElectionTimeoutLocked {
    config := config
    storage := store
    random := RandomEngine.seed
      (config.randomSeed ^^^ (config.nodeId * 0x9e3779b97f4a7c15))
    currentTerm := persisted.currentTerm
    votedFor := persisted.votedFor
    log := { entries := persisted.log }
    members := insert config.nodeId config.peers.toFinset }

theorem create_eq_ok_iff {config : RaftConfig} {store : storage} :
    RaftNode.create config store = .ok n <-> exists persisted,
      Accepted config store persisted ∧
        n = RaftNode.built config store persisted := by
  constructor
  · intro hcreate
    unfold RaftNode.create at hcreate
    simp only [bind, Except.bind] at hcreate
    cases hvalid : RaftNode.validateConfig config with
    | error fault =>
        rw [hvalid] at hcreate
        cases hcreate
    | ok _ =>
        rw [hvalid] at hcreate
        cases hload : RaftStorage.load store with
        | error cause =>
            rw [hload] at hcreate
            cases hcreate
        | ok persisted =>
            simp only [hload] at hcreate
            split at hcreate
            · rename_i hvote
              cases hlog : RaftNode.validateLog persisted.currentTerm 0
                persisted.log with
              | error fault =>
                  rw [hlog] at hcreate
                  cases hcreate
              | ok _ =>
                  rw [hlog] at hcreate
                  cases hcreate
                  exact ⟨persisted, ⟨hvalid, hload, hvote, hlog⟩, rfl⟩
            · cases hcreate
  · rintro ⟨persisted, h, rfl⟩
    unfold RaftNode.create
    simp only [bind, Except.bind, h.valid, h.load, h.log]
    rw [if_pos h.vote]
    rfl

structure Fresh (config : RaftConfig) (store : storage)
    (n : RaftNode storage random) : Prop where
  config_eq : n.config = config
  storage_eq : n.storage = store
  mirrored : Mirrored n
  follows : n.state = .follower
  hint : n.leaderId = none
  commit : n.commitIndex = 0
  votes : n.votesReceived = ∅
  outbox : n.outbox = []
  entries : n.committedEntries = []
  well : WellFormed n

theorem fresh_of_create {config : RaftConfig} {store : storage}
    (hcreate : RaftNode.create config store = .ok n) : Fresh config store n := by
  rcases create_eq_ok_iff.mp hcreate with ⟨persisted, haccepted, rfl⟩
  rcases validateConfig_ok haccepted.valid with ⟨hself, hunique⟩
  refine ⟨rfl, rfl, haccepted.load, rfl, rfl, rfl, rfl, rfl, rfl, ?_⟩
  refine ⟨rfl, hself, hunique, rfl, Nat.zero_le _, ?_, Finset.empty_subset _, ?_⟩
  · exact List.nil_suffix ..
  · intro hstate
    cases hstate

/-!
# Sequences of operations
-/

namespace RaftNode

def after (n : RaftNode storage random) : List Operation -> RaftNode storage random
  | [] => n
  | op :: rest => (outcome op.perform n).2.after rest

/-- All that `take_committed_entries` has returned along the way. -/
def handedOver (n : RaftNode storage random) : List Operation -> List CommittedEntry
  | [] => []
  | op :: rest =>
      (outputOf (outcome op.perform n).1).entries ++
        (outcome op.perform n).2.handedOver rest

/-- Every operation meets a condition in the state in which it is called. -/
def Throughout (meets : RaftNode storage random -> Operation -> Prop) :
    RaftNode storage random -> List Operation -> Prop
  | _, [] => True
  | n, op :: rest =>
      meets n op ∧ Throughout meets (outcome op.perform n).2 rest

end RaftNode

theorem after_append (n : RaftNode storage random) (ops more : List Operation) :
    n.after (ops ++ more) = (n.after ops).after more := by
  induction ops generalizing n with
  | nil => rfl
  | cons op rest ih => exact ih _

theorem throughout_append {meets : RaftNode storage random -> Operation -> Prop}
    {ops more : List Operation} :
    RaftNode.Throughout meets n (ops ++ more) <->
      RaftNode.Throughout meets n ops ∧
        RaftNode.Throughout meets (n.after ops) more := by
  induction ops generalizing n with
  | nil => simp [RaftNode.Throughout, RaftNode.after]
  | cons op rest ih =>
      simp only [List.cons_append, RaftNode.Throughout, RaftNode.after, ih, and_assoc]

theorem perform_spec (h : WellFormed n) (op : Operation) :
    WellFormed (outcome op.perform n).2 ∧
      n.commitIndex <= (outcome op.perform n).2.commitIndex ∧
      (outcome op.perform n).2.log.entries.take n.commitIndex =
        n.log.entries.take n.commitIndex ∧
      exists new, (outcome op.perform n).2.published = n.published ++ new ∧
        (outputOf (outcome op.perform n).1).entries ++
          (outcome op.perform n).2.committedEntries =
            n.committedEntries ++ new := by
  rcases ensures_perform h op with ⟨hexplained, hdrained⟩
  rcases wellFormed_explained h hexplained with ⟨hwell, hprogress⟩
  rcases wellFormed_drained hwell hdrained with
    ⟨hwell', hcommit, hlog, hentries⟩
  rcases hprogress.publishes with ⟨new, hnew, hpublished⟩
  refine ⟨hwell', ?_, ?_, new, ?_, ?_⟩
  · rw [hcommit]
    exact hprogress.commit
  · rw [hlog]
    exact hprogress.kept
  · unfold RaftNode.published at hpublished ⊢
    rw [hcommit, hlog]
    exact hpublished
  · rw [hentries]
    exact hnew

theorem wellFormed_after (h : WellFormed n) (ops : List Operation) :
    WellFormed (n.after ops) := by
  induction ops generalizing n with
  | nil => exact h
  | cons op rest ih => exact ih (perform_spec h op).left

theorem config_after (h : WellFormed n) (ops : List Operation) :
    (n.after ops).config = n.config := by
  induction ops generalizing n with
  | nil => rfl
  | cons op rest ih =>
      have hperform : (outcome op.perform n).2.config = n.config := by
        rcases ensures_perform h op with ⟨hexplained, hdrained⟩
        rw [hdrained.same]
        exact (wellFormed_explained h hexplained).right.config
      exact (ih (perform_spec h op).left).trans hperform

theorem committed_after (h : WellFormed n) (ops : List Operation) :
    n.commitIndex <= (n.after ops).commitIndex ∧
      (n.after ops).log.entries.take n.commitIndex =
        n.log.entries.take n.commitIndex := by
  induction ops generalizing n with
  | nil => exact ⟨Nat.le_refl _, rfl⟩
  | cons op rest ih =>
      rcases perform_spec h op with ⟨hwell, hcommit, hkept, -⟩
      rcases ih hwell with ⟨hcommit', hkept'⟩
      refine ⟨Nat.le_trans hcommit hcommit', ?_⟩
      have htake := congrArg (List.take n.commitIndex) hkept'
      rw [List.take_take, List.take_take, min_eq_left hcommit] at htake
      exact htake.trans hkept

theorem handedOver_append_pending (h : WellFormed n) {before : List CommittedEntry}
    (hbefore : before ++ n.committedEntries = n.published)
    (ops : List Operation) :
    before ++ n.handedOver ops ++ (n.after ops).committedEntries =
      (n.after ops).published := by
  induction ops generalizing n before with
  | nil =>
      rw [RaftNode.handedOver, List.append_nil]
      exact hbefore
  | cons op rest ih =>
      rcases perform_spec h op with ⟨hwell, -, -, new, hpublished, hentries⟩
      have hnext : (before ++ (outputOf (outcome op.perform n).1).entries) ++
          (outcome op.perform n).2.committedEntries =
            (outcome op.perform n).2.published := by
        rw [List.append_assoc, hentries, hpublished, ← hbefore,
          List.append_assoc]
      have hrest := ih hwell hnext
      rw [RaftNode.handedOver, ← List.append_assoc]
      exact hrest

/-!
# The committed prefix
-/

/--
In every state of one incarnation the committed entries are applied and lie
within the log, what has been handed over and what is pending is the list of the
committed entries that are not no-ops, and no later operation changes them.
-/
theorem committed_prefix_published_once {config : RaftConfig} {store : storage}
    {node : RaftNode storage random}
    (hcreate : RaftNode.create config store = .ok node)
    (ops more : List Operation) :
    (node.after ops).lastApplied = (node.after ops).commitIndex ∧
      (node.after ops).commitIndex <= (node.after ops).lastLogIndexLocked ∧
      node.handedOver ops ++ (node.after ops).committedEntries =
        publications
          ((node.after ops).log.entries.take (node.after ops).commitIndex) 1 ∧
      (node.after ops).commitIndex <= (node.after (ops ++ more)).commitIndex ∧
      (node.after (ops ++ more)).log.entries.take (node.after ops).commitIndex =
        (node.after ops).log.entries.take (node.after ops).commitIndex := by
  have hfresh := fresh_of_create hcreate
  have hwell := wellFormed_after hfresh.well ops
  have hbefore : [] ++ node.committedEntries = node.published := by
    unfold RaftNode.published
    rw [hfresh.entries, hfresh.commit]
    rfl
  have hpublished := handedOver_append_pending hfresh.well hbefore ops
  rcases committed_after hwell more with ⟨hcommit, hkept⟩
  rw [after_append]
  exact ⟨hwell.applied, hwell.committed, hpublished, hcommit, hkept⟩

def firstVote : Message where
  fromNode := 2
  toNode := 1
  rpc := .requestVoteResponse { term := 1, voteGranted := true }

def firstAppend : Message where
  fromNode := 2
  toNode := 1
  rpc := .appendEntriesRequest {
    term := 1
    leaderId := 2
    entries := [{ term := 1, command := [7] }]
    leaderCommit := 1
    requestId := 1 }

theorem committed_prefix_published_once_firstAppend :
    exists node : RaftNode InMemoryRaftStorage LeastEngine,
      RaftNode.create { nodeId := 1, peers := [2] } {} = .ok node ∧
      node.handedOver [.step firstAppend, .takeCommittedEntries] =
        [{ index := 1, term := 1, command := [7] }] ∧
      (node.after ([.step firstAppend, .takeCommittedEntries] ++
        [.tick 10])).log.entries.take 1 = [{ term := 1, command := [7] }] := by
  have hcreate : RaftNode.create { nodeId := 1, peers := [2] }
      ({} : InMemoryRaftStorage) =
        .ok (_ : RaftNode InMemoryRaftStorage LeastEngine) := rfl
  refine ⟨_, hcreate, by decide, ?_⟩
  exact (committed_prefix_published_once hcreate
    [.step firstAppend, .takeCommittedEntries]
      [.tick 10]).right.right.right.right

end Raft
end FTKV
