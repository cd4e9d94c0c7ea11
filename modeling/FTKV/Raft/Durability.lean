import FTKV.Raft.Incarnation

/-!
# Durability when saves fail

A node changes its memory before it saves, and a save that throws leaves the
change in memory only.  What the node later says about its log is durable as
long as it never relies on such a change.

## Relying on the log

The node acknowledges a request without saving when the log in memory already
holds all its entries, and it counts itself among the holders of its log when it
handles a confirmation.
-/

namespace FTKV
namespace Raft

open Foundation
open Foundation.Effect

variable {storage random : Type} [RaftStorage storage]
  {start n n' : RaftNode storage random} {call : Call}

/-!
# Calls that save what they change
-/

structure Unaltered (start n : RaftNode storage random) : Prop where
  config_eq : n.config = start.config
  storage_eq : n.storage = start.storage
  state_eq : n.persistentState = start.persistentState
  leads : n.state = .leader -> start.state = .leader

/-- Since the call began nothing persistent has changed, or all of it is saved. -/
def Clean (start n : RaftNode storage random) : Prop :=
  Mirrored n ∨ Unaltered start n

omit [RaftStorage storage] in
theorem Unaltered.refl (n : RaftNode storage random) : Unaltered n n :=
  ⟨rfl, rfl, rfl, id⟩

omit [RaftStorage storage] in
theorem Unaltered.log_eq (h : Unaltered start n) : n.log = start.log :=
  congrArg (fun state => Log.mk state.log) h.state_eq

theorem persistentState_volatile (hvolatile : Volatile call n n') :
    n'.storage = n.storage ∧ n'.persistentState = n.persistentState := by
  cases hvolatile <;> exact ⟨rfl, rfl⟩

omit [RaftStorage storage] in
theorem storage_durable (hdurable : Durable call n n') :
    n'.storage = n.storage ∧ n'.outbox = n.outbox ∧
      n'.commitIndex = n.commitIndex := by
  cases hdurable <;> exact ⟨rfl, rfl, rfl⟩

theorem load_saveFailed [LawfulRaftStorage storage]
    (hfailed : SaveFailed n n') :
    RaftStorage.load n'.storage = RaftStorage.load n.storage ∧
      n'.persistentState = n.persistentState ∧ n'.outbox = n.outbox ∧
      n'.commitIndex = n.commitIndex := by
  rcases hfailed with ⟨cause, store, hsave, rfl⟩
  exact ⟨LawfulRaftStorage.load_of_save_error _ _ _ _ hsave, rfl, rfl, rfl⟩

theorem Unaltered.volatile (h : Unaltered start n) (hvolatile : Volatile call n n') :
    Unaltered start n' := by
  rcases persistentState_volatile hvolatile with ⟨hstorage, hstate⟩
  have hkept : n'.config = n.config ∧ (n'.state = .leader -> n.state = .leader) := by
    cases hvolatile with
    | follow =>
        constructor
        · rfl
        · intro hleads
          cases hleads
    | timer | tally | emit | replicate | record | retry | raise => exact ⟨rfl, id⟩
  exact ⟨hkept.left.trans h.config_eq, hstorage.trans h.storage_eq,
    hstate.trans h.state_eq, fun hleads => h.leads (hkept.right hleads)⟩

theorem clean_action [LawfulRaftStorage storage] (h : Clean start n)
    (haction : Action call n n') : Clean start n' := by
  cases haction with
  | volatile hvolatile =>
      rcases h with hmirrored | hunaltered
      · rcases persistentState_volatile hvolatile with ⟨hstorage, hstate⟩
        refine Or.inl ?_
        unfold Mirrored
        rw [hstorage, hstate]
        exact hmirrored
      · exact Or.inr (hunaltered.volatile hvolatile)
  | durable hquiet hdurable hsaved => exact Or.inl (mirrored_of_saved hsaved)

/-!
# The stored log
-/

def Stores (n : RaftNode storage random) (count : LogIndex) : Prop :=
  exists stored, RaftStorage.load n.storage = .ok stored ∧
    n.log.entries.take count <+: stored.log

def LogSaved (n : RaftNode storage random) : Prop :=
  exists stored, RaftStorage.load n.storage = .ok stored ∧
    stored.log = n.log.entries

structure Redelivers (n : RaftNode storage random) (sender : NodeId)
    (request : AppendEntriesRequest) : Prop where
  sender_leads : request.leaderId = sender
  current : request.term = n.currentTerm
  entries_valid : forall entry, entry ∈ request.entries ->
    entry.term ≠ 0 ∧ entry.term <= request.term
  previous_le : request.previousLogIndex <= n.log.entries.length
  previous_eq : request.previousLogIndex = 0 ∨
    (n.log.at? request.previousLogIndex).map LogEntry.term =
      some request.previousLogTerm
  contained : request.entries <+: n.log.entries.drop request.previousLogIndex

structure IsConfirmed (n : RaftNode storage random)
    (response : AppendEntriesResponse) : Prop where
  leads : n.state = .leader
  current : response.term = n.currentTerm
  success : response.success = true
  match_le : response.matchIndex <= n.log.entries.length

/-- Messages that the node acts on without saving its log again. -/
def ReliesOnLog (n : RaftNode storage random) (message : Message) : Prop :=
  message.toNode = n.config.nodeId ∧ message.fromNode ∈ n.config.peers ∧
  match message.rpc with
  | .appendEntriesRequest request => Redelivers n message.fromNode request
  | .appendEntriesResponse response => IsConfirmed n response
  | _ => False

/-- Such a message is handled only while the stored log is the node's log. -/
def Prudent (n : RaftNode storage random) (op : Operation) : Prop :=
  forall message, op.inbox = some message -> ReliesOnLog n message -> LogSaved n

theorem stores_of_logSaved (h : LogSaved n) (count : LogIndex) :
    Stores n count := by
  rcases h with ⟨stored, hload, hlog⟩
  refine ⟨stored, hload, ?_⟩
  rw [hlog]
  exact List.take_prefix _ _

theorem logSaved_of_mirrored (h : Mirrored n) : LogSaved n :=
  ⟨n.persistentState, h, rfl⟩

theorem stores_of_eq {count : LogIndex} (h : Stores n count)
    (hload : RaftStorage.load n'.storage = RaftStorage.load n.storage)
    (hlog : n'.log.entries.take count = n.log.entries.take count) :
    Stores n' count := by
  rcases h with ⟨stored, hstored, hpre⟩
  refine ⟨stored, hload.trans hstored, ?_⟩
  rw [hlog]
  exact hpre

omit [RaftStorage storage] in
theorem ReliesOnLog.of_unaltered {message : Message} (h : ReliesOnLog n message)
    (hunaltered : Unaltered start n) : ReliesOnLog start message := by
  have hterm : n.currentTerm = start.currentTerm :=
    congrArg PersistentState.currentTerm hunaltered.state_eq
  unfold ReliesOnLog at h ⊢
  rw [← hunaltered.config_eq]
  refine ⟨h.left, h.right.left, ?_⟩
  have hrelies := h.right.right
  cases hrpc : message.rpc with
  | requestVoteRequest | requestVoteResponse =>
      rw [hrpc] at hrelies
      exact hrelies
  | appendEntriesRequest request =>
      rw [hrpc] at hrelies
      rcases hrelies with ⟨hleads, hcurrent, hvalid, hle, hprevious, hcontained⟩
      rw [hunaltered.log_eq] at hle hprevious hcontained
      exact ⟨hleads, hcurrent.trans hterm, hvalid, hle, hprevious, hcontained⟩
  | appendEntriesResponse response =>
      rw [hrpc] at hrelies
      rcases hrelies with ⟨hleads, hcurrent, hsuccess, hmatch⟩
      rw [hunaltered.log_eq] at hmatch
      exact ⟨hunaltered.leads hleads, hcurrent.trans hterm, hsuccess, hmatch⟩

theorem logSaved_of_clean {message : Message} (h : Clean start n)
    (hinbox : call.inbox = some message)
    (hprudent : forall message, call.inbox = some message ->
      ReliesOnLog start message -> LogSaved start)
    (hrelies : ReliesOnLog n message) : LogSaved n := by
  rcases h with hmirrored | hunaltered
  · exact logSaved_of_mirrored hmirrored
  · rcases hprudent message hinbox (hrelies.of_unaltered hunaltered) with
      ⟨stored, hload, hstored⟩
    refine ⟨stored, ?_, ?_⟩
    · rw [hunaltered.storage_eq]
      exact hload
    · rw [hunaltered.log_eq]
      exact hstored

omit [RaftStorage storage] in
theorem relies_of_accepts {sender : NodeId} {request : AppendEntriesRequest}
    (h : Accepts call n sender request)
    (hcontains :
      request.entries <+: n.log.entries.drop request.previousLogIndex) :
    exists message, call.inbox = some message ∧ ReliesOnLog n message :=
  ⟨_, h.handles.left, rfl, h.handles.right, h.sender_leads, h.current, h.entries_valid,
    h.previous_le, h.previous_eq, hcontains⟩

omit [RaftStorage storage] in
theorem relies_of_confirms {sender : NodeId} {response : AppendEntriesResponse}
    (h : Confirms call n sender response) :
    exists message, call.inbox = some message ∧ ReliesOnLog n message :=
  ⟨_, h.left.left, rfl, h.left.right, h.right.left, h.right.right.left,
    h.right.right.right.left, h.right.right.right.right⟩

/-!
# What a call makes durable
-/

/-- A confirmation that the node sends says what its storage holds. -/
def AckStored (n : RaftNode storage random) (message : Message) : Prop :=
  forall response, message.rpc = .appendEntriesResponse response ->
    response.success = true -> Stores n response.matchIndex

structure Reliable (start n : RaftNode storage random) : Prop where
  clean : Clean start n
  committed : Stores n n.commitIndex
  sent : exists new, n.outbox = start.outbox ++ new ∧
    forall message, message ∈ new -> AckStored n message

theorem reliable_of_same (h : Reliable start n) (hclean : Clean start n')
    (hstorage : n'.storage = n.storage) (hlog : n'.log = n.log)
    (hcommitted : Stores n n'.commitIndex) {more : List Message}
    (houtbox : n'.outbox = n.outbox ++ more)
    (hmore : forall message, message ∈ more -> AckStored n message) :
    Reliable start n' := by
  have hstores : forall {count}, Stores n count -> Stores n' count :=
    fun hcount => stores_of_eq hcount (by rw [hstorage]) (by rw [hlog])
  rcases h.sent with ⟨new, hnew, hstored⟩
  refine ⟨hclean, hstores hcommitted, new ++ more, ?_, ?_⟩
  · rw [houtbox, hnew, List.append_assoc]
  · intro message hmessage response hrpc hsuccess
    rcases List.mem_append.mp hmessage with hold | hlast
    · exact hstores (hstored message hold response hrpc hsuccess)
    · exact hstores (hmore message hlast response hrpc hsuccess)

section Lawful

variable [LawfulRaftStorage storage]

theorem reliable_volatile (h : Reliable start n)
    (hprudent : forall message, call.inbox = some message ->
      ReliesOnLog start message -> LogSaved start)
    (hvolatile : Volatile call n n') : Reliable start n' := by
  have hclean := clean_action h.clean (.volatile hvolatile)
  have hrelied : (exists message, call.inbox = some message ∧
      ReliesOnLog n message) -> forall count, Stores n count := by
    rintro ⟨message, hinbox, hrelies⟩ count
    exact stores_of_logSaved
      (logSaved_of_clean h.clean hinbox hprudent hrelies) count
  cases hvolatile with
  | timer | follow | tally | record | retry =>
      exact reliable_of_same h hclean rfl rfl h.committed
        (List.append_nil _).symm (fun _ hnone => by cases hnone)
  | emit hemit =>
      refine reliable_of_same h hclean rfl rfl h.committed rfl ?_
      intro message hmessage response hrpc hsuccess
      rw [List.mem_singleton.mp hmessage] at hrpc
      cases hemit with
      | solicit | deny | grant => cases hrpc
      | reject =>
          cases hrpc
          cases hsuccess
      | acknowledge haccepts hcontains =>
          exact hrelied (relies_of_accepts haccepts hcontains) _
  | replicate =>
      refine reliable_of_same h hclean rfl rfl h.committed rfl ?_
      intro message hmessage response hrpc
      rw [List.mem_singleton.mp hmessage] at hrpc
      cases hrpc
  | raise hlow hhigh hmay =>
      refine reliable_of_same h hclean rfl rfl ?_ (List.append_nil _).symm
        (fun _ hnone => by cases hnone)
      cases hmay with
      | confirmed hstate hterm hquorum hsaved hcall =>
          rcases hsaved with ⟨before, hsaved⟩ | ⟨sender, response, hconfirms⟩
          · exact stores_of_logSaved
              (logSaved_of_mirrored (mirrored_of_saved hsaved)) _
          · exact hrelied (relies_of_confirms hconfirms) _
      | announced haccepts hcontains hindex =>
          exact hrelied (relies_of_accepts haccepts hcontains) _

theorem reliable_action (h : Reliable start n)
    (hprudent : forall message, call.inbox = some message ->
      ReliesOnLog start message -> LogSaved start)
    (haction : Action call n n') : Reliable start n' := by
  cases haction with
  | volatile hvolatile => exact reliable_volatile h hprudent hvolatile
  | durable hquiet hdurable hsaved =>
      have hmirrored := mirrored_of_saved hsaved
      have hstores := stores_of_logSaved (logSaved_of_mirrored hmirrored)
      refine ⟨Or.inl hmirrored, hstores _, ?_⟩
      rcases h.sent with ⟨new, hnew, -⟩
      rcases hsaved with ⟨store, -, rfl⟩
      refine ⟨new, (storage_durable hdurable).right.left.trans hnew, ?_⟩
      intro message _ response _ _
      exact hstores _

theorem reliable_path (h : Reliable start n)
    (hprudent : forall message, call.inbox = some message ->
      ReliesOnLog start message -> LogSaved start)
    (hpath : Path call n n') : Reliable start n' := by
  induction hpath with
  | refl => exact h
  | tail _ haction ih => exact reliable_action ih hprudent haction

theorem durable_explained {result : Type} {r : Except Fault result}
    (h : WellFormed n) (houtbox : call.outbox = n.outbox)
    (hcommitted : Stores n n.commitIndex)
    (hprudent : forall message, call.inbox = some message ->
      ReliesOnLog n message -> LogSaved n)
    (hexplained : Explained call n r n') :
    Stores n' n'.commitIndex ∧ exists new, n'.outbox = n.outbox ++ new ∧
      forall message, message ∈ new -> AckStored n' message := by
  have hstart : Reliable n n :=
    ⟨Or.inr (.refl n), hcommitted, [], (List.append_nil _).symm,
      fun _ hnone => by cases hnone⟩
  cases hexplained with
  | returns hpath =>
      have hreliable := reliable_path hstart hprudent hpath
      exact ⟨hreliable.committed, hreliable.sent⟩
  | refused hpath hrefusal =>
      have hreliable := reliable_path hstart hprudent hpath
      exact ⟨hreliable.committed, hreliable.sent⟩
  | @interrupted _ middle _ hpath hinterrupted =>
      have hreliable := reliable_path hstart hprudent hpath
      have hwell := (wellFormed_path h hpath).left
      rcases hinterrupted with ⟨hquiet, changed, hdurable, hfailed⟩
      have hkept := (progress_durable hwell hdurable).kept
      rcases storage_durable hdurable with ⟨hstorage, hsame, hcommit⟩
      rcases load_saveFailed hfailed with ⟨hload, hstate, hsame', hcommit'⟩
      refine ⟨?_, [], ?_, fun _ hnone => by cases hnone⟩
      · rw [hcommit', hcommit]
        refine stores_of_eq hreliable.committed ?_ ?_
        · rw [hload, hstorage]
        · have hlog : n'.log.entries = changed.log.entries :=
            congrArg PersistentState.log hstate
          rw [hlog]
          exact hkept
      · rw [hsame', hsame, hquiet, houtbox, List.append_nil]

/-!
# Whole incarnations
-/

variable [RandomEngine random]

def AcknowledgesStored (n : RaftNode storage random) (op : Operation) : Prop :=
  forall message, message ∈ op.enqueues n -> AckStored (op.handled n) message

theorem perform_durable {op : Operation} (h : WellFormed n)
    (hcommitted : Stores n n.commitIndex) (hprudent : Prudent n op) :
    Stores (outcome op.perform n).2 (outcome op.perform n).2.commitIndex ∧
      AcknowledgesStored n op := by
  rcases ensures_perform h op with ⟨hexplained, hdrained⟩
  have hcall : (op.call n).outbox = n.outbox := rfl
  rcases durable_explained h hcall hcommitted hprudent hexplained with
    ⟨hstores, new, hnew, hacks⟩
  constructor
  · rw [hdrained.same]
    exact hstores
  · intro message hmessage
    refine hacks message ?_
    unfold Operation.enqueues at hmessage
    rwa [hnew, List.drop_left] at hmessage

theorem durable_after (h : WellFormed n) (hcommitted : Stores n n.commitIndex)
    (ops : List Operation) (hprudent : RaftNode.Throughout Prudent n ops) :
    Stores (n.after ops) (n.after ops).commitIndex ∧
      RaftNode.Throughout AcknowledgesStored n ops := by
  induction ops generalizing n with
  | nil => exact ⟨hcommitted, trivial⟩
  | cons op rest ih =>
      rcases perform_durable h hcommitted hprudent.left with ⟨hstores, hacks⟩
      rcases ih (perform_spec h op).left hstores hprudent.right with
        ⟨hafter, hrest⟩
      exact ⟨hafter, hacks, hrest⟩

/--
An incarnation that never relies on an unsaved log has its committed entries in
storage in every state, and every confirmation it sends is backed by storage.
-/
theorem acknowledged_entries_stored {config : RaftConfig} {store : storage}
    {node : RaftNode storage random}
    (hcreate : RaftNode.create config store = .ok node) (ops : List Operation)
    (hprudent : RaftNode.Throughout Prudent node ops) :
    Stores (node.after ops) (node.after ops).commitIndex ∧
      RaftNode.Throughout AcknowledgesStored node ops := by
  have hfresh := fresh_of_create hcreate
  refine durable_after hfresh.well ?_ ops hprudent
  exact stores_of_logSaved (logSaved_of_mirrored hfresh.mirrored) _

end Lawful

/-!
# A retried request after a failed save
-/

/-- A storage whose saves succeed or fail as a script says, then succeed. -/
structure ScriptedRaftStorage where
  state : PersistentState := {}
  script : List Bool := []
deriving DecidableEq, Repr

instance : RaftStorage ScriptedRaftStorage where
  load storage := .ok storage.state
  save state storage :=
    match storage.script with
    | false :: rest =>
        (.error (.storageError "disk full"), { storage with script := rest })
    | true :: rest => (.ok (), { state := state, script := rest })
    | [] => (.ok (), { state := state, script := [] })

instance : LawfulRaftStorage ScriptedRaftStorage where
  load_of_save_ok := by
    rintro state ⟨old, script⟩ s' u hsave
    match script, hsave with
    | true :: rest, hsave =>
        cases hsave
        rfl
    | [], hsave =>
        cases hsave
        rfl
  load_of_save_error := by
    rintro state ⟨old, script⟩ s' cause hsave
    match script, hsave with
    | false :: rest, hsave =>
        cases hsave
        rfl

theorem acknowledged_entries_stored_inMemory :
    exists node : RaftNode InMemoryRaftStorage LeastEngine,
      RaftNode.create { nodeId := 1, peers := [2] } {} = .ok node ∧
      (node.after [.step firstAppend]).commitIndex = 1 ∧
      Stores (node.after [.step firstAppend]) 1 := by
  have hcreate : RaftNode.create { nodeId := 1, peers := [2] }
      ({} : InMemoryRaftStorage) =
        .ok (_ : RaftNode InMemoryRaftStorage LeastEngine) := rfl
  refine ⟨_, hcreate, by decide, ?_⟩
  refine (acknowledged_entries_stored hcreate [.step firstAppend] ?_).left
  refine ⟨?_, trivial⟩
  intro message hmessage hrelies
  cases hmessage
  exact absurd hrelies.right.right.current (by decide)

/--
The save of the entry fails, so the first delivery throws.  The second delivery
finds the entry in memory: it is acknowledged and committed without being saved.
-/
theorem acknowledged_entries_not_stored :
    exists node : RaftNode ScriptedRaftStorage LeastEngine,
      RaftNode.create { nodeId := 1, peers := [2] }
        { script := [true, false] } = .ok node ∧
      (Operation.step firstAppend).enqueues (node.after [.step firstAppend]) =
        [{ fromNode := 1, toNode := 2, rpc := .appendEntriesResponse {
          term := 1, success := true, matchIndex := 1, conflictIndex := 2,
          requestId := 1 } }] ∧
      (node.after [.step firstAppend, .step firstAppend]).commitIndex = 1 ∧
      ¬ Stores (node.after [.step firstAppend, .step firstAppend]) 1 := by
  have hcreate : RaftNode.create { nodeId := 1, peers := [2] }
      ({ script := [true, false] } : ScriptedRaftStorage) =
        .ok (_ : RaftNode ScriptedRaftStorage LeastEngine) := rfl
  refine ⟨_, hcreate, by decide, by decide, ?_⟩
  rintro ⟨stored, hload, hpre⟩
  cases hload
  exact absurd hpre (by decide)

end Raft
end FTKV
