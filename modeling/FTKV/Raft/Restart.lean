import FTKV.Raft.Durability
import FTKV.Raft.Proposals

/-!
# Restarting from what was saved

While no save throws, the storage holds the persistent state of the node after
every operation, so a restart finds what the node had in memory.  Whether the
constructor accepts it is another matter: the constructor demands that the terms
of the log do not decrease, and the handler of requests does not.
-/

namespace FTKV
namespace Raft

open Foundation
open Foundation.Effect

variable {storage random : Type} {start n n' : RaftNode storage random}
  {call : Call}

/-!
# Logs that the constructor accepts
-/

def Ascending (entries : List LogEntry) : Prop :=
  entries.Pairwise fun entry later => entry.term <= later.term

instance (entries : List LogEntry) : Decidable (Ascending entries) :=
  inferInstanceAs (Decidable (List.Pairwise _ _))

theorem validateLog_eq_ok_iff {currentTerm previousTerm : Term}
    {entries : List LogEntry} :
    RaftNode.validateLog currentTerm previousTerm entries = .ok () <->
      (forall entry, entry ∈ entries -> entry.term ≠ 0 ∧
        entry.term <= currentTerm ∧ previousTerm <= entry.term) ∧
      Ascending entries := by
  induction entries generalizing previousTerm with
  | nil => simp [RaftNode.validateLog, Ascending]
  | cons entry rest ih =>
      unfold RaftNode.validateLog
      split
      · rename_i hinvalid
        constructor
        · intro herror
          cases herror
        · rintro ⟨hvalid, _⟩
          rcases hvalid entry (List.mem_cons_self ..) with ⟨hzero, hle, hprevious⟩
          rcases hinvalid with hbad | hbad | hbad
          · exact absurd hbad hzero
          · exact absurd hle (not_le.mpr hbad)
          · exact absurd hprevious (not_le.mpr hbad)
      · rename_i hvalid
        rw [not_or, not_or, not_lt, not_lt] at hvalid
        rw [ih]
        unfold Ascending
        rw [List.pairwise_cons, List.forall_mem_cons]
        constructor
        · rintro ⟨hrest, hordered⟩
          refine ⟨⟨hvalid, ?_⟩, ?_, hordered⟩
          · intro later hlater
            rcases hrest later hlater with ⟨hzero, hle, hprevious⟩
            exact ⟨hzero, hle, hvalid.right.right.trans hprevious⟩
          · intro later hlater
            exact (hrest later hlater).right.right
        · rintro ⟨⟨_, hrest⟩, hfirst, hordered⟩
          refine ⟨?_, hordered⟩
          intro later hlater
          rcases hrest later hlater with ⟨hzero, hle, _⟩
          exact ⟨hzero, hle, hfirst later hlater⟩

/-- What the constructor checks, and what keeps it true. -/
structure Restartable (n : RaftNode storage random) : Prop where
  vote : RaftNode.VoteIsMember n.members n.votedFor
  terms : forall entry, entry ∈ n.log.entries ->
    entry.term ≠ 0 ∧ entry.term <= n.currentTerm
  ascending : Ascending n.log.entries
  active : n.state ≠ .follower -> n.currentTerm ≠ 0

/-- The entries of a request continue the terms of the entry they follow. -/
def AscendingRequest (request : AppendEntriesRequest) : Prop :=
  Ascending request.entries ∧ (request.previousLogIndex ≠ 0 ->
    forall entry, entry ∈ request.entries -> request.previousLogTerm <= entry.term)

/-- A request for which the node replaces a part of its log. -/
structure Rewrites (n : RaftNode storage random) (message : Message)
    (request : AppendEntriesRequest) : Prop where
  addressed : message.toNode = n.config.nodeId
  peer : message.fromNode ∈ n.config.peers
  rpc : message.rpc = .appendEntriesRequest request
  sender_leads : request.leaderId = message.fromNode
  term_le : n.currentTerm <= request.term
  entries_valid : forall entry, entry ∈ request.entries ->
    entry.term ≠ 0 ∧ entry.term <= request.term
  previous_le : request.previousLogIndex <= n.log.entries.length
  previous_eq : request.previousLogIndex = 0 ∨
    (n.log.at? request.previousLogIndex).map LogEntry.term =
      some request.previousLogTerm
  fresh : ¬ request.entries <+: n.log.entries.drop request.previousLogIndex
  kept : n.log.entries.take n.commitIndex <+:
    n.log.entries.take request.previousLogIndex ++ request.entries

def Call.Continues (call : Call) (n : RaftNode storage random) : Prop :=
  forall message request, call.inbox = some message -> Rewrites n message request ->
    AscendingRequest request

def Call.Advances (call : Call) : Prop :=
  call.inbox = none -> call.proposal = none -> call.term ≠ 18446744073709551615

structure Unwritten (start n : RaftNode storage random) : Prop where
  config_eq : n.config = start.config
  log_eq : n.log = start.log
  commit_eq : n.commitIndex = start.commitIndex
  term_le : start.currentTerm <= n.currentTerm

def Pending (call : Call) (start n : RaftNode storage random) : Prop :=
  forall message request, call.inbox = some message ->
    message.rpc = .appendEntriesRequest request ->
      Unwritten start n ∨
        request.entries <+: n.log.entries.drop request.previousLogIndex

theorem rewrites_of_accepts {sender : NodeId} {request : AppendEntriesRequest}
    (h : Pending call start n) (haccepts : Accepts call n sender request)
    (hnew : ¬ request.entries <+: n.log.entries.drop request.previousLogIndex)
    (hkept : n.log.entries.take n.commitIndex <+:
      n.log.entries.take request.previousLogIndex ++ request.entries) :
    Rewrites start ⟨sender, n.config.nodeId, .appendEntriesRequest request⟩ request := by
  rcases h _ _ haccepts.handles.left rfl with hunwritten | hheld
  · rcases hunwritten with ⟨hconfig, hlog, hcommit, hterm⟩
    have hpeer := haccepts.handles.right
    have hle := haccepts.previous_le
    have hprevious := haccepts.previous_eq
    rw [hlog] at hle hprevious hnew hkept
    rw [hcommit] at hkept
    rw [hconfig] at hpeer ⊢
    exact ⟨rfl, hpeer, rfl, haccepts.sender_leads, haccepts.current.symm ▸ hterm,
      haccepts.entries_valid, hle, hprevious, hnew, hkept⟩
  · exact absurd hheld hnew

theorem pending_durable (h : Pending call start n) (hdurable : Durable call n n') :
    Pending call start n' := by
  intro message request hinbox hrpc
  cases hdurable with
  | adopt _ hterm =>
      rcases h message request hinbox hrpc with ⟨hconfig, hlog, hcommit, hle⟩ | hheld
      · exact Or.inl ⟨hconfig, hlog, hcommit, hle.trans hterm.le⟩
      · exact Or.inr hheld
  | campaign hnone _ _ _ =>
      rw [hnone] at hinbox
      cases hinbox
  | elect _ _ hcall _ _ => exact absurd ⟨message, request, hinbox, hrpc⟩ hcall
  | vote hhandles _ _ _ _ =>
      rw [hhandles.left] at hinbox
      cases hinbox
      cases hrpc
  | rewrite haccepts _ _ =>
      rw [haccepts.handles.left] at hinbox
      cases hinbox
      cases hrpc
      right
      rw [List.drop_left' (List.length_take_of_le haccepts.previous_le)]
  | propose hnone _ _ =>
      rw [hnone] at hinbox
      cases hinbox

theorem Ascending.append {entries rest : List LogEntry} (h : Ascending entries)
    (hrest : Ascending rest)
    (hbetween : forall entry, entry ∈ entries -> forall later, later ∈ rest ->
      entry.term <= later.term) : Ascending (entries ++ rest) :=
  List.pairwise_append.mpr ⟨h, hrest, hbetween⟩

theorem restartable_pushBack (h : Restartable n) (entry : LogEntry)
    (hentry : entry.term = n.currentTerm) (hzero : n.currentTerm ≠ 0) :
    (forall other, other ∈ n.log.entries ++ [entry] ->
      other.term ≠ 0 ∧ other.term <= n.currentTerm) ∧
    Ascending (n.log.entries ++ [entry]) := by
  constructor
  · intro other hother
    rcases List.mem_append.mp hother with hold | hnew
    · exact h.terms other hold
    · rw [List.mem_singleton.mp hnew, hentry]
      exact ⟨hzero, le_refl _⟩
  · apply h.ascending.append (List.pairwise_singleton _ _)
    intro other hother later hlater
    rw [List.mem_singleton.mp hlater, hentry]
    exact (h.terms other hother).right

theorem term_le_previous {sender : NodeId} {request : AppendEntriesRequest}
    (h : Ascending n.log.entries) (haccepts : Accepts call n sender request)
    {entry : LogEntry}
    (hentry : entry ∈ n.log.entries.take request.previousLogIndex) :
    request.previousLogIndex ≠ 0 ∧ entry.term <= request.previousLogTerm := by
  rcases List.mem_iff_getElem?.mp hentry with ⟨index, hindex⟩
  rw [List.getElem?_take] at hindex
  split at hindex
  · rename_i hlt
    have hpositive : request.previousLogIndex ≠ 0 := Nat.ne_zero_of_lt hlt
    refine ⟨hpositive, ?_⟩
    have hprevious := haccepts.previous_eq.resolve_left hpositive
    rcases Nat.exists_eq_succ_of_ne_zero hpositive with ⟨last, hlast⟩
    rw [hlast, Log.at?_succ] at hprevious
    rcases Option.map_eq_some_iff.mp hprevious with ⟨previous, hlookup, hterm⟩
    rw [← hterm]
    rcases Nat.lt_or_ge index last with hbefore | hafter
    · rcases List.getElem?_eq_some_iff.mp hindex with ⟨hi, rfl⟩
      rcases List.getElem?_eq_some_iff.mp hlookup with ⟨hj, rfl⟩
      exact List.pairwise_iff_getElem.mp h index last hi hj hbefore
    · have hsame : index = last := by
        lia
      rw [hsame, hlookup] at hindex
      cases hindex
      exact le_refl _
  · cases hindex

theorem restartable_durable (h : Restartable n) (hwell : WellFormed n)
    (hpending : Pending call start n) (hcontinues : call.Continues start)
    (hadvances : call.Advances) (hdurable : Durable call n n') : Restartable n' := by
  cases hdurable with
  | adopt hinbox hterm =>
      refine ⟨trivial, ?_, h.ascending, fun hstate => absurd rfl hstate⟩
      intro entry hentry
      rcases h.terms entry hentry with ⟨hzero, hle⟩
      exact ⟨hzero, hle.trans hterm.le⟩
  | campaign hinbox hproposal hterm hstate =>
      have hlt : n.currentTerm < n.currentTerm + 1 := by
        apply term_lt_succ
        rw [hterm]
        exact hadvances hinbox hproposal
      have hself : n.config.nodeId ∈ n.members := self_mem_members hwell
      refine ⟨hself, ?_, h.ascending, fun _ => hlt.ne_bot⟩
      intro entry hentry
      rcases h.terms entry hentry with ⟨hzero, hle⟩
      exact ⟨hzero, hle.trans hlt.le⟩
  | elect hstate hquorum hcall hproposal hinbox =>
      have hzero : n.currentTerm ≠ 0 := by
        apply h.active
        rw [hstate]
        decide
      rcases restartable_pushBack h ⟨n.currentTerm, [], true⟩ rfl hzero with
        ⟨hterms, hascending⟩
      exact ⟨h.vote, hterms, hascending, fun _ => hzero⟩
  | vote hhandles hcandidate hterm hnone hcurrent =>
      exact ⟨mem_members_of_peer hwell hhandles.right, h.terms, h.ascending,
        h.active⟩
  | @rewrite sender request haccepts hnew hkept =>
      have hordered := hcontinues _ _ haccepts.handles.left
        (rewrites_of_accepts hpending haccepts hnew hkept)
      refine ⟨h.vote, ?_, ?_, h.active⟩
      · intro entry hentry
        rcases List.mem_append.mp hentry with hold | hnew
        · exact h.terms entry (List.mem_of_mem_take hold)
        · rcases haccepts.entries_valid entry hnew with ⟨hzero, hle⟩
          rw [haccepts.current] at hle
          exact ⟨hzero, hle⟩
      · apply Ascending.append (h.ascending.sublist (List.take_sublist _ _))
          hordered.left
        intro entry hentry later hlater
        rcases term_le_previous h.ascending haccepts hentry with
          ⟨hpositive, hle⟩
        exact hle.trans (hordered.right hpositive later hlater)
  | @propose command hinbox hproposal hstate =>
      have hzero : n.currentTerm ≠ 0 := by
        apply h.active
        rw [hstate]
        decide
      rcases restartable_pushBack h ⟨n.currentTerm, command, false⟩ rfl hzero with
        ⟨hterms, hascending⟩
      exact ⟨h.vote, hterms, hascending, h.active⟩

theorem restartable_drained {output : Output} (h : Restartable n)
    (hdrained : Drained n output n') : Restartable n' := by
  rw [hdrained.same]
  exact ⟨h.vote, h.terms, h.ascending, h.active⟩

/-!
# Saves that succeed
-/

section Saving

variable [RaftStorage storage]

theorem mirrored_of_clean (h : Clean start n) (hstart : Mirrored start) :
    Mirrored n := by
  rcases h with hmirrored | hunaltered
  · exact hmirrored
  · unfold Mirrored
    rw [hunaltered.storage_eq, hunaltered.state_eq]
    exact hstart

theorem clean_path [LawfulRaftStorage storage] (h : Clean start n)
    (hpath : Path call n n') : Clean start n' := by
  induction hpath with
  | refl => exact h
  | tail _ haction ih => exact clean_action ih haction

theorem path_of_explained {result : Type} {r : Except Fault result}
    (hexplained : Explained call n r n')
    (hsaves : forall cause, r ≠ .error (.storage cause)) : Path call n n' := by
  cases hexplained with
  | returns hpath | refused hpath => exact hpath
  | @interrupted cause _ _ hpath hinterrupted => exact absurd rfl (hsaves cause)

section Operations

variable [RandomEngine random]

def SavesSucceed (n : RaftNode storage random) (op : Operation) : Prop :=
  forall cause, (outcome op.perform n).1 ≠ .error (.storage cause)

theorem savesSucceed_of_save_ok
    (hok : forall state (s : storage), exists s',
      RaftStorage.save state s = (.ok (), s'))
    (h : WellFormed n) (op : Operation) : SavesSucceed n op := by
  intro cause hcause
  have hexplained := (ensures_perform h op).explained
  rw [hcause] at hexplained
  cases hexplained with
  | interrupted hpath hinterrupted =>
      rcases hinterrupted with ⟨_, middle, _, cause', store, hfailed, _⟩
      rcases hok middle.persistentState middle.storage with ⟨store', hsaved⟩
      rw [hsaved] at hfailed
      cases hfailed
  | refused hpath hrefusal => cases hrefusal

theorem throughout_savesSucceed
    (hok : forall state (s : storage), exists s',
      RaftStorage.save state s = (.ok (), s'))
    (h : WellFormed n) (ops : List Operation) :
    RaftNode.Throughout SavesSucceed n ops := by
  induction ops generalizing n with
  | nil => trivial
  | cons op rest ih =>
      constructor
      · exact savesSucceed_of_save_ok hok h op
      · exact ih (perform_spec h op).left

theorem perform_keeps {op : Operation} {inv : RaftNode storage random -> Prop}
    (h : WellFormed n) (hsaves : SavesSucceed n op)
    (hpath : forall n', Path (op.call n) n n' -> inv n')
    (hdrained : forall n' output n'', inv n' -> Drained n' output n'' -> inv n'') :
    inv (outcome op.perform n).2 := by
  rcases ensures_perform h op with ⟨hexplained, hqueues⟩
  exact hdrained _ _ _ (hpath _ (path_of_explained hexplained hsaves)) hqueues

theorem storage_perform {op : Operation} {kept : storage -> Prop}
    (hsave : forall state s, kept s -> kept (RaftStorage.save state s).2)
    (h : WellFormed n) (hkept : kept n.storage) :
    kept (outcome op.perform n).2.storage := by
  have hpath : forall n', Path (op.call n) n n' -> kept n'.storage := by
    intro n' hpath
    induction hpath with
    | refl => exact hkept
    | tail _ haction ih =>
        cases haction with
        | volatile hvolatile =>
            rw [(persistentState_volatile hvolatile).left]
            exact ih
        | @durable middle hquiet hdurable hsaved =>
            rcases hsaved with ⟨store, hstore, rfl⟩
            have hstorage := hsave middle.persistentState _ ih
            rw [← (storage_durable hdurable).left, hstore] at hstorage
            exact hstorage
  rcases ensures_perform h op with ⟨hexplained, hdrained⟩
  rw [hdrained.same]
  show kept (op.handled n).storage
  generalize op.handled n = handled at hexplained
  generalize (outcome op.perform n).1 = r at hexplained
  cases hexplained with
  | returns hreturns | refused hreturns => exact hpath _ hreturns
  | interrupted hbefore hinterrupted =>
      rcases hinterrupted with ⟨_, middle, hdurable, cause, store, hstore, rfl⟩
      have hstorage := hsave middle.persistentState _ (hpath _ hbefore)
      rw [← (storage_durable hdurable).left, hstore] at hstorage
      exact hstorage

theorem storage_after {kept : storage -> Prop}
    (hsave : forall state s, kept s -> kept (RaftStorage.save state s).2)
    (h : WellFormed n) (hkept : kept n.storage) (ops : List Operation) :
    kept (n.after ops).storage := by
  induction ops generalizing n with
  | nil => exact hkept
  | cons op rest ih =>
      apply ih (perform_spec h op).left
      exact storage_perform hsave h hkept

theorem mirrored_perform [LawfulRaftStorage storage] {op : Operation}
    (h : WellFormed n) (hmirrored : Mirrored n) (hsaves : SavesSucceed n op) :
    Mirrored (outcome op.perform n).2 := by
  apply perform_keeps h hsaves
  · intro n' hpath
    exact mirrored_of_clean (clean_path (Or.inr (.refl n)) hpath) hmirrored
  · intro n' output n'' hmirrored' hdrained
    rw [hdrained.same]
    exact hmirrored'

theorem mirrored_after [LawfulRaftStorage storage] (h : WellFormed n)
    (hmirrored : Mirrored n) (ops : List Operation)
    (hsaves : RaftNode.Throughout SavesSucceed n ops) : Mirrored (n.after ops) := by
  induction ops generalizing n with
  | nil => exact hmirrored
  | cons op rest ih =>
      apply ih (perform_spec h op).left
      · exact mirrored_perform h hmirrored hsaves.left
      · exact hsaves.right

end Operations

theorem restartable_volatile (h : Restartable n)
    (hvolatile : Volatile call n n') : Restartable n' := by
  cases hvolatile with
  | follow =>
      exact ⟨h.vote, h.terms, h.ascending, fun hstate => absurd rfl hstate⟩
  | timer | tally | emit | replicate | record | retry | raise =>
      exact ⟨h.vote, h.terms, h.ascending, h.active⟩

theorem pending_volatile (h : Pending call start n) (hvolatile : Volatile call n n') :
    Pending call start n' := by
  intro message request hinbox hrpc
  cases hvolatile with
  | timer | follow | tally | emit | replicate | record | retry =>
      rcases h message request hinbox hrpc with ⟨hconfig, hlog, hcommit, hterm⟩ | hheld
      · exact Or.inl ⟨hconfig, hlog, hcommit, hterm⟩
      · exact Or.inr hheld
  | raise _ _ hmay =>
      cases hmay with
      | confirmed _ _ _ _ hcall => exact absurd ⟨message, request, hinbox, hrpc⟩ hcall
      | announced haccepts hcontains _ =>
          rw [haccepts.handles.left] at hinbox
          cases hinbox
          cases hrpc
          exact Or.inr hcontains

theorem pending_path (hpath : Path call n n') : Pending call n n' := by
  induction hpath with
  | refl =>
      intro _ _ _ _
      exact Or.inl ⟨rfl, rfl, rfl, le_refl _⟩
  | tail _ haction ih =>
      cases haction with
      | volatile hvolatile => exact pending_volatile ih hvolatile
      | durable _ hdurable hsaved =>
          have hmiddle := pending_durable ih hdurable
          rcases hsaved with ⟨store, _, rfl⟩
          intro message request hinbox hrpc
          rcases hmiddle message request hinbox hrpc with
            ⟨hconfig, hlog, hcommit, hterm⟩ | hheld
          · exact Or.inl ⟨hconfig, hlog, hcommit, hterm⟩
          · exact Or.inr hheld

theorem restartable_path (h : Restartable n) (hwell : WellFormed n)
    (hcontinues : call.Continues n) (hadvances : call.Advances)
    (hpath : Path call n n') : Restartable n' := by
  induction hpath with
  | refl => exact h
  | tail hbefore haction ih =>
      cases haction with
      | volatile hvolatile => exact restartable_volatile ih hvolatile
      | durable hquiet hdurable hsaved =>
          have hwell' := (wellFormed_path hwell hbefore).left
          have hmiddle := restartable_durable ih hwell' (pending_path hbefore)
            hcontinues hadvances hdurable
          rcases hsaved with ⟨store, _, rfl⟩
          exact ⟨hmiddle.vote, hmiddle.terms, hmiddle.ascending, hmiddle.active⟩

section Operations

variable [RandomEngine random]

/-!
# Ticks
-/

structure Elects (n : RaftNode storage random) (elapsed : Int) : Prop where
  nonneg : 0 <= elapsed
  waits : n.state ≠ .leader
  due : n.electionTimeout - n.electionElapsed <= elapsed

structure Beats (n : RaftNode storage random) (elapsed : Int) : Prop where
  nonneg : 0 <= elapsed
  leads : n.state = .leader
  due : n.config.heartbeatInterval - n.heartbeatElapsed <= elapsed

/-- A tick that starts an election in the last term. -/
def Wraps (n : RaftNode storage random) (op : Operation) : Prop :=
  exists elapsed, op = .tick elapsed ∧ Elects n elapsed ∧
    n.currentTerm = 18446744073709551615

theorem ensures_tick_cases {elapsed : Int}
    {post : Except Fault Unit -> RaftNode storage random -> Prop}
    (hrefused : elapsed < 0 ->
      post (.error (.invalidArgument "elapsed time must not be negative")) n)
    (hbeats : Beats n elapsed ->
      Ensures broadcastAppendEntriesLocked { n with heartbeatElapsed := 0 } post)
    (hbeaten : 0 <= elapsed -> n.state = .leader -> ¬ Beats n elapsed ->
      post (.ok ()) { n with heartbeatElapsed := n.heartbeatElapsed + elapsed })
    (helects : Elects n elapsed -> Ensures startElectionLocked n post)
    (hwaits : 0 <= elapsed -> n.state ≠ .leader -> ¬ Elects n elapsed ->
      post (.ok ()) { n with electionElapsed := n.electionElapsed + elapsed }) :
    Ensures (RaftNode.tick elapsed) n post := by
  unfold RaftNode.tick
  split
  · rename_i hnegative
    exact hrefused hnegative
  · rename_i hnonneg
    rw [not_lt] at hnonneg
    rw [ensures_bind, ensures_get, continues_ok]
    split
    · rename_i hleads
      split
      · rename_i hdue
        rw [ensures_bind, ensures_modify, continues_ok]
        exact hbeats ⟨hnonneg, hleads, hdue⟩
      · rename_i hearly
        exact hbeaten hnonneg hleads fun hbeats => hearly hbeats.due
    · rename_i hstate
      split
      · rename_i hdue
        exact helects ⟨hnonneg, hstate, hdue⟩
      · rename_i hearly
        exact hwaits hnonneg hstate fun helects => hearly helects.due

theorem ensures_tick_of_not_elects {elapsed : Int} (hquiet : ¬ Elects n elapsed) :
    Ensures (RaftNode.tick elapsed) n (fun _ n' =>
      n'.persistentState = n.persistentState ∧ n'.members = n.members ∧
        n'.state = n.state) := by
  apply ensures_tick_cases
  · intro _
    exact ⟨rfl, rfl, rfl⟩
  · intro _
    have hkept : Preserves
        (fun n : RaftNode storage random => (n.persistentState, n.members, n.state))
        (broadcastAppendEntriesLocked : NodeM storage random Unit) :=
      preserves_broadcastAppendEntriesLocked fun _ _ _ => rfl
    apply ensures_mono (hkept { n with heartbeatElapsed := 0 })
    intro r n' hview
    rcases Prod.mk.inj hview with ⟨hstate, hrest⟩
    exact ⟨hstate, Prod.mk.inj hrest⟩
  · intro _ _ _
    exact ⟨rfl, rfl, rfl⟩
  · intro helects
    exact absurd helects hquiet
  · intro _ _ _
    exact ⟨rfl, rfl, rfl⟩

theorem restartable_tick {elapsed : Int} (h : Restartable n)
    (hquiet : ¬ Elects n elapsed) :
    Restartable (outcome (Operation.tick elapsed).perform n).2 := by
  have hensures := ensures_tick_of_not_elects hquiet
  unfold Ensures at hensures
  simp only [Operation.perform, outcome_bind_pure]
  rcases hensures with ⟨hpersistent, hmembers, hstate⟩
  rcases PersistentState.mk.inj hpersistent with ⟨hterm, hvote, hlog⟩
  constructor
  case vote =>
    rw [hmembers, hvote]
    exact h.vote
  case terms =>
    rw [hlog, hterm]
    exact h.terms
  case ascending =>
    rw [hlog]
    exact h.ascending
  case active =>
    rw [hstate, hterm]
    exact h.active

/-!
# Operations
-/

/-- Log rewrites continue the terms, and the term does not wrap around. -/
structure Orderly (n : RaftNode storage random) (op : Operation) : Prop where
  continues : (op.call n).Continues n
  advances : ¬ Wraps n op

theorem restartable_perform {op : Operation} (h : Restartable n)
    (hwell : WellFormed n) (hsaves : SavesSucceed n op) (horderly : Orderly n op) :
    Restartable (outcome op.perform n).2 := by
  have hkeeps : (op.call n).Advances -> Restartable (outcome op.perform n).2 := by
    intro hadvances
    apply perform_keeps hwell hsaves
    · intro n' hpath
      exact restartable_path h hwell horderly.continues hadvances hpath
    · intro n' output n'' h' hdrained
      exact restartable_drained h' hdrained
  cases op with
  | tick elapsed =>
      by_cases helects : Elects n elapsed
      · apply hkeeps
        intro _ _ hlast
        exact horderly.advances ⟨elapsed, rfl, helects, hlast⟩
      · exact restartable_tick h helects
  | step message => exact hkeeps fun hinbox => nomatch hinbox
  | handleRequest message => exact hkeeps fun hinbox => nomatch hinbox
  | propose command => exact hkeeps fun _ hproposal => nomatch hproposal
  | takeMessages =>
      exact restartable_drained h (ensures_perform hwell .takeMessages).drained
  | takeCommittedEntries =>
      exact restartable_drained h
        (ensures_perform hwell .takeCommittedEntries).drained

theorem restartable_after (h : Restartable n) (hwell : WellFormed n)
    (ops : List Operation) (hsaves : RaftNode.Throughout SavesSucceed n ops)
    (horderly : RaftNode.Throughout Orderly n ops) :
    Restartable (n.after ops) := by
  induction ops generalizing n with
  | nil => exact h
  | cons op rest ih =>
      apply ih
      · exact restartable_perform h hwell hsaves.left horderly.left
      · exact (perform_spec hwell op).left
      · exact hsaves.right
      · exact horderly.right

/-!
# The constructor
-/

theorem accepted_of_create {config : RaftConfig} {store : storage}
    (hcreate : RaftNode.create config store = .ok n) :
    Accepted config store n.persistentState := by
  rcases create_eq_ok_iff.mp hcreate with ⟨persisted, haccepted, rfl⟩
  exact haccepted

def LogIsValid (persisted : PersistentState) : Prop :=
  (forall entry, entry ∈ persisted.log ->
    entry.term ≠ 0 ∧ entry.term <= persisted.currentTerm) ∧
  Ascending persisted.log

theorem logIsValid_iff {persisted : PersistentState} :
    RaftNode.validateLog persisted.currentTerm 0 persisted.log = .ok () <->
      LogIsValid persisted := by
  rw [validateLog_eq_ok_iff]
  unfold LogIsValid
  apply and_congr_left
  intro _
  apply forall_congr'
  intro entry
  have hleast : 0 <= entry.term := bot_le
  simp [hleast]

theorem validateLog_eq_error {currentTerm previousTerm : Term} {entries : List LogEntry}
    {fault : Fault}
    (herror : RaftNode.validateLog currentTerm previousTerm entries = .error fault) :
    fault = .raftError "persisted Raft log is invalid" := by
  induction entries generalizing previousTerm with
  | nil => cases herror
  | cons entry rest ih =>
      unfold RaftNode.validateLog at herror
      split at herror
      · cases herror
        rfl
      · exact ih herror

/-- How the constructor refuses what it is given to load. -/
inductive RefusesLoaded (config : RaftConfig) :
    Except StorageFault PersistentState -> Fault -> Prop where
  | load (cause : StorageFault) : RefusesLoaded config (.error cause) (.storage cause)
  | vote {persisted : PersistentState}
      (hvote : ¬ RaftNode.VoteIsMember (insert config.nodeId config.peers.toFinset)
        persisted.votedFor) :
      RefusesLoaded config (.ok persisted)
        (.raftError "persisted vote references a non-member")
  | log {persisted : PersistentState}
      (hvote : RaftNode.VoteIsMember (insert config.nodeId config.peers.toFinset)
        persisted.votedFor)
      (hlog : ¬ LogIsValid persisted) :
      RefusesLoaded config (.ok persisted) (.raftError "persisted Raft log is invalid")

/-- A configuration that is valid leaves only what is loaded to be refused. -/
theorem create_eq_error_iff {config : RaftConfig} {store : storage} {fault : Fault}
    (hvalid : RaftNode.validateConfig config = .ok ()) :
    (RaftNode.create config store : Except Fault (RaftNode storage random)) =
        .error fault <->
      RefusesLoaded config (RaftStorage.load store) fault := by
  unfold RaftNode.create
  simp only [bind, Except.bind, hvalid]
  cases RaftStorage.load store with
  | error cause =>
      constructor
      · intro h
        cases h
        constructor
      · intro h
        cases h
        rfl
  | ok persisted =>
      simp only
      split
      · rename_i hvote
        cases hlog : RaftNode.validateLog persisted.currentTerm 0 persisted.log with
        | ok _ =>
            constructor
            · intro h
              cases h
            · intro h
              cases h with
              | vote hother => exact absurd hvote hother
              | log _ hother => exact absurd (logIsValid_iff.mp hlog) hother
        | error cause =>
            have hinvalid : ¬ LogIsValid persisted := by
              intro h
              rw [logIsValid_iff.mpr h] at hlog
              cases hlog
            rw [validateLog_eq_error hlog]
            constructor
            · intro h
              cases h
              exact .log hvote hinvalid
            · intro h
              cases h with
              | vote hother => exact absurd hvote hother
              | log _ _ => rfl
      · rename_i hvote
        constructor
        · intro h
          cases h
          exact .vote hvote
        · intro h
          cases h with
          | vote _ => rfl
          | log hother _ => exact absurd hother hvote

theorem create_of_accepted {config : RaftConfig} {store : storage}
    {persisted : PersistentState} (h : Accepted config store persisted) :
    exists node : RaftNode storage random,
      RaftNode.create config store = .ok node :=
  ⟨_, create_eq_ok_iff.mpr ⟨persisted, h, rfl⟩⟩

omit [RandomEngine random] in
theorem restartable_of_accepted {config : RaftConfig} {store : storage}
    (hfresh : Fresh config store n)
    (h : Accepted config store n.persistentState) : Restartable n := by
  rcases logIsValid_iff.mp h.log with ⟨hterms, hascending⟩
  refine ⟨?_, hterms, hascending, fun hstate => absurd hfresh.follows hstate⟩
  rw [hfresh.well.members, hfresh.config_eq]
  exact h.vote

omit [RandomEngine random] in
theorem accepted_of_restartable (h : Restartable n) (hwell : WellFormed n)
    (hmirrored : Mirrored n)
    (hconfig : RaftNode.validateConfig n.config = .ok ()) :
    Accepted n.config n.storage n.persistentState := by
  refine ⟨hconfig, hmirrored, ?_, logIsValid_iff.mpr ⟨h.terms, h.ascending⟩⟩
  rw [← hwell.members]
  exact h.vote

/--
A node whose saves succeed can be restarted from its storage after any
operations, provided that the requests for which it rewrites its log continue the
terms and that no election starts in the last term.
-/
theorem restarts_from_storage [LawfulRaftStorage storage] {config : RaftConfig}
    {store : storage} {node : RaftNode storage random}
    (hcreate : RaftNode.create config store = .ok node) (ops : List Operation)
    (hsaves : RaftNode.Throughout SavesSucceed node ops)
    (horderly : RaftNode.Throughout Orderly node ops) :
    (exists node' : RaftNode storage random,
      RaftNode.create config (node.after ops).storage = .ok node') ∧
      Accepted config (node.after ops).storage
        (node.after ops).persistentState := by
  have hfresh := fresh_of_create hcreate
  have haccepted := accepted_of_create hcreate
  have hconfig := config_after hfresh.well ops
  rw [hfresh.config_eq] at hconfig
  have hafter : Accepted (node.after ops).config (node.after ops).storage
      (node.after ops).persistentState := by
    apply accepted_of_restartable
    · exact restartable_after (restartable_of_accepted hfresh haccepted)
        hfresh.well ops hsaves horderly
    · exact wellFormed_after hfresh.well ops
    · exact mirrored_after hfresh.well hfresh.mirrored ops hsaves
    · rw [hconfig]
      exact haccepted.valid
  rw [hconfig] at hafter
  exact ⟨create_of_accepted hafter, hafter⟩

end Operations

end Saving

/-!
# A log that the constructor refuses
-/

def descendingAppend : Message where
  fromNode := 2
  toNode := 1
  rpc := .appendEntriesRequest {
    term := 5
    leaderId := 2
    entries := [{ term := 3, command := [7] }, { term := 2, command := [8] }] }

def lastTermAppend : Message where
  fromNode := 2
  toNode := 1
  rpc := .appendEntriesRequest {
    term := 18446744073709551615
    leaderId := 2
    entries := [{ term := 18446744073709551615, command := [7] }] }

theorem restarts_from_storage_firstAppend :
    exists node : RaftNode InMemoryRaftStorage LeastEngine,
      RaftNode.create { nodeId := 1, peers := [2] } {} = .ok node ∧
      exists node' : RaftNode InMemoryRaftStorage LeastEngine,
        RaftNode.create { nodeId := 1, peers := [2] }
          (node.after [.step firstAppend, .tick 300]).storage = .ok node' := by
  have hcreate : RaftNode.create { nodeId := 1, peers := [2] }
      ({} : InMemoryRaftStorage) =
        .ok (_ : RaftNode InMemoryRaftStorage LeastEngine) := rfl
  refine ⟨_, hcreate, ?_⟩
  refine (restarts_from_storage hcreate [.step firstAppend, .tick 300] ?_ ?_).left
  · exact throughout_savesSucceed (fun state _ => ⟨{ state := state }, rfl⟩)
      (fresh_of_create hcreate).well _
  · refine ⟨⟨?_, ?_⟩, ⟨?_, ?_⟩, trivial⟩
    · intro message request hinbox hrewrites
      have hrpc := hrewrites.rpc
      cases hinbox
      cases hrpc
      exact ⟨by decide, fun hpositive => absurd rfl hpositive⟩
    · intro ⟨elapsed, hop, _⟩
      cases hop
    · intro message request hinbox
      cases hinbox
    · intro ⟨elapsed, _, _, hlast⟩
      exact absurd hlast (by decide)

/--
The handler accepts entries whose terms decrease, and the constructor refuses
them.  A tick in the last term takes the node back to term zero, below the terms
of its log.
-/
theorem restart_refused :
    exists node : RaftNode InMemoryRaftStorage LeastEngine,
      RaftNode.create { nodeId := 1, peers := [2] } {} = .ok node ∧
      RaftNode.Throughout SavesSucceed node [.step descendingAppend] ∧
      (RaftNode.create { nodeId := 1, peers := [2] }
        (node.after [.step descendingAppend]).storage :
          Except Fault (RaftNode InMemoryRaftStorage LeastEngine)) =
        .error (.raftError "persisted Raft log is invalid") ∧
      RaftNode.Throughout SavesSucceed node [.step lastTermAppend, .tick 300] ∧
      (RaftNode.create { nodeId := 1, peers := [2] }
        (node.after [.step lastTermAppend, .tick 300]).storage :
          Except Fault (RaftNode InMemoryRaftStorage LeastEngine)) =
        .error (.raftError "persisted Raft log is invalid") := by
  have hcreate : RaftNode.create { nodeId := 1, peers := [2] }
      ({} : InMemoryRaftStorage) =
        .ok (_ : RaftNode InMemoryRaftStorage LeastEngine) := rfl
  have hsaves := throughout_savesSucceed (fun state _ => ⟨{ state := state }, rfl⟩)
    (fresh_of_create hcreate).well
  exact ⟨_, hcreate, hsaves _, rfl, hsaves _, rfl⟩

end Raft
end FTKV
