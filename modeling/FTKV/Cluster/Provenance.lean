import FTKV.Cluster.Hints
import FTKV.Raft.Proposals

/-!
# Where commands come from

Every command in a log was proposed once, on the leader of its term, at the index
where it stands.  No-ops open terms.  Logs change by proposals, by elections and
by taking over the log of a leader, and each of these keeps both facts.

A crash after the save of a proposal is a restart after the proposal: what the
caller would have been told is what the proposal returns.
-/

namespace FTKV
namespace Raft

open Foundation
open Foundation.Effect
open Consensus

variable {storage random : Type} [RaftStorage storage] [RandomEngine random]
  {membership : Membership} {run : Execution storage random membership}

/-!
# Proposals of a run
-/

/-- At this point of the run the leader of the term is handed the command. -/
structure Proposed (schedule : Schedule run) (j : Nat) (leader : NodeId)
    (command : Command) (index : LogIndex) (term : Term) : Prop where
  member : leader ∈ membership.members
  called : schedule.event j = some (.operation leader (.propose command))
  leads : ((run.states j).nodes leader).state = .leader
  term_eq : ((run.states j).nodes leader).currentTerm = term
  returned : (outcome (RaftNode.propose command)
    ((run.states j).nodes leader)).1 = .ok (some index)

def ProposedOnce (schedule : Schedule run) (k : Nat) (command : Command)
    (index : LogIndex) (term : Term) : Prop :=
  exists j, j < k ∧
    (exists leader, Proposed schedule j leader command index term) ∧
    forall j' leader' command',
      Proposed schedule j' leader' command' index term -> j' = j

/-- Commands were proposed where they stand, and no-ops open their terms. -/
structure Accounted (schedule : Schedule run) (k : Nat) (log : List LogEntry) :
    Prop where
  commands : forall (position : Nat) (entry : LogEntry),
    log[position]? = some entry -> entry.isNoOp = false ->
      exists j leader, j < k ∧
        Proposed schedule j leader entry.command (position + 1) entry.term
  opens : forall (position : Nat) (entry : LogEntry),
    log[position]? = some entry -> entry.isNoOp = true ->
      forall (earlier : Nat) (before : LogEntry), earlier < position ->
        log[earlier]? = some before -> before.term < entry.term

variable {schedule : Schedule run} {j k : Nat} {log : List LogEntry}
  {entry : LogEntry}

theorem accounted_nil : Accounted schedule k [] :=
  ⟨nofun, nofun⟩

theorem accounted_mono (h : Accounted schedule j log) (hjk : j <= k) :
    Accounted schedule k log := by
  refine ⟨?_, h.opens⟩
  intro position entry hentry hcommand
  rcases h.commands position entry hentry hcommand with
    ⟨call, leader, hcall, hproposed⟩
  exact ⟨call, leader, Nat.lt_of_lt_of_le hcall hjk, hproposed⟩

theorem accounted_append (h : Accounted schedule k log)
    (hcommand : entry.isNoOp = false -> exists j leader, j < k ∧
      Proposed schedule j leader entry.command (log.length + 1) entry.term)
    (hopens : entry.isNoOp = true ->
      forall before, before ∈ log -> before.term < entry.term) :
    Accounted schedule k (log ++ [entry]) := by
  have hcases : forall (position : Nat) (other : LogEntry),
      (log ++ [entry])[position]? = some other ->
      log[position]? = some other ∨ (position = log.length ∧ other = entry) := by
    intro position other hother
    rcases Nat.lt_or_ge position log.length with hlt | hge
    · rw [List.getElem?_append_left hlt] at hother
      exact Or.inl hother
    · rw [List.getElem?_append_right hge, List.getElem?_singleton] at hother
      split at hother
      · rename_i hzero
        exact Or.inr ⟨by lia, (Option.some.inj hother).symm⟩
      · cases hother
  constructor
  · intro position other hother hnoop
    rcases hcases position other hother with hold | ⟨rfl, rfl⟩
    · exact h.commands position other hold hnoop
    · exact hcommand hnoop
  · intro position other hother hnoop earlier before hlt hbefore
    rcases hcases position other hother with hold | ⟨rfl, rfl⟩
    · have hlength := length_of_getElem? hold
      rw [List.getElem?_append_left (by lia)] at hbefore
      exact h.opens position other hold hnoop earlier before hlt hbefore
    · rw [List.getElem?_append_left hlt] at hbefore
      exact hopens hnoop before (List.mem_of_getElem? hbefore)

/-!
# One operation
-/

def Shows (schedule : Schedule run) (k : Nat) (w : RaftWorld)
    (request : AppendEntriesRequest) : Prop :=
  exists log, Accounted schedule k log ∧ Rooted w log ∧
    request.previousLogIndex <= log.length ∧
    stampAt log request.previousLogIndex = request.previousLogTerm ∧
    request.entries = log.drop request.previousLogIndex

variable {id : NodeId} {n n' : RaftNode storage random} {w : RaftWorld} {call : Call}

theorem accounted_rewrite {sender : NodeId} {request : AppendEntriesRequest}
    (hrooted : Rooted w n.log.entries) (hshows : Shows schedule k w request)
    (haccepts : Accepts call n sender request) :
    Accounted schedule k
      (n.log.entries.take request.previousLogIndex ++ request.entries) := by
  rcases hshows with ⟨log, haccounted, hlog, hprevious, hstamp, hentries⟩
  have htake : n.log.entries.take request.previousLogIndex =
      log.take request.previousLogIndex := by
    refine rooted_take_eq_of_stampAt hrooted hlog haccepts.previous_le hprevious ?_
    rcases haccepts.previous_eq with hzero | hmatch
    · exact Or.inl hzero
    · rw [hstamp]
      exact Or.inr (stampAt_eq hmatch)
  rw [htake, hentries, List.take_append_drop]
  exact haccounted

theorem accounted_durable (h : Represents membership id n w)
    (hinv : Inv (majority membership.members) w) (hproposal : call.proposal = none)
    (hshows : forall message request, call.inbox = some message ->
      message.rpc = .appendEntriesRequest request -> Shows schedule k w request)
    (haccounted : Accounted schedule k n.log.entries)
    (hdurable : Durable call n n') : Accounted schedule k n'.log.entries := by
  cases hdurable with
  | adopt | campaign | vote => exact haccounted
  | elect hstate =>
      have hopens := hinv.logs.candidate id
      rw [h.replica] at hopens
      have hrole : (replicaOf n).role = .candidate := congrArg roleOf hstate
      exact accounted_append haccounted nofun
        (fun _ before hbefore => hopens before hrole hbefore)
  | rewrite haccepts hnew hkept =>
      exact accounted_rewrite (h.rooted hinv) (hshows _ _ haccepts.handles.left rfl)
        haccepts
  | propose hinbox hcommand hstate =>
      rw [hproposal] at hcommand
      cases hcommand

theorem shows_mono {w' : RaftWorld} {request : AppendEntriesRequest}
    (h : Shows schedule k w request) (hevolves : Evolves w w') :
    Shows schedule k w' request := by
  rcases h with ⟨log, haccounted, hrooted, hshown⟩
  exact ⟨log, haccounted, rooted_mono hevolves hrooted, hshown⟩

/-- What an operation leaves: in memory, or in the storage when a save throws. -/
structure Leaves (schedule : Schedule run) (k : Nat) {result : Type}
    (r : Except Fault result) (n : RaftNode storage random) : Prop where
  memory : (forall cause, r ≠ .error (.storage cause)) ->
    Accounted schedule k n.log.entries
  stored : forall cause, r = .error (.storage cause) -> forall state,
    RaftStorage.load n.storage = .ok state -> Accounted schedule k state.log

section Paths

variable [LawfulRaftStorage storage] (hid : id ∈ membership.members)
  (h : Represents membership id n w) (hinv : Inv (majority membership.members) w)
  (hinbox : forall message, call.inbox = some message -> Backed w message)
  (hbound : call.term ≠ 18446744073709551615) (hproposal : call.proposal = none)
  (hshows : forall message request, call.inbox = some message ->
    message.rpc = .appendEntriesRequest request -> Shows schedule k w request)
  (haccounted : Accounted schedule k n.log.entries)

include hid h hinv hinbox hbound hproposal hshows haccounted

theorem accounted_path (hpath : Path call n n') :
    Accounted schedule k n'.log.entries := by
  induction hpath with
  | refl => exact haccounted
  | @tail middle last hbefore haction ih =>
      cases haction with
      | volatile hvolatile =>
          have hlog : last.log.entries = middle.log.entries :=
            congrArg PersistentState.log (persistentState_volatile hvolatile).right
          rw [hlog]
          exact ih
      | durable hquiet hdurable hsaved =>
          rcases simulate_path hid h hinbox hbound hbefore with ⟨w', hacts, hmiddle⟩
          rcases inv_steps hinv (steps_of_acts hacts) with ⟨hinv', hevolves⟩
          have hchanged := accounted_durable hmiddle hinv' hproposal
            (fun message request hmessage hrpc =>
              shows_mono (hshows message request hmessage hrpc) hevolves) ih hdurable
          rcases hsaved with ⟨store, -, rfl⟩
          exact hchanged

theorem leaves_explained {result : Type} {r : Except Fault result}
    (hexplained : Explained call n r n') : Leaves schedule k r n' := by
  have hkept : forall {middle : RaftNode storage random}, Path call n middle ->
      Accounted schedule k middle.log.entries :=
    fun hpath => accounted_path hid h hinv hinbox hbound hproposal hshows haccounted
      hpath
  cases hexplained with
  | returns hpath => exact ⟨fun _ => hkept hpath, nofun⟩
  | refused hpath hrefusal =>
      refine ⟨fun _ => hkept hpath, ?_⟩
      intro cause hcause
      cases hcause
      cases hrefusal
  | interrupted hpath hinterrupted =>
      refine ⟨fun hne => absurd rfl (hne _), ?_⟩
      intro cause _ state hload
      rcases simulate_path hid h hinbox hbound hpath with ⟨w', -, hmiddle⟩
      rw [load_interrupted hmiddle.mirrored hinterrupted] at hload
      cases hload
      exact hkept hpath

end Paths

/-!
# One event
-/

theorem leaves_mono {result : Type} {r : Except Fault result}
    (h : Leaves schedule j r n) (hjk : j <= k) : Leaves schedule k r n :=
  ⟨fun hne => accounted_mono (h.memory hne) hjk,
    fun cause hcause state hload =>
      accounted_mono (h.stored cause hcause state hload) hjk⟩

theorem shows_of_network (shadow : Shadow run)
    (haccounted : forall j, j <= k -> forall id, id ∈ membership.members ->
      Accounted schedule j ((run.states j).nodes id).log.entries)
    {message : Message} {request : AppendEntriesRequest}
    (hmessage : message ∈ (run.states k).network)
    (hrpc : message.rpc = .appendEntriesRequest request) :
    Shows schedule k (shadow.worlds k) request := by
  rcases exists_announces shadow (Or.inl hmessage) hrpc with
    ⟨j, leader, hjk, hleader, -, hannounces⟩
  refine ⟨_, accounted_mono (haccounted j hjk leader hleader) hjk,
    rooted_mono (shadow.evolves hjk) (shadow.rooted hleader), hannounces.previous_le,
    stampAt_eq hannounces.previous_term, hannounces.entries⟩

section Events

variable [LawfulRaftStorage storage]

theorem leaves_propose (shadow : Shadow run) {command : Command}
    (hid : id ∈ membership.members)
    (hevent : schedule.event k = some (.operation id (.propose command)))
    (haccounted : Accounted schedule k ((run.states k).nodes id).log.entries) :
    Ensures (RaftNode.propose command) ((run.states k).nodes id)
      (Leaves schedule (k + 1)) := by
  have hnode := shadow.represents k hid
  have hlater := accounted_mono haccounted (Nat.le_succ k)
  have hends : Ensures (RaftNode.propose command) _ _ :=
    ensures_propose_ends hnode.well
  unfold Ensures at hends ⊢
  rcases houtcome : outcome (RaftNode.propose command) ((run.states k).nodes id) with
    ⟨r, n'⟩
  rw [houtcome] at hends
  cases hends with
  | declined | full => exact ⟨fun _ => hlater, nofun⟩
  | failed hstate hfailed =>
      refine ⟨fun hne => absurd rfl (hne _), ?_⟩
      intro cause _ state hload
      have hmirrored : RaftStorage.load
          (((run.states k).nodes id).withProposal command).storage = _ :=
        hnode.mirrored
      rw [(load_saveFailed hfailed).left, hmirrored] at hload
      cases hload
      exact hlater
  | appended hstate hoffice =>
      refine ⟨fun _ => ?_, nofun⟩
      have hlog : n'.log.entries = ((run.states k).nodes id).log.entries ++ [_] :=
        congrArg (fun office => office.2.2.entries) hoffice
      rw [hlog]
      refine accounted_append hlater (fun _ => ?_) nofun
      refine ⟨k, id, Nat.lt_succ_self k, hid, hevent, hstate, rfl, ?_⟩
      rw [houtcome, RaftNode.lastLogIndexLocked_eq]

theorem leaves_operation (shadow : Shadow run) {op : Operation}
    (hid : id ∈ membership.members)
    (hevent : schedule.event k = some (.operation id op))
    (hdelivers : (run.states k).delivers op)
    (haccounted : forall j, j <= k -> forall id, id ∈ membership.members ->
      Accounted schedule j ((run.states j).nodes id).log.entries) :
    Ensures op.perform ((run.states k).nodes id) (Leaves schedule (k + 1)) := by
  have hnode := shadow.represents k hid
  have hlog := haccounted k (Nat.le_refl k) id hid
  by_cases hproposal : op.proposal = none
  · have hmessages : forall message, op.inbox = some message ->
        message ∈ (run.states k).network :=
      fun message hmessage => Cluster.mem_network_of_delivers hdelivers hmessage
    rcases ensures_perform hnode.well op with ⟨hexplained, hdrained⟩
    have hleaves := leaves_explained hid hnode (shadow.inv k)
      (fun message hmessage => (shadow.refines k).network message
        (hmessages message hmessage))
      (run.terms k id hid) hproposal
      (fun message request hmessage hrpc =>
        shows_of_network shadow haccounted (hmessages message hmessage) hrpc)
      hlog hexplained
    unfold Ensures
    rw [hdrained.same]
    exact leaves_mono ⟨hleaves.memory, hleaves.stored⟩ (Nat.le_succ k)
  · cases op with
    | propose command =>
        refine ensures_bind_of (leaves_propose shadow hid hevent hlog) ?_ ?_
        · intro value n' hleaves
          exact ⟨fun _ => hleaves.memory nofun, nofun⟩
        · intro fault n' hleaves
          refine ⟨fun hne => hleaves.memory ?_, ?_⟩
          · intro cause hcause
            cases hcause
            exact hne cause rfl
          · intro cause hcause
            cases hcause
            exact hleaves.stored cause rfl
    | tick | step | handleRequest | takeMessages | takeCommittedEntries =>
        exact absurd rfl hproposal

theorem accounted_succ (shadow : Shadow run)
    (haccounted : forall j, j <= k -> forall id, id ∈ membership.members ->
      Accounted schedule j ((run.states j).nodes id).log.entries)
    (hid : id ∈ membership.members) :
    Accounted schedule (k + 1) ((run.states (k + 1)).nodes id).log.entries := by
  have hlog := accounted_mono (haccounted k (Nat.le_refl k) id hid) (Nat.le_succ k)
  have hmoved := (schedule.advances shadow k).members id hid
  generalize (run.states (k + 1)).nodes id = node at hmoved
  cases hmoved with
  | idle => exact hlog
  | operated hevent hdelivers hreturns =>
      exact (leaves_operation shadow hid hevent hdelivers haccounted).memory hreturns
  | rebuilt hstore hcreate =>
      have hfresh := fresh_of_create hcreate
      have hload := hfresh.mirrored
      unfold Mirrored at hload
      rw [hfresh.storage_eq] at hload
      cases hstore with
      | idle =>
          rw [(shadow.represents k hid).mirrored] at hload
          have hsame : node.log.entries = _ :=
            congrArg PersistentState.log (Except.ok.inj hload).symm
          rw [hsame]
          exact hlog
      | operating hevent hdelivers hfault =>
          exact (leaves_operation shadow hid hevent hdelivers haccounted).stored _
            hfault _ hload

theorem accounted_run (shadow : Shadow run) (schedule : Schedule run) (k : Nat) :
    forall id, id ∈ membership.members ->
      Accounted schedule k ((run.states k).nodes id).log.entries := by
  induction k using Nat.strong_induction_on with
  | h k ih =>
      intro id hid
      cases k with
      | zero =>
          rcases run.starts.nodes id hid with ⟨store, hload, hcreate⟩
          have hreplica := (fresh_of_create hcreate).replica_eq hload
          have hlog : ((run.states 0).nodes id).log.entries = [] :=
            congrArg Replica.log hreplica
          rw [hlog]
          exact accounted_nil
      | succ k =>
          exact accounted_succ shadow (fun j hjk => ih j (Nat.lt_succ_of_le hjk)) hid

end Events

/-!
# Whole runs
-/

theorem lead_length_of_proposed (shadow : Shadow run) {leader : NodeId}
    {command : Command} {index : LogIndex} {term : Term}
    (h : Proposed schedule j leader command index term) :
    ((shadow.worlds j).lead term).length + 1 = index ∧
      Won (shadow.worlds (j + 1)) term ∧
      ((shadow.worlds (j + 1)).lead term).length = index := by
  rcases h with ⟨hmember, hcalled, hleads, rfl, hreturned⟩
  have hends : Ensures (RaftNode.propose command) _ _ :=
    ensures_propose_ends (shadow.represents j hmember).well
  unfold Ensures at hends
  rcases houtcome : outcome (RaftNode.propose command)
    ((run.states j).nodes leader) with ⟨r, n'⟩
  rw [houtcome] at hends hreturned
  cases hreturned
  have hperform : outcome (Operation.propose command).perform
      ((run.states j).nodes leader) = (.ok {}, n') := by
    show outcome (RaftNode.propose command >>= fun _ => pure ({} : Output)) _ = _
    rw [outcome_bind, houtcome]
    rfl
  cases hends with
  | appended hstate hoffice =>
      have hnext := schedule.operated hcalled (by rw [hperform]; exact nofun)
      rw [hperform] at hnext
      rw [← hnext] at hoffice
      have hstate' : ((run.states (j + 1)).nodes leader).state = .leader :=
        (congrArg Prod.fst hoffice).trans hleads
      have hterm : ((run.states (j + 1)).nodes leader).currentTerm =
          ((run.states j).nodes leader).currentTerm :=
        congrArg (fun office => office.2.1) hoffice
      have hlog : ((run.states (j + 1)).nodes leader).log.entries = _ ++ [_] :=
        congrArg (fun office => office.2.2.entries) hoffice
      have hafter := shadow.leader hmember hstate'
      rw [hterm, hlog] at hafter
      refine ⟨?_, ⟨leader, hafter.left⟩, ?_⟩
      · rw [(shadow.leader hmember hleads).right, RaftNode.lastLogIndexLocked_eq]
      · rw [hafter.right, RaftNode.lastLogIndexLocked_eq, List.length_append]
        rfl

theorem proposed_unique (shadow : Shadow run) {j' : Nat} {leader leader' : NodeId}
    {command command' : Command} {index : LogIndex} {term : Term}
    (h : Proposed schedule j leader command index term)
    (h' : Proposed schedule j' leader' command' index term) : j = j' := by
  -- The leadership of the term only grows, and each call makes it longer.
  have hlater : forall {a b : Nat}, a < b ->
      (Won (shadow.worlds (a + 1)) term ∧
        ((shadow.worlds (a + 1)).lead term).length = index) ->
      ((shadow.worlds b).lead term).length + 1 ≠ index := by
    intro a b hab hafter hbefore
    have hgrown := ((shadow.evolves hab).lead term hafter.left).length_le
    lia
  have hlength := lead_length_of_proposed shadow h
  have hlength' := lead_length_of_proposed shadow h'
  rcases Nat.lt_trichotomy j j' with hlt | heq | hgt
  · exact absurd hlength'.left (hlater hlt hlength.right)
  · exact heq
  · exact absurd hlength.left (hlater hgt hlength'.right)

theorem proposedOnce_of_accounted (shadow : Shadow run) {position : Nat}
    (h : Accounted schedule k log) (hentry : log[position]? = some entry)
    (hcommand : entry.isNoOp = false) :
    ProposedOnce schedule k entry.command (position + 1) entry.term := by
  rcases h.commands position entry hentry hcommand with ⟨j, leader, hjk, hproposed⟩
  refine ⟨j, hjk, ⟨leader, hproposed⟩, ?_⟩
  intro j' leader' command' hproposed'
  exact proposed_unique shadow hproposed' hproposed

/-- A no-op stands at or before every entry of its term, in whichever logs. -/
theorem position_le_of_noOp {log' : List LogEntry} {position position' : Nat}
    {entry' : LogEntry} (hrooted : Rooted w log) (hrooted' : Rooted w log')
    (haccounted : Accounted schedule k log')
    (hentry : log[position]? = some entry)
    (hentry' : log'[position']? = some entry') (hnoop : entry'.isNoOp = true)
    (hterm : entry.term = entry'.term) : position' <= position := by
  by_contra hafter
  have hlt : position < position' := Nat.lt_of_not_le hafter
  have hheld := rooted_getElem?_eq hrooted hrooted' hentry hentry' hlt.le hterm
  exact absurd hterm
    (haccounted.opens position' entry' hentry' hnoop position entry hlt hheld).ne

theorem noOp_position_unique [LawfulRaftStorage storage] (shadow : Shadow run)
    {a b : NodeId} (ha : a ∈ membership.members) (hb : b ∈ membership.members)
    {j' : Nat} {position position' : Nat} {entry' : LogEntry}
    (hentry : ((run.states j).nodes a).log.entries[position]? = some entry)
    (hentry' : ((run.states j').nodes b).log.entries[position']? = some entry')
    (hnoop : entry.isNoOp = true) (hnoop' : entry'.isNoOp = true)
    (hterm : entry.term = entry'.term) : position = position' := by
  rcases exists_schedule run with ⟨schedule⟩
  have hrooted := rooted_mono (shadow.evolves (le_max_left j j')) (shadow.rooted ha)
  have hrooted' := rooted_mono (shadow.evolves (le_max_right j j')) (shadow.rooted hb)
  apply Nat.le_antisymm
  · exact position_le_of_noOp hrooted' hrooted (accounted_run shadow schedule j a ha)
      hentry' hentry hnoop hterm.symm
  · exact position_le_of_noOp hrooted hrooted' (accounted_run shadow schedule j' b hb)
      hentry hentry' hnoop' hterm

/--
Commands are neither invented nor duplicated nor moved: every command in a log
and every published command was proposed by exactly one call, on the leader of
its term, and the call returned the index where the command stands.  No two calls
share an index and term, and each term has its no-op at one index.
-/
theorem commands_proposed_once [LawfulRaftStorage storage]
    (run : Execution storage random membership) (schedule : Schedule run) :
    (forall k id, id ∈ membership.members ->
      (forall index entry, 0 < index ->
        ((run.states k).nodes id).log.at? index = some entry ->
          entry.isNoOp = false ->
            ProposedOnce schedule k entry.command index entry.term) ∧
      forall published, published ∈ ((run.states k).nodes id).committedEntries ->
        ProposedOnce schedule k published.command published.index published.term) ∧
      (forall j j' leader leader' command command' index term,
        Proposed schedule j leader command index term ->
          Proposed schedule j' leader' command' index term -> j = j') ∧
      forall a b, a ∈ membership.members -> b ∈ membership.members ->
        forall j k index index' entry entry',
          ((run.states j).nodes a).log.at? index = some entry ->
            ((run.states k).nodes b).log.at? index' = some entry' ->
              entry.isNoOp = true -> entry'.isNoOp = true ->
                entry.term = entry'.term -> index = index' := by
  rcases exists_shadow run with ⟨shadow⟩
  have hlog : forall k id, id ∈ membership.members -> forall index entry, 0 < index ->
      ((run.states k).nodes id).log.at? index = some entry ->
        entry.isNoOp = false ->
          ProposedOnce schedule k entry.command index entry.term := by
    intro k id hid index entry hpos hentry hcommand
    obtain ⟨position, rfl⟩ := Nat.exists_eq_succ_of_ne_zero (Nat.ne_of_gt hpos)
    rw [Log.at?_succ] at hentry
    exact proposedOnce_of_accounted shadow (accounted_run shadow schedule k id hid)
      hentry hcommand
  refine ⟨fun k id hid => ⟨hlog k id hid, ?_⟩, ?_, ?_⟩
  · intro published hpublished
    rcases at?_of_published (shadow.represents k hid).well hpublished with
      ⟨hpos, -, entry, hentry, hcommand, hterm, hsame⟩
    rw [hterm, hsame]
    exact hlog k id hid published.index entry hpos hentry hcommand
  · intro j j' leader leader' command command' index term h h'
    exact proposed_unique shadow h h'
  · intro a b ha hb j k index index' entry entry' hentry hentry' hnoop hnoop' hterm
    cases index with
    | zero =>
        cases hentry
        cases hnoop
    | succ position =>
        cases index' with
        | zero =>
            cases hentry'
            cases hnoop'
        | succ position' =>
            rw [Log.at?_succ] at hentry hentry'
            exact congrArg Nat.succ
              (noOp_position_unique shadow ha hb hentry hentry' hnoop hnoop' hterm)

def threeSchedule : Schedule threeRun :=
  .ofEvents

theorem commands_proposed_once_threeRun :
    ((threeRun.states 8).nodes 2).log.at? 2 = some { term := 1, command := [42] } ∧
      ProposedOnce threeSchedule 8 [42] 2 1 :=
  ⟨by decide +kernel, ((commands_proposed_once threeRun threeSchedule).left 8 2
    (by decide)).left 2 { term := 1, command := [42] } (by decide) (by decide +kernel)
      rfl⟩

end Raft
end FTKV
