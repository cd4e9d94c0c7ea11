import FTKV.Cluster.Hosts
import FTKV.Raft.Restart

/-!
# Recovery of a host

Whatever an operation of a member of a cluster has saved, the constructor of the
node accepts.  A save of one store leaves the file of the other alone, so a host
always finds two sound snapshots when it starts again.
-/

namespace FTKV
namespace Node

open Foundation
open Foundation.Effect
open Consensus
open Raft
open Storage (CrashDisk Fate FilePersistence KvStore OpenStore Path)

/-!
# Nodes that can be started again
-/

section Recovery

variable {storage random : Type} [RaftStorage storage] {membership : Membership}
  {id : NodeId} {n : RaftNode storage random} {w : RaftWorld}

def Recoverable (config : RaftConfig) (store : storage) : Prop :=
  exists persisted, Accepted config store persisted

theorem recoverable_of_load {config : RaftConfig} {store store' : storage}
    (h : Recoverable config store)
    (hload : RaftStorage.load store' = RaftStorage.load store) :
    Recoverable config store' := by
  rcases h with ⟨persisted, haccepted⟩
  exact ⟨persisted, haccepted.valid, hload.trans haccepted.load, haccepted.vote,
    haccepted.log⟩

theorem ascendingRequest_of_backed
    (hinv : Inv (majority membership.members) w) {message : Message}
    {request : AppendEntriesRequest} (hbacked : Backed w message)
    (hrpc : message.rpc = .appendEntriesRequest request) :
    AscendingRequest request := by
  have hsent := (backed_appendEntriesRequest hbacked hrpc).right.right
  rcases exists_snapshot hinv.logs hsent with ⟨log, hsnapshot⟩
  have hrooted := hsnapshot.rooted hinv.logs
  have hentry : forall position entry,
      request.entries[position]? = some entry ->
        log[request.previousLogIndex + position]? = some entry := by
    intro position entry hposition
    rwa [hsnapshot.getElem?_suffix] at hposition
  constructor
  · apply List.pairwise_iff_getElem.mpr
    intro position later hposition hlater hlt
    exact rooted_stamp_le hinv.reigns hrooted (Nat.add_le_add_left hlt.le _)
      (hentry _ _ (List.getElem?_eq_getElem hposition))
      (hentry _ _ (List.getElem?_eq_getElem hlater))
  · intro hprevious entry hmem
    rcases List.getElem?_of_mem hmem with ⟨position, hposition⟩
    obtain ⟨before, hbefore⟩ := Nat.exists_eq_succ_of_ne_zero hprevious
    have hlength := hsnapshot.previous_le
    have hlt : before < log.length := by
      lia
    have hstamp : request.previousLogTerm = stamp log[before] := by
      rw [hsnapshot.stamp_eq, hbefore]
      exact stampAt_succ (List.getElem?_eq_getElem hlt)
    rw [hstamp]
    exact rooted_stamp_le hinv.reigns hrooted (by lia)
      (List.getElem?_eq_getElem hlt) (hentry _ _ hposition)

theorem recoverable_of_restartable (h : Represents membership id n w)
    (hrestartable : Restartable n)
    (hvalid : RaftNode.validateConfig (membership.config id) = .ok ()) :
    Recoverable (membership.config id) n.storage := by
  rw [← h.config] at hvalid ⊢
  exact ⟨_, accepted_of_restartable hrestartable h.well h.mirrored hvalid⟩

variable [LawfulRaftStorage storage] [RandomEngine random]

structure Resumes (config : RaftConfig) (r : Except Fault Output)
    (n' : RaftNode storage random) : Prop where
  recoverable : Recoverable config n'.storage
  restartable : (forall cause, r ≠ .error (.storage cause)) -> Restartable n'

theorem ensures_resumes
    (hinv : Inv (majority membership.members) w)
    (h : Represents membership id n w) (hrestartable : Restartable n)
    (hvalid : RaftNode.validateConfig (membership.config id) = .ok ())
    (hbound : n.currentTerm ≠ 18446744073709551615) (op : Operation)
    (hinbox : forall message, op.inbox = some message -> Backed w message) :
    Ensures op.perform n (Resumes (membership.config id)) := by
  have hcontinues : (op.call n).Continues n := by
    intro message request hin hrewrites
    exact ascendingRequest_of_backed hinv (hinbox message hin) hrewrites.rpc
  have hadvances : (op.call n).Advances := fun _ _ => hbound
  -- The constructor accepts the storage of every node on the way.
  have haccepted : forall n', Path (op.call n) n n' ->
      Restartable n' ∧ Mirrored n' ∧
        Accepted (membership.config id) n'.storage n'.persistentState := by
    intro n' hpath
    have hrestartable' := restartable_path hrestartable h.well hcontinues
      hadvances hpath
    have hmirrored := mirrored_of_clean
      (clean_path (Or.inr (.refl n)) hpath) h.mirrored
    rcases wellFormed_path h.well hpath with ⟨hwell, hconfig, _⟩
    rw [h.config] at hconfig
    refine ⟨hrestartable', hmirrored, ?_⟩
    rw [← hconfig]
    apply accepted_of_restartable hrestartable' hwell hmirrored
    rw [hconfig]
    exact hvalid
  rcases ensures_perform h.well op with ⟨hexplained, hdrained⟩
  unfold Ensures
  generalize (outcome op.perform n).1 = r at hexplained hdrained ⊢
  generalize (outcome op.perform n).2 = n' at hdrained ⊢
  generalize op.handled n = handled at hexplained hdrained
  have hstorage : n'.storage = handled.storage := by
    rw [hdrained.same]
  constructor
  · rw [hstorage]
    cases hexplained with
    | returns hpath | refused hpath => exact ⟨_, (haccepted _ hpath).right.right⟩
    | interrupted hpath hinterrupted =>
        rcases haccepted _ hpath with ⟨_, hmirrored, haccepted'⟩
        exact recoverable_of_load ⟨_, haccepted'⟩
          ((load_interrupted hmirrored hinterrupted).trans hmirrored.symm)
  · intro hsaves
    exact restartable_drained
      (haccepted _ (path_of_explained hexplained hsaves)).left hdrained

end Recovery

/-!
# The disk of a host
-/

section Disks

variable {random : Type} [Storage.IterationOrder CrashDisk]
  {membership : Membership} {id : NodeId} {w : RaftWorld}

structure Host.Sound (directory : Path) (host : Host random) : Prop where
  raft : host.node.storage.OpenedOn (raftFile directory)
  keyValue : host.opened.Coherent
  file : host.keyValueStore.persistence = keyValueFile directory

variable {directory : Path} {host : Host random}
  {node : RaftNode (DurableRaftStorage CrashDisk) random}

theorem load_mount (d : CrashDisk) :
    RaftStorage.load (Host.mount node d).storage =
      RaftStorage.load node.storage := by
  rw [DurableRaftStorage.load_eq, DurableRaftStorage.load_eq]
  rfl

omit [Storage.IterationOrder CrashDisk] in
theorem wellFormed_mount (h : WellFormed node) (d : CrashDisk) :
    WellFormed (Host.mount node d) :=
  ⟨h.members, h.self, h.unique, h.applied, h.committed, h.pending, h.votes, h.tracked⟩

theorem represents_mount (h : Represents membership id node w) (d : CrashDisk) :
    Represents membership id (Host.mount node d) w := by
  apply h.step_of_same
  · exact wellFormed_mount h.well d
  · rfl
  · exact (load_mount d).trans h.mirrored
  · exact fun _ hp => hp
  · exact h.replica
  · rfl
  · rfl
  · rfl
  · rfl
  · intro message hmessage
    exact Or.inl hmessage

omit [Storage.IterationOrder CrashDisk] in
theorem restartable_mount (h : Restartable node) (d : CrashDisk) :
    Restartable (Host.mount node d) :=
  ⟨h.vote, h.terms, h.ascending, h.active⟩

theorem openedOn_mount {file : FilePersistence} (h : node.storage.OpenedOn file)
    {d : CrashDisk} (hsame : d.files file.filePath =
      node.storage.opened.disk.files file.filePath) :
    (Host.mount node d).storage.OpenedOn file := by
  constructor
  · apply h.left.onDisk
    rw [h.right]
    exact hsame
  · exact h.right

theorem Host.Sound.onDisk (h : host.Sound directory) {d : CrashDisk}
    (hsame : d.files = host.disk.files) :
    Host.Sound directory { host with node := Host.mount host.node d } := by
  constructor
  · exact openedOn_mount h.raft (congrFun hsame _)
  · exact h.keyValue.onDisk (congrFun hsame _)
  · exact h.file

theorem Host.Sound.meets (h : host.Sound directory) (fates : List Fate) :
    (host.meets fates).Sound directory :=
  h.onDisk rfl

theorem files_save {file : FilePersistence} {other : Path}
    (hfile : other ≠ file.filePath) (htemporary : other ≠ file.temporaryPath)
    (state : PersistentState) (store : DurableRaftStorage CrashDisk)
    (h : store.opened.store.persistence = file) :
    (RaftStorage.save state store).2.opened.disk.files other =
      store.opened.disk.files other := by
  show (DurableRaftStorage.save state store).2.opened.disk.files other = _
  unfold DurableRaftStorage.save
  cases encodeState state with
  | error fault => rfl
  | ok encoded =>
      have hput : Ensures (KvStore.put raftStateKey encoded) store.opened
          (fun _ s' => s'.disk.files other = store.opened.disk.files other) := by
        unfold KvStore.put
        rw [ensures_bind, ensures_get, continues_ok]
        apply OpenStore.files_publish
        · rw [h]
          exact hfile
        · rw [h]
          exact htemporary
      unfold Ensures at hput
      rcases hr : outcome (KvStore.put raftStateKey encoded) store.opened with
        ⟨r, opened⟩
      rw [hr] at hput
      cases r with
      | ok _ =>
          simp only [hr]
          exact hput
      | error fault =>
          simp only [hr]
          exact hput

theorem Host.Sound.serve (h : host.Sound directory) (request : Storage.Request) :
    (host.serve request).2.Sound directory ∧
      OpenStore.Served host.opened request (host.serve request).1
        (host.serve request).2.opened ∧
      exists d, (host.serve request).2.node = Host.mount host.node d := by
  have hserved := OpenStore.ensures_perform request h.keyValue
  rcases raftFile_spared directory with ⟨hfile, htemporary⟩
  rw [← h.file] at hfile htemporary
  have hspared := OpenStore.files_perform (s := host.opened) hfile htemporary
    request
  unfold Ensures at hserved hspared
  unfold Host.serve
  generalize outcome (OpenStore.perform request) host.opened = result
    at hserved hspared ⊢
  rcases result with ⟨r, s⟩
  refine ⟨⟨?_, ?_, ?_⟩, hserved, s.disk, rfl⟩
  · exact openedOn_mount h.raft hspared
  · exact hserved.coherent
  · exact hserved.persistence.trans h.file

def KeepsFiles (directory : Path) (d : CrashDisk)
    (store : DurableRaftStorage CrashDisk) : Prop :=
  store.OpenedOn (raftFile directory) ∧
    store.opened.disk.files (keyValueFile directory).filePath =
      d.files (keyValueFile directory).filePath

theorem keepsFiles_save {d : CrashDisk} (state : PersistentState)
    (store : DurableRaftStorage CrashDisk) (h : KeepsFiles directory d store) :
    KeepsFiles directory d (RaftStorage.save state store).2 := by
  rcases keyValueFile_spared directory with ⟨hfile, htemporary⟩
  constructor
  · exact DurableRaftStorage.openedOn_save state store h.left
  · exact (files_save hfile htemporary state store h.left.right).trans h.right

theorem Host.Sound.operate [RandomEngine random] (h : host.Sound directory)
    (hwell : WellFormed host.node) (op : Operation) :
    (host.operate op).2.Sound directory := by
  have hkept : KeepsFiles directory host.disk (host.operate op).2.node.storage :=
    storage_perform keepsFiles_save hwell ⟨h.raft, rfl⟩
  constructor
  · exact hkept.left
  · apply h.keyValue.onDisk
    show (host.operate op).2.disk.files host.keyValueStore.persistence.filePath =
      host.disk.files host.keyValueStore.persistence.filePath
    rw [h.file]
    exact hkept.right
  · exact h.file

end Disks

/-!
# Starting again
-/

section Starting

variable {random : Type} [Storage.IterationOrder CrashDisk] [RandomEngine random]
  {config : RaftConfig} {directory : Path} {host fresh : Host random}

omit [RandomEngine random] in
theorem files_create (file : FilePersistence) (d : CrashDisk) :
    (outcome (KvStore.create (some file)) d).2.files = d.files := by
  rw [OpenStore.outcome_create]
  exact file.contents_load d

theorem files_of_create {path : Path} {d : CrashDisk}
    {store : DurableRaftStorage CrashDisk}
    (hcreate : DurableRaftStorage.create path d = .ok store) :
    store.opened.disk.files = d.files := by
  unfold DurableRaftStorage.create at hcreate
  split at hcreate
  · cases hcreate
  rename_i file hfile
  have hfiles := files_create file d
  split at hcreate
  · rename_i kept d' hkept
    rw [hkept] at hfiles
    cases hcreate
    exact hfiles
  · cases hcreate

structure Host.Built (config : RaftConfig) (directory : Path)
    (store : DurableRaftStorage CrashDisk) (host : Host random) : Prop where
  sound : host.Sound directory
  created : exists node, RaftNode.create config store = .ok node ∧
    host.node = Host.mount node host.disk

theorem start_eq_some_iff {d : CrashDisk} :
    Host.start config directory d = some host <-> exists store node kept d',
      DurableRaftStorage.create (joinPath directory "raft.snapshot") d = .ok store ∧
      RaftNode.create config store = .ok node ∧
      outcome (KvStore.create (some (keyValueFile directory)))
        node.storage.opened.disk = (.ok kept, d') ∧
      host = ⟨Host.mount node d', kept⟩ := by
  unfold Host.start
  constructor
  · intro hstart
    split at hstart
    · cases hstart
    rename_i store hstore
    split at hstart
    · cases hstart
    rename_i node hnode
    rw [create_keyValueFile] at hstart
    simp only at hstart
    split at hstart
    · rename_i kept d' hkept
      exact ⟨store, node, kept, d', hstore, hnode, hkept, (Option.some.inj hstart).symm⟩
    · cases hstart
  · rintro ⟨store, node, kept, d', hstore, hnode, hkept, rfl⟩
    simp only [hstore, hnode, create_keyValueFile, hkept]

theorem built_of_start {d : CrashDisk}
    (hstart : Host.start config directory d = some host) :
    exists store, DurableRaftStorage.create (joinPath directory "raft.snapshot") d =
      .ok store ∧ host.Built config directory store := by
  rcases start_eq_some_iff.mp hstart with
    ⟨store, node, kept, d', hstore, hnode, hkept, rfl⟩
  have hfiles := files_create (keyValueFile directory) node.storage.opened.disk
  rw [hkept] at hfiles
  rcases DurableRaftStorage.openedOn_of_create hstore with ⟨file, hfile, hopened⟩
  rw [create_raftFile] at hfile
  cases hfile
  rw [← (fresh_of_create hnode).storage_eq] at hopened
  rcases OpenStore.coherent_of_create hkept with ⟨hcoherent, hpersistence⟩
  refine ⟨store, hstore, ⟨?_, hcoherent, hpersistence⟩, node, hnode, rfl⟩
  exact openedOn_mount hopened (congrFun hfiles _)

theorem reopens_of_sound {store : DurableRaftStorage CrashDisk}
    {node : RaftNode (DurableRaftStorage CrashDisk) random} (h : host.Sound directory)
    (hstore : DurableRaftStorage.create (joinPath directory "raft.snapshot")
      host.disk.restart = .ok store)
    (hnode : RaftNode.create config store = .ok node) :
    exists d', outcome (KvStore.create (some (keyValueFile directory)))
      node.storage.opened.disk = (.ok host.keyValueStore, d') := by
  have hfiles : node.storage.opened.disk.files = host.disk.files := by
    have hopened := files_of_create hstore
    rw [(fresh_of_create hnode).storage_eq]
    exact hopened
  rcases OpenStore.create_of_coherent (h.keyValue.onDisk
    (d := node.storage.opened.disk) (congrFun hfiles _)) with ⟨d', hkept⟩
  change outcome (KvStore.create (some host.keyValueStore.persistence))
    node.storage.opened.disk = (.ok host.keyValueStore, d') at hkept
  rw [h.file] at hkept
  exact ⟨d', hkept⟩

theorem keyValueStore_of_start (h : host.Sound directory)
    (hstart : Host.start config directory host.disk.restart = some fresh) :
    fresh.keyValueStore = host.keyValueStore := by
  rcases start_eq_some_iff.mp hstart with
    ⟨store, node, kept, d', hstore, hnode, hkept, rfl⟩
  rcases reopens_of_sound h hstore hnode with ⟨d'', hreopened⟩
  rw [hreopened] at hkept
  cases hkept
  rfl

/--
A process starts again on what a sound host has left, if the constructor of the
node accepts it.
-/
theorem start_of_sound (h : host.Sound directory)
    (hrecoverable : Recoverable config host.node.storage) :
    exists (fresh : Host random) (store : DurableRaftStorage CrashDisk),
      Host.start config directory host.disk.restart = some fresh ∧
        fresh.Built config directory store ∧
        RaftStorage.load store = RaftStorage.load host.node.storage := by
  have hrestarted := h.onDisk (d := host.disk.restart) rfl
  rcases DurableRaftStorage.create_of_openedOn (create_raftFile directory)
    hrestarted.raft with ⟨store, hstore, hload⟩
  change DurableRaftStorage.create _ host.disk.restart = _ at hstore
  rw [load_mount] at hload
  rcases recoverable_of_load hrecoverable hload with ⟨persisted, haccepted⟩
  have hcreated : exists node : RaftNode (DurableRaftStorage CrashDisk) random,
      RaftNode.create config store = .ok node := create_of_accepted haccepted
  rcases hcreated with ⟨node, hnode⟩
  rcases reopens_of_sound h hstore hnode with ⟨d', hkept⟩
  have hstart : Host.start config directory host.disk.restart =
      some ⟨Host.mount node d', host.keyValueStore⟩ :=
    start_eq_some_iff.mpr ⟨store, node, _, d', hstore, hnode, hkept, rfl⟩
  rcases built_of_start hstart with ⟨store', hstore', hbuilt⟩
  rw [hstore] at hstore'
  cases hstore'
  exact ⟨_, store, hstart, hbuilt, hload⟩

end Starting

end Node
end FTKV
