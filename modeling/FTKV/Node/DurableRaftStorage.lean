import FTKV.Node.StateRoundTrip
import FTKV.Raft.Restart
import FTKV.Storage.KvStore

/-!
# Raft state in a key-value store

`DurableRaftStorage` of `node_runtime.cpp` keeps the encoded persistent state
under one key of a `KvStore`, which in turn keeps its entries in a file.  The
state of a node therefore passes through two encodings on its way to the disk.
-/

namespace FTKV
namespace Node

open Foundation
open Foundation.Effect
open Raft

def raftStateKey : Bytes :=
  ['r', 'a', 'f', 't', '-', 'h', 'a', 'r', 'd', '-', 's', 't', 'a', 't', 'e'].map
    fun c => c.toNat.toUInt8

structure DurableRaftStorage (disk : Type) where
  opened : Storage.OpenStore Storage.FilePersistence disk

/-- Any exception of the store but a `RaftError` is one of the storage's own. -/
def storeFault : Storage.Fault -> StorageFault
  | .invalidArgument message => .storageError message
  | .storageError message => .storageError message

def codecFault : CodecFault -> StorageFault
  | .raftError message => .raftError message
  | .outOfRange => .storageError "basic_string_view::substr"
  | .undefinedBehavior => .storageError "subscript out of range"

namespace DurableRaftStorage

variable {disk : Type} [Storage.FileSystem disk] [Storage.IterationOrder disk]

def create (filePath : Storage.Path) (d : disk) :
    Except Storage.Fault (DurableRaftStorage disk) :=
  match Storage.FilePersistence.create filePath with
  | .error fault => .error fault
  | .ok file =>
      match outcome (Storage.KvStore.create (some file)) d with
      | (.ok store, d') => .ok { opened := { store := store, disk := d' } }
      | (.error fault, _) => .error fault

def load (storage : DurableRaftStorage disk) :
    Except StorageFault PersistentState :=
  match (outcome (Storage.KvStore.get raftStateKey) storage.opened).1 with
  | .error fault => .error (storeFault fault)
  | .ok none => .ok {}
  | .ok (some encoded) => (decodeState encoded).mapError codecFault

def save (state : PersistentState) (storage : DurableRaftStorage disk) :
    Except StorageFault Unit × DurableRaftStorage disk :=
  match encodeState state with
  | .error fault => (.error (codecFault fault), storage)
  | .ok encoded =>
      match outcome (Storage.KvStore.put raftStateKey encoded) storage.opened with
      | (.ok _, opened) => (.ok (), { opened := opened })
      | (.error fault, opened) => (.error (storeFault fault), { opened := opened })

instance : RaftStorage (DurableRaftStorage disk) where
  load := load
  save := save

/-!
# Loading what was saved
-/

def stateOf : Option Bytes -> Except StorageFault PersistentState
  | none => .ok {}
  | some encoded => (decodeState encoded).mapError codecFault

theorem load_eq (storage : DurableRaftStorage disk) :
    RaftStorage.load storage =
      stateOf (storage.opened.store.entries.lookup raftStateKey) := by
  show load storage = _
  have hget : (outcome (Storage.KvStore.get raftStateKey) storage.opened).1 =
      .ok (storage.opened.store.entries.lookup raftStateKey) := rfl
  unfold load
  rw [hget]
  cases storage.opened.store.entries.lookup raftStateKey <;> rfl

theorem ensures_put (encoded : Bytes)
    (s : Storage.OpenStore Storage.FilePersistence disk) :
    Ensures (Storage.KvStore.put raftStateKey encoded) s (fun r s' =>
      match r with
      | .ok _ => s'.store.entries.lookup raftStateKey = some encoded
      | .error _ => s'.store = s.store) := by
  unfold Storage.KvStore.put
  rw [ensures_bind, ensures_get, continues_ok]
  apply ensures_mono (Storage.KvStore.ensures_publish_store _ s)
  intro r s' hr
  cases r with
  | ok _ =>
      show s'.store.entries.lookup raftStateKey = some encoded
      rw [show s'.store.entries = _ from hr]
      exact Finmap.lookup_insert _
  | error fault => exact hr

theorem save_cases (state : PersistentState) (storage : DurableRaftStorage disk) :
    (exists encoded opened, encodeState state = .ok encoded ∧
      RaftStorage.save state storage =
        (.ok (), ({ opened := opened } : DurableRaftStorage disk)) ∧
      opened.store.entries.lookup raftStateKey = some encoded) ∨
    exists cause opened, RaftStorage.save state storage =
        (.error cause, ({ opened := opened } : DurableRaftStorage disk)) ∧
      opened.store = storage.opened.store := by
  show (exists encoded opened, _ ∧ save state storage = _ ∧ _) ∨
    exists cause opened, save state storage = _ ∧ _
  unfold save
  cases hencode : encodeState state with
  | error fault => exact Or.inr ⟨_, storage.opened, rfl, rfl⟩
  | ok encoded =>
      have hput := ensures_put encoded storage.opened
      unfold Ensures at hput
      rcases hr : outcome (Storage.KvStore.put raftStateKey encoded)
        storage.opened with ⟨r, opened⟩
      rw [hr] at hput
      cases r with
      | ok _ => exact Or.inl ⟨encoded, opened, rfl, by simp only [hr], hput⟩
      | error fault => exact Or.inr ⟨storeFault fault, opened, by simp only [hr], hput⟩

instance : LawfulRaftStorage (DurableRaftStorage disk) where
  load_of_save_ok state storage storage' u hsave := by
    rcases save_cases state storage with
      ⟨encoded, opened, hencode, hsaved, hlookup⟩ | ⟨cause, opened, hfailed, _⟩
    · rw [hsaved] at hsave
      cases hsave
      rcases encodeState_eq_ok_iff.mp hencode with ⟨hfits, rfl⟩
      rw [load_eq, hlookup]
      show (decodeState (stateBytes state)).mapError codecFault = .ok state
      rw [decodeState_stateBytes hfits]
      rfl
    · rw [hfailed] at hsave
      cases hsave
  load_of_save_error state storage storage' cause hsave := by
    rcases save_cases state storage with
      ⟨encoded, opened, hencode, hsaved, _⟩ | ⟨cause', opened, hfailed, hstore⟩
    · rw [hsaved] at hsave
      cases hsave
    · rw [hfailed] at hsave
      cases hsave
      rw [load_eq, load_eq, hstore]

/-!
# The file mirrors the node
-/

variable [Storage.LawfulFileSystem disk] [Storage.ReliableReads disk]

/-- The storage shows what its file holds. -/
def OpenedOn (file : Storage.FilePersistence) (storage : DurableRaftStorage disk) :
    Prop :=
  storage.opened.Coherent ∧ storage.opened.store.persistence = file

theorem openedOn_save {file : Storage.FilePersistence} (state : PersistentState)
    (storage : DurableRaftStorage disk) (h : storage.OpenedOn file) :
    (RaftStorage.save state storage).2.OpenedOn file := by
  show (save state storage).2.OpenedOn file
  unfold save
  cases encodeState state with
  | error fault => exact h
  | ok encoded =>
      have hserved := Storage.OpenStore.ensures_put raftStateKey encoded h.left
      unfold Ensures at hserved
      rcases hr : outcome (Storage.KvStore.put raftStateKey encoded)
        storage.opened with ⟨r, opened⟩
      rw [hr] at hserved
      have hopened : OpenedOn file { opened := opened } :=
        ⟨hserved.coherent, hserved.persistence.trans h.right⟩
      cases r with
      | ok _ =>
          simp only [hr]
          exact hopened
      | error fault =>
          simp only [hr]
          exact hopened

theorem openedOn_of_create {filePath : Storage.Path} {d : disk}
    {storage : DurableRaftStorage disk} (hcreate : create filePath d = .ok storage) :
    exists file, Storage.FilePersistence.create filePath = .ok file ∧
      storage.OpenedOn file := by
  unfold create at hcreate
  cases hfile : Storage.FilePersistence.create filePath with
  | error fault =>
      rw [hfile] at hcreate
      cases hcreate
  | ok file =>
      simp only [hfile] at hcreate
      rcases hr : outcome (Storage.KvStore.create (some file)) d with ⟨r, d'⟩
      rw [hr] at hcreate
      cases r with
      | error fault => cases hcreate
      | ok store =>
          cases hcreate
          exact ⟨file, rfl, Storage.OpenStore.coherent_of_create hr⟩

omit [Storage.LawfulFileSystem disk] [Storage.ReliableReads disk] in
theorem create_of_openedOn {filePath : Storage.Path}
    {file : Storage.FilePersistence} {storage : DurableRaftStorage disk}
    (hfile : Storage.FilePersistence.create filePath = .ok file)
    (h : storage.OpenedOn file) :
    exists fresh : DurableRaftStorage disk,
      create filePath storage.opened.disk = .ok fresh ∧
        RaftStorage.load fresh = RaftStorage.load storage := by
  rcases Storage.OpenStore.create_of_coherent h.left with ⟨d', hcreate⟩
  rw [h.right] at hcreate
  refine ⟨{ opened := { store := storage.opened.store, disk := d' } }, ?_, ?_⟩
  · unfold create
    simp only [hfile, hcreate]
  · rw [load_eq, load_eq]

/--
While no save throws, a fresh storage on the same file loads the persistent
state of the node after every operation.
-/
theorem durable_mirror {random : Type} [RandomEngine random] {config : RaftConfig}
    {filePath : Storage.Path} {d : disk} {store : DurableRaftStorage disk}
    {node : RaftNode (DurableRaftStorage disk) random}
    (hopen : create filePath d = .ok store)
    (hcreate : RaftNode.create config store = .ok node) (ops : List Operation)
    (hsaves : RaftNode.Throughout SavesSucceed node ops) :
    exists fresh : DurableRaftStorage disk,
      create filePath (node.after ops).storage.opened.disk = .ok fresh ∧
        RaftStorage.load fresh = .ok (node.after ops).persistentState := by
  have hfresh := fresh_of_create hcreate
  rcases openedOn_of_create hopen with ⟨file, hfile, hopened⟩
  have hafter : (node.after ops).storage.OpenedOn file := by
    apply storage_after openedOn_save hfresh.well
    rw [hfresh.storage_eq]
    exact hopened
  rcases create_of_openedOn hfile hafter with ⟨fresh, hagain, hload⟩
  refine ⟨fresh, hagain, hload.trans ?_⟩
  exact mirrored_after hfresh.well hfresh.mirrored ops hsaves

/-!
# Saves on a disk that does not fail
-/

omit [Storage.LawfulFileSystem disk] [Storage.ReliableReads disk] in
theorem save_of_storable {good : disk -> Prop} (hgood : Storage.Dependable good)
    {state : PersistentState} {storage : DurableRaftStorage disk}
    (hencodable : Encodable state)
    (hstorable : Storage.Storable
      (storage.opened.store.entries.insert raftStateKey (stateBytes state)))
    (hdisk : good storage.opened.disk) :
    exists storage', RaftStorage.save state storage = (.ok (), storage') := by
  have hput : Ensures (Storage.KvStore.put raftStateKey (stateBytes state))
      storage.opened (fun r _ => r = .ok ()) := by
    unfold Storage.KvStore.put Storage.KvStore.publish Storage.KvStore.onDisk
    simp only [ensures_bind, ensures_get, continues_ok, ensures_within]
    apply ensures_mono (Storage.FilePersistence.succeeds_save hgood
      storage.opened.store.persistence hstorable hdisk)
    rintro r d' ⟨rfl, _⟩
    rfl
  have hencode := encodeState_eq_ok_iff.mpr ⟨hencodable, rfl⟩
  rcases hr : outcome (Storage.KvStore.put raftStateKey (stateBytes state))
    storage.opened with ⟨r, opened⟩
  unfold Ensures at hput
  rw [hr] at hput
  change r = .ok () at hput
  rw [hput] at hr
  refine ⟨⟨opened⟩, ?_⟩
  show save state _ = _
  unfold save
  simp only [hencode, hr]

/-!
# An election on the disk in memory
-/

def emptyStorage : DurableRaftStorage Storage.MemoryDisk :=
  ⟨⟨⟨⟨"raft.snapshot", by decide⟩, ∅⟩, {}⟩⟩

def emptyNode : RaftNode (DurableRaftStorage Storage.MemoryDisk) LeastEngine where
  config := { nodeId := 1, peers := [2] }
  storage := emptyStorage
  random := {}
  electionTimeout := 150
  members := insert 1 [2].toFinset

def electionState : PersistentState where
  currentTerm := 1
  votedFor := some 1

theorem ensures_tick_emptyNode :
    Ensures (Operation.tick 300).perform emptyNode (fun r n' =>
      r = .ok {} ∧ n'.persistentState = electionState) := by
  have hsaved : exists storage', RaftStorage.save electionState emptyStorage =
      (.ok (), storage') := by
    apply save_of_storable Storage.MemoryDisk.dependable
    · exact ⟨by decide, fun entry hentry => (nomatch hentry)⟩
    · refine (Storage.storable_insert_iff Storage.storable_empty ?_).mpr ⟨?_, ?_⟩
      · decide
      · decide
      · exact Or.inr (by decide)
    · rfl
  rcases hsaved with ⟨storage', hsaved⟩
  unfold Operation.perform RaftNode.tick
  rw [ensures_bind, if_neg (by decide), ensures_bind, ensures_get, continues_ok,
    if_neg (by decide), if_pos (by decide)]
  unfold startElectionLocked
  simp only [ensures_bind, ensures_modify, continues_ok]
  apply ensures_persistLocked
  · rintro n' ⟨store, _, rfl⟩
    have hcount : ¬ ({1} : Finset NodeId).card >= emptyNode.quorumSizeLocked := by
      decide
    rw [continues_ok, ensures_bind, ensures_get, continues_ok]
    split
    · rename_i hquorum
      exact absurd hquorum hcount
    · exact And.intro rfl rfl
  · rintro cause n' ⟨cause', store, hfailed, _⟩
    change RaftStorage.save electionState emptyStorage = _ at hfailed
    rw [hsaved] at hfailed
    cases hfailed

/-- A node that holds an election over a file on the disk in memory. -/
theorem durable_mirror_election :
    create "raft.snapshot" ({} : Storage.MemoryDisk) = .ok emptyStorage ∧
      RaftNode.create { nodeId := 1, peers := [2] } emptyStorage =
        .ok emptyNode ∧
      exists fresh : DurableRaftStorage Storage.MemoryDisk,
        create "raft.snapshot" (emptyNode.after [.tick 300]).storage.opened.disk =
          .ok fresh ∧
        RaftStorage.load fresh = .ok electionState := by
  have hopen : create "raft.snapshot" ({} : Storage.MemoryDisk) =
      .ok emptyStorage := rfl
  have hcreate : RaftNode.create { nodeId := 1, peers := [2] } emptyStorage =
      .ok emptyNode := rfl
  have htick := ensures_tick_emptyNode
  have hmirror := durable_mirror hopen hcreate [.tick 300]
    ⟨fun cause hcause => (nomatch htick.left.symm.trans hcause), trivial⟩
  rw [show (emptyNode.after [.tick 300]).persistentState = _ from htick.right]
    at hmirror
  exact ⟨hopen, hcreate, hmirror⟩

end DurableRaftStorage

end Node
end FTKV
