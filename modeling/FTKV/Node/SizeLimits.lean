import FTKV.Node.DurableRaftStorage

/-!
# The size limits of the two layers

`encode_state` limits the number of log entries and the size of each command.
The encoding as a whole becomes one value of the snapshot file, whose size
`write_field` limits to that of a single command.
-/

namespace FTKV
namespace Node

open Foundation
open Foundation.Effect
open Raft

/-!
# The size of an encoding
-/

def voteSize : Option NodeId -> Nat
  | none => 1
  | some _ => 9

/-- The bytes that `encode_state` produces for a state. -/
def stateSize (state : PersistentState) : Nat :=
  9 + 8 + voteSize state.votedFor + 8 +
    (state.log.map fun entry => 17 + entry.command.length).sum

theorem length_voteBytes (vote : Option NodeId) :
    (voteBytes vote).length = voteSize vote := by
  cases vote with
  | none => rfl
  | some vote =>
      unfold voteBytes
      rw [List.length_append, length_wordBytes]
      rfl

theorem length_entryBytes (entry : LogEntry) :
    (entryBytes entry).length = 17 + entry.command.length := by
  unfold entryBytes
  simp only [List.length_append, length_wordBytes, List.length_singleton]
  lia

theorem length_stateBytes (state : PersistentState) :
    (stateBytes state).length = stateSize state := by
  have hmagic : raftStateMagic.length = 9 := rfl
  unfold stateBytes stateSize
  simp only [List.length_append, length_wordBytes, length_voteBytes,
    List.length_flatMap, length_entryBytes, hmagic]
  lia

namespace DurableRaftStorage

variable {disk : Type} [Storage.FileSystem disk] [Storage.IterationOrder disk]
  [Storage.LawfulFileSystem disk]

/-!
# What the file can hold
-/

theorem storable_of_openedOn [Storage.ReliableReads disk]
    {file : Storage.FilePersistence} {storage : DurableRaftStorage disk}
    (h : storage.OpenedOn file) :
    Storage.Storable storage.opened.store.entries := by
  have hload : (outcome storage.opened.store.persistence.load
      storage.opened.disk).1 = .ok storage.opened.store.entries := h.left
  rw [Storage.FilePersistence.load_eq] at hload
  cases hcontents : Storage.FileSystem.contents storage.opened.disk
      storage.opened.store.persistence.filePath with
  | none =>
      rw [hcontents] at hload
      rw [← Except.ok.inj hload]
      exact Storage.storable_empty
  | some bytes =>
      rw [hcontents, Storage.FilePersistence.loaded_some_eq_ok_iff] at hload
      exact hload.left

theorem ensures_publish_storable (updated : Storage.EntryMap)
    (s : Storage.OpenStore Storage.FilePersistence disk) :
    Ensures (Storage.KvStore.publish updated) s
      (fun r _ => r = .ok () -> Storage.Storable updated) := by
  unfold Storage.KvStore.publish Storage.KvStore.onDisk
  simp only [ensures_bind, ensures_get, continues_ok, ensures_within]
  apply ensures_mono (Storage.FilePersistence.ensures_save updated rfl)
  intro r d hsaves
  cases r with
  | ok _ =>
      intro _
      exact hsaves.left
  | error fault =>
      intro hok
      cases hok

theorem storable_of_save {state : PersistentState}
    {storage storage' : DurableRaftStorage disk}
    (hsave : RaftStorage.save state storage = (.ok (), storage')) :
    Storage.Storable
      (storage.opened.store.entries.insert raftStateKey (stateBytes state)) := by
  change save state storage = _ at hsave
  unfold save at hsave
  cases hencode : encodeState state with
  | error fault =>
      rw [hencode] at hsave
      cases hsave
  | ok encoded =>
      rcases encodeState_eq_ok_iff.mp hencode with ⟨-, rfl⟩
      have hput : Ensures (Storage.KvStore.put raftStateKey (stateBytes state))
          storage.opened (fun r _ => r = .ok () -> Storage.Storable
            (storage.opened.store.entries.insert raftStateKey (stateBytes state))) := by
        unfold Storage.KvStore.put
        rw [ensures_bind, ensures_get, continues_ok]
        exact ensures_publish_storable _ _
      unfold Ensures at hput
      simp only [hencode] at hsave
      rcases hr : outcome (Storage.KvStore.put raftStateKey (stateBytes state))
        storage.opened with ⟨r, opened⟩
      rw [hr] at hput hsave
      cases r with
      | ok _ => exact hput rfl
      | error fault => cases hsave

variable [Storage.ReliableReads disk]

/--
An encodable state is saved and loaded again exactly when its encoding is no
larger than one value of the snapshot file may be, and the file has room for one
more entry or holds a state already.
-/
theorem size_limits_agree_iff {good : disk -> Prop} (hgood : Storage.Dependable good)
    {filePath : Storage.Path} {file : Storage.FilePersistence}
    (hfile : Storage.FilePersistence.create filePath = .ok file)
    {storage : DurableRaftStorage disk} (hopened : storage.OpenedOn file)
    (hdisk : good storage.opened.disk) {state : PersistentState}
    (hencodable : Encodable state) :
    (exists storage' fresh : DurableRaftStorage disk,
      RaftStorage.save state storage = (.ok (), storage') ∧
      create filePath storage'.opened.disk = .ok fresh ∧
      RaftStorage.load fresh = .ok state) <->
    stateSize state <= 67108864 ∧
      (raftStateKey ∈ storage.opened.store.entries ∨
        storage.opened.store.entries.size < 1000000) := by
  have hfits : Storage.Storable (storage.opened.store.entries.insert raftStateKey
      (stateBytes state)) <-> (stateBytes state).length <= 67108864 ∧
        (raftStateKey ∈ storage.opened.store.entries ∨
          storage.opened.store.entries.size < 1000000) :=
    Storage.storable_insert_iff (storable_of_openedOn hopened) (by decide)
  rw [length_stateBytes] at hfits
  constructor
  · rintro ⟨storage', fresh, hsave, -, -⟩
    exact hfits.mp (storable_of_save hsave)
  · intro hsize
    rcases save_of_storable hgood hencodable (hfits.mpr hsize) hdisk with
      ⟨storage', hsave⟩
    have hopened' := openedOn_save state storage hopened
    rw [hsave] at hopened'
    rcases create_of_openedOn hfile hopened' with ⟨fresh, hcreate, hload⟩
    refine ⟨storage', fresh, hsave, hcreate, ?_⟩
    rw [hload]
    exact LawfulRaftStorage.load_of_save_ok _ _ _ _ hsave

/-- The state after a first election, on the disk in memory. -/
theorem size_limits_agree_election :
    create "raft.snapshot" ({} : Storage.MemoryDisk) = .ok emptyStorage ∧
      Encodable electionState ∧
      exists storage' fresh : DurableRaftStorage Storage.MemoryDisk,
        RaftStorage.save electionState emptyStorage = (.ok (), storage') ∧
        create "raft.snapshot" storage'.opened.disk = .ok fresh ∧
        RaftStorage.load fresh = .ok electionState := by
  have hencodable : Encodable electionState :=
    ⟨by decide, fun entry hentry => (nomatch hentry)⟩
  refine ⟨rfl, hencodable, ?_⟩
  refine (size_limits_agree_iff Storage.MemoryDisk.dependable rfl ?_ rfl
    hencodable).mpr ⟨?_, ?_⟩
  · exact ⟨rfl, rfl⟩
  · decide
  · exact Or.inr (by decide)

def singleEntry (command : Command) : PersistentState where
  currentTerm := 1
  log := [{ term := 1, command := command }]

theorem stateSize_singleEntry (command : Command) :
    stateSize (singleEntry command) = 43 + command.length := by
  show 9 + 8 + 1 + 8 + (17 + command.length + 0) = 43 + command.length
  lia

theorem singleEntry_refused {command : Command}
    (hlength : command.length = 67108864) :
    Encodable (singleEntry command) ∧
      exists cause, (RaftStorage.save (singleEntry command) emptyStorage).1 =
        .error cause := by
  constructor
  · refine ⟨show 1 <= maximumLogEntries.toNat by decide, ?_⟩
    intro entry hentry
    rw [List.mem_singleton.mp hentry, hlength]
    decide
  · rcases hsave : RaftStorage.save (singleEntry command) emptyStorage with
      ⟨r, storage'⟩
    cases r with
    | error cause => exact ⟨cause, rfl⟩
    | ok _ =>
        have hfits := (Storage.storable_insert_iff Storage.storable_empty
          (by decide)).mp (storable_of_save hsave)
        rw [length_stateBytes, stateSize_singleEntry, hlength] at hfits
        exact absurd hfits.left (by decide)

/-- A command of the largest size that is allowed, on a disk that does not fail. -/
theorem largest_command_refused :
    create "raft.snapshot" ({} : Storage.MemoryDisk) = .ok emptyStorage ∧
      emptyStorage.opened.disk.script = [] ∧
      exists command : Command, command.length = 67108864 ∧
        Encodable (singleEntry command) ∧
        exists cause, (RaftStorage.save (singleEntry command) emptyStorage).1 =
          .error cause := by
  have hlength : (List.replicate 67108864 (0 : UInt8)).length = 67108864 :=
    List.length_replicate
  exact ⟨rfl, rfl, _, hlength, singleEntry_refused hlength⟩

end DurableRaftStorage

end Node
end FTKV
