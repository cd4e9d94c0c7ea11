import FTKV.Storage.Crashes
import FTKV.Storage.KvStore

/-!
# Several stores on one disk

A process keeps two snapshot files in one directory.  A save works on its own file
and on the temporary file beside it, so it leaves every other file alone, wherever
it fails or is cut short.
-/

namespace FTKV
namespace Storage

open Foundation
open Foundation.Effect

namespace FilePersistence

theorem preserves_files_save [IterationOrder CrashDisk] (file : FilePersistence)
    {other : Path} (hfile : other ≠ file.filePath)
    (htemporary : other ≠ file.temporaryPath) (entries : EntryMap) :
    Preserves (fun d : CrashDisk => d.files other)
      (file.save entries : Effect CrashDisk Fault Unit) := by
  apply Spares.preserves_save
  · constructor
    · intro path d
      rw [(CrashDisk.createDirectories_frame path d).left]
    · intro call d
      exact LawfulFileSystem.contents_call_of_ne call _ other d htemporary
  · intro d
    show (d.rename file.temporaryPath file.filePath).2.files other = _
    rcases d.rename_cases file.temporaryPath file.filePath with
      ⟨rest, crashed, hrename⟩ | ⟨rest, crashed, hrename⟩
    · rw [hrename]
      show Function.update (Function.update d.files _ none) _ _ other = _
      rw [Function.update_of_ne hfile, Function.update_of_ne htemporary]
    · rw [hrename]

end FilePersistence

/-!
# Stores on one disk
-/

theorem InMemoryKeyValueStore.after_append (memory : InMemoryKeyValueStore)
    (requests rest : List Request) :
    memory.after (requests ++ rest) = (memory.after requests).after rest := by
  induction requests generalizing memory with
  | nil => rfl
  | cons request requests ih => exact ih (memory.perform request).2

namespace OpenStore

section Contents

variable {disk : Type} [FileSystem disk] [LawfulFileSystem disk]
  [ReliableReads disk] [IterationOrder disk]

theorem coherent_iff (s : OpenStore FilePersistence disk) :
    s.Coherent <-> s.store.persistence.loaded
      (FileSystem.contents s.disk s.store.persistence.filePath) =
        .ok s.store.entries := by
  unfold Coherent
  show (outcome s.store.persistence.load s.disk).1 = _ <-> _
  rw [FilePersistence.load_eq]

theorem Coherent.onDisk {s : OpenStore FilePersistence disk} (h : s.Coherent)
    {d : disk}
    (hsame : FileSystem.contents d s.store.persistence.filePath =
      FileSystem.contents s.disk s.store.persistence.filePath) :
    Coherent { s with disk := d } := by
  rw [coherent_iff] at h ⊢
  show s.store.persistence.loaded
    (FileSystem.contents d s.store.persistence.filePath) = _
  rw [hsame]
  exact h

end Contents

variable [IterationOrder CrashDisk]

theorem files_publish {s : OpenStore FilePersistence CrashDisk} {other : Path}
    (hfile : other ≠ s.store.persistence.filePath)
    (htemporary : other ≠ s.store.persistence.temporaryPath)
    (updated : EntryMap) :
    Ensures (KvStore.publish updated) s (fun _ s' =>
      s'.disk.files other = s.disk.files other) := by
  unfold KvStore.publish KvStore.onDisk
  rw [ensures_bind, ensures_get, continues_ok, ensures_bind, ensures_within]
  apply ensures_mono
    (s.store.persistence.preserves_files_save hfile htemporary updated s.disk)
  intro r d hsame
  cases r <;> exact hsame

theorem files_perform {s : OpenStore FilePersistence CrashDisk} {other : Path}
    (hfile : other ≠ s.store.persistence.filePath)
    (htemporary : other ≠ s.store.persistence.temporaryPath)
    (request : Request) :
    Ensures (perform request) s (fun _ s' =>
      s'.disk.files other = s.disk.files other) := by
  cases request with
  | put key value =>
      unfold perform KvStore.put
      rw [ensures_bind, ensures_bind, ensures_get, continues_ok]
      apply ensures_mono (files_publish hfile htemporary _)
      intro r s' hsame
      cases r <;> exact hsame
  | get key => rfl
  | erase key =>
      unfold perform KvStore.erase
      rw [ensures_bind, ensures_bind, ensures_get, continues_ok]
      by_cases hkey : key ∈ s.store.entries
      · rw [if_pos hkey, ensures_bind]
        apply ensures_mono (files_publish hfile htemporary _)
        intro r s' hsame
        cases r <;> exact hsame
      · rw [if_neg hkey]
        rfl
  | reopen =>
      unfold perform KvStore.reopen KvStore.onDisk
      rw [ensures_bind, ensures_bind, ensures_get, continues_ok, ensures_bind,
        ensures_within]
      have hload := s.store.persistence.contents_load s.disk
      change (outcome s.store.persistence.load s.disk).2.files = s.disk.files at hload
      unfold Ensures
      rw [outcome_create]
      show Continues _ _ (Except.map _ (outcome s.store.persistence.load s.disk).1) _
      cases (outcome s.store.persistence.load s.disk).1 <;>
        exact congrFun hload other

end OpenStore

end Storage
end FTKV
