import FTKV.Storage.FileSystem
import FTKV.Storage.Snapshot
import Mathlib.Data.Multiset.Sort
import Mathlib.Data.List.Lex

/-!
# Snapshots in files

`FilePersistence` of `kv_store.cpp`.  A map is saved by writing a complete
snapshot to a temporary file and renaming it over the previous one, so the file
that `load` reads is replaced as a whole or not at all.

## Iteration order

An `std::unordered_map` hands out its entries in an order that the language
leaves open and that may depend on how the map came about.  The order is read
off the state of the disk here, so it may be another one at every call.  The disks
that fixed inputs are run on sort the entries.
-/

namespace FTKV
namespace Storage

open Foundation
open Foundation.Effect

class IterationOrder (disk : Type) where
  order : EntryMap -> disk -> List Entry
  enumerates : forall (entries : EntryMap) (d : disk),
    entries.EnumeratedBy (order entries d)

namespace Entry

def code (entry : Entry) : List Nat :=
  entry.1.length :: (entry.1 ++ entry.2).map UInt8.toNat

theorem code_injective {a b : Entry} (h : code a = code b) : a = b := by
  rcases a with ⟨key, value⟩
  rcases b with ⟨key', value'⟩
  rcases List.cons.inj h with ⟨hlength, hbytes⟩
  have hfields := List.map_injective_iff.mpr
    (fun _ _ hbyte => UInt8.toNat_inj.mp hbyte) hbytes
  rcases List.append_inj hfields hlength with ⟨hkey, hvalue⟩
  cases hkey
  cases hvalue
  rfl

def Precedes (a b : Entry) : Prop :=
  code a <= code b

instance : DecidableRel Precedes :=
  fun a b => inferInstanceAs (Decidable (code a <= code b))

instance : IsTrans Entry Precedes :=
  ⟨fun a b _ hab hbc => le_trans (show code a <= code b from hab) hbc⟩

instance : Std.Antisymm Precedes :=
  ⟨fun a b hab hba =>
    code_injective (le_antisymm (show code a <= code b from hab) hba)⟩

instance : Std.Total Precedes :=
  ⟨fun a b => le_total (code a) (code b)⟩

end Entry

@[reducible] def sortedOrder (disk : Type) : IterationOrder disk where
  order entries _ := entries.entries.sort Entry.Precedes
  enumerates entries _ := (Multiset.sort_eq entries.entries Entry.Precedes).symm

structure FilePersistence where
  filePath : Path
  hasPath : filePath ≠ ""

namespace FilePersistence

def create (filePath : Path) : Except Fault FilePersistence :=
  if hpath : filePath = "" then
    .error (.invalidArgument "storage file path must not be empty")
  else
    .ok ⟨filePath, hpath⟩

def temporaryPath (file : FilePersistence) : Path :=
  file.filePath ++ ".tmp"

theorem filePath_ne_temporaryPath (file : FilePersistence) :
    file.filePath ≠ file.temporaryPath := by
  intro hsame
  have hlength := congrArg String.length hsame
  unfold temporaryPath at hlength
  rw [String.length_append] at hlength
  have hsuffix : ".tmp".length = 4 := by
    decide
  lia

section Operations

variable {disk : Type} [FileSystem disk]

/-!
# Loading
-/

def load (file : FilePersistence) : Effect disk Fault EntryMap := do
  match <- modifyGet (FileSystem.inspect file.filePath) with
  | none => throw (.storageError
      (errorMessage "failed to inspect storage file" file.filePath))
  | some false => pure ∅
  | some true =>
      match <- modifyGet (FileSystem.openInput file.filePath) with
      | none => throw (.storageError
          (errorMessage "failed to open storage file" file.filePath))
      | some input => ofExcept (outcome
          (readSnapshot file.filePath >>= checkEnd file.filePath) input).1

/-!
# Saving
-/

def require (call : FileCall) (path : Path) (message : String) :
    Effect disk Fault Unit := do
  if <- modifyGet (FileSystem.call call path) then
    pure ()
  else
    throw (.storageError message)

def writeExact (path : Path) (data : Bytes) : Effect disk Fault Unit :=
  require (.write data) path "failed to write storage snapshot"

def writeUint64 (path : Path) (value : UInt64) : Effect disk Fault Unit :=
  writeExact path (wordBytes value)

def writeField (path : Path) (field : Bytes) : Effect disk Fault Unit :=
  if field.length > maximumFieldBytes.toNat then
    throw (.storageError "key or value exceeds the storage size limit")
  else do
    writeUint64 path field.length.toUInt64
    writeExact path field

def writeEntries (path : Path) : List Entry -> Effect disk Fault Unit
  | [] => pure ()
  | item :: rest => do
      writeField path item.1
      writeField path item.2
      writeEntries path rest

def createParent (file : FilePersistence) : Effect disk Fault Unit :=
  if parentPath file.filePath ≠ "" then do
    if <- modifyGet (FileSystem.createDirectories (parentPath file.filePath)) then
      pure ()
    else
      throw (.storageError (errorMessage "failed to create storage directory"
        (parentPath file.filePath)))
  else
    pure ()

def replaceFile (file : FilePersistence) : Effect disk Fault Unit := do
  if <- modifyGet (FileSystem.rename file.temporaryPath file.filePath) then
    pure ()
  else
    throw (.storageError
      (errorMessage "failed to replace storage file" file.filePath))

variable [IterationOrder disk]

/-- The part of the `try` block that writes and closes the temporary file. -/
def writeTemporary (file : FilePersistence) (entries : EntryMap) :
    Effect disk Fault Unit := do
  let path := file.temporaryPath
  require .openOutput path
    (errorMessage "failed to open temporary storage file" path)
  writeExact path fileMagic
  writeUint64 path entries.size.toUInt64
  writeEntries path (IterationOrder.order entries (<- get))
  require .flush path (errorMessage "failed to flush storage file" path)
  require .close path (errorMessage "failed to close storage file" path)

/-- The `catch` block, after the destructor of the stream. -/
def cleanUp (file : FilePersistence) (fault : Fault) : Effect disk Fault Unit := do
  let _ <- modifyGet (FileSystem.call .release file.temporaryPath)
  let _ <- modifyGet (FileSystem.call .remove file.temporaryPath)
  throw fault

def save (file : FilePersistence) (entries : EntryMap) :
    Effect disk Fault Unit := do
  if entries.size > maximumEntries.toNat then
    throw (.storageError "entry count exceeds the storage size limit")
  else do
    file.createParent
    tryCatch (do
      file.writeTemporary entries
      file.replaceFile) file.cleanUp

end Operations

/-!
# What loading returns
-/

section Loading

variable {disk : Type} [FileSystem disk] (file : FilePersistence)

def loaded : Option Bytes -> Except Fault EntryMap
  | none => .ok ∅
  | some bytes => (outcome
      (readSnapshot file.filePath >>= checkEnd file.filePath) bytes).1

variable [LawfulFileSystem disk] [ReliableReads disk]

theorem ensures_load (d : disk) :
    Ensures file.load d (fun r d' =>
      r = file.loaded (FileSystem.contents d file.filePath) ∧
        FileSystem.contents d' = FileSystem.contents d) := by
  have hinspect := LawfulFileSystem.contents_inspect file.filePath d
  unfold load
  rw [ensures_bind, ensures_modifyGet, continues_ok,
    ReliableReads.inspect_eq file.filePath d]
  generalize (FileSystem.inspect file.filePath d).2 = d' at hinspect
  cases hcontents : FileSystem.contents d file.filePath with
  | none => exact ⟨rfl, hinspect⟩
  | some bytes =>
      show Ensures (modifyGet (FileSystem.openInput file.filePath) >>= _) d' _
      have hopen := LawfulFileSystem.contents_openInput file.filePath d'
      rw [ensures_bind, ensures_modifyGet, continues_ok,
        ReliableReads.openInput_eq file.filePath d', hinspect, hcontents]
      show Ensures (ofExcept _) _ _
      rw [ensures_ofExcept]
      exact ⟨rfl, hopen.trans hinspect⟩

theorem load_eq (d : disk) :
    (outcome file.load d).1 =
      file.loaded (FileSystem.contents d file.filePath) :=
  (ensures_load file d).left

theorem contents_load (d : disk) :
    FileSystem.contents (outcome file.load d).2 = FileSystem.contents d :=
  (ensures_load file d).right

omit [LawfulFileSystem disk] [ReliableReads disk] in
theorem loaded_some_eq_ok_iff (bytes : Bytes) (entries : EntryMap) :
    file.loaded (some bytes) = .ok entries <->
      Storable entries ∧ exists items, entries.EnumeratedBy items ∧
        bytes = snapshotBytes items := by
  rw [← snapshotFormat_iff]
  exact (decodes_readSnapshot file.filePath).ok_iff prefixFree_snapshotFormat
    entries

theorem loaded_some_eq_error {bytes : Bytes}
    (hnone : forall entries, ¬ snapshotFormat entries bytes) :
    exists message, file.loaded (some bytes) = .error (.storageError message) := by
  rcases (decodes_readSnapshot file.filePath).error_of_not hnone with
    ⟨fault, hfault, message, rfl⟩
  exact ⟨message, hfault⟩

end Loading

/-!
# What saving leaves behind

While the temporary file is written the target keeps its content, and the
stream holds what has been written as long as no call has failed.
-/

section Saving

variable {disk : Type} [FileSystem disk] (file : FilePersistence)

def Holds (target : Option Bytes) (bytes : Bytes) (d : disk) : Prop :=
  FileSystem.contents d file.filePath = target ∧
    FileSystem.written d file.temporaryPath = bytes

def Writes (target : Option Bytes) (bytes : Bytes) (fits : Prop) :
    Except Fault Unit -> disk -> Prop
  | .ok _, d => fits ∧ file.Holds target bytes d
  | .error fault, d => (exists message, fault = .storageError message) ∧
      FileSystem.contents d file.filePath = target

variable {file} {target : Option Bytes} {bytes : Bytes} {d : disk}

theorem ensures_require [LawfulFileSystem disk] {call : FileCall}
    {message : String} {post : Except Fault Unit -> disk -> Prop}
    (hok : forall d', FileSystem.call call file.temporaryPath d = (true, d') ->
      FileSystem.contents d' file.filePath =
        FileSystem.contents d file.filePath -> post (.ok ()) d')
    (herror : forall d', FileSystem.contents d' file.filePath =
      FileSystem.contents d file.filePath ->
        post (.error (.storageError message)) d') :
    Ensures (require call file.temporaryPath message) d post := by
  have hframe := LawfulFileSystem.contents_call_of_ne call _ _ d
    file.filePath_ne_temporaryPath
  unfold require
  rw [ensures_bind, ensures_modifyGet, continues_ok]
  cases hcall : FileSystem.call call file.temporaryPath d with
  | mk succeeded d' =>
      rw [hcall] at hframe
      cases succeeded with
      | true => exact hok d' hcall hframe
      | false => exact herror d' hframe

theorem ensures_writeExact [LawfulFileSystem disk] (data : Bytes)
    (hd : file.Holds target bytes d) :
    Ensures (writeExact file.temporaryPath data) d
      (file.Writes target (bytes ++ data) True) := by
  rcases hd with ⟨htarget, hbytes⟩
  apply ensures_require
  · intro d' hcall hframe
    refine ⟨trivial, hframe.trans htarget, ?_⟩
    rw [LawfulFileSystem.written_write _ _ _ _ hcall, hbytes]
  · intro d' hframe
    exact ⟨⟨_, rfl⟩, hframe.trans htarget⟩

theorem ensures_writes_bind {first next : Effect disk Fault Unit}
    {middle finish : Bytes} {fits rest : Prop}
    (hfirst : Ensures first d (file.Writes target middle fits))
    (hnext : forall d', file.Holds target middle d' ->
      Ensures next d' (file.Writes target finish rest)) :
    Ensures (first >>= fun _ => next) d
      (file.Writes target finish (fits ∧ rest)) := by
  apply ensures_bind_of hfirst
  · rintro _ d' ⟨hfits, hd'⟩
    apply ensures_mono (hnext d' hd')
    intro r d'' hr
    cases r with
    | ok _ => exact ⟨⟨hfits, hr.left⟩, hr.right⟩
    | error fault => exact hr
  · intro fault d' hfault
    exact hfault

theorem Writes.congr {r : Except Fault Unit} {bytes' : Bytes} {fits fits' : Prop}
    (h : file.Writes target bytes fits r d) (hbytes : bytes = bytes')
    (hfits : fits -> fits') : file.Writes target bytes' fits' r d := by
  cases r with
  | ok _ =>
      rw [← hbytes]
      exact ⟨hfits h.left, h.right⟩
  | error fault => exact h

theorem ensures_writeField [LawfulFileSystem disk] (field : Bytes)
    (hd : file.Holds target bytes d) :
    Ensures (writeField file.temporaryPath field) d
      (file.Writes target (bytes ++ fieldBytes field)
        (field.length <= maximumFieldBytes.toNat)) := by
  unfold writeField
  split
  · exact ⟨⟨_, rfl⟩, hd.left⟩
  · rename_i hfits
    apply ensures_mono (ensures_writes_bind (ensures_writeExact _ hd)
      fun d' hd' => ensures_writeExact field hd')
    intro r d' hr
    apply hr.congr
    · rw [List.append_assoc]
      rfl
    · intro _
      exact not_lt.mp hfits

theorem ensures_writeEntries [LawfulFileSystem disk] (items : List Entry)
    (hd : file.Holds target bytes d) :
    Ensures (writeEntries file.temporaryPath items) d
      (file.Writes target (bytes ++ items.flatMap entryBytes)
        (forall item, item ∈ items -> FieldsFit item)) := by
  induction items generalizing bytes d with
  | nil =>
      refine ⟨fun item hitem => (nomatch hitem), ?_⟩
      rw [List.flatMap_nil, List.append_nil]
      exact hd
  | cons item rest ih =>
      apply ensures_mono (ensures_writes_bind (ensures_writeField item.1 hd)
        fun d' hd' => ensures_writes_bind (ensures_writeField item.2 hd')
          fun d'' hd'' => ih hd'')
      intro r d' hr
      apply hr.congr
      · simp [entryBytes]
      · rintro ⟨hkey, hvalue, hrest⟩ other hother
        rcases List.mem_cons.mp hother with rfl | hother
        · exact ⟨hkey, hvalue⟩
        · exact hrest other hother

variable [LawfulFileSystem disk]

theorem ensures_openTemporary (message : String)
    (htarget : FileSystem.contents d file.filePath = target) :
    Ensures (require .openOutput file.temporaryPath message) d
      (file.Writes target [] True) := by
  apply ensures_require
  · intro d' hcall hframe
    exact ⟨trivial, hframe.trans htarget,
      LawfulFileSystem.written_openOutput _ _ _ hcall⟩
  · intro d' hframe
    exact ⟨⟨_, rfl⟩, hframe.trans htarget⟩

theorem ensures_flush (message : String) (hd : file.Holds target bytes d) :
    Ensures (require .flush file.temporaryPath message) d
      (file.Writes target bytes True) := by
  apply ensures_require
  · intro d' hcall hframe
    refine ⟨trivial, hframe.trans hd.left, ?_⟩
    rw [LawfulFileSystem.written_flush _ _ _ hcall, hd.right]
  · intro d' hframe
    exact ⟨⟨_, rfl⟩, hframe.trans hd.left⟩

variable [IterationOrder disk]

def Prepares (file : FilePersistence) (target : Option Bytes) (entries : EntryMap) :
    Except Fault Unit -> disk -> Prop
  | .ok _, d => FileSystem.contents d file.filePath = target ∧
      exists moment : disk,
        (forall item, item ∈ entries.entries -> FieldsFit item) ∧
        FileSystem.contents d file.temporaryPath =
          some (snapshotBytes (IterationOrder.order entries moment))
  | .error fault, d => (exists message, fault = .storageError message) ∧
      FileSystem.contents d file.filePath = target

omit [FileSystem disk] [LawfulFileSystem disk] in
theorem snapshotBytes_order (entries : EntryMap) (moment : disk) :
    snapshotBytes (IterationOrder.order entries moment) =
      [] ++ fileMagic ++ wordBytes entries.size.toUInt64 ++
        (IterationOrder.order entries moment).flatMap entryBytes := by
  have hitems := IterationOrder.enumerates entries moment
  unfold snapshotBytes EntryMap.size
  rw [hitems, Multiset.coe_card, List.nil_append]

omit [LawfulFileSystem disk] in
theorem ensures_prepares_bind {entries : EntryMap}
    {first next : Effect disk Fault Unit} {middle : Bytes} {fits : Prop}
    (hfirst : Ensures first d (file.Writes target middle fits))
    (hnext : forall d', fits -> file.Holds target middle d' ->
      Ensures next d' (file.Prepares target entries)) :
    Ensures (first >>= fun _ => next) d (file.Prepares target entries) := by
  apply ensures_bind_of hfirst
  · rintro _ d' ⟨hfits, hd'⟩
    exact hnext d' hfits hd'
  · intro fault d' hfault
    exact hfault

theorem ensures_writeTemporary (entries : EntryMap)
    (htarget : FileSystem.contents d file.filePath = target) :
    Ensures (file.writeTemporary entries) d (file.Prepares target entries) := by
  unfold writeTemporary
  apply ensures_prepares_bind (ensures_openTemporary _ htarget)
  intro d₁ _ hd₁
  apply ensures_prepares_bind (ensures_writeExact _ hd₁)
  intro d₂ _ hd₂
  apply ensures_prepares_bind (ensures_writeExact _ hd₂)
  intro moment _ hmoment
  rw [ensures_bind, ensures_get, continues_ok]
  apply ensures_prepares_bind (ensures_writeEntries _ hmoment)
  intro d₃ hfits hd₃
  rw [← snapshotBytes_order] at hd₃
  apply ensures_prepares_bind (ensures_flush _ hd₃)
  intro d₄ _ hd₄
  apply ensures_require
  · intro d' hcall hframe
    refine ⟨hframe.trans hd₄.left, moment, ?_, ?_⟩
    · intro item hitem
      rw [IterationOrder.enumerates entries moment] at hitem
      exact hfits item hitem
    · rw [LawfulFileSystem.contents_close _ _ _ hcall, hd₄.right]
  · intro d' hframe
    exact ⟨⟨_, rfl⟩, hframe.trans hd₄.left⟩

/-- How `save` ends: the file is the snapshot of the map or what it was. -/
def Saves (file : FilePersistence) (target : Option Bytes) (entries : EntryMap) :
    Except Fault Unit -> disk -> Prop
  | .ok _, d => Storable entries ∧ exists moment : disk,
      FileSystem.contents d file.filePath =
        some (snapshotBytes (IterationOrder.order entries moment))
  | .error fault, d => (exists message, fault = .storageError message) ∧
      FileSystem.contents d file.filePath = target

theorem ensures_replaceFile {entries : EntryMap}
    (hsize : entries.size <= maximumEntries.toNat)
    (hd : file.Prepares target entries (.ok ()) d) :
    Ensures file.replaceFile d (file.Saves target entries) := by
  rcases hd with ⟨htarget, moment, hfits, htemporary⟩
  unfold replaceFile
  rw [ensures_bind, ensures_modifyGet, continues_ok]
  cases hrename : FileSystem.rename file.temporaryPath file.filePath d with
  | mk succeeded d' =>
      cases succeeded with
      | true =>
          show file.Saves target entries (.ok ()) d'
          refine ⟨⟨hsize, hfits⟩, moment, ?_⟩
          rw [LawfulFileSystem.contents_rename _ _ _ _ hrename, htemporary]
      | false =>
          show file.Saves target entries (.error _) d'
          refine ⟨⟨_, rfl⟩, ?_⟩
          rw [LawfulFileSystem.contents_rename_failed _ _ _ _ hrename, htarget]

theorem ensures_cleanUp {entries : EntryMap} {fault : Fault}
    (hfault : file.Saves target entries (.error fault) d) :
    Ensures (file.cleanUp fault) d (file.Saves target entries) := by
  have hframe := fun call (d : disk) => LawfulFileSystem.contents_call_of_ne call
    _ _ d file.filePath_ne_temporaryPath
  unfold cleanUp
  rw [ensures_bind, ensures_modifyGet, continues_ok, ensures_bind,
    ensures_modifyGet, continues_ok, ensures_throw]
  refine ⟨hfault.left, ?_⟩
  rw [hframe, hframe, hfault.right]

theorem ensures_createParent {entries : EntryMap}
    (htarget : FileSystem.contents d file.filePath = target) :
    Ensures file.createParent d (fun r d' =>
      FileSystem.contents d' file.filePath = target ∧
        forall fault, r = .error fault ->
          file.Saves target entries (.error fault) d') := by
  unfold createParent
  split
  · have hframe := LawfulFileSystem.contents_createDirectories
      (parentPath file.filePath) d
    rw [ensures_bind, ensures_modifyGet, continues_ok]
    have hafter := (congrFun hframe file.filePath).trans htarget
    cases (FileSystem.createDirectories (parentPath file.filePath) d).1 with
    | true => exact ⟨hafter, fun fault hfault => nomatch hfault⟩
    | false =>
        refine ⟨hafter, ?_⟩
        rintro fault ⟨⟩
        exact ⟨⟨_, rfl⟩, hafter⟩
  · exact ⟨htarget, fun fault hfault => nomatch hfault⟩

theorem ensures_save (entries : EntryMap)
    (htarget : FileSystem.contents d file.filePath = target) :
    Ensures (file.save entries) d (file.Saves target entries) := by
  unfold save
  split
  · exact ⟨⟨_, rfl⟩, htarget⟩
  · rename_i hsize
    apply ensures_bind_of (ensures_createParent htarget)
    · rintro _ d₁ ⟨htarget₁, _⟩
      -- A failure in the block is handled with the target still in place.
      have hblock : Ensures (file.writeTemporary entries >>= fun _ =>
          file.replaceFile) d₁ (file.Saves target entries) := by
        apply ensures_bind_of (ensures_writeTemporary entries htarget₁)
        · intro _ d₂ hd₂
          exact ensures_replaceFile (not_lt.mp hsize) hd₂
        · intro fault d₂ hfault
          exact hfault
      apply ensures_tryCatch hblock
      · intro _ d₂ hd₂
        exact hd₂
      · intro fault d₂ hfault
        exact ensures_cleanUp hfault
    · rintro fault d₁ ⟨_, hfault⟩
      exact hfault fault rfl

end Saving

/-!
# Views that a save spares

What the calls on the temporary file leave alone, the whole of a save leaves alone up
to its rename.
-/

section Views

variable {disk observed : Type} [FileSystem disk] {view : disk -> observed}
  {file : FilePersistence}

structure Spares (file : FilePersistence) (view : disk -> observed) : Prop where
  createDirectories : forall (path : Path) (d : disk),
    view (FileSystem.createDirectories path d).2 = view d
  call : forall (call : FileCall) (d : disk),
    view (FileSystem.call call file.temporaryPath d).2 = view d

theorem Spares.preserves_require (h : file.Spares view) (call : FileCall)
    (message : String) :
    Preserves view
      (require call file.temporaryPath message : Effect disk Fault Unit) := by
  apply preserves_bind (preserves_modifyGet (h.call call))
  intro succeeded
  exact preserves_ite (preserves_pure _) (preserves_throw _)

theorem Spares.preserves_writeField (h : file.Spares view) (field : Bytes) :
    Preserves view
      (writeField file.temporaryPath field : Effect disk Fault Unit) := by
  apply preserves_ite (preserves_throw _)
  apply preserves_bind (h.preserves_require _ _)
  intro _
  exact h.preserves_require _ _

theorem Spares.preserves_writeEntries (h : file.Spares view) (items : List Entry) :
    Preserves view
      (writeEntries file.temporaryPath items : Effect disk Fault Unit) := by
  induction items with
  | nil => exact preserves_pure _
  | cons item rest ih =>
      apply preserves_bind (h.preserves_writeField _)
      intro _
      apply preserves_bind (h.preserves_writeField _)
      intro _
      exact ih

theorem Spares.preserves_createParent (h : file.Spares view) :
    Preserves view (file.createParent : Effect disk Fault Unit) := by
  apply preserves_ite
  · apply preserves_bind (preserves_modifyGet (h.createDirectories _))
    intro created
    exact preserves_ite (preserves_pure _) (preserves_throw _)
  · exact preserves_pure _

theorem Spares.preserves_cleanUp (h : file.Spares view) (fault : Fault) :
    Preserves view (file.cleanUp fault : Effect disk Fault Unit) := by
  apply preserves_bind (preserves_modifyGet (h.call _))
  intro _
  apply preserves_bind (preserves_modifyGet (h.call _))
  intro _
  exact preserves_throw _

variable [IterationOrder disk]

theorem Spares.preserves_writeTemporary (h : file.Spares view)
    (entries : EntryMap) :
    Preserves view (file.writeTemporary entries : Effect disk Fault Unit) := by
  apply preserves_bind (h.preserves_require _ _)
  intro _
  apply preserves_bind (h.preserves_require _ _)
  intro _
  apply preserves_bind (h.preserves_require _ _)
  intro _
  apply preserves_bind preserves_get
  intro moment
  apply preserves_bind (h.preserves_writeEntries _)
  intro _
  apply preserves_bind (h.preserves_require _ _)
  intro _
  exact h.preserves_require _ _

theorem Spares.preserves_save (h : file.Spares view)
    (hrename : forall d : disk,
      view (FileSystem.rename file.temporaryPath file.filePath d).2 = view d)
    (entries : EntryMap) :
    Preserves view (file.save entries : Effect disk Fault Unit) := by
  have hreplace : Preserves view (file.replaceFile : Effect disk Fault Unit) := by
    apply preserves_bind (preserves_modifyGet hrename)
    intro renamed
    exact preserves_ite (preserves_pure _) (preserves_throw _)
  apply preserves_ite (preserves_throw _)
  apply preserves_bind h.preserves_createParent
  intro _ d
  have hblock : Preserves view (file.writeTemporary entries >>= fun _ =>
      (file.replaceFile : Effect disk Fault Unit)) := by
    apply preserves_bind (h.preserves_writeTemporary entries)
    intro _
    exact hreplace
  apply ensures_tryCatch (hblock d)
  · intro _ d' hsame
    exact hsame
  · intro fault d' hsame
    apply ensures_mono (h.preserves_cleanUp fault d')
    intro r d'' hsame'
    exact hsame'.trans hsame

end Views

end FilePersistence

end Storage
end FTKV
