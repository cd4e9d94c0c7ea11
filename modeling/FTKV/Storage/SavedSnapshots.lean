import FTKV.Storage.FilePersistence

/-!
# Loading what was saved

The loader accepts the strings that the writer writes, for every order in which
a map may hand out its entries, and no others.  For the writer to reach every
such string some disk must let all calls succeed, which the disk in memory does.
-/

namespace FTKV
namespace Storage

open Foundation
open Foundation.Effect

namespace FilePersistence

/-!
# Saving on a disk that does not fail
-/

section Succeeding

variable {disk : Type} [FileSystem disk] {good : disk -> Prop} {d : disk}

def Succeeds (good : disk -> Prop) (r : Except Fault Unit) (d : disk) : Prop :=
  r = .ok () ∧ good d

omit [FileSystem disk] in
theorem ensures_succeeds_bind {first next : Effect disk Fault Unit}
    (hfirst : Ensures first d (Succeeds good))
    (hnext : forall d', good d' -> Ensures next d' (Succeeds good)) :
    Ensures (first >>= fun _ => next) d (Succeeds good) := by
  apply ensures_bind_of hfirst
  · rintro _ d' ⟨_, hd'⟩
    exact hnext d' hd'
  · rintro fault d' ⟨hfault, _⟩
    cases hfault

theorem succeeds_require (hgood : Dependable good) (call : FileCall) (path : Path)
    (message : String) (hd : good d) :
    Ensures (require call path message) d (Succeeds good) := by
  rcases hgood.call call path d hd with ⟨hcall, hafter⟩
  unfold require
  rw [ensures_bind, ensures_modifyGet, continues_ok, hcall]
  exact ⟨rfl, hafter⟩

theorem succeeds_writeField (hgood : Dependable good) (path : Path) {field : Bytes}
    (hfits : field.length <= maximumFieldBytes.toNat) (hd : good d) :
    Ensures (writeField path field) d (Succeeds good) := by
  unfold writeField
  rw [if_neg (not_lt.mpr hfits)]
  apply ensures_succeeds_bind (succeeds_require hgood _ _ _ hd)
  intro d' hd'
  exact succeeds_require hgood _ _ _ hd'

theorem succeeds_writeEntries (hgood : Dependable good) (path : Path)
    {items : List Entry} (hfits : forall item, item ∈ items -> FieldsFit item)
    (hd : good d) : Ensures (writeEntries path items) d (Succeeds good) := by
  induction items generalizing d with
  | nil => exact ⟨rfl, hd⟩
  | cons item rest ih =>
      have hitem := hfits item (List.mem_cons_self ..)
      apply ensures_succeeds_bind (succeeds_writeField hgood path hitem.left hd)
      intro d₁ hd₁
      apply ensures_succeeds_bind (succeeds_writeField hgood path hitem.right hd₁)
      intro d₂ hd₂
      exact ih (fun other hother => hfits other (List.mem_cons_of_mem _ hother)) hd₂

theorem succeeds_createParent (hgood : Dependable good) (file : FilePersistence)
    (hd : good d) : Ensures file.createParent d (Succeeds good) := by
  unfold createParent
  split
  · rcases hgood.createDirectories (parentPath file.filePath) d hd with
      ⟨hcreate, hafter⟩
    rw [ensures_bind, ensures_modifyGet, continues_ok, hcreate]
    exact ⟨rfl, hafter⟩
  · exact ⟨rfl, hd⟩

variable [IterationOrder disk]

theorem succeeds_writeTemporary (hgood : Dependable good) (file : FilePersistence)
    {entries : EntryMap}
    (hfits : forall item, item ∈ entries.entries -> FieldsFit item) (hd : good d) :
    Ensures (file.writeTemporary entries) d (Succeeds good) := by
  unfold writeTemporary
  apply ensures_succeeds_bind (succeeds_require hgood _ _ _ hd)
  intro d₁ hd₁
  apply ensures_succeeds_bind (succeeds_require hgood _ _ _ hd₁)
  intro d₂ hd₂
  apply ensures_succeeds_bind (succeeds_require hgood _ _ _ hd₂)
  intro moment hmoment
  rw [ensures_bind, ensures_get, continues_ok]
  have hitems : forall item, item ∈ IterationOrder.order entries moment ->
      FieldsFit item := by
    intro item hitem
    apply hfits
    rw [IterationOrder.enumerates entries moment]
    exact hitem
  apply ensures_succeeds_bind (succeeds_writeEntries hgood _ hitems hmoment)
  intro d₃ hd₃
  apply ensures_succeeds_bind (succeeds_require hgood _ _ _ hd₃)
  intro d₄ hd₄
  exact succeeds_require hgood _ _ _ hd₄

theorem succeeds_save (hgood : Dependable good) (file : FilePersistence)
    {entries : EntryMap} (hstorable : Storable entries) (hd : good d) :
    Ensures (file.save entries) d (Succeeds good) := by
  unfold save
  rw [if_neg (not_lt.mpr hstorable.size)]
  apply ensures_succeeds_bind (succeeds_createParent hgood file hd)
  intro d₁ hd₁
  have hblock : Ensures (file.writeTemporary entries >>= fun _ =>
      file.replaceFile) d₁ (Succeeds good) := by
    apply ensures_succeeds_bind
      (succeeds_writeTemporary hgood file hstorable.fields hd₁)
    intro d₂ hd₂
    rcases hgood.rename file.temporaryPath file.filePath d₂ hd₂ with
      ⟨hrename, hafter⟩
    unfold replaceFile
    rw [ensures_bind, ensures_modifyGet, continues_ok, hrename]
    exact ⟨rfl, hafter⟩
  apply ensures_tryCatch hblock
  · intro _ d₂ hd₂
    exact hd₂
  · rintro fault d₂ ⟨hfault, _⟩
    cases hfault

end Succeeding

/-!
# The loader accepts what the writer writes
-/

@[reducible] noncomputable def fixedOrder {entries : EntryMap} {items : List Entry} (disk : Type)
    (hitems : entries.EnumeratedBy items) : IterationOrder disk where
  order other _ := if other = entries then items else other.entries.toList
  enumerates other _ := by
    unfold EntryMap.EnumeratedBy at *
    split
    · rename_i hother
      rw [hother, hitems]
    · exact (Multiset.coe_toList _).symm

instance : IterationOrder MemoryDisk :=
  sortedOrder MemoryDisk

/-- `save` writes the bytes for the map, in some order of its entries. -/
def MayWrite (file : FilePersistence) (entries : EntryMap) (bytes : Bytes) : Prop :=
  exists (_ : IterationOrder MemoryDisk) (d d' : MemoryDisk),
    outcome (file.save entries) d = (.ok (), d') ∧
      FileSystem.contents d' file.filePath = some bytes

theorem ensures_save_fixedOrder {disk : Type} [FileSystem disk]
    [LawfulFileSystem disk] {good : disk -> Prop} (hgood : Dependable good)
    (file : FilePersistence) {entries : EntryMap} {items : List Entry}
    (hstorable : Storable entries) (hitems : entries.EnumeratedBy items) {d : disk}
    (hd : good d) :
    letI := fixedOrder disk hitems
    Ensures (file.save entries) d (fun r d' => r = .ok () ∧
      FileSystem.contents d' file.filePath = some (snapshotBytes items)) := by
  let := fixedOrder disk hitems
  have hsucceeds := succeeds_save hgood file hstorable hd
  have hspec := ensures_save entries
    (rfl : FileSystem.contents d file.filePath = _)
  unfold Ensures at hsucceeds hspec ⊢
  rw [hsucceeds.left] at hspec
  rcases hspec with ⟨_, moment, hcontents⟩
  refine ⟨hsucceeds.left, ?_⟩
  rw [hcontents]
  show some (snapshotBytes (if entries = entries then items else _)) = _
  rw [if_pos rfl]

theorem mayWrite_iff (file : FilePersistence) (entries : EntryMap) (bytes : Bytes) :
    file.MayWrite entries bytes <->
      Storable entries ∧ exists items, entries.EnumeratedBy items ∧
        bytes = snapshotBytes items := by
  constructor
  · rintro ⟨order, d, d', hsave, hcontents⟩
    have hspec := ensures_save entries
      (rfl : FileSystem.contents d file.filePath = _)
    unfold Ensures at hspec
    rw [hsave] at hspec
    rcases hspec with ⟨hstorable, moment, hsnapshot⟩
    refine ⟨hstorable, _, IterationOrder.enumerates entries moment, ?_⟩
    rw [hcontents] at hsnapshot
    exact Option.some.inj hsnapshot
  · rintro ⟨hstorable, items, hitems, rfl⟩
    have hsave := ensures_save_fixedOrder MemoryDisk.dependable file hstorable
      hitems (rfl : ({} : MemoryDisk).script = [])
    exact ⟨fixedOrder MemoryDisk hitems, {}, _, Prod.ext hsave.left rfl, hsave.right⟩

theorem loaded_some_eq_ok_iff_mayWrite (file : FilePersistence) (bytes : Bytes)
    (entries : EntryMap) :
    file.loaded (some bytes) = .ok entries <-> file.MayWrite entries bytes :=
  (file.loaded_some_eq_ok_iff bytes entries).trans
    (file.mayWrite_iff entries bytes).symm

theorem loaded_of_comparable (file : FilePersistence) {entries : EntryMap}
    {saved bytes : Bytes} (hsaved : snapshotFormat entries saved)
    (hcomparable : bytes <+: saved ∨ saved <+: bytes) (hne : bytes ≠ saved) :
    exists message, file.loaded (some bytes) = .error (.storageError message) := by
  apply file.loaded_some_eq_error
  intro other hother
  rcases hcomparable with hpre | hpre
  · exact hne (prefixFree_snapshotFormat.eq_of_isPrefix hother hsaved hpre)
  · exact hne (prefixFree_snapshotFormat.eq_of_isPrefix hsaved hother hpre).symm

section Exactness

variable {disk : Type} [FileSystem disk] [LawfulFileSystem disk]
  [ReliableReads disk] [IterationOrder disk]

omit [ReliableReads disk] in
theorem snapshotFormat_of_save (file : FilePersistence) {d d' : disk}
    {entries : EntryMap} (hsave : outcome (file.save entries) d = (.ok (), d')) :
    exists moment : disk, FileSystem.contents d' file.filePath =
      some (snapshotBytes (IterationOrder.order entries moment)) ∧
      snapshotFormat entries
        (snapshotBytes (IterationOrder.order entries moment)) := by
  have hspec := ensures_save entries
    (rfl : FileSystem.contents d file.filePath = _)
  unfold Ensures at hspec
  rw [hsave] at hspec
  rcases hspec with ⟨hstorable, moment, hcontents⟩
  refine ⟨moment, hcontents, ?_⟩
  rw [snapshotFormat_iff]
  exact ⟨hstorable, _, IterationOrder.enumerates entries moment, rfl⟩

theorem loaded_of_snapshotFormat (file : FilePersistence) {entries : EntryMap}
    {bytes : Bytes} (hformat : snapshotFormat entries bytes) :
    file.loaded (some bytes) = .ok entries := by
  rw [loaded_some_eq_ok_iff, ← snapshotFormat_iff]
  exact hformat

/--
The loader returns a map exactly on the strings that saving the map may write,
and refuses every other string.  What a save has written is loaded again, and
no proper initial part and no proper continuation of it is.
-/
theorem snapshot_loader_exact (file : FilePersistence) :
    (forall (d : disk) (bytes : Bytes),
      FileSystem.contents d file.filePath = some bytes ->
      (forall entries, (outcome file.load d).1 = .ok entries <->
        Storable entries ∧ file.MayWrite entries bytes) ∧
      ((forall entries, ¬ (Storable entries ∧ file.MayWrite entries bytes)) ->
        exists message,
          (outcome file.load d).1 = .error (.storageError message))) ∧
    (forall entries bytes, file.MayWrite entries bytes <-> Storable entries ∧
      exists items, entries.EnumeratedBy items ∧ bytes = snapshotBytes items) ∧
    (forall (d d' : disk) (entries : EntryMap),
      outcome (file.save entries) d = (.ok (), d') ->
      (exists moment : disk, FileSystem.contents d' file.filePath =
        some (snapshotBytes (IterationOrder.order entries moment))) ∧
      (outcome file.load d').1 = .ok entries ∧
      (forall (saved bytes : Bytes) (d'' : disk),
        FileSystem.contents d' file.filePath = some saved ->
        FileSystem.contents d'' file.filePath = some bytes ->
        bytes <+: saved ∨ saved <+: bytes -> bytes ≠ saved ->
        exists message,
          (outcome file.load d'').1 = .error (.storageError message))) := by
  refine ⟨?_, file.mayWrite_iff, ?_⟩
  · intro d bytes hcontents
    rw [load_eq, hcontents]
    constructor
    · intro entries
      rw [loaded_some_eq_ok_iff_mayWrite]
      constructor
      · intro hwrite
        exact ⟨((file.mayWrite_iff entries bytes).mp hwrite).left, hwrite⟩
      · intro hwrite
        exact hwrite.right
    · intro hnone
      apply file.loaded_some_eq_error
      intro entries hformat
      rw [snapshotFormat_iff] at hformat
      exact hnone entries
        ⟨hformat.left, (file.mayWrite_iff entries bytes).mpr hformat⟩
  · intro d d' entries hsave
    rcases file.snapshotFormat_of_save hsave with ⟨moment, hcontents, hformat⟩
    refine ⟨⟨moment, hcontents⟩, ?_, ?_⟩
    · rw [load_eq, hcontents]
      exact file.loaded_of_snapshotFormat hformat
    · intro saved bytes d'' hsaved hbytes hcomparable hne
      rw [hcontents] at hsaved
      cases hsaved
      rw [load_eq, hbytes]
      exact file.loaded_of_comparable hformat hcomparable hne

/-- A file with one entry, on the disk in memory. -/
theorem snapshot_loader_exact_singleton :
    (outcome (load ⟨"kv.snapshot", by decide⟩)
      ({ files := fun _ => some (snapshotBytes [⟨[107], [118]⟩]) } :
        MemoryDisk)).1 = .ok (Finmap.singleton [107] [118]) := by
  rcases @snapshot_loader_exact MemoryDisk _ _ _ _ ⟨"kv.snapshot", by decide⟩ with
    ⟨hload, hwrite, _⟩
  have hstorable : Storable (Finmap.singleton [107] [118]) :=
    storable_singleton (by constructor <;> decide)
  apply ((hload _ _ rfl).left _).mpr
  exact ⟨hstorable, (hwrite _ _).mpr ⟨hstorable, _, rfl, rfl⟩⟩

end Exactness

end FilePersistence

end Storage
end FTKV
