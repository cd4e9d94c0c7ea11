import FTKV.Foundation.Formats
import Mathlib.Data.Finmap

/-!
# The snapshot format

The reader of `kv_store.cpp`.  A snapshot is the magic number `FTKVSTR1`, the
number of entries, and the entries in the order in which the map hands them
out; a key or a value is written behind its length.

The state of the reader is what the input stream still delivers.
-/

namespace FTKV
namespace Storage

open Foundation
open Foundation.Effect

inductive Fault where
  | invalidArgument (message : String)
  | storageError (message : String)
deriving DecidableEq, Repr

/-- `std::unordered_map` from byte strings to byte strings. -/
abbrev EntryMap := Finmap fun _ : Bytes => Bytes

abbrev Entry := Sigma fun _ : Bytes => Bytes

namespace EntryMap

def size (entries : EntryMap) : Nat :=
  Multiset.card entries.entries

def EnumeratedBy (entries : EntryMap) (items : List Entry) : Prop :=
  entries.entries = items

theorem size_eq_card_keys (entries : EntryMap) :
    entries.size = entries.keys.card :=
  (Multiset.card_map _ _).symm

theorem size_insert (entries : EntryMap) (key value : Bytes) :
    size (entries.insert key value) =
      if key ∈ entries then entries.size else entries.size + 1 := by
  have hkeys : (entries.insert key value).keys = insert key entries.keys := by
    ext other
    rw [Finmap.mem_keys, Finmap.mem_insert, Finset.mem_insert, Finmap.mem_keys]
  rw [size_eq_card_keys, hkeys, Finset.card_insert_eq_ite,
    size_eq_card_keys]
  simp only [Finmap.mem_keys]

end EntryMap

def fileMagic : Bytes :=
  ['F', 'T', 'K', 'V', 'S', 'T', 'R', '1'].map fun c => c.toNat.toUInt8

def maximumEntries : UInt64 := 1000000

def maximumFieldBytes : UInt64 := 64 * 1024 * 1024

def maximumSize : UInt64 := 18446744073709551615

def errorMessage (action path : String) : String :=
  action ++ ": " ++ path

/-!
# Reading
-/

abbrev Reader (result : Type) := Effect Bytes Fault result

def readExact (size : Nat) : Reader Bytes := do
  let input <- get
  if input.length < size then
    throw (.storageError "storage snapshot is truncated")
  else do
    set (input.drop size)
    pure (input.take size)

def readUint64 : Reader UInt64 := do
  let bytes <- readExact 8
  pure (wordOf bytes)

def readField : Reader Bytes := do
  let size <- readUint64
  if size > maximumFieldBytes ∨ size > maximumSize then
    throw (.storageError "invalid key or value size in storage snapshot")
  else
    readExact size.toNat

def readMagic (path : String) : Reader Unit := do
  let magic <- readExact fileMagic.length
  if magic ≠ fileMagic then
    throw (.storageError (errorMessage "unsupported storage file format" path))
  else
    pure ()

/-- The loop of `load` over the entries; `emplace` keeps the keys distinct. -/
def readEntries (path : String) : Nat -> EntryMap -> Reader EntryMap
  | 0, entries => pure entries
  | count + 1, entries => do
      let key <- readField
      let value <- readField
      if key ∈ entries then
        throw (.storageError (errorMessage "duplicate key in storage file" path))
      else
        readEntries path count (entries.insert key value)

def readCounted (path : String) (entryCount : UInt64) : Reader EntryMap :=
  if entryCount > maximumEntries then
    throw (.storageError (errorMessage "invalid entry count in storage file" path))
  else
    readEntries path entryCount.toNat ∅

/-- The end of `load`: `peek` finds the end of the file. -/
def checkEnd (path : String) (entries : EntryMap) : Reader EntryMap := do
  let input <- get
  if input ≠ [] then
    throw (.storageError
      (errorMessage "unexpected data at end of storage file" path))
  else
    pure entries

def readSnapshot (path : String) : Reader EntryMap := do
  readMagic path
  let entryCount <- readUint64
  readCounted path entryCount

/-!
# The format
-/

def streamSource : Source Bytes Fault where
  unread input := input
  valid _ := True
  refuses fault := exists message, fault = .storageError message

def fieldFormat : Format Bytes :=
  Format.word.andThen fun size =>
    (Format.block size.toNat).guarded
      (¬ (size > maximumFieldBytes ∨ size > maximumSize))

def entriesFormat : Nat -> EntryMap -> Format EntryMap
  | 0, entries => Format.constant entries []
  | count + 1, entries =>
      fieldFormat.andThen fun key => fieldFormat.andThen fun value =>
        (entriesFormat count (entries.insert key value)).guarded (key ∉ entries)

def countedFormat (count : UInt64) : Format EntryMap :=
  (entriesFormat count.toNat ∅).guarded (¬ count > maximumEntries)

def snapshotFormat : Format EntryMap :=
  (Format.constant () fileMagic).andThen fun _ =>
    Format.word.andThen fun count => countedFormat count

theorem prefixFree_fieldFormat : fieldFormat.PrefixFree := by
  apply Format.prefixFree_andThen Format.prefixFree_word
  intro size
  apply Format.prefixFree_guarded
  intro _
  apply Format.prefixFree_block

theorem prefixFree_entriesFormat (count : Nat) (entries : EntryMap) :
    (entriesFormat count entries).PrefixFree := by
  induction count generalizing entries with
  | zero => exact Format.prefixFree_constant entries []
  | succ count ih =>
      apply Format.prefixFree_andThen prefixFree_fieldFormat
      intro key
      apply Format.prefixFree_andThen prefixFree_fieldFormat
      intro value
      apply Format.prefixFree_guarded
      intro _
      apply ih

theorem prefixFree_snapshotFormat : snapshotFormat.PrefixFree := by
  apply Format.prefixFree_andThen (Format.prefixFree_constant _ _)
  intro _
  apply Format.prefixFree_andThen Format.prefixFree_word
  intro count
  apply Format.prefixFree_guarded
  intro _
  apply prefixFree_entriesFormat

/-!
# The reader reads the format
-/

section Reading

variable {input : Bytes}

theorem refuses_storageError (message : String) :
    streamSource.refuses (.storageError message) :=
  ⟨message, rfl⟩

theorem recognizes_readExact (size : Nat) :
    streamSource.Recognizes (readExact size) input (Format.block size) := by
  intro _
  unfold readExact
  rw [ensures_bind, ensures_get, continues_ok]
  split
  · rename_i hshort
    constructor
    · exact refuses_storageError _
    · rintro value front rest ⟨hsize, rfl⟩ hunread
      change input = front ++ rest at hunread
      rw [hunread, List.length_append, hsize] at hshort
      lia
  · rename_i hlong
    rw [ensures_bind, ensures_set, continues_ok, ensures_pure]
    refine ⟨trivial, input.take size, ⟨?_, rfl⟩, ?_⟩
    · rw [List.length_take]
      lia
    · exact (List.take_append_drop size input).symm

theorem recognizes_readUint64 :
    streamSource.Recognizes readUint64 input Format.word := by
  apply Source.recognizes_congr
  · apply Source.recognizes_bind (Format.prefixFree_block 8)
      (recognizes_readExact 8)
    intro bytes _
    apply Source.recognizes_pure
  · intro value bytes
    constructor
    · rintro ⟨word, front, rest, ⟨hlength, rfl⟩, ⟨rfl, rfl⟩, rfl⟩
      show front ++ [] = wordBytes (wordOf front)
      rw [List.append_nil, wordBytes_wordOf hlength]
    · rintro rfl
      refine ⟨wordBytes value, wordBytes value, [], ⟨length_wordBytes value, rfl⟩,
        ⟨(wordOf_wordBytes value).symm, rfl⟩, ?_⟩
      rw [List.append_nil]

theorem recognizes_readField :
    streamSource.Recognizes readField input fieldFormat := by
  apply Source.recognizes_bind Format.prefixFree_word recognizes_readUint64
  intro size _
  apply Source.recognizes_ite (refuses_storageError _)
  intro _
  apply recognizes_readExact

theorem recognizes_readMagic (path : String) :
    streamSource.Recognizes (readMagic path) input
      (Format.constant () fileMagic) := by
  apply Source.recognizes_congr
  · apply Source.recognizes_bind (Format.prefixFree_block _)
      (recognizes_readExact _)
    intro magic _
    apply Source.recognizes_ite (refuses_storageError _)
    intro _
    apply Source.recognizes_pure
  · intro _ bytes
    constructor
    · rintro ⟨magic, front, rest, ⟨_, rfl⟩, ⟨hmagic, ⟨_, rfl⟩⟩, rfl⟩
      refine ⟨rfl, ?_⟩
      rw [List.append_nil]
      exact not_not.mp hmagic
    · rintro ⟨_, rfl⟩
      refine ⟨fileMagic, fileMagic, [], ⟨rfl, rfl⟩, ⟨?_, rfl, rfl⟩, ?_⟩
      · exact not_not.mpr rfl
      · rw [List.append_nil]

theorem recognizes_readEntries (path : String) (count : Nat) (entries : EntryMap) :
    streamSource.Recognizes (readEntries path count entries) input
      (entriesFormat count entries) := by
  induction count generalizing input entries with
  | zero => exact Source.recognizes_pure entries
  | succ count ih =>
      apply Source.recognizes_bind prefixFree_fieldFormat recognizes_readField
      intro key _
      apply Source.recognizes_bind prefixFree_fieldFormat recognizes_readField
      intro value _
      apply Source.recognizes_ite (refuses_storageError _)
      intro _
      apply ih

theorem recognizes_readSnapshot (path : String) :
    streamSource.Recognizes (readSnapshot path) input snapshotFormat := by
  apply Source.recognizes_bind (Format.prefixFree_constant _ _)
    (recognizes_readMagic path)
  intro _ _
  apply Source.recognizes_bind Format.prefixFree_word recognizes_readUint64
  intro count _
  apply Source.recognizes_ite (refuses_storageError _)
  intro _
  apply recognizes_readEntries

theorem decodes_readSnapshot (path : String) :
    streamSource.Decodes (readSnapshot path >>= checkEnd path) input
      snapshotFormat := by
  apply Source.decodes_bind prefixFree_snapshotFormat trivial
    (recognizes_readSnapshot path)
  intro entries rest _
  unfold checkEnd
  rw [ensures_bind, ensures_get, continues_ok]
  by_cases hrest : rest = []
  · rw [if_neg (not_not.mpr hrest)]
    exact ⟨rfl, hrest⟩
  · rw [if_pos hrest]
    exact ⟨refuses_storageError _, hrest⟩

end Reading

/-!
# The bytes of a snapshot
-/

def fieldBytes (field : Bytes) : Bytes :=
  wordBytes field.length.toUInt64 ++ field

def entryBytes (item : Entry) : Bytes :=
  fieldBytes item.1 ++ fieldBytes item.2

def snapshotBytes (items : List Entry) : Bytes :=
  fileMagic ++ wordBytes items.length.toUInt64 ++ items.flatMap entryBytes

def FieldsFit (item : Entry) : Prop :=
  item.1.length <= maximumFieldBytes.toNat ∧
    item.2.length <= maximumFieldBytes.toNat

structure Storable (entries : EntryMap) : Prop where
  size : entries.size <= maximumEntries.toNat
  fields : forall item, item ∈ entries.entries -> FieldsFit item

theorem storable_empty : Storable ∅ :=
  ⟨Nat.zero_le _, fun item hitem => absurd hitem (Multiset.notMem_zero item)⟩

theorem storable_singleton {key value : Bytes} (hfits : FieldsFit ⟨key, value⟩) :
    Storable (Finmap.singleton key value) := by
  constructor
  · show 1 <= maximumEntries.toNat
    decide
  · intro item hitem
    rw [Multiset.mem_singleton.mp hitem]
    exact hfits

theorem storable_insert_iff {entries : EntryMap} {key value : Bytes}
    (h : Storable entries) (hkey : key.length <= maximumFieldBytes.toNat) :
    Storable (entries.insert key value) <->
      value.length <= maximumFieldBytes.toNat ∧
        (key ∈ entries ∨ entries.size < maximumEntries.toNat) := by
  constructor
  · intro hinserted
    constructor
    · have hmem : (⟨key, value⟩ : Entry) ∈ (entries.insert key value).entries :=
        Finmap.mem_lookup_iff.mp (Finmap.lookup_insert entries)
      exact (hinserted.fields _ hmem).right
    · by_cases hpresent : key ∈ entries
      · exact Or.inl hpresent
      · have hsize := hinserted.size
        rw [EntryMap.size_insert, if_neg hpresent] at hsize
        exact Or.inr hsize
  · rintro ⟨hvalue, hroom⟩
    constructor
    · rw [EntryMap.size_insert]
      split
      · exact h.size
      · rename_i habsent
        exact hroom.resolve_left habsent
    · rintro ⟨other, value'⟩ hitem
      have hlookup : (entries.insert key value).lookup other = some value' :=
        Finmap.mem_lookup_iff.mpr hitem
      by_cases hother : other = key
      · subst hother
        rw [Finmap.lookup_insert] at hlookup
        cases hlookup
        exact ⟨hkey, hvalue⟩
      · rw [Finmap.lookup_insert_of_ne _ hother] at hlookup
        exact h.fields _ (Finmap.mem_lookup_iff.mp hlookup)

theorem fieldFormat_iff (field bytes : Bytes) :
    fieldFormat field bytes <->
      field.length <= maximumFieldBytes.toNat ∧ bytes = fieldBytes field := by
  constructor
  · rintro ⟨size, front, rest, hfront, ⟨hsize, hlength, hrest⟩, hbytes⟩
    have hword : field.length.toUInt64 = size := by
      rw [hlength]
      exact UInt64.ofNat_toNat
    have hlimit : size <= maximumFieldBytes := by
      rw [not_or] at hsize
      exact UInt64.not_lt.mp hsize.left
    constructor
    · rw [hlength]
      exact UInt64.le_iff_toNat_le.mp hlimit
    · unfold fieldBytes
      rw [hword, hbytes, hfront, hrest]
  · rintro ⟨hlimit, hbytes⟩
    have hlength := toNat_toUInt64_of_le hlimit
    refine ⟨field.length.toUInt64, _, field, rfl, ⟨?_, hlength.symm, rfl⟩, hbytes⟩
    rintro (hlarge | hlarge)
    · have hnat := UInt64.lt_iff_toNat_lt.mp hlarge
      lia
    · have hnat := UInt64.lt_iff_toNat_lt.mp hlarge
      have hmaximum : maximumSize.toNat = 2 ^ 64 - 1 := rfl
      have hbound := field.length.toUInt64.toNat_lt
      lia

theorem notMem_of_entries_eq {start entries : EntryMap} {item : Entry}
    {items : List Entry}
    (hentries : entries.entries = start.entries + ↑(item :: items)) :
    item.1 ∉ start := by
  intro hkey
  have hnodup := entries.nodupKeys
  rw [hentries, ← Multiset.nodup_keys] at hnodup
  have hkeys : (start.entries + ↑(item :: items)).keys =
      start.entries.keys + (item.1 ::ₘ (items : Multiset Entry).keys) := by
    simp [Multiset.keys]
  rw [hkeys, Multiset.nodup_add] at hnodup
  rw [Finmap.mem_def] at hkey
  exact Multiset.disjoint_left.mp hnodup.right.right hkey
    (Multiset.mem_cons_self ..)

theorem entries_insert_add {start : EntryMap} {key value : Bytes}
    (items : List Entry) (hfresh : key ∉ start) :
    (start.insert key value).entries + items =
      start.entries + ↑(⟨key, value⟩ :: items : List Entry) := by
  rw [Finmap.entries_insert_of_notMem hfresh, ← Multiset.cons_coe,
    Multiset.cons_add, Multiset.add_cons]

theorem entriesFormat_iff (count : Nat) (start entries : EntryMap) (bytes : Bytes) :
    entriesFormat count start entries bytes <->
      exists items : List Entry, items.length = count ∧
        entries.entries = start.entries + items ∧
        (forall item, item ∈ items -> FieldsFit item) ∧
        bytes = items.flatMap entryBytes := by
  induction count generalizing start bytes with
  | zero =>
      constructor
      · rintro ⟨rfl, rfl⟩
        exact ⟨[], rfl, (add_zero _).symm, fun item hitem => (nomatch hitem), rfl⟩
      · rintro ⟨items, hlength, hentries, _, rfl⟩
        have hnil := List.length_eq_zero_iff.mp hlength
        rw [hnil] at hentries
        rw [hnil]
        refine ⟨Finmap.ext ?_, rfl⟩
        rw [hentries]
        exact add_zero _
  | succ count ih =>
      constructor
      · rintro ⟨key, front, back, hkey, ⟨value, middle, rest, hvalue, ⟨hfresh, hrest⟩,
          rfl⟩, rfl⟩
        rcases (fieldFormat_iff key front).mp hkey with ⟨hkeyFits, rfl⟩
        rcases (fieldFormat_iff value middle).mp hvalue with ⟨hvalueFits, rfl⟩
        rcases (ih _ _).mp hrest with ⟨items, hlength, hentries, hfits, rfl⟩
        refine ⟨⟨key, value⟩ :: items, ?_, ?_, ?_, ?_⟩
        · rw [List.length_cons, hlength]
        · rw [hentries, entries_insert_add items hfresh]
        · intro item hitem
          rcases List.mem_cons.mp hitem with rfl | hitem
          · exact ⟨hkeyFits, hvalueFits⟩
          · exact hfits item hitem
        · rw [List.flatMap_cons]
          simp [entryBytes]
      · rintro ⟨items, hlength, hentries, hfits, rfl⟩
        cases items with
        | nil => cases hlength
        | cons item items =>
            rcases item with ⟨key, value⟩
            have hfit := hfits ⟨key, value⟩ (List.mem_cons_self ..)
            have hfresh : key ∉ start := notMem_of_entries_eq hentries
            refine ⟨key, _, _, (fieldFormat_iff key _).mpr ⟨hfit.left, rfl⟩,
              ⟨value, _, _, (fieldFormat_iff value _).mpr ⟨hfit.right, rfl⟩,
                ⟨hfresh, (ih _ _).mpr ⟨items, Nat.succ.inj hlength, ?_, ?_, rfl⟩⟩,
                rfl⟩, ?_⟩
            · rw [hentries, entries_insert_add items hfresh]
            · intro item hitem
              exact hfits item (List.mem_cons_of_mem _ hitem)
            · rw [List.flatMap_cons]
              simp [entryBytes]

theorem snapshotFormat_iff (entries : EntryMap) (bytes : Bytes) :
    snapshotFormat entries bytes <->
      Storable entries ∧ exists items, entries.EnumeratedBy items ∧
        bytes = snapshotBytes items := by
  constructor
  · rintro ⟨_, magic, rest, ⟨_, rfl⟩, ⟨count, front, back, rfl, ⟨hcount, hback⟩, rfl⟩,
      rfl⟩
    rcases (entriesFormat_iff _ _ _ _).mp hback with
      ⟨items, hlength, hentries, hfits, rfl⟩
    have hitems : entries.EnumeratedBy items := by
      unfold EntryMap.EnumeratedBy
      rw [hentries]
      exact zero_add _
    have hword : items.length.toUInt64 = count := by
      rw [hlength]
      exact UInt64.ofNat_toNat
    refine ⟨⟨?_, ?_⟩, items, hitems, ?_⟩
    · unfold EntryMap.size
      rw [hitems, Multiset.coe_card, hlength]
      exact UInt64.le_iff_toNat_le.mp (UInt64.not_lt.mp hcount)
    · intro item hitem
      rw [hitems] at hitem
      exact hfits item hitem
    · unfold snapshotBytes
      rw [hword, List.append_assoc]
  · rintro ⟨hstorable, items, hitems, rfl⟩
    have hsize : items.length <= maximumEntries.toNat := by
      have hsize := hstorable.size
      unfold EntryMap.size at hsize
      rw [hitems, Multiset.coe_card] at hsize
      exact hsize
    have hlength := toNat_toUInt64_of_le hsize
    refine ⟨(), fileMagic, _, ⟨rfl, rfl⟩, ⟨items.length.toUInt64, _, _, rfl,
      ⟨?_, (entriesFormat_iff _ _ _ _).mpr ⟨items, hlength.symm, ?_, ?_, rfl⟩⟩, rfl⟩,
      ?_⟩
    · intro hlarge
      have hnat := UInt64.lt_iff_toNat_lt.mp hlarge
      lia
    · rw [hitems]
      exact (zero_add _).symm
    · intro item hitem
      apply hstorable.fields
      rw [hitems]
      exact hitem
    · unfold snapshotBytes
      rw [List.append_assoc]

end Storage
end FTKV
