import FTKV.Foundation.Effects
import Mathlib.Data.UInt

/-!
# Byte formats and their readers

A format says which byte strings stand for which values.  It is a relation, so
that a value may have several encodings and a string may have none.

## Readers

A reader consumes the unread part of its input from the front.  `Recognizes`
says that a reader computes its format: it returns what stands at the front of
the input, and it fails exactly on inputs that do not start with an encoding.
One rule per way of building readers composes these statements.
-/

namespace FTKV
namespace Foundation

abbrev Bytes := List UInt8

/-!
# Words

The 64-bit words of a format are written byte by byte, the lowest byte first.
-/

def wordByte (value : UInt64) (index : Nat) : UInt8 :=
  ((value >>> (8 * index).toUInt64) &&& 0xff).toUInt8

def wordBytes (value : UInt64) : Bytes :=
  (List.range 8).map (wordByte value)

def placeByte (value : UInt64) (byte : UInt8) (index : Nat) : UInt64 :=
  value ||| byte.toUInt64 <<< (8 * index).toUInt64

def wordOf (bytes : Bytes) : UInt64 :=
  bytes.zipIdx.foldl (fun value place => placeByte value place.1 place.2) 0

@[simp] theorem length_wordBytes (value : UInt64) :
    (wordBytes value).length = 8 := by
  simp [wordBytes]

theorem shift_eq {index : Nat} (hindex : index < 8) :
    ((8 * index).toUInt64.toBitVec % 64).toNat = 8 * index := by
  simp
  lia

theorem getLsbD_wordByte (value : UInt64) {index bit : Nat} (hindex : index < 8)
    (hbit : bit < 8) :
    (wordByte value index).toBitVec.getLsbD bit =
      value.toBitVec.getLsbD (8 * index + bit) := by
  have hmask : (255#64).getLsbD bit = true := by
    revert bit
    decide
  simp only [wordByte, UInt64.toBitVec_toUInt8, UInt64.toBitVec_and,
    UInt64.toBitVec_shiftRight, BitVec.getLsbD_setWidth, BitVec.getLsbD_and,
    BitVec.ushiftRight_eq', BitVec.getLsbD_ushiftRight, shift_eq hindex]
  simp [hbit, hmask]

theorem getLsbD_placeByte (value : UInt64) (byte : UInt8) {index bit : Nat}
    (hindex : index < 8) (hbit : bit < 64) :
    (placeByte value byte index).toBitVec.getLsbD bit =
      (value.toBitVec.getLsbD bit || (decide (8 * index <= bit) &&
        byte.toBitVec.getLsbD (bit - 8 * index))) := by
  simp only [placeByte, UInt64.toBitVec_or, UInt64.toBitVec_shiftLeft,
    BitVec.shiftLeft_eq', shift_eq hindex, BitVec.getLsbD_or,
    BitVec.getLsbD_shiftLeft, hbit, UInt8.toBitVec_toUInt64,
    BitVec.getLsbD_setWidth]
  by_cases hle : 8 * index <= bit
  · have hlt : bit - 8 * index < 64 := by
      lia
    simp [hle, hlt, not_lt.mpr hle]
  · simp [hle, not_le.mp hle]

theorem getLsbD_foldl_placeByte (bytes : Bytes) {first bit : Nat}
    (value : UInt64) (hlength : first + bytes.length <= 8) (hbit : bit < 64) :
    ((bytes.zipIdx first).foldl
      (fun value place => placeByte value place.1 place.2)
        value).toBitVec.getLsbD bit =
      (value.toBitVec.getLsbD bit || (decide (first <= bit / 8) &&
        (bytes[bit / 8 - first]?).any fun byte =>
          byte.toBitVec.getLsbD (bit % 8))) := by
  induction bytes generalizing first value with
  | nil => simp
  | cons byte rest ih =>
      rw [List.length_cons] at hlength
      rw [List.zipIdx_cons, List.foldl_cons, ih _ (by lia),
        getLsbD_placeByte _ _ (by lia) hbit]
      rcases Nat.lt_trichotomy (bit / 8) first with hlt | heq | hgt
      · have hplace : ¬ 8 * first <= bit := by
          lia
        have hrest : ¬ first + 1 <= bit / 8 := by
          lia
        simp [hplace, hrest, not_le.mpr hlt]
      · have hplace : 8 * first <= bit := by
          lia
        have hbit : bit - 8 * first = bit % 8 := by
          lia
        simp [hplace, hbit, heq]
      · have hindex : bit / 8 - first = bit / 8 - (first + 1) + 1 := by
          lia
        have hbyte : byte.toBitVec.getLsbD (bit - 8 * first) = false :=
          BitVec.getLsbD_of_ge _ _ (by lia)
        rw [hindex, List.getElem?_cons_succ]
        simp [Nat.succ_le_of_lt hgt, hgt.le, hbyte]

theorem wordOf_wordBytes (value : UInt64) : wordOf (wordBytes value) = value := by
  apply UInt64.toBitVec_inj.mp
  apply BitVec.eq_of_getLsbD_eq
  intro bit hbit
  have hindex : bit / 8 < 8 := by
    lia
  have hsplit : 8 * (bit / 8) + bit % 8 = bit := Nat.div_add_mod bit 8
  unfold wordOf
  rw [getLsbD_foldl_placeByte _ _ (by simp) hbit]
  simp [wordBytes, hindex,
    getLsbD_wordByte value hindex (Nat.mod_lt bit (by decide)), hsplit]

theorem wordBytes_wordOf {bytes : Bytes} (hlength : bytes.length = 8) :
    wordBytes (wordOf bytes) = bytes := by
  apply List.ext_getElem
  · rw [length_wordBytes, hlength]
  · intro index _ hright
    have hindex : index < 8 := by
      lia
    simp only [wordBytes, List.getElem_map, List.getElem_range]
    apply UInt8.toBitVec_inj.mp
    apply BitVec.eq_of_getLsbD_eq
    intro bit hbit
    have hdiv : (8 * index + bit) / 8 = index := by
      lia
    have hmod : (8 * index + bit) % 8 = bit := by
      lia
    unfold wordOf
    rw [getLsbD_wordByte _ hindex hbit,
      getLsbD_foldl_placeByte _ _ (by lia) (by lia), hdiv, hmod]
    simp [List.getElem?_eq_getElem hright]

theorem wordBytes_injective {value value' : UInt64}
    (h : wordBytes value = wordBytes value') : value = value' := by
  rw [← wordOf_wordBytes value, h, wordOf_wordBytes]

theorem toNat_toUInt64_of_le {length : Nat} {limit : UInt64}
    (hle : length <= limit.toNat) : length.toUInt64.toNat = length :=
  UInt64.toNat_ofNat_of_lt' (Nat.lt_of_le_of_lt hle limit.toNat_lt)

/-!
# Formats
-/

/-- Which byte strings stand for which values. -/
abbrev Format (alpha : Type) := alpha -> Bytes -> Prop

namespace Format

variable {alpha beta : Type}

/-- A string starts with at most one encoding, and that has one value. -/
def PrefixFree (format : Format alpha) : Prop :=
  forall a b front front' rest rest', format a front -> format b front' ->
    front ++ rest = front' ++ rest' -> a = b ∧ front = front'

def constant (a : alpha) (encoding : Bytes) : Format alpha :=
  fun b bytes => b = a ∧ bytes = encoding

def word : Format UInt64 :=
  fun value bytes => bytes = wordBytes value

def block (size : Nat) : Format Bytes :=
  fun value bytes => value.length = size ∧ bytes = value

/-- A bit in a byte of its own; every byte but zero stands for `true`. -/
def flag : Format Bool :=
  fun value bytes => exists byte : UInt8, value = (byte != 0) ∧ bytes = [byte]

def andThen (first : Format alpha) (next : alpha -> Format beta) : Format beta :=
  fun b bytes => exists a front rest, first a front ∧ next a b rest ∧
    bytes = front ++ rest

def guarded (condition : Prop) (format : Format alpha) : Format alpha :=
  fun a bytes => condition ∧ format a bytes

def listOf (format : Format alpha) : Format (List alpha)
  | [], bytes => bytes = []
  | a :: items, bytes => exists front rest, format a front ∧
      listOf format items rest ∧ bytes = front ++ rest

theorem prefixFree_constant (a : alpha) (encoding : Bytes) :
    (constant a encoding).PrefixFree := by
  rintro b c front front' rest rest' ⟨hb, hfront⟩ ⟨hc, hfront'⟩ _
  rw [hb, hc, hfront, hfront']
  exact ⟨rfl, rfl⟩

theorem prefixFree_word : word.PrefixFree := by
  intro value value' front front' rest rest' hfront hfront' hsame
  have hlength : front.length = front'.length := by
    rw [hfront, hfront', length_wordBytes, length_wordBytes]
  rcases List.append_inj hsame hlength with ⟨heq, _⟩
  constructor
  · apply wordBytes_injective
    rw [← hfront, ← hfront', heq]
  · exact heq

theorem prefixFree_block (size : Nat) : (block size).PrefixFree := by
  rintro value value' front front' rest rest' ⟨hsize, rfl⟩ ⟨hsize', rfl⟩ hsame
  rcases List.append_inj hsame (hsize.trans hsize'.symm) with ⟨heq, _⟩
  exact ⟨heq, heq⟩

theorem prefixFree_flag : flag.PrefixFree := by
  rintro value value' front front' rest rest' ⟨byte, rfl, rfl⟩ ⟨byte', rfl, rfl⟩
    hsame
  cases hsame
  exact ⟨rfl, rfl⟩

theorem prefixFree_andThen {first : Format alpha} {next : alpha -> Format beta}
    (hfirst : first.PrefixFree) (hnext : forall a, (next a).PrefixFree) :
    (first.andThen next).PrefixFree := by
  rintro b b' bytes bytes' rest rest' ⟨a, front, back, ha, hb, rfl⟩
    ⟨a', front', back', ha', hb', rfl⟩ hsame
  rw [List.append_assoc, List.append_assoc] at hsame
  rcases hfirst a a' front front' _ _ ha ha' hsame with ⟨rfl, rfl⟩
  have hback := List.append_cancel_left hsame
  rcases hnext a b b' back back' rest rest' hb hb' hback with ⟨rfl, rfl⟩
  exact ⟨rfl, rfl⟩

theorem prefixFree_guarded {condition : Prop} {format : Format alpha}
    (h : condition -> format.PrefixFree) :
    (format.guarded condition).PrefixFree := by
  rintro a b front front' rest rest' ⟨hcondition, ha⟩ ⟨_, hb⟩ hsame
  exact h hcondition a b front front' rest rest' ha hb hsame

theorem listOf_inj {format : Format alpha} (hformat : format.PrefixFree)
    {items items' : List alpha} {front front' rest rest' : Bytes}
    (hlength : items.length = items'.length)
    (hitems : format.listOf items front) (hitems' : format.listOf items' front')
    (hsame : front ++ rest = front' ++ rest') :
    items = items' ∧ front = front' := by
  induction items generalizing items' front front' with
  | nil =>
      cases items' with
      | nil => exact ⟨rfl, hitems.trans hitems'.symm⟩
      | cons a' items' => cases hlength
  | cons a items ih =>
      cases items' with
      | nil => cases hlength
      | cons a' items' =>
          rcases hitems with ⟨head, tail, ha, htail, rfl⟩
          rcases hitems' with ⟨head', tail', ha', htail', rfl⟩
          rw [List.append_assoc, List.append_assoc] at hsame
          rcases hformat a a' head head' _ _ ha ha' hsame with ⟨rfl, rfl⟩
          rcases ih (Nat.succ.inj hlength) htail htail'
            (List.append_cancel_left hsame) with ⟨rfl, rfl⟩
          exact ⟨rfl, rfl⟩

theorem PrefixFree.unique {format : Format alpha} (h : format.PrefixFree)
    {a b : alpha} {bytes : Bytes} (ha : format a bytes) (hb : format b bytes) :
    a = b :=
  (h a b bytes bytes [] [] ha hb rfl).left

theorem PrefixFree.eq_of_isPrefix {format : Format alpha} (h : format.PrefixFree)
    {a b : alpha} {bytes bytes' : Bytes} (ha : format a bytes)
    (hb : format b bytes') (hpre : bytes <+: bytes') : bytes = bytes' := by
  rcases hpre with ⟨rest, hrest⟩
  apply (h a b bytes bytes' rest [] ha hb _).right
  rw [hrest, List.append_nil]

end Format

/-!
# Readers
-/

/-- How the states of a reader present what is still unread. -/
structure Source (state fault : Type) where
  unread : state -> Bytes
  valid : state -> Prop
  /-- The faults with which a reader refuses its input. -/
  refuses : fault -> Prop

namespace Source

open Effect

variable {state fault alpha beta : Type} (source : Source state fault)

/-- The reader returns what stands at the front of the input, if anything does. -/
def Recognizes (x : Effect state fault alpha) (s : state) (format : Format alpha) :
    Prop :=
  source.valid s -> Ensures x s (fun r s' =>
    match r with
    | .ok a => source.valid s' ∧ exists front, format a front ∧
        source.unread s = front ++ source.unread s'
    | .error e => source.refuses e ∧ forall a front rest, format a front ->
        source.unread s ≠ front ++ rest)

/-- The reader returns the value of the whole input, if it has one. -/
def Decodes (x : Effect state fault alpha) (s : state) (format : Format alpha) :
    Prop :=
  Ensures x s (fun r _ =>
    match r with
    | .ok a => format a (source.unread s)
    | .error e => source.refuses e ∧ forall a, ¬ format a (source.unread s))

variable {source} {s : state} {format : Format alpha}

theorem recognizes_pure (a : alpha) :
    source.Recognizes (pure a : Effect state fault alpha) s
      (Format.constant a []) :=
  fun hvalid => ⟨hvalid, [], ⟨rfl, rfl⟩, rfl⟩

theorem recognizes_congr {x : Effect state fault alpha} {format' : Format alpha}
    (h : source.Recognizes x s format)
    (hformat : forall a bytes, format a bytes <-> format' a bytes) :
    source.Recognizes x s format' := by
  have hsame : format = format' := by
    funext a bytes
    exact propext (hformat a bytes)
  rw [← hsame]
  exact h

theorem recognizes_bind {x : Effect state fault alpha}
    {f : alpha -> Effect state fault beta} {next : alpha -> Format beta}
    (hformat : format.PrefixFree) (hx : source.Recognizes x s format)
    (hf : forall a s', source.Recognizes (f a) s' (next a)) :
    source.Recognizes (x >>= f) s (format.andThen next) := by
  intro hvalid
  apply ensures_bind_of (hx hvalid)
  · rintro a s' ⟨hvalid', front, ha, hfront⟩
    apply ensures_mono (hf a s' hvalid')
    intro r s'' hr
    cases r with
    | ok b =>
        rcases hr with ⟨hvalid'', back, hb, hback⟩
        refine ⟨hvalid'', front ++ back, ⟨a, front, back, ha, hb, rfl⟩, ?_⟩
        rw [hfront, hback, List.append_assoc]
    | error e =>
        constructor
        · exact hr.left
        · rintro b bytes rest ⟨a', front', back, ha', hb, rfl⟩ hsame
          rw [hfront, List.append_assoc] at hsame
          rcases hformat a a' front front' _ _ ha ha' hsame with ⟨rfl, rfl⟩
          exact hr.right b back rest hb (List.append_cancel_left hsame)
  · rintro e s' ⟨hrefuses, hnone⟩
    constructor
    · exact hrefuses
    · rintro b bytes rest ⟨a, front, back, ha, _, rfl⟩ hsame
      rw [List.append_assoc] at hsame
      exact hnone a front (back ++ rest) ha hsame

theorem recognizes_ite {condition : Prop} [Decidable condition] {e : fault}
    {x : Effect state fault alpha} (he : source.refuses e)
    (hx : ¬ condition -> source.Recognizes x s format) :
    source.Recognizes (if condition then throw e else x) s
      (format.guarded (¬ condition)) := by
  intro hvalid
  by_cases hcondition : condition
  · rw [if_pos hcondition]
    exact ⟨he, fun a front rest hguarded => absurd hcondition hguarded.left⟩
  · rw [if_neg hcondition]
    apply ensures_mono (hx hcondition hvalid)
    intro r s' hr
    cases r with
    | ok a =>
        rcases hr with ⟨hvalid', front, ha, hfront⟩
        exact ⟨hvalid', front, ⟨hcondition, ha⟩, hfront⟩
    | error e =>
        exact ⟨hr.left, fun a front rest ha => hr.right a front rest ha.right⟩

theorem decodes_bind {x : Effect state fault alpha}
    {finish : alpha -> Effect state fault alpha} (hformat : format.PrefixFree)
    (hvalid : source.valid s) (hx : source.Recognizes x s format)
    (hfinish : forall a s', source.valid s' -> Ensures (finish a) s' (fun r _ =>
      match r with
      | .ok b => b = a ∧ source.unread s' = []
      | .error e => source.refuses e ∧ source.unread s' ≠ [])) :
    source.Decodes (x >>= finish) s format := by
  apply ensures_bind_of (hx hvalid)
  · rintro a s' ⟨hvalid', front, ha, hfront⟩
    apply ensures_mono (hfinish a s' hvalid')
    intro r s'' hr
    cases r with
    | ok b =>
        rcases hr with ⟨rfl, hend⟩
        show format b (source.unread s)
        rw [hfront, hend, List.append_nil]
        exact ha
    | error e =>
        refine ⟨hr.left, ?_⟩
        intro b hb
        -- A longer encoding would have the one that was read as a proper part.
        have hsame : front ++ source.unread s' = source.unread s ++ [] := by
          rw [hfront, List.append_nil]
        have heq := (hformat a b front _ _ _ ha hb hsame).right
        rw [← heq] at hfront
        exact hr.right (List.self_eq_append_right.mp hfront)
  · rintro e s' ⟨hrefuses, hnone⟩
    refine ⟨hrefuses, ?_⟩
    intro a ha
    exact hnone a _ [] ha (List.append_nil _).symm

theorem Decodes.ok_iff {x : Effect state fault alpha}
    (h : source.Decodes x s format) (hformat : format.PrefixFree) (a : alpha) :
    (outcome x s).1 = .ok a <-> format a (source.unread s) := by
  unfold Decodes Ensures at h
  cases hr : (outcome x s).1 with
  | ok b =>
      rw [hr] at h
      constructor
      · intro heq
        cases heq
        exact h
      · intro ha
        rw [hformat.unique h ha]
  | error e =>
      rw [hr] at h
      constructor
      · intro heq
        cases heq
      · intro ha
        exact absurd ha (h.right a)

theorem Decodes.error_of_not {x : Effect state fault alpha}
    (h : source.Decodes x s format)
    (hnone : forall a, ¬ format a (source.unread s)) :
    exists e, (outcome x s).1 = .error e ∧ source.refuses e := by
  unfold Decodes Ensures at h
  cases hr : (outcome x s).1 with
  | ok a =>
      rw [hr] at h
      exact absurd h (hnone a)
  | error e =>
      rw [hr] at h
      exact ⟨e, rfl, h.left⟩

end Source

end Foundation
end FTKV
