import FTKV.Foundation.Separated
import FTKV.Node.NodeRuntime
import Mathlib.Data.List.Sort
import Mathlib.Data.List.TakeWhile

/-!
# The list of peers

The environment variable `FTKV_PEERS` lists the other nodes of the cluster as
`id=host:port` entries.  `parse_peers` accepts the lists of its grammar and no
other text.

## Strings

A `std::string_view` is shorter than `npos`, the largest `std::size_t`, so that
`npos` is no position.  Positions are computed modulo 2^64.
-/

namespace FTKV
namespace Node

open Foundation
open Raft (NodeId)

/-!
# String views
-/

/-- The exceptions of the standard library that parsing may raise. -/
inductive ParseFault where
  | invalidArgument (message : String)
  | outOfRange
deriving DecidableEq, Repr

def npos : Nat := 2 ^ 64 - 1

structure StringView where
  chars : List Char
  bounded : chars.length < npos

namespace StringView

def size (view : StringView) : Nat :=
  view.chars.length

def find (view : StringView) (character : Char) (offset : Nat := 0) : Nat :=
  let position := (view.chars.drop offset).idxOf character
  if position < (view.chars.drop offset).length then offset + position else npos

def substr (view : StringView) (offset : Nat) (count : Nat := npos) :
    Except ParseFault StringView :=
  if view.size < offset then
    .error .outOfRange
  else
    .ok {
      chars := (view.chars.drop offset).take count
      bounded := by
        have hlength := view.bounded
        rw [List.length_take, List.length_drop]
        lia }

structure Found (view : StringView) (character : Char) (offset : Nat)
    (word rest : List Char) : Prop where
  split : view.chars.drop offset = word ++ character :: rest
  free : character ∉ word

variable {view : StringView} {character : Char} {offset : Nat} {word rest : List Char}

theorem find_of_notMem (h : character ∉ view.chars.drop offset) :
    view.find character offset = npos := by
  apply if_neg
  rw [List.idxOf_lt_length_iff]
  exact h

theorem Found.find (h : view.Found character offset word rest) :
    view.find character offset = offset + word.length := by
  have hposition : (word ++ character :: rest).idxOf character = word.length := by
    rw [List.idxOf_append_of_notMem h.free, List.idxOf_cons_self, Nat.add_zero]
  unfold StringView.find
  rw [h.split, hposition, if_pos]
  simp

theorem Found.size (h : view.Found character offset word rest) :
    offset + word.length + 1 + rest.length = view.size := by
  have hlength := congrArg List.length h.split
  rw [List.length_drop, List.length_append, List.length_cons] at hlength
  unfold StringView.size
  lia

theorem Found.find_lt (h : view.Found character offset word rest) :
    view.find character offset + 1 < 2 ^ 64 := by
  have hbounded : view.size < 2 ^ 64 - 1 := view.bounded
  rw [h.find]
  have hsize := h.size
  lia

theorem Found.ne_npos (h : view.Found character offset word rest) :
    view.find character offset ≠ npos := by
  have hlt := h.find_lt
  unfold npos
  lia

theorem Found.next (h : view.Found character offset word rest) :
    (view.find character offset + 1) % 2 ^ 64 = offset + (word.length + 1) := by
  rw [Nat.mod_eq_of_lt h.find_lt, h.find, Nat.add_assoc]

theorem Found.drop_next (h : view.Found character offset word rest) :
    view.chars.drop (offset + (word.length + 1)) = rest := by
  rw [← List.drop_drop, h.split, List.drop_append]
  simp

theorem found_or_notMem (view : StringView) (character : Char) (offset : Nat) :
    (exists word rest, view.Found character offset word rest) ∨
      character ∉ view.chars.drop offset := by
  by_cases hmem : character ∈ view.chars.drop offset
  · rcases List.eq_append_cons_of_mem hmem with ⟨word, rest, hsplit, hword⟩
    exact Or.inl ⟨word, rest, hsplit, hword⟩
  · exact Or.inr hmem

theorem substr_of_le (h : offset <= view.size) (count : Nat) :
    exists part : StringView, view.substr offset count = .ok part ∧
      part.chars = (view.chars.drop offset).take count :=
  ⟨_, if_neg (Nat.not_lt.mpr h), rfl⟩

theorem Found.substr_word (h : view.Found character offset word rest) :
    exists part : StringView, view.substr offset word.length = .ok part ∧
      part.chars = word := by
  have hsize := h.size
  have hstart : offset <= view.size := by lia
  rcases substr_of_le hstart word.length with ⟨part, hpart, hchars⟩
  rw [h.split, List.take_left] at hchars
  exact ⟨part, hpart, hchars⟩

theorem Found.substr_rest (h : view.Found character offset word rest) :
    exists part : StringView, view.substr (offset + (word.length + 1)) = .ok part ∧
      part.chars = rest := by
  have hsize := h.size
  have hbounded : view.size < npos := view.bounded
  have hstart : offset + (word.length + 1) <= view.size := by lia
  have hlength : rest.length <= npos := by lia
  rcases substr_of_le hstart npos with ⟨part, hpart, hchars⟩
  rw [h.drop_next, List.take_of_length_le hlength] at hchars
  exact ⟨part, hpart, hchars⟩

end StringView

/-!
# Integers
-/

inductive Errc where
  | invalidArgument
  | resultOutOfRange
deriving DecidableEq, Repr

structure FromChars where
  /-- The value of the variable that receives the result. -/
  result : NodeId
  /-- The position of the first character that is not part of the number. -/
  ptr : Nat
  ec : Option Errc

/-- `std::from_chars` in base ten for an unsigned type of 64 bits. -/
def fromChars (text : List Char) (result : NodeId) : FromChars :=
  let digits := text.takeWhile Char.isDigit
  let number := Nat.ofDigitChars 10 digits 0
  if digits = [] then
    ⟨result, 0, some .invalidArgument⟩
  else if 2 ^ 64 <= number then
    ⟨result, digits.length, some .resultOutOfRange⟩
  else
    ⟨UInt64.ofNat number, digits.length, none⟩

def parseInteger (value : StringView) (name : String) : Except ParseFault NodeId :=
  let parsed := fromChars value.chars 0
  if parsed.ec ≠ none ∨ parsed.ptr ≠ value.size then
    .error (.invalidArgument ("invalid integer for " ++ name))
  else
    .ok parsed.result

/-!
# Parsing the list
-/

namespace PeerMap

def ids (peers : PeerMap) : List NodeId :=
  peers.entries.map Prod.fst

def empty : PeerMap where
  entries := []
  ascending := .nil

theorem pairwise_orderedInsert {entries : List (NodeId × String)}
    {peer : NodeId × String} (hentries : (entries.map Prod.fst).Pairwise (· < ·))
    (hfresh : peer.1 ∉ entries.map Prod.fst) :
    ((entries.orderedInsert (fun a b => a.1 <= b.1) peer).map Prod.fst).Pairwise
      (· < ·) := by
  have htotal : Std.Total (fun a b : NodeId × String => a.1 <= b.1) :=
    ⟨fun a b => UInt64.le_total a.1 b.1⟩
  have htrans : IsTrans (NodeId × String) (fun a b => a.1 <= b.1) :=
    ⟨fun _ _ _ => UInt64.le_trans⟩
  have hsorted : entries.Pairwise (fun a b => a.1 <= b.1) :=
    (List.pairwise_map.mp hentries).imp UInt64.le_of_lt
  have hnodup : (peer.1 :: entries.map Prod.fst).Nodup :=
    List.nodup_cons.mpr ⟨hfresh, hentries.imp UInt64.ne_of_lt⟩
  have hdistinct :
      ((entries.orderedInsert (fun a b => a.1 <= b.1) peer).map Prod.fst).Nodup :=
    ((List.perm_orderedInsert _ peer entries).map Prod.fst).nodup_iff.mpr hnodup
  have hordered := List.pairwise_map.mpr (hsorted.orderedInsert peer entries)
  exact hordered.imp₂ (fun _ _ hle hne => UInt64.lt_of_le_of_ne hle hne) hdistinct

def insert (peers : PeerMap) (peer : NodeId × String) (hfresh : peer.1 ∉ peers.ids) :
    PeerMap where
  entries := peers.entries.orderedInsert (fun a b => a.1 <= b.1) peer
  ascending := pairwise_orderedInsert peers.ascending hfresh

def emplace (peers : PeerMap) (peer : NodeId × String) : PeerMap × Bool :=
  if hfresh : peer.1 ∈ peers.ids then (peers, false) else (peers.insert peer hfresh, true)

end PeerMap

def parsePeer (item : StringView) : Except ParseFault (NodeId × String) := do
  let separator := item.find '='
  if separator = npos ∨ separator = 0 ∨ item.size <= (separator + 1) % 2 ^ 64 then
    throw (.invalidArgument "FTKV_PEERS must use id=host:port entries")
  else
    let id <- parseInteger (<- item.substr 0 separator) "FTKV_PEERS"
    let endpoint <- item.substr ((separator + 1) % 2 ^ 64)
    pure (id, String.ofList endpoint.chars)

def parseItem (value : StringView) (localId : NodeId) (offset : Nat) (peers : PeerMap) :
    Except ParseFault PeerMap := do
  let delimiter := value.find ',' offset
  let item <- value.substr offset ((delimiter + 2 ^ 64 - offset) % 2 ^ 64)
  let peer <- parsePeer item
  let (peers, inserted) := peers.emplace peer
  if peer.1 = localId ∨ inserted = false then
    throw (.invalidArgument "FTKV_PEERS contains a duplicate or local node ID")
  else
    pure peers

/-- The loop of `parse_peers` from an offset on. -/
def parsePeersFrom (value : StringView) (localId : NodeId) (offset : Nat)
    (peers : PeerMap) : Except ParseFault PeerMap :=
  if hoffset : offset < value.size then do
    let peers <- parseItem value localId offset peers
    if hdelimiter : value.find ',' offset = npos then
      pure peers
    else
      parsePeersFrom value localId ((value.find ',' offset + 1) % 2 ^ 64) peers
  else
    pure peers
termination_by value.size - offset
decreasing_by
  rcases value.found_or_notMem ',' offset with ⟨word, rest, hfound⟩ | habsent
  · rw [hfound.next]
    lia
  · exact absurd (StringView.find_of_notMem habsent) hdelimiter

def parsePeers (value : StringView) (localId : NodeId) : Except ParseFault PeerMap := do
  let peers <- parsePeersFrom value localId 0 .empty
  if peers.entries = [] then
    throw (.invalidArgument "FTKV_PEERS must contain at least one peer")
  else
    pure peers

/-!
# What a parser accepts
-/

section Accepts

variable {alpha beta : Type} {x : Except ParseFault alpha} {accepted : alpha -> Prop}

/-- The parser returns the accepted value, and reports an invalid argument if none is. -/
structure Accepts (x : Except ParseFault alpha) (accepted : alpha -> Prop) : Prop where
  ok : forall a, x = .ok a <-> accepted a
  error : forall fault, x = .error fault ->
    exists message, fault = .invalidArgument message

theorem accepts_congr {accepted' : alpha -> Prop} (h : Accepts x accepted)
    (hsame : forall a, accepted a <-> accepted' a) : Accepts x accepted' :=
  ⟨fun a => (h.ok a).trans (hsame a), h.error⟩

theorem accepts_pure (a : alpha) : Accepts (pure a) (fun b => b = a) := by
  constructor
  · intro b
    constructor
    · intro h
      cases h
      rfl
    · rintro rfl
      rfl
  · intro fault h
    cases h

theorem accepts_throw (message : String) (hnone : forall a, ¬ accepted a) :
    Accepts (throw (.invalidArgument message)) accepted := by
  constructor
  · intro a
    constructor
    · intro h
      cases h
    · intro ha
      exact absurd ha (hnone a)
  · intro fault h
    cases h
    exact ⟨message, rfl⟩

theorem accepts_bind {f : alpha -> Except ParseFault beta}
    {accepts : alpha -> beta -> Prop} (hx : Accepts x accepted)
    (hf : forall a, accepted a -> Accepts (f a) (accepts a)) :
    Accepts (x >>= f) (fun b => exists a, accepted a ∧ accepts a b) := by
  cases x with
  | error fault =>
      constructor
      · intro b
        constructor
        · intro h
          cases h
        · rintro ⟨a, ha, -⟩
          cases (hx.ok a).mpr ha
      · intro fault' h
        cases h
        exact hx.error fault rfl
  | ok a =>
      have ha : accepted a := (hx.ok a).mp rfl
      constructor
      · intro b
        constructor
        · intro h
          exact ⟨a, ha, ((hf a ha).ok b).mp h⟩
        · rintro ⟨a', ha', hb⟩
          cases (hx.ok a').mpr ha'
          exact ((hf a ha).ok b).mpr hb
      · exact (hf a ha).error

end Accepts

/-!
# Items
-/

structure Denotes (digits : List Char) (id : NodeId) : Prop where
  nonempty : digits ≠ []
  decimal : forall digit, digit ∈ digits -> digit.isDigit = true
  value : Nat.ofDigitChars 10 digits 0 = id.toNat

/-- The text is `id=endpoint`, with an endpoint that is not empty and has no comma. -/
def NamesPeer (text : List Char) (peer : NodeId × String) : Prop :=
  exists digits, Denotes digits peer.1 ∧ text = digits ++ '=' :: peer.2.toList ∧
    peer.2 ≠ "" ∧ ',' ∉ peer.2.toList

theorem Denotes.notMem {digits : List Char} {id : NodeId} {character : Char}
    (h : Denotes digits id) (hcharacter : character.isDigit = false) :
    character ∉ digits := by
  intro hmem
  rw [h.decimal character hmem] at hcharacter
  cases hcharacter

theorem notMem_of_namesPeer {text : List Char} {peer : NodeId × String}
    (h : NamesPeer text peer) : ',' ∉ text := by
  rcases h with ⟨digits, hdigits, rfl, -, hendpoint⟩
  intro hmem
  rcases List.mem_append.mp hmem with hmem | hmem
  · exact hdigits.notMem rfl hmem
  · rcases List.mem_cons.mp hmem with heq | hmem
    · cases heq
    · exact hendpoint hmem

theorem fromChars_of_denotes {text : List Char} {id : NodeId} (h : Denotes text id)
    (result : NodeId) : fromChars text result = ⟨id, text.length, none⟩ := by
  have hfits : ¬ 2 ^ 64 <= id.toNat := Nat.not_le.mpr id.toNat_lt
  simp only [fromChars, List.takeWhile_eq_self_iff.mpr h.decimal, if_neg h.nonempty,
    h.value, if_neg hfits, UInt64.ofNat_toNat]

theorem denotes_of_fromChars {text : List Char} {result : NodeId}
    (hec : (fromChars text result).ec = none)
    (hptr : (fromChars text result).ptr = text.length) :
    Denotes text (fromChars text result).result := by
  unfold fromChars at hec hptr ⊢
  by_cases hempty : text.takeWhile Char.isDigit = []
  · rw [if_pos hempty] at hec
    cases hec
  · rw [if_neg hempty] at hec hptr ⊢
    by_cases hlarge : 2 ^ 64 <= Nat.ofDigitChars 10 (text.takeWhile Char.isDigit) 0
    · rw [if_pos hlarge] at hec
      cases hec
    · rw [if_neg hlarge] at hptr ⊢
      -- The digits reach the end of the text.
      have hwhole : text.takeWhile Char.isDigit = text :=
        (List.takeWhile_prefix _).eq_of_length hptr
      rw [hwhole] at hempty hlarge ⊢
      constructor
      · exact hempty
      · exact List.takeWhile_eq_self_iff.mp hwhole
      · exact (UInt64.toNat_ofNat_of_lt (Nat.not_le.mp hlarge)).symm

theorem accepts_parseInteger (value : StringView) (name : String) :
    Accepts (parseInteger value name) (Denotes value.chars) := by
  unfold parseInteger
  by_cases hfails : (fromChars value.chars 0).ec ≠ none ∨
      (fromChars value.chars 0).ptr ≠ value.size
  · rw [if_pos hfails]
    apply accepts_throw
    intro id hid
    rw [fromChars_of_denotes hid] at hfails
    rcases hfails with hec | hptr
    · exact hec rfl
    · exact hptr rfl
  · rw [if_neg hfails]
    simp only [not_or, not_not] at hfails
    apply accepts_congr (accepts_pure _)
    intro id
    constructor
    · rintro rfl
      exact denotes_of_fromChars hfails.left hfails.right
    · intro hid
      rw [fromChars_of_denotes hid]

/-- An item is split in one way, since digits contain no `=`. -/
theorem namesPeer_append {word rest : List Char} (hword : '=' ∉ word)
    (hrest : ',' ∉ rest) (peer : NodeId × String) :
    NamesPeer (word ++ '=' :: rest) peer <->
      Denotes word peer.1 ∧ rest = peer.2.toList ∧ rest ≠ [] := by
  constructor
  · rintro ⟨digits, hdigits, htext, hendpoint, -⟩
    rcases eq_of_append_separator hword (hdigits.notMem rfl) htext with ⟨rfl, rfl⟩
    refine ⟨hdigits, rfl, ?_⟩
    intro hempty
    exact hendpoint (String.toList_eq_nil_iff.mp hempty)
  · rintro ⟨hdigits, rfl, hempty⟩
    refine ⟨word, hdigits, rfl, ?_, hrest⟩
    intro hendpoint
    exact hempty (String.toList_eq_nil_iff.mpr hendpoint)

theorem accepts_parsePeer_found {item : StringView} {word rest : List Char}
    (hitem : ',' ∉ item.chars) (hfound : item.Found '=' 0 word rest) :
    Accepts (parsePeer item) (NamesPeer item.chars) := by
  have hchars : item.chars = word ++ '=' :: rest := hfound.split
  have hrest : ',' ∉ rest := by
    intro hmem
    rw [hchars] at hitem
    exact hitem (List.mem_append_right word (List.mem_cons_of_mem _ hmem))
  have hsize := hfound.size
  unfold parsePeer
  simp only [hfound.next]
  simp only [hfound.find, Nat.zero_add]
  rw [Nat.zero_add] at hsize
  by_cases hmalformed : word.length = npos ∨ word.length = 0 ∨
      item.size <= word.length + 1
  · rw [if_pos hmalformed]
    apply accepts_throw
    intro peer hpeer
    rw [hchars, namesPeer_append hfound.free hrest] at hpeer
    rcases hpeer with ⟨hdigits, -, hnonempty⟩
    rcases hmalformed with hnpos | hempty | hshort
    · exact hfound.ne_npos (by rw [hfound.find, Nat.zero_add, hnpos])
    · exact hdigits.nonempty (List.length_eq_zero_iff.mp hempty)
    · apply hnonempty
      apply List.length_eq_zero_iff.mp
      lia
  · rw [if_neg hmalformed]
    rcases hfound.substr_word with ⟨number, hnumber, hword⟩
    rcases hfound.substr_rest with ⟨endpoint, hendpoint, hafter⟩
    rw [Nat.zero_add] at hendpoint
    rw [hnumber, hendpoint]
    have hparses := accepts_bind (accepts_parseInteger number "FTKV_PEERS")
      fun id _ => accepts_pure (id, String.ofList endpoint.chars)
    apply accepts_congr hparses
    intro peer
    rw [hchars, namesPeer_append hfound.free hrest, hword, hafter]
    constructor
    · rintro ⟨id, hid, rfl⟩
      refine ⟨hid, String.toList_ofList.symm, ?_⟩
      intro hempty
      rw [hempty, List.length_nil] at hsize
      lia
    · rintro ⟨hid, hendpoint, -⟩
      refine ⟨peer.1, hid, ?_⟩
      rw [hendpoint, String.ofList_toList]

theorem accepts_parsePeer {item : StringView} (hitem : ',' ∉ item.chars) :
    Accepts (parsePeer item) (NamesPeer item.chars) := by
  rcases item.found_or_notMem '=' 0 with ⟨word, rest, hfound⟩ | habsent
  · exact accepts_parsePeer_found hitem hfound
  · have hnpos : item.find '=' = npos := StringView.find_of_notMem habsent
    unfold parsePeer
    simp only [if_pos (Or.inl hnpos)]
    apply accepts_throw
    rintro peer ⟨digits, -, htext, -⟩
    apply habsent
    rw [List.drop_zero, htext]
    exact List.mem_append_right digits List.mem_cons_self

/-!
# One round of the loop
-/

theorem substr_of_found {value : StringView} {offset : Nat} {word rest : List Char}
    (hfound : value.Found ',' offset word rest) :
    exists item : StringView, item.chars = word ∧
      value.substr offset ((value.find ',' offset + 2 ^ 64 - offset) % 2 ^ 64) =
        .ok item := by
  have hsize := hfound.size
  have hlt := hfound.find_lt
  have hcount : (value.find ',' offset + 2 ^ 64 - offset) % 2 ^ 64 = word.length := by
    rw [hfound.find] at hlt ⊢
    have hsum : offset + word.length + 2 ^ 64 - offset = word.length + 2 ^ 64 := by lia
    rw [hsum, Nat.add_mod_right, Nat.mod_eq_of_lt (by lia)]
  rcases hfound.substr_word with ⟨item, hitem, hchars⟩
  rw [hcount]
  exact ⟨item, hchars, hitem⟩

/-- Without a comma the count wraps around and reaches to the end. -/
theorem substr_of_absent {value : StringView} {offset : Nat}
    (hoffset : offset < value.size) (habsent : ',' ∉ value.chars.drop offset) :
    exists item : StringView, item.chars = value.chars.drop offset ∧
      value.substr offset ((value.find ',' offset + 2 ^ 64 - offset) % 2 ^ 64) =
        .ok item := by
  rcases StringView.substr_of_le hoffset.le
    ((value.find ',' offset + 2 ^ 64 - offset) % 2 ^ 64) with ⟨item, hitem, hchars⟩
  refine ⟨item, ?_, hitem⟩
  rw [hchars, StringView.find_of_notMem habsent]
  apply List.take_of_length_le
  have hbounded : value.chars.length < 2 ^ 64 - 1 := value.bounded
  have hoffset' : offset < value.chars.length := hoffset
  rw [List.length_drop]
  unfold npos
  lia

def Adds (localId : NodeId) (peers : PeerMap) (word : List Char) (peers' : PeerMap) :
    Prop :=
  exists peer, NamesPeer word peer ∧ peer.1 ≠ localId ∧
    exists hfresh : peer.1 ∉ peers.ids, peers' = peers.insert peer hfresh

theorem accepts_parseItem {value item : StringView} {localId : NodeId} {offset : Nat}
    {peers : PeerMap}
    (hitem : value.substr offset
      ((value.find ',' offset + 2 ^ 64 - offset) % 2 ^ 64) = .ok item)
    (hcomma : ',' ∉ item.chars) :
    Accepts (parseItem value localId offset peers) (Adds localId peers item.chars) := by
  simp only [parseItem, hitem]
  apply accepts_bind (accepts_parsePeer hcomma)
  intro peer _
  unfold PeerMap.emplace
  by_cases hlocal : peer.1 = localId
  · rw [if_pos (Or.inl hlocal)]
    apply accepts_throw
    rintro peers' ⟨hother, -⟩
    exact hother hlocal
  · by_cases hmem : peer.1 ∈ peers.ids
    · rw [dif_pos hmem, if_pos (Or.inr rfl)]
      apply accepts_throw
      rintro peers' ⟨-, hfresh, -⟩
      exact hfresh hmem
    · rw [dif_neg hmem, if_neg (not_or.mpr ⟨hlocal, nofun⟩)]
      apply accepts_congr (accepts_pure _)
      intro peers'
      constructor
      · rintro rfl
        exact ⟨hlocal, hmem, rfl⟩
      · rintro ⟨-, -, rfl⟩
        rfl

/-!
# The loop
-/

theorem PeerMap.eq_of_mem_iff {peers peers' : PeerMap}
    (h : forall peer, peer ∈ peers.entries <-> peer ∈ peers'.entries) :
    peers = peers' := by
  have hantisymm : Std.Antisymm (fun a b : NodeId × String => a.1 < b.1) :=
    ⟨fun _ _ hlt hgt => absurd (UInt64.lt_trans hlt hgt) (UInt64.lt_irrefl _)⟩
  have hirrefl : Std.Irrefl (fun a b : NodeId × String => a.1 < b.1) :=
    ⟨fun _ => UInt64.lt_irrefl _⟩
  have hentries := (List.pairwise_map.mp peers.ascending).eq_of_mem_iff
    (List.pairwise_map.mp peers'.ascending) h
  cases peers
  cases peers'
  cases hentries
  rfl

theorem PeerMap.mem_insert {peers : PeerMap} {peer entry : NodeId × String}
    {hfresh : peer.1 ∉ peers.ids} :
    entry ∈ (peers.insert peer hfresh).entries <->
      entry = peer ∨ entry ∈ peers.entries :=
  List.mem_orderedInsert _

theorem PeerMap.mem_ids_insert {peers : PeerMap} {peer : NodeId × String} {id : NodeId}
    {hfresh : peer.1 ∉ peers.ids} :
    id ∈ (peers.insert peer hfresh).ids <-> id = peer.1 ∨ id ∈ peers.ids := by
  have hperm := (List.perm_orderedInsert (fun a b : NodeId × String => a.1 <= b.1) peer
    peers.entries).map Prod.fst
  rw [← List.mem_cons]
  exact hperm.mem_iff

structure Extends (localId : NodeId) (peers : PeerMap) (listed : List (NodeId × String))
    (peers' : PeerMap) : Prop where
  distinct : (listed.map Prod.fst).Nodup
  fresh : forall id, id ∈ listed.map Prod.fst -> id ∉ peers.ids
  others : localId ∉ listed.map Prod.fst
  entries : forall peer, peer ∈ peers'.entries <-> peer ∈ peers.entries ∨ peer ∈ listed

section Extends

variable {localId : NodeId} {peers peers' : PeerMap} {listed : List (NodeId × String)}
  {peer : NodeId × String}

theorem extends_nil : Extends localId peers [] peers' <-> peers' = peers := by
  constructor
  · intro h
    apply PeerMap.eq_of_mem_iff
    intro peer
    rw [h.entries, List.mem_nil_iff, or_false]
  · rintro rfl
    exact ⟨.nil, nofun, nofun, by simp⟩

theorem extends_cons : Extends localId peers (peer :: listed) peers' <->
    peer.1 ≠ localId ∧ exists hfresh : peer.1 ∉ peers.ids,
      Extends localId (peers.insert peer hfresh) listed peers' := by
  constructor
  · intro h
    have hdistinct := h.distinct
    rw [List.map_cons, List.nodup_cons] at hdistinct
    have hothers := h.others
    rw [List.map_cons, List.mem_cons, not_or] at hothers
    have hfresh : peer.1 ∉ peers.ids := h.fresh peer.1 List.mem_cons_self
    refine ⟨Ne.symm hothers.left, hfresh, ?_⟩
    constructor
    · exact hdistinct.right
    · intro id hid hmem
      rcases PeerMap.mem_ids_insert.mp hmem with rfl | hmem
      · exact hdistinct.left hid
      · exact h.fresh id (List.mem_cons_of_mem _ hid) hmem
    · exact hothers.right
    · intro entry
      rw [h.entries, PeerMap.mem_insert, List.mem_cons]
      exact (or_assoc.trans or_left_comm).symm
  · rintro ⟨hother, hfresh, h⟩
    constructor
    · rw [List.map_cons, List.nodup_cons]
      refine ⟨?_, h.distinct⟩
      intro hmem
      exact h.fresh peer.1 hmem (PeerMap.mem_ids_insert.mpr (Or.inl rfl))
    · intro id hid hmem
      rcases List.mem_cons.mp hid with rfl | hid
      · exact hfresh hmem
      · exact h.fresh id hid (PeerMap.mem_ids_insert.mpr (Or.inr hmem))
    · rw [List.map_cons, List.mem_cons, not_or]
      exact ⟨Ne.symm hother, h.others⟩
    · intro entry
      rw [h.entries, PeerMap.mem_insert, List.mem_cons]
      exact or_assoc.trans or_left_comm

end Extends

section Rounds

variable {localId : NodeId} {peers peers' : PeerMap} {word rest : List Char}

theorem exists_adds_iff {lists : List (NodeId × String) -> Prop} :
    (exists peers1, Adds localId peers word peers1 ∧
      exists listed, lists listed ∧ Extends localId peers1 listed peers') <->
    exists peer listed, NamesPeer word peer ∧ lists listed ∧
      Extends localId peers (peer :: listed) peers' := by
  constructor
  · rintro ⟨peers1, ⟨peer, hpeer, hother, hfresh, rfl⟩, listed, hlisted, hextends⟩
    exact ⟨peer, listed, hpeer, hlisted, extends_cons.mpr ⟨hother, hfresh, hextends⟩⟩
  · rintro ⟨peer, listed, hpeer, hlisted, hextends⟩
    rcases extends_cons.mp hextends with ⟨hother, hfresh, hextends⟩
    exact ⟨_, ⟨peer, hpeer, hother, hfresh, rfl⟩, listed, hlisted, hextends⟩

theorem adds_then_lists_iff (hword : ',' ∉ word) :
    (exists peers1, Adds localId peers word peers1 ∧
      exists listed, Separated ',' NamesPeer rest listed ∧
        Extends localId peers1 listed peers') <->
    exists listed, Separated ',' NamesPeer (word ++ ',' :: rest) listed ∧
      Extends localId peers listed peers' := by
  rw [exists_adds_iff]
  simp only [separated_append (fun _ _ => notMem_of_namesPeer) hword]
  constructor
  · rintro ⟨peer, listed, hpeer, hlisted, hextends⟩
    exact ⟨peer :: listed, ⟨peer, listed, hpeer, hlisted, rfl⟩, hextends⟩
  · rintro ⟨_, ⟨peer, listed, hpeer, hlisted, rfl⟩, hextends⟩
    exact ⟨peer, listed, hpeer, hlisted, hextends⟩

theorem adds_last_iff (hnonempty : word ≠ []) (hword : ',' ∉ word) :
    (exists peers1, Adds localId peers word peers1 ∧ peers' = peers1) <->
    exists listed, Separated ',' NamesPeer word listed ∧
      Extends localId peers listed peers' := by
  have hlast : forall peers1, peers' = peers1 <->
      exists listed, listed = [] ∧ Extends localId peers1 listed peers' := by
    intro peers1
    simp only [exists_eq_left, extends_nil]
  simp only [hlast, exists_adds_iff, separated_of_notMem hnonempty hword]
  constructor
  · rintro ⟨peer, _, hpeer, rfl, hextends⟩
    exact ⟨[peer], ⟨peer, hpeer, rfl⟩, hextends⟩
  · rintro ⟨_, ⟨peer, hpeer, rfl⟩, hextends⟩
    exact ⟨peer, [], hpeer, rfl, hextends⟩

end Rounds

theorem accepts_parsePeersFrom (value : StringView) (localId : NodeId) (offset : Nat)
    (peers : PeerMap) :
    Accepts (parsePeersFrom value localId offset peers) (fun peers' =>
      exists listed, Separated ',' NamesPeer (value.chars.drop offset) listed ∧
        Extends localId peers listed peers') := by
  induction offset, peers using parsePeersFrom.induct value with
  | case1 offset peers hoffset ih =>
      rw [parsePeersFrom, dif_pos hoffset]
      rcases value.found_or_notMem ',' offset with ⟨word, rest, hfound⟩ | habsent
      · -- The loop goes on after the comma.
        rcases substr_of_found hfound with ⟨item, rfl, hitem⟩
        simp only [dif_neg hfound.ne_npos]
        apply accepts_congr (accepts_bind (accepts_parseItem hitem hfound.free)
          fun peers1 _ => ih peers1 hfound.ne_npos)
        intro peers'
        rw [hfound.next, hfound.drop_next, hfound.split]
        exact adds_then_lists_iff hfound.free
      · -- The last item reaches to the end.
        rcases substr_of_absent hoffset habsent with ⟨item, hchars, hitem⟩
        have hnonempty : value.chars.drop offset ≠ [] := by
          rw [Ne, List.drop_eq_nil_iff]
          exact Nat.not_le.mpr hoffset
        simp only [dif_pos (StringView.find_of_notMem habsent)]
        rw [← hchars] at habsent hnonempty ⊢
        apply accepts_congr (accepts_bind (accepts_parseItem hitem habsent)
          fun peers1 _ => accepts_pure peers1)
        intro peers'
        exact adds_last_iff hnonempty habsent
  | case2 offset peers hoffset =>
      rw [parsePeersFrom, dif_neg hoffset, List.drop_eq_nil_of_le (Nat.not_lt.mp hoffset)]
      apply accepts_congr (accepts_pure peers)
      intro peers'
      have hnil : forall peer, ¬ NamesPeer [] peer := by
        rintro peer ⟨digits, -, htext, -⟩
        exact absurd htext.symm (List.append_ne_nil_of_right_ne_nil digits nofun)
      simp only [separated_nil hnil, exists_eq_left, extends_nil]

/-!
# The grammar
-/

/-- The text lists the peers, each of them once and not the local node. -/
structure PeerList (localId : NodeId) (text : List Char)
    (listed : List (NodeId × String)) : Prop where
  lists : Lists ',' NamesPeer text listed
  distinct : (listed.map Prod.fst).Nodup
  others : localId ∉ listed.map Prod.fst

section Grammar

variable {localId : NodeId} {text : List Char} {listed : List (NodeId × String)}
  {peers : PeerMap}

theorem mem_entries_of_extends (h : Extends localId .empty listed peers)
    (peer : NodeId × String) : peer ∈ peers.entries <-> peer ∈ listed := by
  rw [h.entries]
  exact or_iff_right nofun

theorem entries_eq_nil_iff (h : Extends localId .empty listed peers) :
    peers.entries = [] <-> listed = [] := by
  simp only [List.eq_nil_iff_forall_not_mem, mem_entries_of_extends h]

theorem peerList_iff :
    (Separated ',' NamesPeer text listed ∧ Extends localId .empty listed peers ∧
      peers.entries ≠ []) <->
    PeerList localId text listed ∧ forall peer, peer ∈ peers.entries <-> peer ∈ listed := by
  constructor
  · rintro ⟨hlisted, hextends, hnonempty⟩
    rw [Ne, entries_eq_nil_iff hextends] at hnonempty
    exact ⟨⟨lists_of_separated hlisted hnonempty, hextends.distinct, hextends.others⟩,
      mem_entries_of_extends hextends⟩
  · rintro ⟨hlist, hentries⟩
    have hextends : Extends localId .empty listed peers := by
      refine ⟨hlist.distinct, fun _ _ => nofun, hlist.others, ?_⟩
      intro peer
      rw [hentries]
      exact (or_iff_right nofun).symm
    refine ⟨separated_of_lists hlist.lists, hextends, ?_⟩
    rw [Ne, entries_eq_nil_iff hextends]
    exact hlist.lists.left

theorem accepts_parsePeers (value : StringView) (localId : NodeId) :
    Accepts (parsePeers value localId) (fun peers =>
      exists listed, PeerList localId value.chars listed ∧
        forall peer, peer ∈ peers.entries <-> peer ∈ listed) := by
  have hchecked : forall peers : PeerMap, Accepts (if peers.entries = [] then
      throw (.invalidArgument "FTKV_PEERS must contain at least one peer")
      else pure peers) (fun peers' => peers.entries ≠ [] ∧ peers' = peers) := by
    intro peers
    by_cases hempty : peers.entries = []
    · rw [if_pos hempty]
      apply accepts_throw
      intro peers' hpeers'
      exact hpeers'.left hempty
    · rw [if_neg hempty]
      apply accepts_congr (accepts_pure peers)
      intro peers'
      exact (and_iff_right hempty).symm
  apply accepts_congr (accepts_bind (accepts_parsePeersFrom value localId 0 .empty)
    fun peers _ => hchecked peers)
  intro peers
  constructor
  · rintro ⟨peers1, ⟨listed, hlisted, hextends⟩, hnonempty, rfl⟩
    exact ⟨listed, peerList_iff.mp ⟨hlisted, hextends, hnonempty⟩⟩
  · rintro ⟨listed, hlist⟩
    rcases peerList_iff.mpr hlist with ⟨hlisted, hextends, hnonempty⟩
    exact ⟨peers, ⟨listed, hlisted, hextends⟩, hnonempty, rfl⟩

theorem exists_extends (peers : PeerMap) (hdistinct : (listed.map Prod.fst).Nodup)
    (hfresh : forall id, id ∈ listed.map Prod.fst -> id ∉ peers.ids)
    (hothers : localId ∉ listed.map Prod.fst) :
    exists peers', Extends localId peers listed peers' := by
  induction listed generalizing peers with
  | nil => exact ⟨peers, extends_nil.mpr rfl⟩
  | cons peer rest ih =>
      rw [List.map_cons, List.nodup_cons] at hdistinct
      rw [List.map_cons, List.mem_cons, not_or] at hothers
      have hnew : peer.1 ∉ peers.ids := hfresh peer.1 List.mem_cons_self
      have hrest : forall id, id ∈ rest.map Prod.fst ->
          id ∉ (peers.insert peer hnew).ids := by
        intro id hid hmem
        rcases PeerMap.mem_ids_insert.mp hmem with rfl | hmem
        · exact hdistinct.left hid
        · exact hfresh id (List.mem_cons_of_mem _ hid) hmem
      rcases ih (peers.insert peer hnew) hdistinct.right hrest hothers.right with
        ⟨peers', hextends⟩
      exact ⟨peers', extends_cons.mpr ⟨Ne.symm hothers.left, hnew, hextends⟩⟩

theorem parsePeers_of_peerList {value : StringView}
    (h : PeerList localId value.chars listed) :
    exists peers, parsePeers value localId = .ok peers ∧
      forall peer, peer ∈ peers.entries <-> peer ∈ listed := by
  rcases exists_extends .empty h.distinct (fun _ _ => nofun) h.others with
    ⟨peers, hextends⟩
  have hentries := mem_entries_of_extends hextends
  exact ⟨peers, ((accepts_parsePeers value localId).ok peers).mpr ⟨listed, h, hentries⟩,
    hentries⟩

/-!
# Rendering
-/

def renderPeer (peer : NodeId × String) : List Char :=
  Nat.toDigits 10 peer.1.toNat ++ '=' :: peer.2.toList

def PeerMap.render (peers : PeerMap) : List Char :=
  [','].intercalate (peers.entries.map renderPeer)

structure Renderable (localId : NodeId) (peers : PeerMap) : Prop where
  nonempty : peers.entries ≠ []
  others : localId ∉ peers.ids
  endpoints : forall peer, peer ∈ peers.entries ->
    peer.2 ≠ "" ∧ ',' ∉ peer.2.toList

theorem denotes_toDigits (id : NodeId) : Denotes (Nat.toDigits 10 id.toNat) id := by
  constructor
  · exact Nat.toDigits_ne_nil
  · intro digit hdigit
    exact Nat.isDigit_of_mem_toDigits (by decide) (by decide) hdigit
  · exact Nat.ofDigitChars_toDigits (by decide) (by decide)

theorem peerList_render (h : Renderable localId peers) :
    PeerList localId peers.render peers.entries := by
  constructor
  · refine ⟨h.nonempty, peers.entries.map renderPeer, [], ?_, Or.inl rfl, ?_⟩
    · rw [List.forall₂_map_left_iff, List.forall₂_same]
      intro peer hpeer
      exact ⟨_, denotes_toDigits peer.1, rfl, h.endpoints peer hpeer⟩
    · exact (List.append_nil _).symm
  · exact peers.ascending.imp UInt64.ne_of_lt
  · exact h.others

end Grammar

/--
`parse_peers` returns a map exactly for the lists of its grammar: items
`id=endpoint` with commas between them, and perhaps one after them, where the ids are
pairwise distinct and not the local one.  The map then has the listed peers and no
others.  Every other text is an invalid argument.  A rendered map is parsed back.
-/
theorem parsePeers_accepts_grammar (value : StringView) (localId : NodeId) :
    ((exists peers, parsePeers value localId = .ok peers) <->
      exists listed, PeerList localId value.chars listed) ∧
    (forall peers listed, parsePeers value localId = .ok peers ->
      PeerList localId value.chars listed ->
        forall peer, peer ∈ peers.entries <-> peer ∈ listed) ∧
    ((¬ exists listed, PeerList localId value.chars listed) ->
      exists message, parsePeers value localId = .error (.invalidArgument message)) ∧
    (forall peers, Renderable localId peers -> value.chars = peers.render ->
      parsePeers value localId = .ok peers) := by
  have haccepts := accepts_parsePeers value localId
  refine ⟨?_, ?_, ?_, ?_⟩
  · constructor
    · rintro ⟨peers, hpeers⟩
      rcases (haccepts.ok peers).mp hpeers with ⟨listed, hlist, -⟩
      exact ⟨listed, hlist⟩
    · rintro ⟨listed, hlist⟩
      rcases parsePeers_of_peerList hlist with ⟨peers, hpeers, -⟩
      exact ⟨peers, hpeers⟩
  · intro peers listed hpeers hlist
    rcases parsePeers_of_peerList hlist with ⟨peers', hpeers', hentries⟩
    cases hpeers.symm.trans hpeers'
    exact hentries
  · intro hnone
    cases hresult : parsePeers value localId with
    | ok peers =>
        rcases (haccepts.ok peers).mp hresult with ⟨listed, hlist, -⟩
        exact absurd ⟨listed, hlist⟩ hnone
    | error fault =>
        rcases haccepts.error fault hresult with ⟨message, rfl⟩
        exact ⟨message, rfl⟩
  · intro peers hrenderable htext
    apply (haccepts.ok peers).mpr
    rw [htext]
    exact ⟨peers.entries, peerList_render hrenderable, fun _ => Iff.rfl⟩

example : (parsePeers ⟨"02=a=b,3=c,".toList, by decide⟩ 1).toOption.map PeerMap.entries =
    some [(2, "a=b"), (3, "c")] := by
  decide +kernel

end Node
end FTKV
