import FTKV.Node.StateCodec

/-!
# The persistent state survives its encoding

Decoding inverts encoding.  A string that decodes at all is an encoding up to
its flag bytes, because the decoder takes every byte but zero for a set flag.
-/

namespace FTKV
namespace Node

open Foundation
open Raft

/-!
# Strings that agree up to flags
-/

def entryFlagOffsets : Nat -> List LogEntry -> List Nat
  | _, [] => []
  | start, entry :: rest =>
      (start + 8) :: entryFlagOffsets (start + (entryBytes entry).length) rest

def flagOffsets (state : PersistentState) : List Nat :=
  (raftStateMagic.length + 8) :: entryFlagOffsets
    (raftStateMagic.length + 8 + (voteBytes state.votedFor).length + 8) state.log

/--
The strings have the same length and agree, except that some byte but zero may
stand for the one of a flag.
-/
structure SameButFlags (flags : List Nat) (start : Nat)
    (bytes encoding : Bytes) : Prop where
  length : bytes.length = encoding.length
  agree : forall index byte expected, bytes[index]? = some byte ->
    encoding[index]? = some expected ->
      byte = expected ∨ (start + index ∈ flags ∧ expected = 1 ∧ byte ≠ 0)

variable {flags : List Nat} {start : Nat}

theorem sameButFlags_refl (bytes : Bytes) :
    SameButFlags flags start bytes bytes := by
  refine ⟨rfl, ?_⟩
  intro index byte expected hbyte hexpected
  rw [hbyte] at hexpected
  exact Or.inl (Option.some.inj hexpected)

theorem sameButFlags_append {bytes bytes' encoding encoding' : Bytes}
    (h : SameButFlags flags start bytes encoding)
    (h' : SameButFlags flags (start + encoding.length) bytes' encoding') :
    SameButFlags flags start (bytes ++ bytes') (encoding ++ encoding') := by
  constructor
  · rw [List.length_append, List.length_append, h.length, h'.length]
  · intro index byte expected hbyte hexpected
    rcases Nat.lt_or_ge index encoding.length with hlt | hge
    · rw [List.getElem?_append_left (by rw [h.length]; exact hlt)] at hbyte
      rw [List.getElem?_append_left hlt] at hexpected
      exact h.agree index byte expected hbyte hexpected
    · rw [List.getElem?_append_right (by rw [h.length]; exact hge),
        h.length] at hbyte
      rw [List.getElem?_append_right hge] at hexpected
      have hindex : start + encoding.length + (index - encoding.length) =
          start + index := by
        lia
      rw [← hindex]
      exact h'.agree _ byte expected hbyte hexpected

theorem sameButFlags_flag {flag : Bool} {bytes : Bytes} (hmem : start ∈ flags)
    (hflag : Format.flag flag bytes) :
    SameButFlags flags start bytes [flagByte flag] := by
  rcases hflag with ⟨read, rfl, rfl⟩
  refine ⟨rfl, ?_⟩
  intro index byte expected hbyte hexpected
  cases index with
  | zero =>
      cases hbyte
      cases hexpected
      by_cases hzero : read = 0
      · left
        simp [flagByte, hzero]
      · right
        exact ⟨hmem, by simp [flagByte, hzero], hzero⟩
  | succ index => cases hbyte

/-!
# Decoded strings are encodings up to flags
-/

theorem entryFormat_sameButFlags {entry : LogEntry} {bytes : Bytes}
    (h : entryFormat entry bytes) (hmem : start + 8 ∈ flags) :
    entry.command.length <= maximumCommandBytes.toNat ∧
      SameButFlags flags start bytes (entryBytes entry) := by
  rcases h with ⟨term, _, _, rfl, ⟨isNoOp, flag, _, hflag, ⟨size, _, _, rfl,
    ⟨_, command, _, ⟨hsize, hlength, rfl⟩, ⟨rfl, rfl⟩, rfl⟩, rfl⟩, rfl⟩, rfl⟩
  have hword : command.length.toUInt64 = size := by
    rw [hlength]
    exact UInt64.ofNat_toNat
  constructor
  · show command.length <= _
    rw [hlength]
    exact UInt64.le_iff_toNat_le.mp hsize
  · unfold entryBytes
    rw [hword, List.append_nil]
    apply sameButFlags_append (sameButFlags_refl _)
    rw [length_wordBytes]
    exact sameButFlags_append (sameButFlags_flag hmem hflag)
      (sameButFlags_refl _)

theorem listOf_sameButFlags {log : List LogEntry} {bytes : Bytes}
    (h : entryFormat.listOf log bytes)
    (hmem : forall offset, offset ∈ entryFlagOffsets start log ->
      offset ∈ flags) :
    (forall entry, entry ∈ log ->
        entry.command.length <= maximumCommandBytes.toNat) ∧
      SameButFlags flags start bytes (log.flatMap entryBytes) := by
  induction log generalizing start bytes with
  | nil =>
      rw [show bytes = [] from h]
      exact ⟨fun _ hnone => (nomatch hnone), sameButFlags_refl _⟩
  | cons entry rest ih =>
      rcases h with ⟨front, back, hentry, hrest, rfl⟩
      rcases entryFormat_sameButFlags hentry (hmem _ (List.mem_cons_self ..)) with
        ⟨hsize, hfront⟩
      rcases ih hrest (fun offset hoffset =>
        hmem offset (List.mem_cons_of_mem _ hoffset)) with ⟨hsizes, hback⟩
      constructor
      · exact List.forall_mem_cons.mpr ⟨hsize, hsizes⟩
      · rw [List.flatMap_cons]
        exact sameButFlags_append hfront hback

theorem voteFormat_sameButFlags {hasVote : Bool} {votedFor : Option NodeId}
    {front rest : Bytes} (hflag : Format.flag hasVote front)
    (hvote : voteFormat hasVote votedFor rest) (hmem : start ∈ flags) :
    SameButFlags flags start (front ++ rest) (voteBytes votedFor) := by
  cases hasVote with
  | false =>
      rcases hvote with ⟨rfl, rfl⟩
      rw [List.append_nil]
      exact sameButFlags_flag hmem hflag
  | true =>
      rcases hvote with ⟨vote, _, _, rfl, ⟨rfl, rfl⟩, rfl⟩
      rw [List.append_nil]
      exact sameButFlags_append (sameButFlags_flag hmem hflag)
        (sameButFlags_refl _)

theorem stateFormat_sameButFlags {state : PersistentState} {bytes : Bytes}
    (h : stateFormat state bytes) :
    Encodable state ∧
      SameButFlags (flagOffsets state) 0 bytes (stateBytes state) := by
  rcases h with ⟨_, _, _, ⟨_, rfl⟩, ⟨currentTerm, _, _, rfl, ⟨hasVote, front, _,
    hflag, ⟨votedFor, rest, _, hvote, ⟨count, _, _, rfl, ⟨log, entries, _,
      ⟨hcount, hlength, hlog⟩, ⟨rfl, rfl⟩, rfl⟩, rfl⟩, rfl⟩, rfl⟩, rfl⟩, rfl⟩
  have hword : log.length.toUInt64 = count := by
    rw [hlength]
    exact UInt64.ofNat_toNat
  rcases listOf_sameButFlags hlog (fun _ hoffset =>
    List.mem_cons_of_mem (raftStateMagic.length + 8) hoffset) with
    ⟨hcommands, hentries⟩
  constructor
  · refine ⟨?_, hcommands⟩
    show log.length <= _
    rw [hlength]
    exact UInt64.le_iff_toNat_le.mp hcount
  · unfold stateBytes
    rw [hword, List.append_nil, ← List.append_assoc front]
    apply sameButFlags_append (sameButFlags_refl _)
    apply sameButFlags_append (sameButFlags_refl _)
    rw [length_wordBytes, Nat.zero_add]
    apply sameButFlags_append (voteFormat_sameButFlags hflag hvote
      (List.mem_cons_self ..))
    apply sameButFlags_append (sameButFlags_refl _)
    rw [length_wordBytes]
    exact hentries

/-!
# Exactness
-/

theorem decodeState_stateBytes {state : PersistentState}
    (hfits : Encodable state) : decodeState (stateBytes state) = .ok state :=
  decodeState_eq_ok_iff.mpr (stateFormat_stateBytes hfits)

theorem eq_of_decodeState_eq_ok {bytes bytes' : Bytes}
    {state state' : PersistentState} (h : decodeState bytes = .ok state)
    (h' : decodeState bytes' = .ok state')
    (hpre : bytes <+: bytes' ∨ bytes' <+: bytes) : bytes = bytes' := by
  rw [decodeState_eq_ok_iff] at h h'
  rcases hpre with hpre | hpre
  · exact prefixFree_stateFormat.eq_of_isPrefix h h' hpre
  · exact (prefixFree_stateFormat.eq_of_isPrefix h' h hpre).symm

/--
Decoding inverts encoding.  Any other string is refused with a `RaftError`, or
it decodes to a state whose encoding differs from it in flag bytes only.  What
cuts an encoding short or continues it is refused.
-/
theorem state_codec_exact :
    (forall state bytes, encodeState state = .ok bytes ->
      decodeState bytes = .ok state) ∧
    (forall bytes,
      (exists message, decodeState bytes = .error (.raftError message)) ∨
        exists state encoding, decodeState bytes = .ok state ∧
          encodeState state = .ok encoding ∧
            SameButFlags (flagOffsets state) 0 bytes encoding) ∧
    forall state encoding bytes, encodeState state = .ok encoding ->
      bytes <+: encoding ∨ encoding <+: bytes -> bytes ≠ encoding ->
        exists message, decodeState bytes = .error (.raftError message) := by
  refine ⟨?_, ?_, ?_⟩
  · intro state bytes hencode
    rcases encodeState_eq_ok_iff.mp hencode with ⟨hfits, rfl⟩
    exact decodeState_stateBytes hfits
  · intro bytes
    by_cases hsome : exists state, stateFormat state bytes
    · rcases hsome with ⟨state, hstate⟩
      rcases stateFormat_sameButFlags hstate with ⟨hfits, hsame⟩
      exact Or.inr ⟨state, stateBytes state, decodeState_eq_ok_iff.mpr hstate,
        encodeState_eq_ok_iff.mpr ⟨hfits, rfl⟩, hsame⟩
    · exact Or.inl (decodeState_eq_error fun state hstate => hsome ⟨state, hstate⟩)
  · intro state encoding bytes hencode hpre hne
    rcases encodeState_eq_ok_iff.mp hencode with ⟨hfits, rfl⟩
    apply decodeState_eq_error
    intro state' hstate'
    exact hne (eq_of_decodeState_eq_ok (decodeState_eq_ok_iff.mpr hstate')
      (decodeState_stateBytes hfits) hpre)

/-- A vote flag of two is read as a vote but written as one. -/
example : (decodeState (raftStateMagic ++ wordBytes 3 ++ [2] ++ wordBytes 1 ++
    wordBytes 0)).toOption = some { currentTerm := 3, votedFor := some 1 } := by
  decide

end Node
end FTKV
