import FTKV.Foundation.Formats
import FTKV.Raft.Types

/-!
# The format of the persistent state

`encode_state` and `decode_state` of `node_runtime.cpp`.  A persistent state is
stored as the magic number `FTKVRAFT1`, the term, the optional vote behind a
flag, and the log entries behind their count; an entry is its term, a flag for
no-ops and its command behind its length.

## Reading outside the input

The decoder indexes into the input.  Here an access outside of it stops the
decoder with a fault of its own, so that a proof that decoding never ends that
way is a proof that the bounds checks suffice.
-/

namespace FTKV
namespace Node

open Foundation
open Foundation.Effect
open Raft

inductive CodecFault where
  | raftError (message : String)
  | outOfRange
  | undefinedBehavior
deriving DecidableEq, Repr

def raftStateMagic : Bytes :=
  ['F', 'T', 'K', 'V', 'R', 'A', 'F', 'T', '1'].map fun c => c.toNat.toUInt8

def maximumLogEntries : UInt64 := 1000000

def maximumCommandBytes : UInt64 := 64 * 1024 * 1024

/-!
# Encoding
-/

def appendUint64 (output : Bytes) (value : UInt64) : Bytes :=
  output ++ wordBytes value

def flagByte (flag : Bool) : UInt8 :=
  if flag then 1 else 0

/-- The loop of `encode_state` over the log. -/
def encodeEntries : List LogEntry -> Bytes -> Except CodecFault Bytes
  | [], bytes => .ok bytes
  | entry :: rest, bytes =>
      if entry.command.length > maximumCommandBytes.toNat then
        .error (.raftError "Raft command exceeds the persistence size limit")
      else
        encodeEntries rest
          (appendUint64 (appendUint64 bytes entry.term ++ [flagByte entry.isNoOp])
            entry.command.length.toUInt64 ++ entry.command)

def encodeVote (votedFor : Option NodeId) (bytes : Bytes) : Bytes :=
  match votedFor with
  | some vote => appendUint64 (bytes ++ [flagByte true]) vote
  | none => bytes ++ [flagByte false]

def encodeState (state : PersistentState) : Except CodecFault Bytes :=
  if state.log.length > maximumLogEntries.toNat then
    .error (.raftError "Raft log exceeds the persistence entry limit")
  else
    encodeEntries state.log
      (appendUint64
        (encodeVote state.votedFor (appendUint64 raftStateMagic state.currentTerm))
        state.log.length.toUInt64)

/-!
# Decoding

The state of a decoder is the offset of the next byte.
-/

abbrev Decoder (result : Type) := Effect Nat CodecFault result

def byteAt (input : Bytes) (index : Nat) : Decoder UInt8 :=
  match input[index]? with
  | some byte => pure byte
  | none => throw .undefinedBehavior

def substr (input : Bytes) (offset count : Nat) : Decoder Bytes :=
  if offset <= input.length then
    pure ((input.drop offset).take count)
  else
    throw .outOfRange

/-- The loop of `read_uint64` over the bytes of a word. -/
def readPlaces (input : Bytes) (offset : Nat) :
    List Nat -> UInt64 -> Decoder UInt64
  | [], value => pure value
  | index :: rest, value => do
      let byte <- byteAt input (offset + index)
      readPlaces input offset rest (placeByte value byte index)

def readUint64 (input : Bytes) : Decoder UInt64 := do
  let offset <- get
  if offset > input.length ∨ input.length - offset < 8 then
    throw (.raftError "persisted Raft state is truncated")
  else do
    let value <- readPlaces input offset (List.range 8) 0
    set (offset + 8)
    pure value

def readFlag (input : Bytes) : Decoder Bool := do
  let offset <- get
  if offset >= input.length then
    throw (.raftError "persisted Raft state is truncated")
  else do
    let byte <- byteAt input offset
    set (offset + 1)
    pure (byte != 0)

def readCommand (input : Bytes) (commandSize : UInt64) : Decoder Command := do
  let offset <- get
  if commandSize > maximumCommandBytes ∨ offset > input.length ∨
      commandSize.toNat > input.length - offset then
    throw (.raftError "persisted Raft command has an invalid size")
  else do
    let command <- substr input offset commandSize.toNat
    set (offset + commandSize.toNat)
    pure command

def readEntry (input : Bytes) : Decoder LogEntry := do
  let term <- readUint64 input
  let isNoOp <- readFlag input
  let commandSize <- readUint64 input
  let command <- readCommand input commandSize
  pure { term := term, command := command, isNoOp := isNoOp }

/-- The loop of `decode_state` over the log. -/
def readEntries (input : Bytes) : Nat -> List LogEntry -> Decoder (List LogEntry)
  | 0, log => pure log
  | count + 1, log => do
      let entry <- readEntry input
      readEntries input count (log ++ [entry])

def readMagic (bytes : Bytes) : Decoder Unit :=
  if ¬ raftStateMagic <+: bytes then
    throw (.raftError "persisted Raft state has an unsupported format")
  else
    set raftStateMagic.length

def readVote (bytes : Bytes) (hasVote : Bool) : Decoder (Option NodeId) :=
  if hasVote then do
    let vote <- readUint64 bytes
    pure (some vote)
  else
    pure none

def readLog (bytes : Bytes) (entryCount : UInt64) : Decoder (List LogEntry) :=
  if entryCount > maximumLogEntries then
    throw (.raftError "persisted Raft log exceeds the entry limit")
  else
    readEntries bytes entryCount.toNat []

def readState (bytes : Bytes) : Decoder PersistentState := do
  readMagic bytes
  let currentTerm <- readUint64 bytes
  let hasVote <- readFlag bytes
  let votedFor <- readVote bytes hasVote
  let entryCount <- readUint64 bytes
  let log <- readLog bytes entryCount
  pure { currentTerm := currentTerm, votedFor := votedFor, log := log }

def checkEnd (bytes : Bytes) (state : PersistentState) : Decoder PersistentState := do
  let offset <- get
  if offset ≠ bytes.length then
    throw (.raftError "persisted Raft state contains trailing data")
  else
    pure state

def decodeState (bytes : Bytes) : Except CodecFault PersistentState :=
  (outcome (readState bytes >>= checkEnd bytes) 0).1

/-!
# The format

The decoder accepts every byte but zero as a set flag, so the format allows
more strings than the encoder produces.
-/

def codecSource (input : Bytes) : Source Nat CodecFault where
  unread offset := input.drop offset
  valid offset := offset <= input.length
  refuses fault := exists message, fault = .raftError message

def commandFormat (size : UInt64) : Format Command :=
  (Format.block size.toNat).guarded (size <= maximumCommandBytes)

def entryFormat : Format LogEntry :=
  Format.word.andThen fun term => Format.flag.andThen fun isNoOp =>
    Format.word.andThen fun size => (commandFormat size).andThen fun command =>
      Format.constant { term := term, command := command, isNoOp := isNoOp } []

def entriesFormat (count : Nat) : Format (List LogEntry) :=
  fun log bytes => log.length = count ∧ entryFormat.listOf log bytes

def voteFormat (hasVote : Bool) : Format (Option NodeId) :=
  if hasVote then
    Format.word.andThen fun vote => Format.constant (some vote) []
  else
    Format.constant none []

def logFormat (count : UInt64) : Format (List LogEntry) :=
  (entriesFormat count.toNat).guarded (count <= maximumLogEntries)

def stateFormat : Format PersistentState :=
  (Format.constant () raftStateMagic).andThen fun _ =>
    Format.word.andThen fun currentTerm => Format.flag.andThen fun hasVote =>
      (voteFormat hasVote).andThen fun votedFor =>
        Format.word.andThen fun count => (logFormat count).andThen fun log =>
          Format.constant
            { currentTerm := currentTerm, votedFor := votedFor, log := log } []

theorem prefixFree_commandFormat (size : UInt64) :
    (commandFormat size).PrefixFree :=
  Format.prefixFree_guarded fun _ => Format.prefixFree_block _

theorem prefixFree_entryFormat : entryFormat.PrefixFree := by
  apply Format.prefixFree_andThen Format.prefixFree_word
  intro term
  apply Format.prefixFree_andThen Format.prefixFree_flag
  intro isNoOp
  apply Format.prefixFree_andThen Format.prefixFree_word
  intro size
  apply Format.prefixFree_andThen (prefixFree_commandFormat size)
  intro command
  apply Format.prefixFree_constant

theorem prefixFree_entriesFormat (count : Nat) :
    (entriesFormat count).PrefixFree := by
  rintro log log' front front' rest rest' ⟨hlength, hlog⟩ ⟨hlength', hlog'⟩ hsame
  exact Format.listOf_inj prefixFree_entryFormat (hlength.trans hlength'.symm)
    hlog hlog' hsame

theorem prefixFree_voteFormat (hasVote : Bool) :
    (voteFormat hasVote).PrefixFree := by
  cases hasVote with
  | false => exact Format.prefixFree_constant _ _
  | true =>
      apply Format.prefixFree_andThen Format.prefixFree_word
      intro vote
      apply Format.prefixFree_constant

theorem prefixFree_logFormat (count : UInt64) : (logFormat count).PrefixFree :=
  Format.prefixFree_guarded fun _ => prefixFree_entriesFormat _

theorem prefixFree_stateFormat : stateFormat.PrefixFree := by
  apply Format.prefixFree_andThen (Format.prefixFree_constant _ _)
  intro _
  apply Format.prefixFree_andThen Format.prefixFree_word
  intro currentTerm
  apply Format.prefixFree_andThen Format.prefixFree_flag
  intro hasVote
  apply Format.prefixFree_andThen (prefixFree_voteFormat hasVote)
  intro votedFor
  apply Format.prefixFree_andThen Format.prefixFree_word
  intro count
  apply Format.prefixFree_andThen (prefixFree_logFormat count)
  intro log
  apply Format.prefixFree_constant

/-!
# The decoder reads the format
-/

section Decoding

variable {input : Bytes} {offset : Nat}

theorem refuses_raftError (message : String) :
    (codecSource input).refuses (.raftError message) :=
  ⟨message, rfl⟩

theorem ensures_byteAt {index : Nat} {byte : UInt8}
    {post : Except CodecFault UInt8 -> Nat -> Prop}
    (hbyte : input[index]? = some byte) (hpost : post (.ok byte) offset) :
    Ensures (byteAt input index) offset post := by
  unfold byteAt
  rw [hbyte]
  exact hpost

theorem ensures_readPlaces {bytes : Bytes} {start first : Nat} {value : UInt64}
    {post : Except CodecFault UInt64 -> Nat -> Prop}
    (hbytes : bytes <+: input.drop (start + first))
    (hpost : post (.ok ((bytes.zipIdx first).foldl
      (fun value place => placeByte value place.1 place.2) value)) offset) :
    Ensures (readPlaces input start (List.range' first bytes.length) value)
      offset post := by
  induction bytes generalizing first value with
  | nil => exact hpost
  | cons byte rest ih =>
      rcases hbytes with ⟨tail, htail⟩
      have hbyte : input[start + first]? = some byte := by
        rw [← List.head?_drop, ← htail]
        rfl
      have hrest : rest <+: input.drop (start + (first + 1)) := by
        rw [← Nat.add_assoc, ← List.drop_drop, ← htail]
        exact ⟨tail, rfl⟩
      rw [List.length_cons, List.range'_succ]
      unfold readPlaces
      rw [ensures_bind]
      apply ensures_byteAt hbyte
      rw [continues_ok]
      exact ih hrest hpost

theorem recognizes_readUint64 :
    (codecSource input).Recognizes (readUint64 input) offset Format.word := by
  intro hvalid
  unfold readUint64
  rw [ensures_bind, ensures_get, continues_ok]
  split
  · rename_i hshort
    refine ⟨refuses_raftError _, ?_⟩
    rintro value front rest rfl hunread
    have hlength := congrArg List.length hunread
    change (input.drop offset).length = _ at hlength
    change offset <= input.length at hvalid
    rw [List.length_drop, List.length_append, length_wordBytes] at hlength
    lia
  · rename_i hlong
    have hbound : offset + 8 <= input.length := by
      lia
    have hlength : ((input.drop offset).take 8).length = 8 := by
      rw [List.length_take, List.length_drop]
      lia
    rw [ensures_bind, List.range_eq_range', ← hlength]
    apply ensures_readPlaces (List.take_prefix 8 (input.drop offset))
    rw [continues_ok, ensures_bind, ensures_set, continues_ok, ensures_pure]
    refine ⟨by rw [hlength]; exact hbound, (input.drop offset).take 8, ?_, ?_⟩
    · exact (wordBytes_wordOf hlength).symm
    · change input.drop offset = _ ++ input.drop _
      rw [hlength, ← List.drop_drop, List.take_append_drop]

theorem recognizes_readFlag :
    (codecSource input).Recognizes (readFlag input) offset Format.flag := by
  intro hvalid
  unfold readFlag
  rw [ensures_bind, ensures_get, continues_ok]
  split
  · rename_i hend
    refine ⟨refuses_raftError _, ?_⟩
    rintro value front rest ⟨byte, _, rfl⟩ hunread
    change input.drop offset = _ at hunread
    rw [List.drop_eq_nil_of_le hend] at hunread
    cases hunread
  · rename_i hmore
    have hlt : offset < input.length := not_le.mp hmore
    rw [ensures_bind]
    apply ensures_byteAt (List.getElem?_eq_getElem hlt)
    rw [continues_ok, ensures_bind, ensures_set, continues_ok, ensures_pure]
    refine ⟨hlt, [input[offset]], ⟨_, rfl, rfl⟩, ?_⟩
    exact List.drop_eq_getElem_cons hlt

theorem recognizes_readCommand (size : UInt64) :
    (codecSource input).Recognizes (readCommand input size) offset
      (commandFormat size) := by
  intro hvalid
  change offset <= input.length at hvalid
  unfold readCommand
  rw [ensures_bind, ensures_get, continues_ok]
  split
  · rename_i hinvalid
    refine ⟨refuses_raftError _, ?_⟩
    rintro command front rest ⟨hsize, hlength, rfl⟩ hunread
    have htotal := congrArg List.length hunread
    change (input.drop offset).length = _ at htotal
    rw [List.length_drop, List.length_append, hlength] at htotal
    rcases hinvalid with hlarge | hbeyond | hlong
    · exact absurd hsize (not_le_of_gt hlarge)
    · lia
    · lia
  · rename_i hfits
    have hsize : size <= maximumCommandBytes :=
      not_lt.mp fun hlt => hfits (Or.inl hlt)
    have hbound : offset + size.toNat <= input.length := by
      have hlong : ¬ size.toNat > input.length - offset := fun hlt =>
        hfits (Or.inr (Or.inr hlt))
      lia
    unfold substr
    rw [if_pos hvalid]
    simp only [ensures_bind, ensures_pure, ensures_set, continues_ok]
    refine ⟨hbound, (input.drop offset).take size.toNat, ⟨hsize, ?_, rfl⟩, ?_⟩
    · rw [List.length_take, List.length_drop]
      lia
    · change input.drop offset = _ ++ input.drop _
      rw [← List.drop_drop, List.take_append_drop]

theorem recognizes_readEntry :
    (codecSource input).Recognizes (readEntry input) offset entryFormat := by
  apply Source.recognizes_bind Format.prefixFree_word recognizes_readUint64
  intro term _
  apply Source.recognizes_bind Format.prefixFree_flag recognizes_readFlag
  intro isNoOp _
  apply Source.recognizes_bind Format.prefixFree_word recognizes_readUint64
  intro size _
  apply Source.recognizes_bind (prefixFree_commandFormat size)
    (recognizes_readCommand size)
  intro command _
  apply Source.recognizes_pure

theorem recognizes_readEntries (count : Nat) (log : List LogEntry) :
    (codecSource input).Recognizes (readEntries input count log) offset
      (fun result bytes => exists items, result = log ++ items ∧
        entriesFormat count items bytes) := by
  induction count generalizing log offset with
  | zero =>
      apply Source.recognizes_congr (Source.recognizes_pure log)
      intro result bytes
      constructor
      · rintro ⟨hresult, hbytes⟩
        exact ⟨[], by rw [hresult, List.append_nil], rfl, hbytes⟩
      · rintro ⟨items, hresult, hlength, hitems⟩
        rw [List.length_eq_zero_iff.mp hlength] at hresult hitems
        exact ⟨hresult.trans (List.append_nil _), hitems⟩
  | succ count ih =>
      apply Source.recognizes_congr (Source.recognizes_bind
        prefixFree_entryFormat recognizes_readEntry
        (fun entry _ => ih (log ++ [entry])))
      intro result bytes
      constructor
      · rintro ⟨entry, front, rest, hentry, ⟨items, hresult, hlength, hitems⟩,
          hbytes⟩
        refine ⟨entry :: items, ?_, ?_, front, rest, hentry, hitems, hbytes⟩
        · rw [hresult, List.append_assoc]
          rfl
        · rw [List.length_cons, hlength]
      · rintro ⟨items, hresult, hlength, hitems⟩
        cases items with
        | nil => cases hlength
        | cons entry items =>
            rcases hitems with ⟨front, rest, hentry, hitems, hbytes⟩
            refine ⟨entry, front, rest, hentry,
              ⟨items, ?_, Nat.succ.inj hlength, hitems⟩, hbytes⟩
            rw [hresult, List.append_assoc]
            rfl

theorem recognizes_readLog (count : UInt64) :
    (codecSource input).Recognizes (readLog input count) offset
      (logFormat count) := by
  apply Source.recognizes_congr (Source.recognizes_ite (refuses_raftError _)
    (fun _ => recognizes_readEntries count.toNat []))
  intro log bytes
  constructor
  · rintro ⟨hcount, items, rfl, hitems⟩
    exact ⟨not_lt.mp hcount, hitems⟩
  · rintro ⟨hcount, hlog⟩
    exact ⟨not_lt.mpr hcount, log, rfl, hlog⟩

theorem recognizes_readVote (hasVote : Bool) :
    (codecSource input).Recognizes (readVote input hasVote) offset
      (voteFormat hasVote) := by
  cases hasVote with
  | false => exact Source.recognizes_pure none
  | true =>
      apply Source.recognizes_bind Format.prefixFree_word recognizes_readUint64
      intro vote _
      apply Source.recognizes_pure

theorem recognizes_readMagic :
    (codecSource input).Recognizes (readMagic input) 0
      (Format.constant () raftStateMagic) := by
  intro _
  unfold readMagic
  split
  · rename_i hother
    refine ⟨refuses_raftError _, ?_⟩
    rintro _ front rest ⟨_, rfl⟩ hunread
    exact hother ⟨rest, hunread.symm⟩
  · rename_i hmagic
    have hpre : raftStateMagic <+: input := not_not.mp hmagic
    refine ⟨hpre.length_le, raftStateMagic, ⟨rfl, rfl⟩, ?_⟩
    exact (List.prefix_iff_eq_append.mp hpre).symm

theorem recognizes_readState :
    (codecSource input).Recognizes (readState input) 0 stateFormat := by
  apply Source.recognizes_bind (Format.prefixFree_constant _ _)
    recognizes_readMagic
  intro _ _
  apply Source.recognizes_bind Format.prefixFree_word recognizes_readUint64
  intro currentTerm _
  apply Source.recognizes_bind Format.prefixFree_flag recognizes_readFlag
  intro hasVote _
  apply Source.recognizes_bind (prefixFree_voteFormat hasVote)
    (recognizes_readVote hasVote)
  intro votedFor _
  apply Source.recognizes_bind Format.prefixFree_word recognizes_readUint64
  intro count _
  apply Source.recognizes_bind (prefixFree_logFormat count)
    (recognizes_readLog count)
  intro log _
  apply Source.recognizes_pure

theorem decodes_readState :
    (codecSource input).Decodes (readState input >>= checkEnd input) 0
      stateFormat := by
  apply Source.decodes_bind prefixFree_stateFormat (Nat.zero_le _)
    recognizes_readState
  intro state offset hvalid
  change offset <= input.length at hvalid
  unfold checkEnd
  rw [ensures_bind, ensures_get, continues_ok]
  split
  · rename_i hne
    refine ⟨refuses_raftError _, ?_⟩
    intro hend
    have hle := List.drop_eq_nil_iff.mp hend
    lia
  · rename_i heq
    refine ⟨rfl, ?_⟩
    exact List.drop_eq_nil_of_le (Nat.le_of_eq (not_not.mp heq).symm)

end Decoding

theorem decodeState_eq_ok_iff {bytes : Bytes} {state : PersistentState} :
    decodeState bytes = .ok state <-> stateFormat state bytes :=
  decodes_readState.ok_iff prefixFree_stateFormat state

theorem decodeState_eq_error {bytes : Bytes}
    (hnone : forall state, ¬ stateFormat state bytes) :
    exists message, decodeState bytes = .error (.raftError message) := by
  rcases decodes_readState.error_of_not hnone with ⟨fault, herror, message, rfl⟩
  exact ⟨message, herror⟩

/-!
# What the encoder writes
-/

def entryBytes (entry : LogEntry) : Bytes :=
  wordBytes entry.term ++ ([flagByte entry.isNoOp] ++
    (wordBytes entry.command.length.toUInt64 ++ entry.command))

def voteBytes : Option NodeId -> Bytes
  | some vote => [flagByte true] ++ wordBytes vote
  | none => [flagByte false]

def stateBytes (state : PersistentState) : Bytes :=
  raftStateMagic ++ (wordBytes state.currentTerm ++ (voteBytes state.votedFor ++
    (wordBytes state.log.length.toUInt64 ++ state.log.flatMap entryBytes)))

/-- The limits that `encode_state` enforces. -/
structure Encodable (state : PersistentState) : Prop where
  entries : state.log.length <= maximumLogEntries.toNat
  commands : forall entry, entry ∈ state.log ->
    entry.command.length <= maximumCommandBytes.toNat

theorem encodeEntries_eq_ok_iff {log : List LogEntry} {bytes result : Bytes} :
    encodeEntries log bytes = .ok result <->
      (forall entry, entry ∈ log ->
        entry.command.length <= maximumCommandBytes.toNat) ∧
      result = bytes ++ log.flatMap entryBytes := by
  induction log generalizing bytes with
  | nil => simp [encodeEntries, eq_comm]
  | cons entry rest ih =>
      unfold encodeEntries
      split
      · rename_i hlarge
        constructor
        · intro herror
          cases herror
        · rintro ⟨hfits, _⟩
          exact absurd (hfits entry (List.mem_cons_self ..)) (not_le_of_gt hlarge)
      · rename_i hsmall
        rw [ih, List.forall_mem_cons, and_assoc,
          and_iff_right (not_lt.mp hsmall)]
        simp [entryBytes, appendUint64, List.append_assoc]

theorem encodeState_eq_ok_iff {state : PersistentState} {bytes : Bytes} :
    encodeState state = .ok bytes <->
      Encodable state ∧ bytes = stateBytes state := by
  have hfront : appendUint64 (encodeVote state.votedFor
      (appendUint64 raftStateMagic state.currentTerm))
        state.log.length.toUInt64 ++ state.log.flatMap entryBytes =
      stateBytes state := by
    cases hvote : state.votedFor <;>
      simp [stateBytes, encodeVote, voteBytes, appendUint64, hvote,
        List.append_assoc]
  unfold encodeState
  split
  · rename_i hlarge
    constructor
    · intro herror
      cases herror
    · rintro ⟨hfits, _⟩
      exact absurd hfits.entries (not_le_of_gt hlarge)
  · rename_i hsmall
    rw [encodeEntries_eq_ok_iff, hfront]
    constructor
    · rintro ⟨hcommands, hbytes⟩
      exact ⟨⟨not_lt.mp hsmall, hcommands⟩, hbytes⟩
    · rintro ⟨hfits, hbytes⟩
      exact ⟨hfits.commands, hbytes⟩

theorem flagFormat_flagByte (flag : Bool) : Format.flag flag [flagByte flag] := by
  cases flag with
  | false => exact ⟨0, rfl, rfl⟩
  | true => exact ⟨1, rfl, rfl⟩

theorem entryFormat_entryBytes {entry : LogEntry}
    (hfits : entry.command.length <= maximumCommandBytes.toNat) :
    entryFormat entry (entryBytes entry) := by
  have hlength := toNat_toUInt64_of_le hfits
  refine ⟨entry.term, _, _, rfl, ⟨entry.isNoOp, _, _, flagFormat_flagByte _,
    ⟨_, _, _, rfl, ⟨entry.command, entry.command, [], ⟨?_, ?_, rfl⟩,
      ⟨rfl, rfl⟩, (List.append_nil _).symm⟩, rfl⟩, rfl⟩, rfl⟩
  · rw [UInt64.le_iff_toNat_le, hlength]
    exact hfits
  · exact hlength.symm

theorem listOf_flatMap_entryBytes {log : List LogEntry}
    (hfits : forall entry, entry ∈ log ->
      entry.command.length <= maximumCommandBytes.toNat) :
    entryFormat.listOf log (log.flatMap entryBytes) := by
  induction log with
  | nil => rfl
  | cons entry rest ih =>
      rcases List.forall_mem_cons.mp hfits with ⟨hentry, hrest⟩
      exact ⟨_, _, entryFormat_entryBytes hentry, ih hrest,
        List.flatMap_cons ..⟩

theorem voteFormat_voteBytes (votedFor : Option NodeId) :
    exists hasVote front rest, Format.flag hasVote front ∧
      voteFormat hasVote votedFor rest ∧ voteBytes votedFor = front ++ rest := by
  cases votedFor with
  | none => exact ⟨false, _, [], flagFormat_flagByte _, ⟨rfl, rfl⟩, rfl⟩
  | some vote =>
      exact ⟨true, _, wordBytes vote, flagFormat_flagByte _,
        ⟨vote, _, [], rfl, ⟨rfl, rfl⟩, (List.append_nil _).symm⟩, rfl⟩

theorem stateFormat_stateBytes {state : PersistentState}
    (hfits : Encodable state) : stateFormat state (stateBytes state) := by
  have hlength := toNat_toUInt64_of_le hfits.entries
  rcases voteFormat_voteBytes state.votedFor with
    ⟨hasVote, front, rest, hflag, hvote, hbytes⟩
  unfold stateBytes
  rw [hbytes, List.append_assoc]
  refine ⟨(), _, _, ⟨rfl, rfl⟩, ⟨state.currentTerm, _, _, rfl, ⟨hasVote, front,
    _, hflag, ⟨state.votedFor, rest, _, hvote, ⟨_, _, _, rfl, ⟨state.log, _, [],
      ⟨?_, ?_, listOf_flatMap_entryBytes hfits.commands⟩, ⟨rfl, rfl⟩,
        (List.append_nil _).symm⟩, rfl⟩, rfl⟩, rfl⟩, rfl⟩, rfl⟩
  · rw [UInt64.le_iff_toNat_le, hlength]
    exact hfits.entries
  · exact hlength.symm

end Node
end FTKV
