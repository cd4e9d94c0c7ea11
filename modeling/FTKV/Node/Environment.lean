import FTKV.Node.PeerList
import FTKV.Raft.Restart

/-!
# The environment of a process

`NodeRuntimeConfig::from_environment` reads the configuration of a process from
environment variables.  Durations are signed, and a variable that is not set
stands for a default.

## Strings

The values of environment variables are texts without a null character.
-/

namespace FTKV
namespace Node

open Foundation
open Raft (NodeId RaftConfig RaftNode RaftStorage RandomEngine RefusesLoaded)

/-!
# Signed integers
-/

structure FromSignedChars where
  result : Int
  ptr : Nat
  ec : Option Errc

def signed (negative : Bool) (number : Nat) : Int :=
  if negative then -number else number

def fromUnsignedPart (negative : Bool) (skipped : Nat) (text : List Char)
    (result : Int) : FromSignedChars :=
  let digits := text.takeWhile Char.isDigit
  let value := signed negative (Nat.ofDigitChars 10 digits 0)
  if digits = [] then
    ⟨result, 0, some .invalidArgument⟩
  else if value < -2 ^ 63 ∨ 2 ^ 63 <= value then
    ⟨result, skipped + digits.length, some .resultOutOfRange⟩
  else
    ⟨value, skipped + digits.length, none⟩

/-- `std::from_chars` in base ten for a signed type of 64 bits. -/
def fromSignedChars (text : List Char) (result : Int) : FromSignedChars :=
  match text with
  | '-' :: rest => fromUnsignedPart true 1 rest result
  | _ => fromUnsignedPart false 0 text result

/-- `parse_integer<std::int64_t>` -/
def parseSignedInteger (value : StringView) (name : String) :
    Except ParseFault Int :=
  let parsed := fromSignedChars value.chars 0
  if parsed.ec ≠ none ∨ parsed.ptr ≠ value.size then
    .error (.invalidArgument ("invalid integer for " ++ name))
  else
    .ok parsed.result

/-!
# Reading the environment
-/

abbrev Environment := String -> Option StringView

def requireEnvironment (environment : Environment) (name : String) :
    Except ParseFault StringView :=
  match environment name with
  | none => throw (.invalidArgument ("missing environment variable: " ++ name))
  | some value =>
      if value.size = 0 then
        throw (.invalidArgument ("missing environment variable: " ++ name))
      else
        pure value

def environmentDuration (environment : Environment) (name : String)
    (fallback : Int) : Except ParseFault Int :=
  match environment name with
  | none => pure fallback
  | some value => parseSignedInteger value name

structure ProcessConfig extends NodeRuntimeConfig where
  listenAddress : String
  dataDirectory : String

def fromEnvironment (environment : Environment) :
    Except ParseFault ProcessConfig := do
  let nodeId <- parseInteger (<- requireEnvironment environment "FTKV_NODE_ID")
    "FTKV_NODE_ID"
  let listenAddress <- requireEnvironment environment "FTKV_LISTEN_ADDRESS"
  let dataDirectory <- requireEnvironment environment "FTKV_DATA_DIR"
  let peers <- parsePeers (<- requireEnvironment environment "FTKV_PEERS") nodeId
  let electionTimeoutMin <-
    environmentDuration environment "FTKV_ELECTION_TIMEOUT_MIN_MS" 300
  let electionTimeoutMax <-
    environmentDuration environment "FTKV_ELECTION_TIMEOUT_MAX_MS" 500
  let heartbeatInterval <-
    environmentDuration environment "FTKV_HEARTBEAT_INTERVAL_MS" 100
  pure {
    nodeId := nodeId
    peers := peers
    electionTimeoutMin := electionTimeoutMin
    electionTimeoutMax := electionTimeoutMax
    heartbeatInterval := heartbeatInterval
    listenAddress := String.ofList listenAddress.chars
    dataDirectory := String.ofList dataDirectory.chars }

/-!
# What the texts denote
-/

def Decimal (text : List Char) : Prop :=
  text ≠ [] ∧ forall digit, digit ∈ text -> digit.isDigit = true

inductive DenotesInteger : List Char -> Int -> Prop where
  | plain {digits : List Char} (hdigits : Decimal digits)
      (hfits : Nat.ofDigitChars 10 digits 0 < 2 ^ 63) :
      DenotesInteger digits (Nat.ofDigitChars 10 digits 0)
  | minus {digits : List Char} (hdigits : Decimal digits)
      (hfits : Nat.ofDigitChars 10 digits 0 <= 2 ^ 63) :
      DenotesInteger ('-' :: digits) (-Nat.ofDigitChars 10 digits 0)

theorem takeWhile_of_decimal {text : List Char} (h : Decimal text) :
    text.takeWhile Char.isDigit = text :=
  List.takeWhile_eq_self_iff.mpr h.right

section Signed

theorem fromUnsignedPart_iff (negative : Bool) (skipped : Nat) (text : List Char)
    (result value : Int) :
    ((fromUnsignedPart negative skipped text result).ec = none ∧
      (fromUnsignedPart negative skipped text result).ptr = skipped + text.length ∧
      (fromUnsignedPart negative skipped text result).result = value) <->
    Decimal text ∧ -2 ^ 63 <= value ∧ value < 2 ^ 63 ∧
      value = signed negative (Nat.ofDigitChars 10 text 0) := by
  constructor
  · intro h
    rcases h with ⟨hec, hptr, hresult⟩
    unfold fromUnsignedPart at hec hptr hresult
    simp only at hec hptr hresult
    split at hec
    · cases hec
    rename_i hdigits
    rw [if_neg hdigits] at hptr hresult
    split at hec
    · cases hec
    rename_i hfits
    rw [if_neg hfits] at hptr hresult
    -- The digits reach the end of the text.
    have hwhole : text.takeWhile Char.isDigit = text :=
      (List.takeWhile_prefix _).eq_of_length (Nat.add_left_cancel hptr)
    rw [hwhole] at hdigits hfits hresult
    rw [show signed _ _ = value from hresult] at hfits
    refine ⟨⟨hdigits, List.takeWhile_eq_self_iff.mp hwhole⟩, ?_, ?_, hresult.symm⟩
    · lia
    · lia
  · intro h
    rcases h with ⟨hdecimal, hlow, hhigh, hvalue⟩
    unfold fromUnsignedPart
    simp only [takeWhile_of_decimal hdecimal, if_neg hdecimal.left, ← hvalue]
    rw [if_neg (by lia)]
    exact ⟨rfl, rfl, rfl⟩

theorem denotesInteger_iff (text : List Char) (result value : Int) :
    ((fromSignedChars text result).ec = none ∧
      (fromSignedChars text result).ptr = text.length ∧
      (fromSignedChars text result).result = value) <->
    DenotesInteger text value := by
  unfold fromSignedChars
  split
  · rename_i rest
    rw [List.length_cons, Nat.add_comm rest.length 1, fromUnsignedPart_iff]
    constructor
    · intro h
      rcases h with ⟨hdecimal, hlow, _, hvalue⟩
      change value = -(Nat.ofDigitChars 10 rest 0 : Int) at hvalue
      rw [hvalue]
      exact .minus hdecimal (by lia)
    · intro h
      cases h with
      | plain hdigits hfits =>
          exact absurd (hdigits.right '-' List.mem_cons_self) (by decide)
      | minus hdigits hfits => exact ⟨hdigits, by lia, by lia, rfl⟩
  · rename_i hunsigned
    have hiff := fromUnsignedPart_iff false 0 text result value
    rw [Nat.zero_add] at hiff
    rw [hiff]
    constructor
    · intro h
      rcases h with ⟨hdecimal, _, hhigh, hvalue⟩
      change value = (Nat.ofDigitChars 10 text 0 : Int) at hvalue
      rw [hvalue]
      exact .plain hdecimal (by lia)
    · intro h
      cases h with
      | plain hdigits hfits => exact ⟨hdigits, by lia, by lia, rfl⟩
      | minus hdigits hfits => exact absurd rfl (hunsigned _)

theorem accepts_parseSignedInteger (value : StringView) (name : String) :
    Accepts (parseSignedInteger value name) (DenotesInteger value.chars) := by
  unfold parseSignedInteger
  by_cases hfails : (fromSignedChars value.chars 0).ec ≠ none ∨
      (fromSignedChars value.chars 0).ptr ≠ value.size
  · rw [if_pos hfails]
    apply accepts_throw
    intro number hnumber
    rcases (denotesInteger_iff value.chars 0 number).mpr hnumber with
      ⟨hec, hptr, _⟩
    rcases hfails with hec' | hptr'
    · exact hec' hec
    · exact hptr' hptr
  · rw [if_neg hfails]
    simp only [not_or, not_not] at hfails
    apply accepts_congr (accepts_pure _)
    intro number
    rw [← denotesInteger_iff value.chars 0 number]
    constructor
    · intro hnumber
      exact ⟨hfails.left, hfails.right, hnumber.symm⟩
    · intro h
      exact h.right.right.symm

def renderInteger (value : Int) : List Char :=
  if value < 0 then
    '-' :: Nat.toDigits 10 value.natAbs
  else
    Nat.toDigits 10 value.natAbs

theorem decimal_toDigits (number : Nat) : Decimal (Nat.toDigits 10 number) := by
  constructor
  · exact Nat.toDigits_ne_nil
  · intro digit hdigit
    exact Nat.isDigit_of_mem_toDigits (by decide) (by decide) hdigit

theorem denotesInteger_render {value : Int} (hlow : -2 ^ 63 <= value)
    (hhigh : value < 2 ^ 63) : DenotesInteger (renderInteger value) value := by
  have hdigits : Nat.ofDigitChars 10 (Nat.toDigits 10 value.natAbs) 0 =
      value.natAbs := Nat.ofDigitChars_toDigits (by decide) (by decide)
  unfold renderInteger
  split
  · have hminus := DenotesInteger.minus (decimal_toDigits value.natAbs)
      (by lia)
    rw [hdigits, show -(value.natAbs : Int) = value by lia] at hminus
    exact hminus
  · have hplain := DenotesInteger.plain (decimal_toDigits value.natAbs)
      (by lia)
    rw [hdigits, show (value.natAbs : Int) = value by lia] at hplain
    exact hplain

end Signed

/-!
# What an environment describes
-/

section Describing

variable {environment : Environment}

def Provides (environment : Environment) (name : String) (value : StringView) :
    Prop :=
  environment name = some value ∧ value.chars ≠ []

def Lasts (environment : Environment) (name : String) (fallback duration : Int) :
    Prop :=
  (environment name = none ∧ duration = fallback) ∨
    exists value, environment name = some value ∧
      DenotesInteger value.chars duration

structure Describes (environment : Environment) (config : ProcessConfig) : Prop where
  nodeId : exists value, Provides environment "FTKV_NODE_ID" value ∧
    Denotes value.chars config.nodeId
  listenAddress : exists value, Provides environment "FTKV_LISTEN_ADDRESS" value ∧
    config.listenAddress = String.ofList value.chars
  dataDirectory : exists value, Provides environment "FTKV_DATA_DIR" value ∧
    config.dataDirectory = String.ofList value.chars
  peers : exists value listed, Provides environment "FTKV_PEERS" value ∧
    PeerList config.nodeId value.chars listed ∧
    forall peer, peer ∈ config.peers.entries <-> peer ∈ listed
  electionTimeoutMin : Lasts environment "FTKV_ELECTION_TIMEOUT_MIN_MS" 300
    config.electionTimeoutMin
  electionTimeoutMax : Lasts environment "FTKV_ELECTION_TIMEOUT_MAX_MS" 500
    config.electionTimeoutMax
  heartbeatInterval : Lasts environment "FTKV_HEARTBEAT_INTERVAL_MS" 100
    config.heartbeatInterval

theorem accepts_requireEnvironment (name : String) :
    Accepts (requireEnvironment environment name) (Provides environment name) := by
  unfold requireEnvironment Provides
  cases henvironment : environment name with
  | none =>
      apply accepts_throw
      intro value hvalue
      cases hvalue.left
  | some value =>
      have hsize : value.size = 0 <-> value.chars = [] := List.length_eq_zero_iff
      by_cases hempty : value.chars = []
      · simp only [if_pos (hsize.mpr hempty)]
        apply accepts_throw
        intro value' hvalue
        cases hvalue.left
        exact hvalue.right hempty
      · simp only [if_neg (fun hzero => hempty (hsize.mp hzero))]
        apply accepts_congr (accepts_pure value)
        intro value'
        constructor
        · intro heq
          rw [heq]
          exact ⟨rfl, hempty⟩
        · intro hvalue
          exact (Option.some.inj hvalue.left).symm

theorem accepts_environmentDuration (name : String) (fallback : Int) :
    Accepts (environmentDuration environment name fallback)
      (Lasts environment name fallback) := by
  unfold environmentDuration Lasts
  cases henvironment : environment name with
  | none =>
      apply accepts_congr (accepts_pure fallback)
      intro duration
      constructor
      · intro heq
        exact Or.inl ⟨rfl, heq⟩
      · intro hduration
        rcases hduration with hfallback | ⟨value, hvalue, _⟩
        · exact hfallback.right
        · cases hvalue
  | some value =>
      apply accepts_congr (accepts_parseSignedInteger value name)
      intro duration
      constructor
      · intro hdenotes
        exact Or.inr ⟨value, rfl, hdenotes⟩
      · intro hduration
        rcases hduration with ⟨hnone, _⟩ | ⟨value', hvalue, hdenotes⟩
        · cases hnone
        · cases hvalue
          exact hdenotes

theorem accepts_fromEnvironment :
    Accepts (fromEnvironment environment) (Describes environment) := by
  unfold fromEnvironment
  apply accepts_congr
  · apply accepts_bind (accepts_requireEnvironment "FTKV_NODE_ID")
    intro idText _
    apply accepts_bind (accepts_parseInteger idText "FTKV_NODE_ID")
    intro nodeId _
    apply accepts_bind (accepts_requireEnvironment "FTKV_LISTEN_ADDRESS")
    intro listenAddress _
    apply accepts_bind (accepts_requireEnvironment "FTKV_DATA_DIR")
    intro dataDirectory _
    apply accepts_bind (accepts_requireEnvironment "FTKV_PEERS")
    intro peersText _
    apply accepts_bind (accepts_parsePeers peersText nodeId)
    intro peers _
    apply accepts_bind
      (accepts_environmentDuration "FTKV_ELECTION_TIMEOUT_MIN_MS" 300)
    intro electionTimeoutMin _
    apply accepts_bind
      (accepts_environmentDuration "FTKV_ELECTION_TIMEOUT_MAX_MS" 500)
    intro electionTimeoutMax _
    apply accepts_bind
      (accepts_environmentDuration "FTKV_HEARTBEAT_INTERVAL_MS" 100)
    intro heartbeatInterval _
    exact accepts_pure _
  · intro config
    constructor
    · rintro ⟨idText, hidText, nodeId, hnodeId, address, haddress, directory,
        hdirectory, peersText, hpeersText, peers, ⟨listed, hlist, hentries⟩, low,
        hlow, high, hhigh, heartbeat, hheartbeat, rfl⟩
      exact ⟨⟨idText, hidText, hnodeId⟩, ⟨address, haddress, rfl⟩,
        ⟨directory, hdirectory, rfl⟩,
        ⟨peersText, listed, hpeersText, hlist, hentries⟩, hlow, hhigh, hheartbeat⟩
    · intro h
      rcases h.nodeId with ⟨idText, hidText, hnodeId⟩
      rcases h.listenAddress with ⟨address, haddress, hlisten⟩
      rcases h.dataDirectory with ⟨directory, hdirectory, hdata⟩
      rcases h.peers with ⟨peersText, listed, hpeersText, hlist, hentries⟩
      refine ⟨idText, hidText, config.nodeId, hnodeId, address, haddress, directory,
        hdirectory, peersText, hpeersText, config.peers, ⟨listed, hlist, hentries⟩,
        _, h.electionTimeoutMin, _, h.electionTimeoutMax, _, h.heartbeatInterval, ?_⟩
      rw [← hlisten, ← hdata]

end Describing

/-!
# What a list of peers has
-/

section Peers

variable {localId : NodeId} {text : List Char} {listed : List (NodeId × String)}

theorem PeerList.exists_namesPeer (h : PeerList localId text listed)
    {peer : NodeId × String} (hpeer : peer ∈ listed) :
    exists word, NamesPeer word peer :=
  exists_item_of_mem (separated_of_lists h.lists) hpeer

theorem PeerList.text_ne_nil (h : PeerList localId text listed) : text ≠ [] := by
  intro hnil
  have hseparated := separated_of_lists h.lists
  rw [separated_cases] at hseparated
  rcases hseparated with ⟨_, hvalues⟩ | ⟨peer, hpeer, _⟩ |
    ⟨word, rest, _, _, _, _, hsplit, _⟩
  · exact h.lists.left hvalues
  · rcases hpeer with ⟨digits, _, htext, _⟩
    rw [hnil] at htext
    simp at htext
  · rw [hnil] at hsplit
    simp at hsplit

end Peers

/-!
# Writing an environment
-/

def Reads (environment : Environment) (name : String) (text : List Char) : Prop :=
  exists value, environment name = some value ∧ value.chars = text

/-- The variable holds a duration of 64 bits, or is left out for the default. -/
def WritesDuration (environment : Environment) (name : String)
    (fallback duration : Int) : Prop :=
  (environment name = none ∧ duration = fallback) ∨
    (Reads environment name (renderInteger duration) ∧ -2 ^ 63 <= duration ∧
      duration < 2 ^ 63)

structure Writes (environment : Environment) (config : ProcessConfig) : Prop where
  nodeId : Reads environment "FTKV_NODE_ID" (Nat.toDigits 10 config.nodeId.toNat)
  listenAddress : Reads environment "FTKV_LISTEN_ADDRESS"
    config.listenAddress.toList
  dataDirectory : Reads environment "FTKV_DATA_DIR" config.dataDirectory.toList
  peers : Reads environment "FTKV_PEERS" config.peers.render
  electionTimeoutMin : WritesDuration environment "FTKV_ELECTION_TIMEOUT_MIN_MS" 300
    config.electionTimeoutMin
  electionTimeoutMax : WritesDuration environment "FTKV_ELECTION_TIMEOUT_MAX_MS" 500
    config.electionTimeoutMax
  heartbeatInterval : WritesDuration environment "FTKV_HEARTBEAT_INTERVAL_MS" 100
    config.heartbeatInterval
  address : config.listenAddress ≠ ""
  directory : config.dataDirectory ≠ ""
  renderable : Renderable config.nodeId config.peers

section Writing

variable {environment : Environment} {config : ProcessConfig}

theorem provides_of_reads {name : String} {text : List Char}
    (h : Reads environment name text) (htext : text ≠ []) :
    exists value, Provides environment name value ∧ value.chars = text := by
  rcases h with ⟨value, hvalue, hchars⟩
  rw [← hchars] at htext
  exact ⟨value, ⟨hvalue, htext⟩, hchars⟩

theorem lasts_of_writes {name : String} {fallback duration : Int}
    (h : WritesDuration environment name fallback duration) :
    Lasts environment name fallback duration := by
  rcases h with hdefault | ⟨⟨value, hvalue, hchars⟩, hlow, hhigh⟩
  · exact Or.inl hdefault
  · right
    exists value
    constructor
    · exact hvalue
    · rw [hchars]
      exact denotesInteger_render hlow hhigh

theorem describes_of_writes (h : Writes environment config) :
    Describes environment config := by
  have htext : forall text : String, text ≠ "" -> text.toList ≠ [] := by
    intro text hne hnil
    exact hne (String.toList_eq_nil_iff.mp hnil)
  have hlist := peerList_render h.renderable
  rcases provides_of_reads h.nodeId Nat.toDigits_ne_nil with
    ⟨idText, hidText, hidChars⟩
  rcases provides_of_reads h.listenAddress (htext _ h.address) with
    ⟨address, haddress, haddressChars⟩
  rcases provides_of_reads h.dataDirectory (htext _ h.directory) with
    ⟨directory, hdirectory, hdirectoryChars⟩
  rcases provides_of_reads h.peers hlist.text_ne_nil with ⟨peersText, hpeersText, hpeersChars⟩
  constructor
  · exact ⟨idText, hidText, hidChars ▸ denotes_toDigits config.nodeId⟩
  · exact ⟨address, haddress, by rw [haddressChars, String.ofList_toList]⟩
  · exact ⟨directory, hdirectory, by rw [hdirectoryChars, String.ofList_toList]⟩
  · exact ⟨peersText, config.peers.entries, hpeersText, hpeersChars ▸ hlist,
      fun _ => Iff.rfl⟩
  · exact lasts_of_writes h.electionTimeoutMin
  · exact lasts_of_writes h.electionTimeoutMax
  · exact lasts_of_writes h.heartbeatInterval

end Writing

/--
`from_environment` returns a configuration exactly if the environment describes
it, and reports an invalid argument otherwise.  A configuration that is written to
an environment is read back.
-/
theorem fromEnvironment_exact (environment : Environment) :
    (forall config, fromEnvironment environment = .ok config <->
      Describes environment config) ∧
    ((¬ exists config, Describes environment config) -> exists message,
      fromEnvironment environment = .error (.invalidArgument message)) ∧
    (forall config, Writes environment config ->
      fromEnvironment environment = .ok config) := by
  have haccepts : Accepts (fromEnvironment environment) (Describes environment) :=
    accepts_fromEnvironment
  refine ⟨haccepts.ok, ?_, ?_⟩
  · intro hnone
    cases hresult : fromEnvironment environment with
    | ok config => exact absurd ⟨config, (haccepts.ok config).mp hresult⟩ hnone
    | error fault =>
        rcases haccepts.error fault hresult with ⟨message, hmessage⟩
        rw [hmessage]
        exact ⟨message, rfl⟩
  · intro config hwrites
    exact (haccepts.ok config).mpr (describes_of_writes hwrites)

def firstContainer : ProcessConfig where
  nodeId := 1
  peers := {
    entries := [(2, "node2:50051"), (3, "node3:50051")]
    ascending := by decide }
  electionTimeoutMin := 300
  electionTimeoutMax := 400
  heartbeatInterval := 100
  listenAddress := "0.0.0.0:50051"
  dataDirectory := "/var/lib/ftkv"

def firstVariables : Environment
  | "FTKV_NODE_ID" => some ⟨"1".toList, by decide⟩
  | "FTKV_LISTEN_ADDRESS" => some ⟨"0.0.0.0:50051".toList, by decide⟩
  | "FTKV_DATA_DIR" => some ⟨"/var/lib/ftkv".toList, by decide⟩
  | "FTKV_PEERS" => some ⟨"2=node2:50051,3=node3:50051".toList, by decide⟩
  | "FTKV_ELECTION_TIMEOUT_MIN_MS" => some ⟨"300".toList, by decide⟩
  | "FTKV_ELECTION_TIMEOUT_MAX_MS" => some ⟨"400".toList, by decide⟩
  | _ => none

theorem writes_firstVariables : Writes firstVariables firstContainer := by
  constructor
  · exact ⟨_, rfl, by decide +kernel⟩
  · exact ⟨_, rfl, by decide +kernel⟩
  · exact ⟨_, rfl, by decide +kernel⟩
  · exact ⟨_, rfl, by decide +kernel⟩
  · exact Or.inr ⟨⟨_, rfl, by decide +kernel⟩, by decide, by decide⟩
  · exact Or.inr ⟨⟨_, rfl, by decide +kernel⟩, by decide, by decide⟩
  · exact Or.inl ⟨rfl, rfl⟩
  · decide
  · decide
  · constructor
    · decide
    · decide
    · decide

theorem fromEnvironment_firstVariables :
    fromEnvironment firstVariables = .ok firstContainer :=
  (fromEnvironment_exact firstVariables).right.right firstContainer
    writes_firstVariables

/-!
# What the runtime makes of it
-/

theorem insertMembers_of_nodup {peers : List NodeId} {members : Finset NodeId}
    (hnodup : peers.Nodup) (hfresh : forall peer, peer ∈ peers -> peer ∉ members) :
    exists result, RaftNode.insertMembers peers members = .ok result := by
  induction peers generalizing members with
  | nil => exact ⟨members, rfl⟩
  | cons first rest ih =>
      rcases List.nodup_cons.mp hnodup with ⟨hfirst, hrest⟩
      unfold RaftNode.insertMembers
      rw [if_neg (hfresh first List.mem_cons_self)]
      apply ih hrest
      intro peer hpeer hmem
      rcases Finset.mem_insert.mp hmem with heq | hmem
      · rw [heq] at hpeer
        exact hfirst hpeer
      · exact hfresh peer (List.mem_cons_of_mem _ hpeer) hmem

def SoundTimings (config : NodeRuntimeConfig) : Prop :=
  0 < config.heartbeatInterval ∧
    config.heartbeatInterval < config.electionTimeoutMin ∧
    config.electionTimeoutMin <= config.electionTimeoutMax

theorem validateConfig_raftConfig {config : NodeRuntimeConfig}
    (hothers : config.nodeId ∉ config.peers.ids) :
    (SoundTimings config -> RaftNode.validateConfig (raftConfig config) = .ok ()) ∧
    (¬ SoundTimings config -> RaftNode.validateConfig (raftConfig config) =
      .error (.invalidArgument "invalid Raft timing configuration")) := by
  have hiff : (config.heartbeatInterval <= 0 ∨ config.electionTimeoutMin <= 0 ∨
      config.electionTimeoutMax < config.electionTimeoutMin ∨
      config.electionTimeoutMin <= config.heartbeatInterval) <->
      ¬ SoundTimings config := by
    unfold SoundTimings
    lia
  constructor
  · intro hsound
    have hnodup : config.peers.ids.Nodup := config.peers.ascending.imp UInt64.ne_of_lt
    have hfresh : forall peer, peer ∈ config.peers.ids ->
        peer ∉ ({config.nodeId} : Finset NodeId) := by
      intro peer hpeer hmem
      rw [Finset.mem_singleton.mp hmem] at hpeer
      exact hothers hpeer
    rcases insertMembers_of_nodup hnodup hfresh with ⟨members, hmembers⟩
    have hinsert : RaftNode.insertMembers (raftConfig config).peers
        {(raftConfig config).nodeId} = .ok members := hmembers
    unfold RaftNode.validateConfig
    rw [hinsert]
    exact if_neg (fun hbad => hiff.mp hbad hsound)
  · intro hunsound
    exact if_pos (hiff.mpr hunsound)

theorem Describes.others {environment : Environment} {config : ProcessConfig}
    (h : Describes environment config) : config.nodeId ∉ config.peers.ids := by
  rcases h.peers with ⟨text, listed, _, hlist, hentries⟩
  intro hmem
  rcases List.mem_map.mp hmem with ⟨peer, hpeer, hid⟩
  apply hlist.others
  rw [← hid]
  exact List.mem_map_of_mem ((hentries peer).mp hpeer)

theorem create_raftConfig_eq_error_iff {storage random : Type} [RaftStorage storage]
    [RandomEngine random] {config : NodeRuntimeConfig}
    (hothers : config.nodeId ∉ config.peers.ids) (store : storage) (fault : Raft.Fault) :
    (RaftNode.create (raftConfig config) store :
        Except Raft.Fault (RaftNode storage random)) = .error fault <->
      ¬ SoundTimings config ∧
        fault = .invalidArgument "invalid Raft timing configuration" ∨
      SoundTimings config ∧
        RefusesLoaded (raftConfig config) (RaftStorage.load store) fault := by
  rcases validateConfig_raftConfig hothers with ⟨hvalid, hinvalid⟩
  by_cases hsound : SoundTimings config
  · rw [Raft.create_eq_error_iff (hvalid hsound)]
    simp [hsound]
  · unfold RaftNode.create
    simp only [bind, Except.bind, hinvalid hsound]
    simp [hsound, eq_comm]

theorem not_refusesLoaded_new {config : RaftConfig} {fault : Raft.Fault} :
    ¬ RefusesLoaded config (.ok {}) fault := by
  intro h
  cases h with
  | vote hvote => exact hvote trivial
  | log _ hlog => exact hlog (Raft.logIsValid_iff.mp rfl)

theorem exists_create_raftConfig_iff {storage random : Type} [RaftStorage storage]
    [RandomEngine random] {config : NodeRuntimeConfig} {store : storage}
    (hothers : config.nodeId ∉ config.peers.ids) (hload : RaftStorage.load store = .ok {}) :
    (exists node : RaftNode storage random,
      RaftNode.create (raftConfig config) store = .ok node) <-> SoundTimings config := by
  have hrefused := @create_raftConfig_eq_error_iff storage random _ _ _ hothers store
  constructor
  · intro ⟨node, hcreate⟩
    by_contra htimings
    rw [(hrefused _).mpr (.inl ⟨htimings, rfl⟩)] at hcreate
    cases hcreate
  · intro htimings
    cases hcreate : (RaftNode.create (raftConfig config) store :
        Except Raft.Fault (RaftNode storage random)) with
    | ok node => exact ⟨node, rfl⟩
    | error fault =>
        rcases (hrefused fault).mp hcreate with ⟨hunsound, _⟩ | ⟨_, hrefuses⟩
        · exact absurd htimings hunsound
        · rw [hload] at hrefuses
          exact absurd hrefuses not_refusesLoaded_new

theorem ofList_ne_empty {environment : Environment} {name : String}
    {value : StringView} (h : Provides environment name value) :
    String.ofList value.chars ≠ "" := by
  intro hempty
  apply h.right
  rw [← String.toList_ofList (l := value.chars), hempty]
  rfl

/--
What the environment describes fits the constructors that use it.  The members are
unique, so that a node refuses the timings or what its storage holds and nothing else;
with a new storage it refuses nothing but the timings.  Every address is there.
-/
theorem environment_fits_runtime {storage random : Type} [RaftStorage storage]
    [RandomEngine random] {environment : Environment} {config : ProcessConfig}
    (h : fromEnvironment environment = .ok config) (store : storage) :
    (forall fault, (RaftNode.create (raftConfig config.toNodeRuntimeConfig) store :
        Except Raft.Fault (RaftNode storage random)) = .error fault <->
      ¬ SoundTimings config.toNodeRuntimeConfig ∧
        fault = .invalidArgument "invalid Raft timing configuration" ∨
      SoundTimings config.toNodeRuntimeConfig ∧
        RefusesLoaded (raftConfig config.toNodeRuntimeConfig) (RaftStorage.load store)
          fault) ∧
    (RaftStorage.load store = .ok {} ->
      ((exists node : RaftNode storage random,
        RaftNode.create (raftConfig config.toNodeRuntimeConfig) store = .ok node) <->
          SoundTimings config.toNodeRuntimeConfig)) ∧
    config.peers.entries ≠ [] ∧
    (forall peer, peer ∈ config.peers.entries -> peer.2 ≠ "") ∧
    config.listenAddress ≠ "" ∧ config.dataDirectory ≠ "" := by
  have hdescribes := (accepts_fromEnvironment.ok config).mp h
  rcases hdescribes.listenAddress with ⟨address, haddress, haddressEq⟩
  rcases hdescribes.dataDirectory with ⟨directory, hdirectory, hdirectoryEq⟩
  rcases hdescribes.peers with ⟨text, listed, _, hlist, hentries⟩
  refine ⟨create_raftConfig_eq_error_iff hdescribes.others store, ?_, ?_, ?_, ?_, ?_⟩
  · intro hload
    exact exists_create_raftConfig_iff hdescribes.others hload
  · intro hnil
    rcases List.exists_mem_of_ne_nil listed hlist.lists.left with ⟨peer, hpeer⟩
    rw [← hentries peer, hnil] at hpeer
    cases hpeer
  · intro peer hpeer
    rcases hlist.exists_namesPeer ((hentries peer).mp hpeer) with
      ⟨_, _, _, _, hendpoint, _⟩
    exact hendpoint
  · rw [haddressEq]
    exact ofList_ne_empty haddress
  · rw [hdirectoryEq]
    exact ofList_ne_empty hdirectory

/-- A container starts on a new storage, and not on that of another cluster. -/
theorem environment_fits_runtime_first :
    (exists node : RaftNode Raft.InMemoryRaftStorage Raft.LeastEngine,
      RaftNode.create (raftConfig firstContainer.toNodeRuntimeConfig) {} = .ok node) ∧
    (RaftNode.create (raftConfig firstContainer.toNodeRuntimeConfig)
        { state := { currentTerm := 1, votedFor := some 9 } } :
        Except Raft.Fault (RaftNode Raft.InMemoryRaftStorage Raft.LeastEngine)) =
      .error (.raftError "persisted vote references a non-member") := by
  have hread : fromEnvironment firstVariables = .ok firstContainer :=
    (accepts_fromEnvironment.ok _).mpr (describes_of_writes writes_firstVariables)
  have hsound : SoundTimings firstContainer.toNodeRuntimeConfig := by
    constructor
    · decide
    · decide
  constructor
  · exact ((environment_fits_runtime hread _).right.left rfl).mpr hsound
  · apply ((environment_fits_runtime hread _).left _).mpr
    exact .inr ⟨hsound, .vote (by decide)⟩

end Node
end FTKV
