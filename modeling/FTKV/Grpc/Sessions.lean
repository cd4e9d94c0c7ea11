import FTKV.Grpc.Progress

/-!
# Sessions of one client

One client issues calls one after another, while handlers of earlier attempts may
still be on their way.  If no handler changes an entry after the call it belongs
to has ended, and no call erases again what it has erased, the client sees a plain
map.  Without these conditions a retry can undo a later call or hide an erasure.
-/

namespace FTKV
namespace Rpc

open Foundation
open Foundation.Effect
open Storage (InMemoryKeyValueStore KeyValueStore LawfulKeyValueStore)
open Storage.LawfulKeyValueStore (contents)

/-!
# Runs
-/

structure Step where
  events : List Event := []
  call : Call

abbrev History := List (Call × Except Fault Storage.Reply)

namespace Wire

variable {store : Type} [KeyValueStore store]

def session (client : KeyValueClient (Wire store)) :
    List Step -> Wire store -> History × Wire store
  | [], w => ([], w)
  | step :: rest, w =>
      let (r, w') := outcome (step.call.issue client) (step.events.foldl run w).begin
      let (history, w'') := session client rest w'.finish
      ((step.call, r) :: history, w'')

end Wire

/-!
# What the client should see

A call that returns has answered as the map does and has taken effect once.  A
call that failed has taken effect once or not at all.
-/

inductive Agrees : InMemoryKeyValueStore -> History -> Prop where
  | finished {memory : InMemoryKeyValueStore} : Agrees memory []
  | returned {memory memory' : InMemoryKeyValueStore} {call : Call}
      {reply : Storage.Reply} {rest : History}
      (hperform : memory.perform call.request = (reply, memory'))
      (hrest : Agrees memory' rest) : Agrees memory ((call, .ok reply) :: rest)
  | failed {memory : InMemoryKeyValueStore} {call : Call} {error : GrpcError}
      {rest : History} (hrest : Agrees memory rest) :
      Agrees memory ((call, .error (.grpcError error)) :: rest)
  | failedAfter {memory : InMemoryKeyValueStore} {call : Call} {error : GrpcError}
      {rest : History} (hrest : Agrees (memory.perform call.request).2 rest) :
      Agrees memory ((call, .error (.grpcError error)) :: rest)

theorem get_perform_of_ne {memory : InMemoryKeyValueStore} {call : Call}
    {key : Bytes} (hkey : call.key ≠ key) :
    (memory.perform call.request).2.get key = memory.get key := by
  cases call with
  | get _ => rfl
  | put _ _ => exact Finmap.lookup_insert_of_ne _ hkey.symm
  | erase _ => exact Finmap.lookup_erase_ne hkey.symm

theorem agrees_append {memory : InMemoryKeyValueStore} {before rest : History}
    (hagrees : Agrees memory (before ++ rest)) :
    exists memory', Agrees memory' rest ∧
      forall key, (forall entry, entry ∈ before -> entry.1.key ≠ key) ->
        memory'.get key = memory.get key := by
  induction before generalizing memory with
  | nil => exact ⟨memory, hagrees, fun _ _ => rfl⟩
  | cons entry before ih =>
      cases hagrees with
      | @returned _ middle call reply _ hperform hrest =>
          rcases ih hrest with ⟨memory', hrest', hkept⟩
          refine ⟨memory', hrest', ?_⟩
          intro key hkeys
          rw [List.forall_mem_cons] at hkeys
          have hget : (memory.perform call.request).2.get key = memory.get key :=
            get_perform_of_ne hkeys.left
          rw [hperform] at hget
          exact (hkept key hkeys.right).trans hget
      | failed hrest =>
          rcases ih hrest with ⟨memory', hrest', hkept⟩
          refine ⟨memory', hrest', ?_⟩
          intro key hkeys
          exact hkept key fun entry hentry =>
            hkeys entry (List.mem_cons_of_mem _ hentry)
      | failedAfter hrest =>
          rcases ih hrest with ⟨memory', hrest', hkept⟩
          refine ⟨memory', hrest', ?_⟩
          intro key hkeys
          rw [List.forall_mem_cons] at hkeys
          exact (hkept key hkeys.right).trans (get_perform_of_ne hkeys.left)

theorem agrees_get_after_put {memory : InMemoryKeyValueStore}
    {before between rest : History} {key value : Bytes} {reply : Storage.Reply}
    {found : Option Bytes}
    (hagrees : Agrees memory (before ++ (.put key value, .ok reply) ::
      (between ++ (.get key, .ok (.found found)) :: rest)))
    (hbetween : forall entry, entry ∈ between -> entry.1.key ≠ key) :
    found = some value := by
  rcases agrees_append hagrees with ⟨memory', hput, -⟩
  cases hput with
  | @returned _ written _ _ _ hperform hrest =>
      rcases agrees_append hrest with ⟨memory'', hget, hkept⟩
      have hvalue : memory''.get key = some value := by
        rw [hkept key hbetween]
        cases hperform
        exact Finmap.lookup_insert _
      cases hget with
      | returned hfound _ =>
          cases hfound
          exact hvalue

/-!
# Sessions
-/

namespace Wire

variable {store : Type} [KeyValueStore store] [LawfulKeyValueStore store]
  {start w : Wire store} {ran : List (Run store)}

variable {options : GrpcClientOptions} {raftStub : RaftStub (Wire store)}
  {turns : Nat -> Turn}

theorem agrees_call {call : Call} {r : Except Fault Storage.Reply} {rest : History}
    (hended : Ended call start r w) (h : Serving call start ran w)
    (hprompt : Prompt ran) (honce : Once ran)
    (hrest : Agrees (contents w.store) rest) :
    Agrees (contents start.store) ((call, r) :: rest) := by
  rcases hended.right with ⟨reply, rfl, hacknowledged⟩ | ⟨error, rfl⟩
  · rcases hacknowledged ran h hprompt with ⟨hdone, hanswered⟩
    rw [hdone] at hrest
    rw [hanswered honce]
    exact .returned rfl hrest
  · rcases h.memory hprompt with hsame | hdone
    · rw [hsame] at hrest
      exact .failed hrest
    · rw [hdone] at hrest
      exact .failedAfter hrest

omit [LawfulKeyValueStore store] in
theorem session_cons {client : KeyValueClient (Wire store)} {step : Step}
    {rest : List Step} {w called : Wire store} {r : Except Fault Storage.Reply}
    (hcalled : outcome (step.call.issue client) (step.events.foldl run w).begin =
      (r, called)) :
    session client (step :: rest) w =
      ((step.call, r) :: (session client rest called.finish).1,
        (session client rest called.finish).2) := by
  rw [session, hcalled]

theorem agrees_session (raftStub : RaftStub (Wire store)) (turns : Nat -> Turn)
    (hattempts : options.maxAttempts ≠ 0) (steps : List Step) (w : Wire store)
    (hidle : w.busy = false)
    (howners : forall attempt, attempt ∈ w.sent -> attempt.owner <= w.calls) :
    exists ran,
      (session (client options raftStub turns) steps w).2.trace = w.trace ++ ran ∧
        (Prompt ran -> Once ran -> Agrees (contents w.store)
          (session (client options raftStub turns) steps w).1) := by
  induction steps generalizing w with
  | nil => exact ⟨[], (List.append_nil _).symm, fun _ _ => .finished⟩
  | cons step rest ih =>
      rcases elapsed_events step.events (elapsed_refl howners) with ⟨before, hbefore⟩
      have howners' : forall attempt, attempt ∈ (step.events.foldl run w).sent ->
          attempt.owner <= (step.events.foldl run w).calls := by
        intro attempt hattempt
        rw [hbefore.calls]
        exact hbefore.owners attempt hattempt
      have hended : Ensures (step.call.issue (client options raftStub turns))
          (step.events.foldl run w).begin
          (Ended step.call (step.events.foldl run w).begin) :=
        ensures_issue hattempts step.call ⟨[], serving_begin howners' step.call⟩
      unfold Ensures at hended
      rcases hcalled : outcome (step.call.issue (client options raftStub turns))
        (step.events.foldl run w).begin with ⟨r, called⟩
      rw [hcalled] at hended
      rw [session_cons hcalled]
      rcases hended.left with ⟨during, hduring⟩
      have hsent : forall attempt, attempt ∈ called.sent ->
          attempt.owner <= called.calls := by
        intro attempt hattempt
        rw [hduring.calls]
        exact hduring.owners attempt hattempt
      rcases ih called.finish rfl hsent with ⟨after, htrace, hagrees⟩
      refine ⟨before ++ (during ++ after), ?_, ?_⟩
      · have hstart : called.finish.trace = w.trace ++ before ++ during := by
          rw [← hbefore.trace]
          exact hduring.trace
        rw [htrace, hstart, List.append_assoc, List.append_assoc]
      · intro hprompt honce
        rcases prompt_append.mp hprompt with ⟨hprompt1, hprompt'⟩
        rcases prompt_append.mp hprompt' with ⟨hprompt2, hprompt3⟩
        rcases once_append (once_append honce).right with ⟨honce2, honce3⟩
        rw [← elapsed_idle hidle hbefore hprompt1]
        show Agrees (contents (step.events.foldl run w).begin.store) _
        exact agrees_call hended hduring hprompt2 honce2 (hagrees hprompt3 honce3)

end Wire

def Wire.fresh {store : Type} (s : store) : Wire store where
  store := s

section Sessions

variable {store : Type} [KeyValueStore store] [LawfulKeyValueStore store]

/--
Along every schedule and with every retry budget, a client sees a plain map if no
handler changes an entry after its call and no call erases again what it has erased.
-/
theorem retries_preserve_order (s : store) (options : GrpcClientOptions)
    (raftStub : RaftStub (Wire store)) (turns : Nat -> Turn) (steps : List Step)
    (history : History) (w : Wire store)
    (hattempts : options.maxAttempts ≠ 0)
    (hsession : Wire.session (Wire.client options raftStub turns) steps
      (Wire.fresh s) = (history, w))
    (hprompt : Prompt w.trace) (honce : Once w.trace) :
    Agrees (contents s) history ∧
      forall (before between rest : History) (key value : Bytes)
        (reply : Storage.Reply) (found : Option Bytes),
        history = before ++ (.put key value, .ok reply) ::
          (between ++ (.get key, .ok (.found found)) :: rest) ->
        (forall entry, entry ∈ between -> entry.1.key ≠ key) ->
        found = some value := by
  have howners : forall attempt, attempt ∈ (Wire.fresh s).sent ->
      attempt.owner <= (Wire.fresh s).calls := by
    intro attempt hattempt
    cases hattempt
  rcases Wire.agrees_session raftStub turns hattempts steps (Wire.fresh s) rfl howners
    with ⟨ran, htrace, hagrees⟩
  rw [hsession] at htrace hagrees
  have hran : w.trace = ran := htrace
  rw [← hran] at hagrees
  have hhistory : Agrees (contents s) history := hagrees hprompt honce
  refine ⟨hhistory, ?_⟩
  rintro before between rest key value reply found rfl hbetween
  exact agrees_get_after_put hhistory hbetween

end Sessions

/-!
# Two sessions

A retried put overtakes a later one, and a retried erase finds nothing to remove.
-/

def noRaft : RaftStub (Wire InMemoryKeyValueStore) where
  requestVote _ := pure ⟨⟨.unimplemented, ""⟩, {}⟩
  appendEntries _ := pure ⟨⟨.unimplemented, ""⟩, {}⟩

/-- The response of the first attempt is lost; all others arrive. -/
def responseLost : Nat -> Turn
  | 0 => { events := [{ attempt := 0 }]
           failure := some ⟨⟨.unavailable, "Socket closed"⟩, nofun⟩ }
  | id => { events := [{ attempt := id }] }

def putAndGet : List Step :=
  [{ call := .put [1] [10] }, { call := .get [1] }]

theorem retries_preserve_order_responseLost :
    Agrees {} [(.put [1] [10], .ok .done), (.get [1], .ok (.found (some [10])))] :=
  (retries_preserve_order ({} : InMemoryKeyValueStore) {} noRaft responseLost
    putAndGet _ _ (by decide) rfl (by decide) (by decide)).left

/-- The first attempt times out before its handler has touched the store. -/
def handlerLate : Nat -> Turn
  | 0 => { failure := some ⟨⟨.deadlineExceeded, "Deadline Exceeded"⟩, nofun⟩ }
  | id => { events := [{ attempt := id }] }

def putTwiceAndGet : List Step :=
  [{ call := .put [1] [10] }, { call := .put [1] [20] },
   { events := [{ attempt := 0, context := { cancelledAfter := true } }]
     call := .get [1] }]

/-- The response to the erase is lost, and the retry finds the key removed. -/
def eraseLost : Nat -> Turn
  | 1 => { events := [{ attempt := 1 }]
           failure := some ⟨⟨.unavailable, "Socket closed"⟩, nofun⟩ }
  | id => { events := [{ attempt := id }] }

def putAndErase : List Step :=
  [{ call := .put [1] [10] }, { call := .erase [1] }]

theorem retries_lose_order :
    ((Wire.session (Wire.client {} noRaft handlerLate) putTwiceAndGet
        (Wire.fresh {})).1 =
      [(.put [1] [10], .ok .done), (.put [1] [20], .ok .done),
        (.get [1], .ok (.found (some [10])))] ∧
      ¬ Agrees {} [(.put [1] [10], .ok .done), (.put [1] [20], .ok .done),
        (.get [1], .ok (.found (some [10])))]) ∧
    (Wire.session (Wire.client {} noRaft eraseLost) putAndErase (Wire.fresh {})).1 =
      [(.put [1] [10], .ok .done), (.erase [1], .ok (.erased false))] ∧
    ¬ Agrees {} [(.put [1] [10], .ok .done), (.erase [1], .ok (.erased false))] := by
  constructor
  · constructor
    · rfl
    · intro hagrees
      cases hagrees with
      | returned hfirst hrest =>
          cases hfirst
          cases hrest with
          | returned hsecond hrest =>
              cases hsecond
              cases hrest with
              | returned hget _ => cases hget
  · constructor
    · rfl
    · intro hagrees
      cases hagrees with
      | returned hput hrest =>
          cases hput
          cases hrest with
          | returned herase _ => cases herase

end Rpc
end FTKV
