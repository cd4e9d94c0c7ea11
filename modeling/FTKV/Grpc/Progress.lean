import FTKV.Grpc.Wire

/-!
# A call over the wire

What the handlers that run during a call do to the entries, whether they belong to
the call or to an earlier one, and what the client may conclude from the reply.
-/

namespace FTKV
namespace Rpc

open Foundation
open Foundation.Effect
open Storage (InMemoryKeyValueStore KeyValueStore LawfulKeyValueStore)
open Storage.LawfulKeyValueStore (contents)

/-!
# Calls
-/

inductive Call where
  | get (key : Bytes)
  | put (key value : Bytes)
  | erase (key : Bytes)
deriving DecidableEq, Repr

namespace Call

def key : Call -> Bytes
  | .get key => key
  | .put key _ => key
  | .erase key => key

def wire : Call -> WireRequest
  | .get key => .get { key := key }
  | .put key value => .put { key := key, value := value }
  | .erase key => .delete { key := key }

def request (call : Call) : Storage.Request :=
  call.wire.request

def issue {world : Type} (client : KeyValueClient world) :
    Call -> Effect world Fault Storage.Reply
  | .get key => do
      let value <- client.get key
      pure (.found value)
  | .put key value => do
      client.put key value
      pure .done
  | .erase key => do
      let removed <- client.erase key
      pure (.erased removed)

end Call

/-!
# Conditions on a run

A handler that changes an entry after its call has ended may undo a later call, and
an attempt to erase answers wrongly if an earlier one has erased for the same call.
-/

section Conditions

variable {store : Type} [KeyValueStore store] [LawfulKeyValueStore store]

/-- No handler changes an entry after the call it belongs to has ended. -/
def Prompt (trace : List (Run store)) : Prop :=
  forall run, run ∈ trace -> run.Changes -> run.during = some run.owner

/-- The call has already changed an entry when another of its handlers erases. -/
def Forestalls (first second : Run store) : Prop :=
  first.owner = second.owner ∧ first.Changes ∧ second.erases = true ∧
    second.during = some second.owner

/-- No call erases again what it has erased. -/
def Once (trace : List (Run store)) : Prop :=
  trace.Pairwise fun first second => ¬ Forestalls first second

instance (trace : List (Run store)) : Decidable (Prompt trace) :=
  inferInstanceAs (Decidable
    (∀ run ∈ trace, run.Changes -> run.during = some run.owner))

instance (first second : Run store) : Decidable (Forestalls first second) :=
  inferInstanceAs (Decidable (_ ∧ _ ∧ _ ∧ _))

instance (trace : List (Run store)) : Decidable (Once trace) :=
  inferInstanceAs (Decidable (List.Pairwise _ _))

theorem prompt_append {a b : List (Run store)} :
    Prompt (a ++ b) <-> Prompt a ∧ Prompt b :=
  List.forall_mem_append

theorem once_append {a b : List (Run store)} (honce : Once (a ++ b)) :
    Once a ∧ Once b := by
  rcases List.pairwise_append.mp honce with ⟨hfirst, hsecond, _⟩
  exact ⟨hfirst, hsecond⟩

end Conditions

namespace Wire

variable {store : Type}

def begin (w : Wire store) : Wire store :=
  { w with calls := w.calls + 1, busy := true }

def finish (w : Wire store) : Wire store :=
  { w with busy := false }

variable [KeyValueStore store] [LawfulKeyValueStore store]

/-!
# Handlers that run

From the wire at the start, the handlers `ran` have been remembered since.
-/

structure Elapsed (start : Wire store) (ran : List (Run store)) (w : Wire store) :
    Prop where
  trace : w.trace = start.trace ++ ran
  calls : w.calls = start.calls
  busy : w.busy = start.busy
  during : forall run, run ∈ ran -> run.during = start.current
  owners : forall attempt, attempt ∈ w.sent -> attempt.owner <= start.calls
  untouched : (forall run, run ∈ ran -> ¬ run.Changes) ->
    contents w.store = contents start.store

variable {start w w' : Wire store} {ran : List (Run store)}

theorem elapsed_refl (howners : forall attempt, attempt ∈ w.sent ->
    attempt.owner <= w.calls) : Elapsed w [] w := by
  constructor
  · rw [List.append_nil]
  · rfl
  · rfl
  · exact nofun
  · exact howners
  · exact fun _ => rfl

theorem elapsed_handled {id : Nat} {attempt : Attempt} {context : ServerContext}
    {r : Except Fault (Reply WireResponse)} {s : store}
    (hattempt : w.sent[id]? = some attempt)
    (hserves : Serves context attempt.request w.store r s)
    (h : Elapsed start ran w) :
    Elapsed start (ran ++ w.recorded context attempt s)
      { w with
        store := s
        sent := w.sent.set id { attempt with result := some r }
        trace := w.trace ++ w.recorded context attempt s } := by
  constructor
  · rw [h.trace, List.append_assoc]
  · exact h.calls
  · exact h.busy
  · intro run hrun
    rcases List.mem_append.mp hrun with hran | hrecorded
    · exact h.during run hran
    · rw [eq_of_mem_recorded hrecorded]
      show w.current = start.current
      unfold current
      rw [h.calls, h.busy]
  · intro other hother
    rcases List.mem_or_eq_of_mem_set hother with hmem | rfl
    · exact h.owners other hmem
    · exact h.owners attempt (List.mem_of_getElem? hattempt)
  · intro hunchanged
    rw [List.forall_mem_append] at hunchanged
    exact (contents_of_unchanged hserves hunchanged.right).trans
      (h.untouched hunchanged.left)

theorem elapsed_run (event : Event) (h : Elapsed start ran w) :
    exists ran', Elapsed start ran' (w.run event) := by
  generalize hw : w.run event = w'
  have hran : Ran w w' := hw ▸ ran_run w event
  cases hran with
  | ignored => exact ⟨ran, h⟩
  | handled hattempt hserves => exact ⟨_, elapsed_handled hattempt hserves h⟩

theorem elapsed_events (events : List Event) (h : Elapsed start ran w) :
    exists ran', Elapsed start ran' (events.foldl run w) := by
  induction events generalizing w ran with
  | nil => exact ⟨ran, h⟩
  | cons event events ih =>
      rcases elapsed_run event h with ⟨ran', h'⟩
      exact ih h'

theorem elapsed_idle (hidle : start.busy = false) (h : Elapsed start ran w)
    (hprompt : Prompt ran) : contents w.store = contents start.store := by
  apply h.untouched
  intro run hrun hchanges
  have hduring := h.during run hrun
  unfold current at hduring
  rw [hprompt run hrun hchanges, hidle] at hduring
  cases hduring

/-!
# A call in progress

Every attempt of the call carries the same request.  So the prompt handlers have
either not taken effect yet, or as often as they did the entries are those after
one request.  A reply with an ok status answers the request once it is known that
no other handler has erased before.
-/

section Calls

variable {call : Call} {context : ServerContext} {attempt : Attempt} {id : Nat}
  {r : Except Fault (Reply WireResponse)} {s : store}

def Acknowledged (call : Call) (start : Wire store) (ran : List (Run store))
    (w : Wire store) (answered : Storage.Reply -> Prop) : Prop :=
  contents w.store = ((contents start.store).perform call.request).2 ∧
    (Once ran -> answered ((contents start.store).perform call.request).1)

structure Serving (call : Call) (start : Wire store) (ran : List (Run store))
    (w : Wire store) : Prop extends Elapsed start ran w where
  begun : start.busy = true
  requests : forall attempt, attempt ∈ w.sent -> attempt.owner = start.calls ->
    attempt.request = call.wire
  kinds : forall run, run ∈ ran -> run.owner = start.calls ->
    run.erases = call.wire.erases
  memory : Prompt ran -> contents w.store = contents start.store ∨
    contents w.store = ((contents start.store).perform call.request).2
  replies : Prompt ran -> forall attempt, attempt ∈ w.sent ->
    attempt.owner = start.calls -> forall reply, attempt.result = some (.ok reply) ->
      reply.status.code = .ok ->
        Acknowledged call start ran w fun answer => reply.response = .ofReply answer

theorem owner_of_prompt (h : Elapsed start ran w) (hbegun : start.busy = true)
    (hprompt : Prompt ran) {run : Run store} (hrun : run ∈ ran)
    (hchanges : run.Changes) : run.owner = start.calls := by
  have hduring := h.during run hrun
  unfold current at hduring
  rw [hprompt run hrun hchanges, hbegun] at hduring
  exact Option.some.inj hduring

theorem perform_settled {memory memory' before : InMemoryKeyValueStore}
    {answer : Storage.Reply}
    (hmemory : memory = before ∨ memory = (before.perform call.request).2)
    (hperform : memory.perform call.request = (answer, memory')) :
    memory' = (before.perform call.request).2 := by
  have hmemory' : memory' = (memory.perform call.request).2 := by rw [hperform]
  rcases hmemory with rfl | rfl
  · exact hmemory'
  · exact hmemory'.trans (before.perform_again call.request)

theorem perform_answer_again (before : InMemoryKeyValueStore)
    (hkind : call.wire.erases = false) :
    ((before.perform call.request).2.perform call.request).1 =
      (before.perform call.request).1 := by
  cases call with
  | get key => rfl
  | put key value => rfl
  | erase key => cases hkind

theorem serving_foreign (hattempt : w.sent[id]? = some attempt)
    (hserves : Serves context attempt.request w.store r s)
    (howner : attempt.owner ≠ start.calls) (h : Serving call start ran w) :
    Serving call start (ran ++ w.recorded context attempt s)
      { w with
        store := s
        sent := w.sent.set id { attempt with result := some r }
        trace := w.trace ++ w.recorded context attempt s } := by
  have helapsed := elapsed_handled hattempt hserves h.toElapsed
  have hsame : Prompt (ran ++ w.recorded context attempt s) ->
      contents s = contents w.store := by
    intro hprompt
    apply contents_of_unchanged hserves
    intro run hrun hchanges
    have howner' := owner_of_prompt helapsed h.begun hprompt
      (List.mem_append_right ran hrun) hchanges
    rw [eq_of_mem_recorded hrun] at howner'
    exact howner howner'
  have hsent : forall other, other ∈ w.sent.set id { attempt with result := some r } ->
      other.owner = start.calls -> other ∈ w.sent := by
    intro other hother howner'
    rcases List.mem_or_eq_of_mem_set hother with hmem | rfl
    · exact hmem
    · exact absurd howner' howner
  constructor
  · exact helapsed
  · exact h.begun
  · intro other hother howner'
    exact h.requests other (hsent other hother howner') howner'
  · intro run hrun howner'
    rcases List.mem_append.mp hrun with hran | hrecorded
    · exact h.kinds run hran howner'
    · rw [eq_of_mem_recorded hrecorded] at howner'
      exact absurd howner' howner
  · intro hprompt
    show contents s = _ ∨ contents s = _
    rw [hsame hprompt]
    exact h.memory (prompt_append.mp hprompt).left
  · intro hprompt other hother howner' reply hreply hcode
    have hacknowledged := h.replies (prompt_append.mp hprompt).left other
      (hsent other hother howner') howner' reply hreply hcode
    constructor
    · exact (hsame hprompt).trans hacknowledged.left
    · intro honce
      exact hacknowledged.right (once_append honce).left

omit [KeyValueStore store] [LawfulKeyValueStore store] in
theorem recorded_erasing (hrunning : context.cancelledBefore = false)
    (herases : attempt.request.erases = true) :
    w.recorded context attempt s = [⟨attempt.owner, w.current, true, w.store, s⟩] := by
  have hwrites : attempt.request.writes = true := by
    cases hrequest : attempt.request with
    | get request =>
        rw [hrequest] at herases
        cases herases
    | put request => rfl
    | delete request => rfl
  unfold recorded
  rw [hrunning, hwrites, herases]
  rfl

theorem untouched_of_once (h : Serving call start ran w) (hprompt : Prompt ran)
    (hrunning : context.cancelledBefore = false)
    (howner : attempt.owner = start.calls) (hrequest : attempt.request = call.wire)
    (herases : call.wire.erases = true)
    (honce : Once (ran ++ w.recorded context attempt s)) :
    contents w.store = contents start.store := by
  apply h.untouched
  intro first hfirst hchanges
  rw [← hrequest] at herases
  rw [recorded_erasing hrunning herases] at honce
  apply (List.pairwise_append.mp honce).right.right first hfirst _
    (List.mem_singleton_self _)
  refine ⟨?_, hchanges, rfl, ?_⟩
  · exact (owner_of_prompt h.toElapsed h.begun hprompt hfirst hchanges).trans howner.symm
  · show w.current = some attempt.owner
    unfold current
    rw [h.busy, h.begun, h.calls, howner]
    rfl

theorem serving_effect (h : Serving call start ran w) (hprompt : Prompt ran)
    (howner : attempt.owner = start.calls) (hrequest : attempt.request = call.wire)
    (hserves : Serves context attempt.request w.store r s) :
    (contents s = contents w.store ∧
      forall reply, r = .ok reply -> reply.status.code ≠ .ok) ∨
    (contents s = ((contents start.store).perform call.request).2 ∧
      forall reply, r = .ok reply -> Once (ran ++ w.recorded context attempt s) ->
        reply.response = .ofReply ((contents start.store).perform call.request).1) := by
  unfold Serves at hserves
  rw [hrequest] at hserves
  generalize contents s = memory' at hserves ⊢
  cases hserves with
  | refused hreply => exact Or.inl ⟨rfl, hreply⟩
  | @performed reply answer _ hrunning hperform hfills =>
      refine Or.inr ⟨perform_settled (h.memory hprompt) hperform, ?_⟩
      rintro _ ⟨⟩ honce
      rw [hfills]
      have hanswer : answer = ((contents w.store).perform call.request).1 := by
        rw [Call.request, hperform]
      rw [hanswer]
      cases hkind : call.wire.erases with
      | true =>
          rw [untouched_of_once h hprompt hrunning howner hrequest hkind honce]
      | false =>
          rcases h.memory hprompt with hsame | hdone
          · rw [hsame]
          · rw [hdone, perform_answer_again _ hkind]

theorem serving_own (hattempt : w.sent[id]? = some attempt)
    (hserves : Serves context attempt.request w.store r s)
    (howner : attempt.owner = start.calls) (h : Serving call start ran w) :
    Serving call start (ran ++ w.recorded context attempt s)
      { w with
        store := s
        sent := w.sent.set id { attempt with result := some r }
        trace := w.trace ++ w.recorded context attempt s } := by
  have hrequest := h.requests attempt (List.mem_of_getElem? hattempt) howner
  constructor
  · exact elapsed_handled hattempt hserves h.toElapsed
  · exact h.begun
  · intro other hother howner'
    rcases List.mem_or_eq_of_mem_set hother with hmem | rfl
    · exact h.requests other hmem howner'
    · exact hrequest
  · intro run hrun howner'
    rcases List.mem_append.mp hrun with hran | hrecorded
    · exact h.kinds run hran howner'
    · rw [eq_of_mem_recorded hrecorded, ← hrequest]
  · intro hprompt
    rcases serving_effect h (prompt_append.mp hprompt).left howner hrequest hserves with
      ⟨hsame, -⟩ | ⟨hdone, -⟩
    · show contents s = _ ∨ contents s = _
      rw [hsame]
      exact h.memory (prompt_append.mp hprompt).left
    · exact Or.inr hdone
  · intro hprompt other hother howner' reply hreply hcode
    have hran := (prompt_append.mp hprompt).left
    rcases List.mem_or_eq_of_mem_set hother with hmem | rfl
    · have hacknowledged := h.replies hran other hmem howner' reply hreply hcode
      constructor
      · rcases serving_effect h hran howner hrequest hserves with
          ⟨hsame, -⟩ | ⟨hdone, -⟩
        · exact hsame.trans hacknowledged.left
        · exact hdone
      · exact fun honce => hacknowledged.right (once_append honce).left
    · rcases serving_effect h hran howner hrequest hserves with
        ⟨-, hrefused⟩ | ⟨hdone, hanswered⟩
      · exact absurd hcode (hrefused reply (Option.some.inj hreply))
      · exact ⟨hdone, hanswered reply (Option.some.inj hreply)⟩

theorem serving_run (event : Event) (h : Serving call start ran w) :
    exists ran', Serving call start ran' (w.run event) := by
  generalize hw : w.run event = w'
  have hran : Ran w w' := hw ▸ ran_run w event
  cases hran with
  | ignored => exact ⟨ran, h⟩
  | @handled _ attempt _ _ _ hattempt hserves =>
      by_cases howner : attempt.owner = start.calls
      · exact ⟨_, serving_own hattempt hserves howner h⟩
      · exact ⟨_, serving_foreign hattempt hserves howner h⟩

theorem serving_events (events : List Event) (h : Serving call start ran w) :
    exists ran', Serving call start ran' (events.foldl run w) := by
  induction events generalizing w ran with
  | nil => exact ⟨ran, h⟩
  | cons event events ih =>
      rcases serving_run event h with ⟨ran', h'⟩
      exact ih h'

theorem owner_of_events (events : List Event) (w : Wire store) (id : Nat) :
    ((events.foldl run w).sent[id]?).map Attempt.owner =
      (w.sent[id]?).map Attempt.owner := by
  induction events generalizing w with
  | nil => rfl
  | cons event events ih =>
      exact (ih (w.run event)).trans (owner_of_ran (ran_run w event) id)

/-!
# Attempts of a call
-/

theorem serving_begin (hidle : forall attempt, attempt ∈ w.sent ->
    attempt.owner <= w.calls) (call : Call) : Serving call w.begin [] w.begin := by
  constructor
  · apply elapsed_refl
    intro attempt hattempt
    exact Nat.le_succ_of_le (hidle attempt hattempt)
  · rfl
  · intro attempt hattempt howner
    exact absurd (howner ▸ hidle attempt hattempt) (Nat.not_succ_le_self _)
  · exact nofun
  · exact fun _ => Or.inl rfl
  · intro _ attempt hattempt howner
    exact absurd (howner ▸ hidle attempt hattempt) (Nat.not_succ_le_self _)

theorem serving_send (h : Serving call start ran w) :
    Serving call start ran (w.send call.wire) := by
  have hsent : forall attempt, attempt ∈ w.sent ++ [⟨w.calls, call.wire, none⟩] ->
      attempt ∈ w.sent ∨ attempt = ⟨w.calls, call.wire, none⟩ := by
    intro attempt hattempt
    rcases List.mem_append.mp hattempt with hmem | hnew
    · exact Or.inl hmem
    · exact Or.inr (List.mem_singleton.mp hnew)
  constructor
  · constructor
    · exact h.trace
    · exact h.calls
    · exact h.busy
    · exact h.during
    · intro attempt hattempt
      rcases hsent attempt hattempt with hmem | rfl
      · exact h.owners attempt hmem
      · exact h.calls.le
    · exact h.untouched
  · exact h.begun
  · intro attempt hattempt howner
    rcases hsent attempt hattempt with hmem | rfl
    · exact h.requests attempt hmem howner
    · rfl
  · exact h.kinds
  · exact h.memory
  · intro hprompt attempt hattempt howner reply hreply
    rcases hsent attempt hattempt with hmem | rfl
    · exact h.replies hprompt attempt hmem howner reply hreply
    · cases hreply

omit [KeyValueStore store] [LawfulKeyValueStore store] in
theorem received_ok {failure : Option { status : Status // status.code ≠ .ok }}
    (hcode : (w.received id failure).status.code = .ok) :
    exists attempt reply, w.sent[id]? = some attempt ∧
      attempt.result = some (.ok reply) ∧ w.received id failure = reply.map some := by
  cases failure with
  | some failure => exact absurd hcode failure.2
  | none =>
      simp only [received] at hcode ⊢
      cases hattempt : w.sent[id]? with
      | none =>
          rw [hattempt] at hcode
          cases hcode
      | some attempt =>
          rw [hattempt, Option.bind_some] at hcode
          cases hresult : attempt.result with
          | none =>
              rw [hresult] at hcode
              cases hcode
          | some result =>
              cases result with
              | error fault =>
                  rw [hresult] at hcode
                  cases hcode
              | ok reply =>
                  refine ⟨attempt, reply, rfl, hresult, ?_⟩
                  rw [Option.bind_some, hresult]

theorem owner_of_exchange (events : List Event) (w : Wire store)
    (request : WireRequest)
    (hattempt : (events.foldl run (w.send request)).sent[w.sent.length]? =
      some attempt) : attempt.owner = w.calls := by
  have howner := owner_of_events events (w.send request) w.sent.length
  rw [hattempt] at howner
  unfold send at howner
  rw [List.getElem?_concat_length] at howner
  exact Option.some.inj howner

theorem keeps_attempt {response : Type} (turns : Nat -> Turn)
    (decode : Option WireResponse -> response) :
    Keeps (fun w => exists ran, Serving call start ran w)
      (fun value w => forall ran, Serving call start ran w -> Prompt ran ->
        Acknowledged call start ran w fun answer =>
          value = decode (some (.ofReply answer)))
      (Wire.attempt turns decode call.wire) := by
  rintro w ⟨ran, h⟩
  unfold Wire.attempt
  rw [ensures_bind, ensures_modifyGet, continues_ok, ensures_pure]
  have hserving := serving_events (turns w.sent.length).events (serving_send h)
  refine ⟨_, rfl, hserving, ?_⟩
  intro hcode ran' h' hprompt
  rcases received_ok hcode with ⟨attempt, reply, hattempt, hresult, hreceived⟩
  have hreplied : (exchange turns call.wire w).1 = reply.map some := hreceived
  have howner : attempt.owner = start.calls :=
    (owner_of_exchange _ w call.wire hattempt).trans h.calls
  rw [hreplied] at hcode ⊢
  have hacknowledged := h'.replies hprompt attempt (List.mem_of_getElem? hattempt)
    howner reply hresult hcode
  constructor
  · exact hacknowledged.left
  · intro honce
    show decode (some reply.response) = _
    rw [hacknowledged.right honce]

def Ended (call : Call) (start : Wire store) (r : Except Fault Storage.Reply)
    (w : Wire store) : Prop :=
  (exists ran, Serving call start ran w) ∧
    ((exists reply, r = .ok reply ∧ forall ran, Serving call start ran w ->
      Prompt ran -> Acknowledged call start ran w fun answer => reply = answer) ∨
    exists error, r = .error (.grpcError error))

variable {options : GrpcClientOptions} {raftStub : RaftStub (Wire store)}
  {turns : Nat -> Turn}

theorem ensures_call_ended {response : Type} {operation : String}
    {decode : Option WireResponse -> response} (read : response -> Storage.Reply)
    (hattempts : options.maxAttempts ≠ 0)
    (hread : forall memory : InMemoryKeyValueStore,
      read (decode (some (.ofReply (memory.perform call.request).1))) =
        (memory.perform call.request).1)
    (h : exists ran, Serving call start ran w) :
    Ensures ((client options raftStub turns).call operation
      (Wire.attempt turns decode call.wire)) w
      (fun r w' => Ended call start (r.map read) w') := by
  have hpause : Pauses (fun w => exists ran, Serving call start ran w)
      (client options raftStub turns).sleepFor := fun _ _ hs => ⟨rfl, hs⟩
  apply ensures_mono (ensures_call_retried hattempts (keeps_attempt turns decode)
    hpause h)
  rintro r w' ⟨hserving, ⟨value, rfl, hacknowledged⟩ | ⟨error, rfl⟩⟩
  · refine ⟨hserving, Or.inl ⟨_, rfl, ?_⟩⟩
    intro ran' h' hprompt
    rcases hacknowledged ran' h' hprompt with ⟨hdone, hanswered⟩
    refine ⟨hdone, ?_⟩
    intro honce
    rw [hanswered honce, hread]
  · exact ⟨hserving, Or.inr ⟨error, rfl⟩⟩

theorem ensures_issue (hattempts : options.maxAttempts ≠ 0) (call : Call)
    (h : exists ran, Serving call start ran w) :
    Ensures (call.issue (client options raftStub turns)) w (Ended call start) := by
  cases call with
  | get key =>
      let read (response : V1.GetResponse) : Storage.Reply :=
        .found (if response.found then some response.value else none)
      have hread : forall memory : InMemoryKeyValueStore,
          read (decodeGet (some (.ofReply (.found (memory.get key))))) =
            .found (memory.get key) := by
        intro memory
        cases memory.get key <;> rfl
      unfold Call.issue KeyValueClient.get
      rw [ensures_bind, ensures_bind]
      apply ensures_mono (ensures_call_ended read hattempts hread h)
      intro r w' hended
      cases r <;> exact hended
  | put key value =>
      unfold Call.issue KeyValueClient.put
      rw [ensures_bind, ensures_bind]
      apply ensures_mono (ensures_call_ended (fun _ => .done) hattempts
        (fun _ => rfl) h)
      intro r w' hended
      cases r <;> exact hended
  | erase key =>
      unfold Call.issue KeyValueClient.erase
      rw [ensures_bind, ensures_bind]
      apply ensures_mono (ensures_call_ended (fun response => .erased response.deleted)
        hattempts (fun _ => rfl) h)
      intro r w' hended
      cases r <;> exact hended

end Calls

end Wire

end Rpc
end FTKV
