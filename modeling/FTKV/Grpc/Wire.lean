import FTKV.Grpc.KeyValue

/-!
# The wire between one client and one server

An attempt of the client is a request on its way to the server.  Its handler runs
at most once and at any later time, also when the client has long given the
attempt up, and its response may be lost.  What happens when is decided by a
schedule.  The wire remembers which handlers have run during which call and what they
have changed.
-/

namespace FTKV
namespace Rpc

open Foundation
open Foundation.Effect
open Storage (InMemoryKeyValueStore KeyValueStore LawfulKeyValueStore)
open Storage.LawfulKeyValueStore (contents)

/-!
# Requests and responses
-/

inductive WireRequest where
  | get (request : V1.GetRequest)
  | put (request : V1.PutRequest)
  | delete (request : V1.DeleteRequest)
deriving DecidableEq, Repr

inductive WireResponse where
  | get (response : V1.GetResponse)
  | put (response : V1.PutResponse)
  | delete (response : V1.DeleteResponse)
deriving DecidableEq, Repr

namespace WireRequest

def request : WireRequest -> Storage.Request
  | .get request => .get request.key
  | .put request => .put request.key request.value
  | .delete request => .erase request.key

def writes : WireRequest -> Bool
  | .get _ => false
  | _ => true

def erases : WireRequest -> Bool
  | .delete _ => true
  | _ => false

end WireRequest

def WireResponse.ofReply : Storage.Reply -> WireResponse
  | .done => .put {}
  | .found value => .get { found := value.isSome, value := value.getD [] }
  | .erased present => .delete { deleted := present }

def Reply.map {alpha beta : Type} (f : alpha -> beta) (reply : Reply alpha) :
    Reply beta :=
  ⟨reply.status, f reply.response⟩

section Service

variable {store : Type} [KeyValueStore store]

def serve (context : ServerContext) :
    WireRequest -> Effect store Fault (Reply WireResponse)
  | .get request => do
      let reply <- KeyValueService.get context request
      pure (reply.map .get)
  | .put request => do
      let reply <- KeyValueService.put context request
      pure (reply.map .put)
  | .delete request => do
      let reply <- KeyValueService.delete context request
      pure (reply.map .delete)

abbrev Serves [LawfulKeyValueStore store] (context : ServerContext)
    (request : WireRequest) (s : store) (r : Except Fault (Reply WireResponse))
    (s' : store) : Prop :=
  KeyValueService.Handles context (fun answer response => response = .ofReply answer)
    (contents s) request.request r (contents s')

variable [LawfulKeyValueStore store] {context : ServerContext}

theorem handles_map {alpha : Type} {wrap : alpha -> WireResponse}
    {memory memory' : InMemoryKeyValueStore} {request : Storage.Request}
    {r : Except Fault (Reply alpha)}
    (hhandles : KeyValueService.Handles context
      (fun answer response => wrap response = .ofReply answer) memory request r
      memory') :
    KeyValueService.Handles context (fun answer response => response = .ofReply answer)
      memory request (r.map (Reply.map wrap)) memory' := by
  cases hhandles with
  | refused hreply =>
      apply KeyValueService.Handles.refused
      intro reply hr
      cases r with
      | error fault => cases hr
      | ok inner =>
          cases hr
          exact hreply inner rfl
  | performed hrunning hperform hresponse =>
      exact .performed hrunning hperform hresponse

theorem ensures_method {result response : Type} [Inhabited response]
    {operation : Effect store Storage.Fault result} {fill : result -> response}
    {request : Storage.Request} {s : store} (answer : result -> Storage.Reply)
    (wrap : response -> WireResponse)
    (hfill : forall value, wrap (fill value) = .ofReply (answer value))
    (hoperation : Ensures operation s (fun r s' =>
      Storage.AnsweredAs (contents s) request (contents s') (r.map answer))) :
    Ensures (do
      let reply <- KeyValueService.handle context operation fill
      pure (reply.map wrap)) s (fun r s' =>
      KeyValueService.Handles context
        (fun answer response => response = .ofReply answer) (contents s) request r
        (contents s')) := by
  have hhandle : Ensures (KeyValueService.handle context operation fill) s
      (fun r s' => KeyValueService.Handles context
        (fun answer response => wrap response = .ofReply answer) (contents s)
        request r (contents s')) :=
    KeyValueService.ensures_handle hfill hoperation
  unfold Ensures at hhandle ⊢
  rw [outcome_bind_pure]
  exact handles_map hhandle

theorem ensures_serve (context : ServerContext) (request : WireRequest)
    (s : store) : Ensures (serve context request) s (Serves context request s) := by
  cases request with
  | get request =>
      exact ensures_method .found .get (fun _ => rfl)
        (LawfulKeyValueStore.ensures_get request.key s)
  | put request =>
      exact ensures_method (fun _ => .done) .put (fun _ => rfl)
        (LawfulKeyValueStore.ensures_put request.key request.value s)
  | delete request =>
      exact ensures_method .erased .delete (fun _ => rfl)
        (LawfulKeyValueStore.ensures_erase request.key s)

theorem serve_unchanged {request : WireRequest} {s s' : store}
    {r : Except Fault (Reply WireResponse)}
    (hidle : context.cancelledBefore = true ∨ request.writes = false)
    (hserves : Serves context request s r s') : contents s' = contents s := by
  unfold Serves at hserves
  generalize contents s' = memory' at hserves ⊢
  cases hserves with
  | refused => rfl
  | performed hrunning hperform =>
      rcases hidle with hcancelled | hreads
      · rw [hcancelled] at hrunning
        cases hrunning
      · cases request with
        | get request =>
            cases hperform
            rfl
        | put request => cases hreads
        | delete request => cases hreads

end Service

/-!
# The wire
-/

/-- A request that has been sent, and how its handler has ended, if it has run. -/
structure Attempt where
  owner : Nat
  request : WireRequest
  result : Option (Except Fault (Reply WireResponse)) := none

/-- A handler that may have written: the call it belongs to, the call during which
it has run, whether it erases, and the store before and after it. -/
structure Run (store : Type) where
  owner : Nat
  during : Option Nat
  erases : Bool
  before : store
  after : store

structure Event where
  attempt : Nat
  context : ServerContext := {}
deriving DecidableEq, Repr

/-- The handlers that run until an attempt ends, and the failure it ends with if
its response is not awaited or lost. -/
structure Turn where
  events : List Event := []
  failure : Option { status : Status // status.code ≠ .ok } := none

structure Wire (store : Type) where
  trace : List (Run store) := []
  store : store
  calls : Nat := 0
  busy : Bool := false
  sent : List Attempt := []

def Run.Changes {store : Type} [KeyValueStore store] [LawfulKeyValueStore store]
    (run : Run store) : Prop :=
  contents run.after ≠ contents run.before

instance {store : Type} [KeyValueStore store] [LawfulKeyValueStore store]
    (run : Run store) : Decidable run.Changes :=
  inferInstanceAs (Decidable (contents run.after ≠ contents run.before))

namespace Wire

variable {store : Type} [KeyValueStore store]

def current (w : Wire store) : Option Nat :=
  if w.busy then some w.calls else none

def recorded (w : Wire store) (context : ServerContext) (attempt : Attempt)
    (s : store) : List (Run store) :=
  if context.cancelledBefore || !attempt.request.writes then
    []
  else
    [{ owner := attempt.owner, during := w.current,
       erases := attempt.request.erases, before := w.store, after := s }]

def run (w : Wire store) (event : Event) : Wire store :=
  match w.sent[event.attempt]? with
  | some ⟨owner, request, none⟩ =>
      let (result, s) := outcome (serve event.context request) w.store
      { w with
        store := s
        sent := w.sent.set event.attempt ⟨owner, request, some result⟩
        trace := w.trace ++ w.recorded event.context ⟨owner, request, none⟩ s }
  | _ => w

def send (w : Wire store) (request : WireRequest) : Wire store :=
  { w with sent := w.sent ++ [{ owner := w.calls, request := request }] }

def received (w : Wire store) (id : Nat) :
    Option { status : Status // status.code ≠ .ok } ->
      Reply (Option WireResponse)
  | some failure => ⟨failure.1, none⟩
  | none =>
      match (w.sent[id]?).bind Attempt.result with
      | some (.ok reply) => reply.map some
      | _ => ⟨⟨.deadlineExceeded, "Deadline Exceeded"⟩, none⟩

def exchange (turns : Nat -> Turn) (request : WireRequest) (w : Wire store) :
    Reply (Option WireResponse) × Wire store :=
  let id := w.sent.length
  let w' := (turns id).events.foldl run (w.send request)
  (w'.received id (turns id).failure, w')

def attempt {response : Type} (turns : Nat -> Turn)
    (decode : Option WireResponse -> response) (request : WireRequest) :
    Effect (Wire store) Fault (Reply response) := do
  let reply <- modifyGet (exchange turns request)
  pure (reply.map decode)

def decodeGet : Option WireResponse -> V1.GetResponse
  | some (.get response) => response
  | _ => {}

def decodePut : Option WireResponse -> V1.PutResponse
  | some (.put response) => response
  | _ => {}

def decodeDelete : Option WireResponse -> V1.DeleteResponse
  | some (.delete response) => response
  | _ => {}

def stub (turns : Nat -> Turn) : KeyValueStub (Wire store) where
  get request := attempt turns decodeGet (.get request)
  put request := attempt turns decodePut (.put request)
  delete request := attempt turns decodeDelete (.delete request)

/-- What runs while the client pauses runs at the beginning of the next turn. -/
def client (options : GrpcClientOptions) (raftStub : RaftStub (Wire store))
    (turns : Nat -> Turn) : KeyValueClient (Wire store) where
  options := options
  raftStub := raftStub
  sleepFor _ := pure ()
  keyValueStub := stub turns

/-!
# One handler

What a single event can do to the wire.
-/

variable [LawfulKeyValueStore store]

inductive Ran (w : Wire store) : Wire store -> Prop where
  | ignored : Ran w w
  | handled {id : Nat} {attempt : Attempt} {context : ServerContext}
      {r : Except Fault (Reply WireResponse)} {s : store}
      (hattempt : w.sent[id]? = some attempt)
      (hserves : Serves context attempt.request w.store r s) :
      Ran w { w with
        store := s
        sent := w.sent.set id { attempt with result := some r }
        trace := w.trace ++ w.recorded context attempt s }

theorem ran_run (w : Wire store) (event : Event) : Ran w (w.run event) := by
  unfold run
  split
  · rename_i owner request hattempt
    exact .handled hattempt (ensures_serve event.context request w.store)
  · exact .ignored

omit [KeyValueStore store] [LawfulKeyValueStore store] in
theorem eq_of_mem_recorded {w : Wire store} {context : ServerContext}
    {attempt : Attempt} {s : store} {run : Run store}
    (hrun : run ∈ w.recorded context attempt s) :
    run = ⟨attempt.owner, w.current, attempt.request.erases, w.store, s⟩ := by
  unfold recorded at hrun
  split at hrun
  · cases hrun
  · exact List.mem_singleton.mp hrun

theorem contents_of_unchanged {w : Wire store} {context : ServerContext}
    {attempt : Attempt} {r : Except Fault (Reply WireResponse)} {s : store}
    (hserves : Serves context attempt.request w.store r s)
    (hunchanged : forall run, run ∈ w.recorded context attempt s -> ¬ run.Changes) :
    contents s = contents w.store := by
  unfold recorded at hunchanged
  split at hunchanged
  · rename_i hidle
    apply serve_unchanged _ hserves
    simpa using hidle
  · exact not_not.mp (hunchanged _ (List.mem_singleton_self _))

theorem owner_of_ran {w w' : Wire store} (hran : Ran w w') (id : Nat) :
    (w'.sent[id]?).map Attempt.owner = (w.sent[id]?).map Attempt.owner := by
  cases hran with
  | ignored => rfl
  | @handled other attempt context r s hattempt hserves =>
      show ((w.sent.set other _)[id]?).map Attempt.owner = _
      by_cases hid : other = id
      · rw [← hid, List.getElem?_set_self', hattempt]
        rfl
      · rw [List.getElem?_set_ne hid]

end Wire

end Rpc
end FTKV
