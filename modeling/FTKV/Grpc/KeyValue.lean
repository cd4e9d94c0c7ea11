import FTKV.Grpc.Calls
import FTKV.Storage.KvStore

/-!
# The key-value service

The messages of the service `KeyValueStore`, the handlers of
`GrpcServer::KeyValueService` over any store, and the calls `get`, `put` and
`erase` of the client.  A handler that throws changes no entry, because the store
does not.
-/

namespace FTKV
namespace Rpc

open Foundation
open Foundation.Effect
open Storage (InMemoryKeyValueStore KeyValueStore LawfulKeyValueStore AnsweredAs)
open Storage.LawfulKeyValueStore (contents)

/-!
# Messages
-/

namespace V1

structure GetRequest where
  key : Bytes := []
deriving DecidableEq, Inhabited, Repr

structure GetResponse where
  found : Bool := false
  value : Bytes := []
deriving DecidableEq, Inhabited, Repr

structure PutRequest where
  key : Bytes := []
  value : Bytes := []
deriving DecidableEq, Inhabited, Repr

structure PutResponse where
deriving DecidableEq, Inhabited, Repr

structure DeleteRequest where
  key : Bytes := []
deriving DecidableEq, Inhabited, Repr

structure DeleteResponse where
  deleted : Bool := false
deriving DecidableEq, Inhabited, Repr

end V1

/-!
# The service
-/

def Fault.ofStorage : Storage.Fault -> Fault
  | .invalidArgument message => .invalidArgument message
  | .storageError message => .raft (.storage (.storageError message))

namespace KeyValueService

variable {store : Type} [KeyValueStore store]

/-- What every handler does: run one operation and fill the response from it. -/
def handle {result response : Type} [Inhabited response] (context : ServerContext)
    (operation : Effect store Storage.Fault result) (fill : result -> response) :
    Effect store Fault (Reply response) :=
  runHandler context (do
    let value <- raising Fault.ofStorage operation
    pure (fill value))

def get (context : ServerContext) (request : V1.GetRequest) :
    Effect store Fault (Reply V1.GetResponse) :=
  handle context (KeyValueStore.get request.key) fun value =>
    { found := value.isSome, value := value.getD [] }

def put (context : ServerContext) (request : V1.PutRequest) :
    Effect store Fault (Reply V1.PutResponse) :=
  handle context (KeyValueStore.put request.key request.value) fun _ => {}

def delete (context : ServerContext) (request : V1.DeleteRequest) :
    Effect store Fault (Reply V1.DeleteResponse) :=
  handle context (KeyValueStore.erase request.key) fun deleted =>
    { deleted := deleted }

/-!
# What a handler does

A handler that is cancelled before it starts does nothing.  Any other handler
takes effect on the entries as in memory, or it ends with a status that is not ok
and no entry has changed.
-/

variable {result response : Type} [Inhabited response] {context : ServerContext}

omit [KeyValueStore store] in
theorem outcome_handle_cancelled (hcancelled : context.cancelledBefore = true)
    (operation : Effect store Storage.Fault result) (fill : result -> response)
    (s : store) :
    outcome (handle context operation fill) s =
      (.ok ⟨⟨.cancelled, "request was cancelled"⟩, default⟩, s) := by
  unfold handle runHandler
  rw [if_pos hcancelled]
  rfl

/--
How a handler ends, by the entries before and after it.  A response that belongs
to an answer is related to it by `fills`.
-/
inductive Handles (context : ServerContext)
    (fills : Storage.Reply -> response -> Prop)
    (memory : InMemoryKeyValueStore) (request : Storage.Request) :
    Except Fault (Reply response) -> InMemoryKeyValueStore -> Prop where
  | refused {r : Except Fault (Reply response)}
      (hreply : forall reply, r = .ok reply -> reply.status.code ≠ .ok) :
      Handles context fills memory request r memory
  | performed {reply : Reply response} {answer : Storage.Reply}
      {memory' : InMemoryKeyValueStore}
      (hrunning : context.cancelledBefore = false)
      (hperform : memory.perform request = (answer, memory'))
      (hfills : fills answer reply.response) :
      Handles context fills memory request (.ok reply) memory'

def Operates (context : ServerContext) (fills : Storage.Reply -> response -> Prop)
    (memory : InMemoryKeyValueStore) (request : Storage.Request) :
    Except Fault (Reply response) -> InMemoryKeyValueStore -> Prop
  | .ok reply, memory' => Handles context fills memory request (.ok reply) memory'
  | .error _, memory' => memory' = memory

variable [LawfulKeyValueStore store] {operation : Effect store Storage.Fault result}
  {fill : result -> response} {answer : result -> Storage.Reply}
  {fills : Storage.Reply -> response -> Prop} {request : Storage.Request} {s : store}

omit [Inhabited response] in
theorem ensures_operation (hrunning : context.cancelledBefore = false)
    (hfills : forall value, fills (answer value) (fill value))
    (hoperation : Ensures operation s (fun r s' =>
      AnsweredAs (contents s) request (contents s') (r.map answer))) :
    Ensures (do
      let filled <- (do
        let value <- raising Fault.ofStorage operation
        pure (fill value))
      if context.cancelledAfter then
        pure (⟨⟨.cancelled, "request deadline elapsed"⟩, filled⟩ : Reply response)
      else
        pure ⟨{}, filled⟩) s (fun r s' =>
      Operates context fills (contents s) request r (contents s')) := by
  rw [ensures_bind, ensures_bind, ensures_raising]
  apply ensures_mono hoperation
  intro r s' hanswered
  cases r with
  | error fault => exact hanswered
  | ok value =>
      simp only [Except.mapError, continues_ok, ensures_pure]
      split <;> exact Handles.performed hrunning hanswered (hfills value)

theorem ensures_handle (hfills : forall value, fills (answer value) (fill value))
    (hoperation : Ensures operation s (fun r s' =>
      AnsweredAs (contents s) request (contents s') (r.map answer))) :
    Ensures (handle context operation fill) s (fun r s' =>
      Handles context fills (contents s) request r (contents s')) := by
  cases hcancelled : context.cancelledBefore with
  | true =>
      unfold Ensures
      rw [outcome_handle_cancelled hcancelled]
      apply Handles.refused
      rintro _ ⟨⟩
      intro hok
      cases hok
  | false =>
      unfold handle runHandler
      rw [if_neg (hcancelled ▸ Bool.false_ne_true)]
      apply ensures_tryCatch (ensures_operation hcancelled hfills hoperation)
      · intro reply s' hoperates
        exact hoperates
      · intro fault s' hsame
        change contents s' = contents s at hsame
        rw [← hsame]
        cases hstatus : caughtStatus context.outOfRangeText fault with
        | none =>
            apply Handles.refused
            rintro _ ⟨⟩
        | some status =>
            apply Handles.refused
            rintro _ ⟨⟩
            exact (caughtStatus_final hstatus).left

end KeyValueService

/-!
# The client
-/

structure KeyValueStub (world : Type) where
  get : V1.GetRequest -> Effect world Fault (Reply V1.GetResponse)
  put : V1.PutRequest -> Effect world Fault (Reply V1.PutResponse)
  delete : V1.DeleteRequest -> Effect world Fault (Reply V1.DeleteResponse)

structure KeyValueClient (world : Type) extends GrpcClient world where
  keyValueStub : KeyValueStub world

namespace KeyValueClient

variable {world : Type}

def get (client : KeyValueClient world) (key : Bytes) :
    Effect world Fault (Option Bytes) := do
  let response <- client.call "Get" (client.keyValueStub.get { key := key })
  pure (if response.found then some response.value else none)

def put (client : KeyValueClient world) (key value : Bytes) :
    Effect world Fault Unit := do
  let _ <- client.call "Put"
    (client.keyValueStub.put { key := key, value := value })
  pure ()

def erase (client : KeyValueClient world) (key : Bytes) :
    Effect world Fault Bool := do
  let response <- client.call "Delete" (client.keyValueStub.delete { key := key })
  pure response.deleted

end KeyValueClient

end Rpc
end FTKV
