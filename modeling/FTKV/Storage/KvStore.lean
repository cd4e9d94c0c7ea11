import FTKV.Storage.SavedSnapshots

/-!
# The durable key-value store

`KvStore` of `kv_store.cpp` over an arbitrary `Persistence`, and the plain
`InMemoryKeyValueStore` it is compared with.  A store keeps its entries in
memory and writes the whole map before it makes a change visible.

## Failures

A save may fail.  What the store relies on is stated by `LawfulPersistence`: a
save that returns is what the next load reads, and a save that throws leaves in
place what the last load would have read.
-/

namespace FTKV
namespace Storage

open Foundation
open Foundation.Effect

class Persistence (persistence disk : Type) where
  load : persistence -> Effect disk Fault EntryMap
  save : persistence -> EntryMap -> Effect disk Fault Unit

class LawfulPersistence (persistence disk : Type) [Persistence persistence disk] :
    Prop where
  load_of_load : forall (p : persistence) (d : disk),
    (outcome (Persistence.load p) (outcome (Persistence.load p) d).2).1 =
      (outcome (Persistence.load p : Effect disk Fault EntryMap) d).1
  load_of_save_ok : forall (p : persistence) (entries : EntryMap) (d d' : disk),
    outcome (Persistence.save p entries) d = (.ok (), d') ->
      (outcome (Persistence.load p) d').1 = .ok entries
  load_of_save_error : forall (p : persistence) (entries : EntryMap)
    (fault : Fault) (d d' : disk),
    outcome (Persistence.save p entries) d = (.error fault, d') ->
      (outcome (Persistence.load p) d').1 =
        (outcome (Persistence.load p : Effect disk Fault EntryMap) d).1

section Files

variable {disk : Type} [FileSystem disk] [IterationOrder disk]

instance : Persistence FilePersistence disk where
  load file := file.load
  save file entries := file.save entries

instance [LawfulFileSystem disk] [ReliableReads disk] :
    LawfulPersistence FilePersistence disk where
  load_of_load file d := by
    show (outcome file.load (outcome file.load d).2).1 = (outcome file.load d).1
    rw [FilePersistence.load_eq, FilePersistence.load_eq,
      FilePersistence.contents_load]
  load_of_save_ok file entries d d' hsave := by
    show (outcome file.load d').1 = .ok entries
    rcases file.snapshotFormat_of_save hsave with ⟨moment, hcontents, hformat⟩
    rw [FilePersistence.load_eq, hcontents]
    exact file.loaded_of_snapshotFormat hformat
  load_of_save_error file entries fault d d' hsave := by
    show (outcome file.load d').1 = (outcome file.load d).1
    have hspec := FilePersistence.ensures_save entries
      (rfl : FileSystem.contents d file.filePath = _)
    unfold Ensures at hspec
    change outcome (file.save entries) d = _ at hsave
    rw [hsave] at hspec
    rw [FilePersistence.load_eq, FilePersistence.load_eq, hspec.right]

end Files

/-!
# The store
-/

structure KvStore (persistence : Type) where
  persistence : persistence
  entries : EntryMap

structure OpenStore (persistence disk : Type) where
  store : KvStore persistence
  disk : disk

namespace KvStore

variable {persistence disk : Type} [Persistence persistence disk]

def create : Option persistence -> Effect disk Fault (KvStore persistence)
  | none => throw (.invalidArgument "persistence must not be null")
  | some persistence => do
      let entries <- Persistence.load persistence
      pure { persistence := persistence, entries := entries }

abbrev StoreM (persistence disk result : Type) :=
  Effect (OpenStore persistence disk) Fault result

def onDisk {result : Type} (x : Effect disk Fault result) :
    StoreM persistence disk result :=
  within OpenStore.disk (fun d s => { s with disk := d }) x

/-- Save a changed copy of the entries and then swap it in. -/
def publish (updated : EntryMap) : StoreM persistence disk Unit := do
  let s <- get
  onDisk (Persistence.save s.store.persistence updated)
  modify fun s => { s with store := { s.store with entries := updated } }

def put (key value : Bytes) : StoreM persistence disk Unit := do
  let s <- get
  publish (s.store.entries.insert key value)

def erase (key : Bytes) : StoreM persistence disk Bool := do
  let s <- get
  if key ∈ s.store.entries then do
    publish (s.store.entries.erase key)
    pure true
  else
    pure false

def reopen : StoreM persistence disk Unit := do
  let s <- get
  let store <- onDisk (create (some s.store.persistence))
  modify fun s => { s with store := store }

theorem ensures_publish_store (updated : EntryMap)
    (s : OpenStore persistence disk) :
    Ensures (publish updated) s (fun r s' =>
      match r with
      | .ok _ => s'.store.entries = updated
      | .error _ => s'.store = s.store) := by
  unfold publish onDisk
  rw [ensures_bind, ensures_get, continues_ok, ensures_bind, ensures_within]
  unfold Ensures
  rcases outcome (Persistence.save s.store.persistence updated) s.disk with ⟨r, d⟩
  cases r <;> rfl

protected def get (key : Bytes) : StoreM persistence disk (Option Bytes) := do
  let s <- MonadState.get
  pure (s.store.entries.lookup key)

end KvStore

structure InMemoryKeyValueStore where
  entries : EntryMap := ∅
deriving DecidableEq

namespace InMemoryKeyValueStore

def put (key value : Bytes) (store : InMemoryKeyValueStore) :
    InMemoryKeyValueStore :=
  { entries := store.entries.insert key value }

def get (key : Bytes) (store : InMemoryKeyValueStore) : Option Bytes :=
  store.entries.lookup key

def erase (key : Bytes) (store : InMemoryKeyValueStore) :
    Bool × InMemoryKeyValueStore :=
  (decide (key ∈ store.entries), { entries := store.entries.erase key })

end InMemoryKeyValueStore

/-!
# Sequences of requests
-/

inductive Request where
  | put (key value : Bytes)
  | get (key : Bytes)
  | erase (key : Bytes)
  | reopen
deriving DecidableEq, Repr

inductive Reply where
  | done
  | found (value : Option Bytes)
  | erased (present : Bool)
deriving DecidableEq, Repr

namespace InMemoryKeyValueStore

def perform (store : InMemoryKeyValueStore) :
    Request -> Reply × InMemoryKeyValueStore
  | .put key value => (.done, store.put key value)
  | .get key => (.found (store.get key), store)
  | .erase key => (.erased (store.erase key).1, (store.erase key).2)
  | .reopen => (.done, store)

def replies (store : InMemoryKeyValueStore) : List Request -> List Reply
  | [] => []
  | request :: rest =>
      (store.perform request).1 :: replies (store.perform request).2 rest

def after (store : InMemoryKeyValueStore) : List Request -> InMemoryKeyValueStore
  | [] => store
  | request :: rest => after (store.perform request).2 rest

theorem erase_of_notMem {entries : EntryMap} {key : Bytes}
    (hkey : key ∉ entries) : entries.erase key = entries := by
  apply Finmap.ext_lookup
  intro other
  by_cases hother : other = key
  · rw [hother, Finmap.lookup_erase, Finmap.lookup_eq_none.mpr hkey]
  · exact Finmap.lookup_erase_ne hother

theorem perform_erase_of_mem {store : InMemoryKeyValueStore} {key : Bytes}
    (hkey : key ∈ store.entries) : store.perform (.erase key) =
      (.erased true, { entries := store.entries.erase key }) := by
  show (Reply.erased (decide (key ∈ store.entries)), _) = _
  rw [decide_eq_true hkey]
  rfl

theorem perform_erase_of_notMem {store : InMemoryKeyValueStore} {key : Bytes}
    (hkey : key ∉ store.entries) :
    store.perform (.erase key) = (.erased false, store) := by
  show (Reply.erased (decide (key ∈ store.entries)),
    InMemoryKeyValueStore.mk (store.entries.erase key)) = _
  rw [decide_eq_false hkey, erase_of_notMem hkey]

theorem perform_again (store : InMemoryKeyValueStore) (request : Request) :
    ((store.perform request).2.perform request).2 = (store.perform request).2 := by
  cases request with
  | put key value =>
      show InMemoryKeyValueStore.mk ((store.entries.insert key value).insert key value) =
        { entries := store.entries.insert key value }
      rw [Finmap.insert_insert]
  | get key => rfl
  | erase key =>
      show InMemoryKeyValueStore.mk ((store.entries.erase key).erase key) =
        { entries := store.entries.erase key }
      rw [erase_of_notMem Finmap.notMem_erase_self]
  | reopen => rfl

end InMemoryKeyValueStore

/-!
# The interface
-/

class KeyValueStore (store : Type) where
  put : Bytes -> Bytes -> Effect store Fault Unit
  get : Bytes -> Effect store Fault (Option Bytes)
  erase : Bytes -> Effect store Fault Bool

/-- A request is answered as in memory, or it throws and changes no entry. -/
def AnsweredAs (memory : InMemoryKeyValueStore) (request : Request)
    (memory' : InMemoryKeyValueStore) : Except Fault Reply -> Prop
  | .ok reply => memory.perform request = (reply, memory')
  | .error _ => memory' = memory

class LawfulKeyValueStore (store : Type) [KeyValueStore store] where
  contents : store -> InMemoryKeyValueStore
  ensures_put : forall (key value : Bytes) (s : store),
    Ensures (KeyValueStore.put key value) s (fun r s' =>
      AnsweredAs (contents s) (.put key value) (contents s')
        (r.map fun _ => .done))
  ensures_get : forall (key : Bytes) (s : store),
    Ensures (KeyValueStore.get key) s (fun r s' =>
      AnsweredAs (contents s) (.get key) (contents s') (r.map .found))
  ensures_erase : forall (key : Bytes) (s : store),
    Ensures (KeyValueStore.erase key) s (fun r s' =>
      AnsweredAs (contents s) (.erase key) (contents s') (r.map .erased))

instance : KeyValueStore InMemoryKeyValueStore where
  put key value := modify (InMemoryKeyValueStore.put key value)
  get key := do
    let store <- get
    pure (store.get key)
  erase key := modifyGet (InMemoryKeyValueStore.erase key)

instance : LawfulKeyValueStore InMemoryKeyValueStore where
  contents store := store
  ensures_put _ _ _ := rfl
  ensures_get _ _ := rfl
  ensures_erase _ _ := rfl

namespace OpenStore

variable {persistence disk : Type} [Persistence persistence disk]

def perform : Request -> Effect (OpenStore persistence disk) Fault Reply
  | .put key value => do
      KvStore.put key value
      pure .done
  | .get key => do
      let value <- KvStore.get key
      pure (.found value)
  | .erase key => do
      let present <- KvStore.erase key
      pure (.erased present)
  | .reopen => do
      KvStore.reopen
      pure .done

def after (s : OpenStore persistence disk) :
    List Request -> OpenStore persistence disk
  | [] => s
  | request :: rest => after (outcome (perform request) s).2 rest

def completed (s : OpenStore persistence disk) : List Request -> List Request
  | [] => []
  | request :: rest =>
      match outcome (perform request) s with
      | (.ok _, s') => request :: completed s' rest
      | (.error _, s') => completed s' rest

def returned (s : OpenStore persistence disk) : List Request -> List Reply
  | [] => []
  | request :: rest =>
      match outcome (perform request) s with
      | (.ok reply, s') => reply :: returned s' rest
      | (.error _, s') => returned s' rest

/-!
# Refinement

The entries in memory are at all times those that a load would return.  Each
request either throws and changes nothing that can be seen, or answers and
changes the entries as the store in memory does.
-/

def Coherent (s : OpenStore persistence disk) : Prop :=
  (outcome (Persistence.load s.store.persistence) s.disk).1 = .ok s.store.entries

def memory (s : OpenStore persistence disk) : InMemoryKeyValueStore :=
  { entries := s.store.entries }

/-- How a request ends: answered as in memory, or with the entries unchanged. -/
structure Served (s : OpenStore persistence disk) (request : Request)
    (r : Except Fault Reply) (s' : OpenStore persistence disk) : Prop where
  persistence : s'.store.persistence = s.store.persistence
  coherent : s'.Coherent
  returns : forall reply, r = .ok reply ->
    s.memory.perform request = (reply, s'.memory)
  throws : forall fault, r = .error fault -> s'.store.entries = s.store.entries

instance : KeyValueStore (OpenStore persistence disk) where
  put := KvStore.put
  get := KvStore.get
  erase := KvStore.erase

theorem answeredAs_publish {updated : EntryMap} {request : Request}
    {reply : Reply} {s : OpenStore persistence disk}
    (hmemory : s.memory.perform request = (reply, { entries := updated })) :
    Ensures (KvStore.publish updated) s (fun r s' =>
      AnsweredAs s.memory request s'.memory (r.map fun _ => reply)) := by
  apply ensures_mono (KvStore.ensures_publish_store updated s)
  intro r s' hstore
  cases r with
  | ok _ =>
      show s.memory.perform request = (reply, { entries := s'.store.entries })
      rw [hmemory, show s'.store.entries = updated from hstore]
  | error _ =>
      show InMemoryKeyValueStore.mk s'.store.entries = { entries := s.store.entries }
      rw [show s'.store = s.store from hstore]

instance : LawfulKeyValueStore (OpenStore persistence disk) where
  contents s := s.memory
  ensures_put key value s := by
    show Ensures (KvStore.put key value) s _
    unfold KvStore.put
    rw [ensures_bind, ensures_get, continues_ok]
    exact answeredAs_publish rfl
  ensures_get _ _ := rfl
  ensures_erase key s := by
    show Ensures (KvStore.erase key) s _
    unfold KvStore.erase
    rw [ensures_bind, ensures_get, continues_ok]
    by_cases hkey : key ∈ s.store.entries
    · rw [if_pos hkey, ensures_bind]
      apply ensures_mono (answeredAs_publish (InMemoryKeyValueStore.perform_erase_of_mem hkey))
      intro r s' hr
      cases r <;> exact hr
    · rw [if_neg hkey, ensures_pure]
      exact InMemoryKeyValueStore.perform_erase_of_notMem hkey

section Refinement

variable [LawfulPersistence persistence disk] {s : OpenStore persistence disk}

theorem ensures_publish {updated : EntryMap} {request : Request} {reply : Reply}
    (hs : s.Coherent)
    (hmemory : s.memory.perform request = (reply, { entries := updated })) :
    Ensures (KvStore.publish updated) s (fun r s' =>
      Served s request (r.map fun _ => reply) s') := by
  unfold KvStore.publish KvStore.onDisk
  rw [ensures_bind, ensures_get, continues_ok, ensures_bind, ensures_within]
  unfold Ensures
  cases hsave : outcome (Persistence.save s.store.persistence updated) s.disk with
  | mk r d =>
      cases r with
      | ok _ =>
          constructor
          · rfl
          · exact LawfulPersistence.load_of_save_ok _ _ _ _ hsave
          · rintro _ ⟨⟩
            exact hmemory
          · rintro _ ⟨⟩
      | error fault =>
          constructor
          · rfl
          · exact (LawfulPersistence.load_of_save_error _ _ _ _ _ hsave).trans hs
          · rintro _ ⟨⟩
          · intro _ _
            rfl

theorem ensures_put (key value : Bytes) (hs : s.Coherent) :
    Ensures (KvStore.put key value) s (fun r s' =>
      Served s (.put key value) (r.map fun _ => .done) s') := by
  have hmemory : s.memory.perform (.put key value) =
      (.done, { entries := s.store.entries.insert key value }) := rfl
  unfold KvStore.put
  rw [ensures_bind, ensures_get, continues_ok]
  exact ensures_publish hs hmemory

omit [LawfulPersistence persistence disk] in
theorem outcome_create (p : persistence) (d : disk) :
    outcome (KvStore.create (some p)) d =
      ((outcome (Persistence.load p) d).1.map (KvStore.mk p),
        (outcome (Persistence.load p : Effect disk Fault EntryMap) d).2) := by
  unfold KvStore.create
  rw [outcome_bind]
  rcases outcome (Persistence.load p : Effect disk Fault EntryMap) d with ⟨r, d'⟩
  cases r <;> rfl

theorem coherent_of_create {p : persistence} {d d' : disk}
    {store : KvStore persistence}
    (hcreate : outcome (KvStore.create (some p)) d = (.ok store, d')) :
    OpenStore.Coherent ⟨store, d'⟩ ∧ store.persistence = p := by
  have hagain := LawfulPersistence.load_of_load p d
  rw [outcome_create] at hcreate
  rcases Prod.mk.inj hcreate with ⟨hstore, rfl⟩
  cases hload : (outcome (Persistence.load p : Effect disk Fault EntryMap) d).1 with
  | error fault =>
      rw [hload] at hstore
      cases hstore
  | ok entries =>
      rw [hload] at hstore
      cases hstore
      exact ⟨hagain.trans hload, rfl⟩

omit [LawfulPersistence persistence disk] in
theorem create_of_coherent (hs : s.Coherent) :
    exists d', outcome (KvStore.create (some s.store.persistence)) s.disk =
      (.ok s.store, d') := by
  unfold Coherent at hs
  rw [outcome_create, hs]
  exact ⟨_, rfl⟩

theorem ensures_reopen (hs : s.Coherent) :
    Ensures KvStore.reopen s (fun r s' => r = .ok () ∧ s'.store = s.store ∧
      s'.Coherent) := by
  rcases create_of_coherent hs with ⟨d, hcreate⟩
  unfold KvStore.reopen KvStore.onDisk
  rw [ensures_bind, ensures_get, continues_ok, ensures_bind, ensures_within]
  unfold Ensures
  rw [hcreate]
  exact ⟨rfl, rfl, (coherent_of_create hcreate).left⟩

omit [LawfulPersistence persistence disk] in
theorem served_of_read {request : Request} {reply : Reply} (hs : s.Coherent)
    (hmemory : s.memory.perform request = (reply, s.memory)) :
    Served s request (.ok reply) s := by
  constructor
  · rfl
  · exact hs
  · rintro _ ⟨⟩
    exact hmemory
  · rintro _ ⟨⟩

theorem ensures_perform (request : Request) (hs : s.Coherent) :
    Ensures (perform request) s (Served s request) := by
  cases request with
  | put key value =>
      unfold perform
      rw [ensures_bind]
      apply ensures_mono (ensures_put key value hs)
      intro r s' hr
      cases r <;> exact hr
  | get key =>
      have hmemory : s.memory.perform (.get key) =
          (.found (s.store.entries.lookup key), s.memory) := rfl
      exact served_of_read hs hmemory
  | erase key =>
      unfold perform KvStore.erase
      rw [ensures_bind, ensures_bind, ensures_get, continues_ok]
      by_cases hkey : key ∈ s.store.entries
      · rw [if_pos hkey, ensures_bind]
        apply ensures_mono (ensures_publish hs
          (InMemoryKeyValueStore.perform_erase_of_mem hkey))
        intro r s' hr
        cases r <;> exact hr
      · rw [if_neg hkey]
        exact served_of_read hs
          (InMemoryKeyValueStore.perform_erase_of_notMem hkey)
  | reopen =>
      unfold perform
      rw [ensures_bind]
      apply ensures_mono (ensures_reopen hs)
      rintro r s' ⟨rfl, hstore, hcoherent⟩
      show Served s .reopen (.ok .done) s'
      constructor
      · rw [hstore]
      · exact hcoherent
      · rintro _ ⟨⟩
        show (Reply.done, s.memory) = (Reply.done, s'.memory)
        unfold memory
        rw [hstore]
      · rintro _ ⟨⟩

theorem perform_reopen (hs : s.Coherent) :
    exists s', outcome (perform .reopen) s = (.ok .done, s') ∧
      s'.store = s.store := by
  have hreopen := ensures_reopen hs
  unfold Ensures at hreopen
  unfold perform
  rw [outcome_bind]
  cases hr : outcome (KvStore.reopen : KvStore.StoreM persistence disk Unit) s with
  | mk r s' =>
      rw [hr] at hreopen
      rcases hreopen with ⟨rfl, hstore, _⟩
      exact ⟨s', rfl, hstore⟩

theorem served (request : Request) (hs : s.Coherent) :
    Served s request (outcome (perform request) s).1
      (outcome (perform request) s).2 :=
  ensures_perform request hs

theorem coherent_after (requests : List Request) (hs : s.Coherent) :
    (s.after requests).Coherent ∧
      (s.after requests).store.persistence = s.store.persistence := by
  induction requests generalizing s with
  | nil => exact ⟨hs, rfl⟩
  | cons request rest ih =>
      have hserved := served request hs
      rcases ih hserved.coherent with ⟨hcoherent, hpersistence⟩
      exact ⟨hcoherent, hpersistence.trans hserved.persistence⟩

theorem returned_eq (requests : List Request) (hs : s.Coherent) :
    s.returned requests = s.memory.replies (s.completed requests) ∧
      (s.after requests).memory = s.memory.after (s.completed requests) := by
  induction requests generalizing s with
  | nil => exact ⟨rfl, rfl⟩
  | cons request rest ih =>
      have hserved := served request hs
      have hrest := ih hserved.coherent
      unfold returned completed after
      cases hr : outcome (perform request) s with
      | mk r s' =>
          rw [hr] at hserved hrest
          cases r with
          | ok reply =>
              have hmemory := hserved.returns reply rfl
              simp only [InMemoryKeyValueStore.replies,
                InMemoryKeyValueStore.after, hmemory]
              rw [hrest.left]
              exact ⟨rfl, hrest.right⟩
          | error fault =>
              have hmemory : s'.memory = s.memory := by
                unfold memory
                rw [hserved.throws fault rfl]
              rw [← hmemory]
              exact hrest

end Refinement

/-!
# The store over files
-/

section Files

variable {disk : Type} [FileSystem disk] [LawfulFileSystem disk]
  [ReliableReads disk] [IterationOrder disk]

theorem create_of_contents_none {file : FilePersistence} {d : disk}
    (hnone : FileSystem.contents d file.filePath = none) :
    exists d', outcome (KvStore.create (some file)) d =
      (.ok { persistence := file, entries := ∅ }, d') := by
  have hload : (outcome file.load d).1 = .ok ∅ := by
    rw [file.load_eq, hnone]
    rfl
  rw [outcome_create, show (outcome (Persistence.load file) d).1 = _ from hload]
  exact ⟨_, rfl⟩

section Succeeding

variable {good : disk -> Prop} {s : OpenStore FilePersistence disk}

omit [LawfulFileSystem disk] [ReliableReads disk] in
theorem succeeds_publish (hgood : Dependable good) {updated : EntryMap}
    (hstorable : Storable updated) (hdisk : good s.disk) :
    Ensures (KvStore.publish updated) s (fun r _ => r = .ok ()) := by
  have hsave := FilePersistence.succeeds_save hgood s.store.persistence hstorable hdisk
  unfold KvStore.publish KvStore.onDisk
  rw [ensures_bind, ensures_get, continues_ok, ensures_bind, ensures_within]
  apply ensures_mono hsave
  intro r d ⟨hr, _⟩
  cases hr
  rfl

theorem succeeds_perform (hgood : Dependable good) (hs : s.Coherent)
    (hdisk : good s.disk) {request : Request}
    (hstorable : Storable (s.memory.perform request).2.entries) :
    exists reply s', outcome (perform request) s = (.ok reply, s') := by
  suffices hreturns : Ensures (perform request) s
      (fun r _ => exists reply, r = .ok reply) by
    rcases hreturns with ⟨reply, hreply⟩
    exact ⟨reply, _, Prod.ext hreply rfl⟩
  cases request with
  | put key value =>
      unfold perform KvStore.put
      rw [ensures_bind, ensures_bind, ensures_get, continues_ok]
      apply ensures_mono (succeeds_publish hgood hstorable hdisk)
      intro r s' hr
      cases hr
      exact ⟨_, rfl⟩
  | get key => exact ⟨_, rfl⟩
  | erase key =>
      unfold perform KvStore.erase
      rw [ensures_bind, ensures_bind, ensures_get, continues_ok]
      by_cases hkey : key ∈ s.store.entries
      · rw [if_pos hkey, ensures_bind]
        apply ensures_mono (succeeds_publish hgood hstorable hdisk)
        intro r s' hr
        cases hr
        exact ⟨_, rfl⟩
      · rw [if_neg hkey]
        exact ⟨_, rfl⟩
  | reopen =>
      rcases perform_reopen hs with ⟨s', hreopen, _⟩
      unfold Ensures
      rw [hreopen]
      exact ⟨_, rfl⟩

end Succeeding

/--
A store over files that starts without a file returns what a store in memory
returns on the requests that did not throw.  A request that throws changes
neither the entries nor what would be loaded, and reopening always succeeds and
shows the entries there were.  Where the calls succeed, only entries that are too
large or too many make a request throw.
-/
theorem kv_store_refines_map (file : FilePersistence) (d : disk)
    (hnone : FileSystem.contents d file.filePath = none) :
    exists start : OpenStore FilePersistence disk,
      outcome (KvStore.create (some file)) d = (.ok start.store, start.disk) ∧
      forall requests : List Request,
        start.returned requests =
          InMemoryKeyValueStore.replies {} (start.completed requests) ∧
        (start.after requests).memory =
          InMemoryKeyValueStore.after {} (start.completed requests) ∧
        (exists s', outcome (perform .reopen) (start.after requests) =
            (.ok .done, s') ∧
          s'.store.entries = (start.after requests).store.entries) ∧
        (forall request fault s',
          outcome (perform request) (start.after requests) = (.error fault, s') ->
          s'.store.entries = (start.after requests).store.entries ∧
          (outcome file.load s'.disk).1 =
            (outcome file.load (start.after requests).disk).1) ∧
        forall (good : disk -> Prop) (request : Request), Dependable good ->
          good (start.after requests).disk ->
          Storable ((start.after requests).memory.perform request).2.entries ->
          exists reply s', outcome (perform request) (start.after requests) =
            (.ok reply, s') := by
  rcases create_of_contents_none hnone with ⟨d', hcreate⟩
  have hstart := (coherent_of_create hcreate).left
  refine ⟨⟨_, d'⟩, hcreate, ?_⟩
  intro requests
  rcases coherent_after requests hstart with ⟨hs, hfile⟩
  rcases returned_eq requests hstart with ⟨hreturned, hmemory⟩
  refine ⟨hreturned, hmemory, ?_, ?_, ?_⟩
  · rcases perform_reopen hs with ⟨s', hreopen, hstore⟩
    exact ⟨s', hreopen, congrArg KvStore.entries hstore⟩
  · intro request fault s' hthrows
    have hserved := served request hs
    rw [hthrows] at hserved
    have hentries := hserved.throws fault rfl
    have hcoherent := hserved.coherent
    have hpersistence := hserved.persistence.trans hfile
    unfold Coherent at hs hcoherent
    rw [hpersistence, hentries] at hcoherent
    rw [hfile] at hs
    exact ⟨hentries, hcoherent.trans hs.symm⟩
  · intro good request hgood hdisk hstorable
    exact succeeds_perform hgood hs hdisk hstorable

def failingStart : OpenStore FilePersistence MemoryDisk where
  store := { persistence := ⟨"kv.snapshot", by decide⟩, entries := ∅ }
  disk := { script := [true, true, false] }

/-- A put throws and is made again. -/
theorem kv_store_refines_map_memoryDisk :
    exists start : OpenStore FilePersistence MemoryDisk,
      outcome (KvStore.create (some ⟨"kv.snapshot", by decide⟩)) failingStart.disk =
        (.ok start.store, start.disk) ∧
      (exists fault s', outcome (perform (.put [107] [118])) start =
          (.error fault, s') ∧
        s'.store.entries = start.store.entries) ∧
      (exists reply s', outcome (perform (.put [107] [118]))
        (start.after [.put [107] [118]]) = (.ok reply, s')) ∧
      start.returned
          [.put [107] [118], .get [107], .put [107] [118], .reopen, .get [107]] =
        [.found none, .done, .done, .found (some [118])] := by
  rcases kv_store_refines_map ⟨"kv.snapshot", by decide⟩ failingStart.disk rfl with
    ⟨start, hcreate, hrun⟩
  have hstart : start = failingStart := by
    cases start
    cases hcreate
    rfl
  subst hstart
  rcases hrun [] with ⟨_, _, _, hthrows, _⟩
  rcases hrun [.put [107] [118]] with ⟨_, _, _, _, hreturns⟩
  refine ⟨_, hcreate, ?_, ?_, ?_⟩
  · exact ⟨_, _, rfl, (hthrows (.put [107] [118]) _ _ rfl).left⟩
  · have hentries : ((failingStart.after [.put [107] [118]]).memory.perform
        (.put [107] [118])).2.entries = Finmap.singleton [107] [118] := by
      decide +kernel
    apply hreturns _ _ MemoryDisk.dependable (by decide +kernel)
    rw [hentries]
    exact storable_singleton (by constructor <;> decide)
  · rw [(hrun _).left]
    decide +kernel

end Files

end OpenStore

end Storage
end FTKV
