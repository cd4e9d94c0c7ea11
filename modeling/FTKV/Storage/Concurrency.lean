import FTKV.Foundation.Locking
import FTKV.Storage.KvStore

/-!
# Concurrent calls of a store

The threads of the server call one `KvStore` at the same time.  `put` and `erase`
hold its mutex alone, and `get` shares it with other readers.  The body of a call
is cut where it reaches the shared entries or the disk: it copies the entries,
saves the changed copy, and swaps it in.  An exception of the save leaves the body
and gives the lock back.
-/

namespace FTKV
namespace Storage

open Foundation
open Foundation.Effect

inductive Access where
  | put (key value : Bytes)
  | get (key : Bytes)
  | erase (key : Bytes)
deriving DecidableEq, Repr

def Access.request : Access -> Request
  | .put key value => .put key value
  | .get key => .get key
  | .erase key => .erase key

def Access.exclusive : Access -> Bool
  | .put _ _ => true
  | .get _ => false
  | .erase _ => true

/-- The call acts on the entries as a store in memory does, or throws. -/
def Access.Answers (access : Access) (memory : InMemoryKeyValueStore)
    (r : Except Fault Reply) (memory' : InMemoryKeyValueStore) : Prop :=
  AnsweredAs memory access.request memory' r

/-- How far the body of a call has come, with its changed copy of the entries. -/
inductive Frame where
  | locked
  | saving (updated : EntryMap) (reply : Reply)
  | swapping (updated : EntryMap) (reply : Reply)

def Access.first (entries : EntryMap) : Access -> Frame ⊕ Except Fault Reply
  | .put key value => .inl (.saving (entries.insert key value) .done)
  | .get key => .inr (.ok (.found (entries.lookup key)))
  | .erase key =>
      if key ∈ entries then
        .inl (.saving (entries.erase key) (.erased true))
      else
        .inr (.ok (.erased false))

namespace KvStore

variable {persistence disk : Type} [Persistence persistence disk]

def change (access : Access) : Frame -> OpenStore persistence disk ->
    (Frame ⊕ Except Fault Reply) × OpenStore persistence disk
  | .locked, s => (access.first s.store.entries, s)
  | .saving updated reply, s =>
      match outcome (Persistence.save s.store.persistence updated) s.disk with
      | (.ok _, d) => (.inl (.swapping updated reply), { s with disk := d })
      | (.error fault, d) => (.inr (.error fault), { s with disk := d })
  | .swapping updated reply, s =>
      (.inr (.ok reply), { s with store := { s.store with entries := updated } })

def work (access : Access) (frame : Frame) (s : OpenStore persistence disk) :
    (Frame ⊕ Except Fault Reply) × OpenStore persistence disk :=
  if access.exclusive then change access frame s else (access.first s.store.entries, s)

def calls : Guarded (OpenStore persistence disk) Access Frame (Except Fault Reply) where
  exclusive := Access.exclusive
  enter _ := .locked
  work := work
  reads access frame s hshared := by
    unfold work
    rw [hshared]
    rfl

/-!
# A call without interruption
-/

variable {access : Access} {s s' : OpenStore persistence disk} {updated : EntryMap}
  {reply : Reply} {r : Except Fault Reply} {entries : EntryMap}

theorem perform_of_first (h : access.first entries = .inl (.saving updated reply)) :
    InMemoryKeyValueStore.perform { entries := entries } access.request =
      (reply, { entries := updated }) := by
  cases access with
  | get key => cases h
  | put key value =>
      cases h
      rfl
  | erase key =>
      unfold Access.first at h
      by_cases hkey : key ∈ entries
      · simp only [if_pos hkey] at h
        cases h
        exact InMemoryKeyValueStore.perform_erase_of_mem hkey
      · simp only [if_neg hkey] at h
        cases h

theorem exclusive_of_first {frame : Frame}
    (h : access.first entries = .inl frame) :
    access.exclusive = true ∧ exists updated reply, frame = .saving updated reply := by
  cases access with
  | get key => cases h
  | put key value =>
      cases h
      exact ⟨rfl, _, _, rfl⟩
  | erase key =>
      unfold Access.first at h
      by_cases hkey : key ∈ entries
      · simp only [if_pos hkey] at h
        cases h
        exact ⟨rfl, _, _, rfl⟩
      · simp only [if_neg hkey] at h
        cases h

theorem outcome_of_answer (h : access.first s.store.entries = .inr r) :
    outcome (OpenStore.perform access.request) s = (r, s) := by
  cases access with
  | put key value => cases h
  | get key =>
      cases h
      rfl
  | erase key =>
      unfold Access.first at h
      by_cases hkey : key ∈ s.store.entries
      · simp only [if_pos hkey] at h
        cases h
      · simp only [if_neg hkey] at h
        cases h
        have herase : outcome (KvStore.erase key) s = (.ok false, s) := by
          unfold KvStore.erase
          rw [outcome_bind]
          show outcome (if key ∈ s.store.entries then _ else _) s = _
          rw [if_neg hkey]
          rfl
        show outcome (KvStore.erase key >>= fun present => pure (Reply.erased present)) s = _
        rw [outcome_bind_pure, herase]
        rfl

theorem outcome_publish (updated : EntryMap) (s : OpenStore persistence disk) :
    outcome (publish updated) s =
      match outcome (Persistence.save s.store.persistence updated) s.disk with
      | (.ok _, d) => (.ok (), ⟨{ s.store with entries := updated }, d⟩)
      | (.error fault, d) => (.error fault, { s with disk := d }) := by
  suffices h : Ensures (publish updated) s (fun r s' => (r, s') =
      match outcome (Persistence.save s.store.persistence updated) s.disk with
      | (.ok _, d) => (.ok (), ⟨{ s.store with entries := updated }, d⟩)
      | (.error fault, d) => (.error fault, { s with disk := d })) from h
  unfold publish onDisk
  rw [ensures_bind, ensures_get, continues_ok, ensures_bind, ensures_within]
  unfold Ensures
  rcases outcome (Persistence.save s.store.persistence updated) s.disk with ⟨r, d⟩
  cases r <;> rfl

theorem outcome_of_saving (h : access.first s.store.entries = .inl (.saving updated reply)) :
    outcome (OpenStore.perform access.request) s =
      ((outcome (publish updated) s).1.map fun _ => reply,
        (outcome (publish updated) s).2) := by
  cases access with
  | get key => cases h
  | put key value =>
      cases h
      show outcome (KvStore.put key value >>= fun _ => pure Reply.done) s = _
      rw [outcome_bind_pure]
      have hput : outcome (KvStore.put key value) s =
          outcome (publish (s.store.entries.insert key value)) s := by
        unfold KvStore.put
        rw [outcome_bind]
        rfl
      rw [hput]
  | erase key =>
      unfold Access.first at h
      by_cases hkey : key ∈ s.store.entries
      · simp only [if_pos hkey] at h
        cases h
        have herase : outcome (KvStore.erase key) s =
            outcome (publish (s.store.entries.erase key) >>= fun _ => pure true) s := by
          unfold KvStore.erase
          rw [outcome_bind]
          show outcome (if key ∈ s.store.entries then _ else _) s = _
          rw [if_pos hkey]
        show outcome (KvStore.erase key >>= fun present => pure (Reply.erased present)) s = _
        rw [outcome_bind_pure, herase, outcome_bind_pure]
        rcases outcome (publish (s.store.entries.erase key)) s with ⟨r, s'⟩
        cases r <;> rfl
      · simp only [if_neg hkey] at h
        cases h

/-- Where the body of a call may be, and what it has done until then. -/
inductive Stands (access : Access) (s : OpenStore persistence disk) :
    Frame -> OpenStore persistence disk -> Prop where
  | locked : Stands access s .locked s
  | saving {updated : EntryMap} {reply : Reply} (hexclusive : access.exclusive = true)
      (hfirst : access.first s.store.entries = .inl (.saving updated reply)) :
      Stands access s (.saving updated reply) s
  | swapping {updated : EntryMap} {reply : Reply} {d : disk}
      (hexclusive : access.exclusive = true)
      (hfirst : access.first s.store.entries = .inl (.saving updated reply))
      (hsave : outcome (Persistence.save s.store.persistence updated) s.disk =
        (.ok (), d)) :
      Stands access s (.swapping updated reply) { s with disk := d }

theorem work_locked (access : Access) (s : OpenStore persistence disk) :
    work access .locked s = (access.first s.store.entries, s) := by
  unfold work
  split <;> rfl

theorem work_of_exclusive (hexclusive : access.exclusive = true) (frame : Frame)
    (s : OpenStore persistence disk) : work access frame s = change access frame s :=
  if_pos hexclusive

theorem work_saving (hexclusive : access.exclusive = true) (updated : EntryMap)
    (reply : Reply) (s : OpenStore persistence disk) :
    work access (.saving updated reply) s =
      match outcome (Persistence.save s.store.persistence updated) s.disk with
      | (.ok _, d) => (.inl (.swapping updated reply), { s with disk := d })
      | (.error fault, d) => (.inr (.error fault), { s with disk := d }) :=
  if_pos hexclusive

theorem stands_of_inside {frame : Frame} (h : calls.Inside access s frame s') :
    Stands access s frame s' := by
  induction h with
  | enter => exact .locked
  | @work f f' t t' _ hwork ih =>
      change work access f t = (.inl f', t') at hwork
      cases ih with
      | locked =>
          rw [work_locked] at hwork
          rcases Prod.mk.inj hwork with ⟨hfirst, hsame⟩
          rcases exclusive_of_first hfirst with ⟨hexclusive, updated, reply, hframe⟩
          rw [hframe] at hfirst ⊢
          rw [← hsame]
          exact .saving hexclusive hfirst
      | @saving updated reply hexclusive hfirst =>
          rw [work_saving hexclusive] at hwork
          cases hsave : outcome (Persistence.save s.store.persistence updated) s.disk with
          | mk r d =>
              rw [hsave] at hwork
              cases r with
              | ok _ =>
                  cases hwork
                  exact .swapping hexclusive hfirst hsave
              | error fault => cases hwork
      | swapping hexclusive _ _ =>
          rw [work_of_exclusive hexclusive] at hwork
          cases hwork

theorem outcome_of_alone (h : calls.Alone access s r s') :
    outcome (OpenStore.perform access.request) s = (r, s') := by
  rcases h with ⟨frame, t, hinside, hwork⟩
  change work access frame t = (.inr r, s') at hwork
  cases stands_of_inside hinside with
  | locked =>
      rw [work_locked] at hwork
      rcases Prod.mk.inj hwork with ⟨hfirst, hsame⟩
      rw [← hsame]
      exact outcome_of_answer hfirst
  | @saving updated reply hexclusive hfirst =>
      rw [work_saving hexclusive] at hwork
      rw [outcome_of_saving hfirst, outcome_publish]
      cases hsave : outcome (Persistence.save s.store.persistence updated) s.disk with
      | mk r d =>
          rw [hsave] at hwork
          cases r with
          | ok _ => cases hwork
          | error fault =>
              cases hwork
              rfl
  | @swapping updated reply d hexclusive hfirst hsave =>
      rw [work_of_exclusive hexclusive] at hwork
      cases hwork
      rw [outcome_of_saving hfirst, outcome_publish, hsave]
      rfl

theorem finishes (access : Access) (frame : Frame) (s : OpenStore persistence disk) :
    calls.Finishes access frame s := by
  cases hexclusive : access.exclusive with
  | false =>
      cases access with
      | put key value => cases hexclusive
      | get key => exact .done rfl
      | erase key => cases hexclusive
  | true =>
      have hswapping : forall updated reply (t : OpenStore persistence disk),
          calls.Finishes access (.swapping updated reply) t := by
        intro updated reply t
        exact .done (work_of_exclusive hexclusive _ t)
      have hsaving : forall updated reply (t : OpenStore persistence disk),
          calls.Finishes access (.saving updated reply) t := by
        intro updated reply t
        have hwork := work_saving hexclusive updated reply t
        cases hsave : outcome (Persistence.save t.store.persistence updated) t.disk with
        | mk r d =>
            rw [hsave] at hwork
            cases r with
            | ok _ => exact .more hwork (hswapping updated reply _)
            | error fault => exact .done hwork
      cases frame with
      | locked =>
          have hwork := work_locked access s
          cases hfirst : access.first s.store.entries with
          | inr r =>
              rw [hfirst] at hwork
              exact .done hwork
          | inl next =>
              rcases exclusive_of_first hfirst with ⟨_, updated, reply, hnext⟩
              rw [hfirst, hnext] at hwork
              exact .more hwork (hsaving updated reply s)
      | saving updated reply => exact hsaving updated reply s
      | swapping updated reply => exact hswapping updated reply s

/-!
# What the threads see
-/

section Linearization

variable [LawfulPersistence persistence disk] {call : Type} [DecidableEq call]
  {start : OpenStore persistence disk}
  {history : List (Action call Access (Except Fault Reply))}
  {scene : Scene call (OpenStore persistence disk) Access Frame (Except Fault Reply)}

def Keeps (file : persistence) (s : OpenStore persistence disk) : Prop :=
  s.Coherent ∧ s.store.persistence = file

theorem answers_of_alone {file : persistence} (hs : Keeps file s)
    (h : calls.Alone access s r s') :
    Keeps file s' ∧ access.Answers s.memory r s'.memory := by
  have hserved := OpenStore.served access.request hs.left
  rw [outcome_of_alone h] at hserved
  refine ⟨⟨hserved.coherent, hserved.persistence.trans hs.right⟩, ?_⟩
  cases r with
  | ok reply => exact hserved.returns reply rfl
  | error fault =>
      show OpenStore.memory s' = OpenStore.memory s
      unfold OpenStore.memory
      rw [hserved.throws fault rfl]

/-- A store over the disk has the entries of some linearization of the calls. -/
theorem exists_linearization (hstart : start.Coherent)
    (hrun : calls.Run start history scene) :
    exists order memory, Linearizes Access.Answers start.memory history order memory ∧
      (outcome (Persistence.load start.store.persistence) scene.object.disk).1 =
        .ok memory.entries ∧
      (scene.lock.writer = none -> scene.object.memory = memory) := by
  have hlocked := Guarded.locked_of_run hrun
  rcases Guarded.exists_tracks hrun with ⟨order, base, htracks⟩
  have hbase : Keeps start.store.persistence base ∧
      Linearizes Access.Answers start.memory history order base.memory :=
    htracks.linearizes.map (fun _ _ _ _ => answers_of_alone) ⟨hstart, rfl⟩
  rcases hbase with ⟨⟨hcoherent, hfile⟩, hlinearizes⟩
  unfold OpenStore.Coherent at hcoherent
  rw [hfile] at hcoherent
  by_cases hsame : scene.object = base
  · refine ⟨order, base.memory, hlinearizes, ?_, ?_⟩
    · rw [hsame]
      exact hcoherent
    · intro _
      rw [hsame]
  -- A writer is inside, and it has saved its copy.
  have hwriter : ¬ forall c o f, scene.phase c = .inside o f ->
      calls.exclusive o = false := fun hreading => hsame (htracks.still hreading)
  simp only [not_forall] at hwriter
  rcases hwriter with ⟨c, access, frame, hphase, hexclusive⟩
  have hcall := htracks.calls c
  rw [hphase] at hcall
  cases hcall with
  | inside hinvoked hfresh hsilent hinside =>
      generalize hobject : scene.object = object at hinside hsame
      cases stands_of_inside hinside with
      | locked => exact absurd rfl hsame
      | saving _ _ => exact absurd rfl hsame
      | @swapping updated reply d hwriting hfirst hsave =>
          have hanswers : access.Answers base.memory (.ok reply) { entries := updated } :=
            perform_of_first hfirst
          refine ⟨_, _, hlinearizes.snoc ⟨c, access, .ok reply⟩ hfresh hinvoked hsilent
            hanswers, ?_, ?_⟩
          · rw [hfile] at hsave
            exact LawfulPersistence.load_of_save_ok _ _ _ _ hsave
          · intro hnone
            have hheld : (scene.phase c).holding = some access := by
              rw [hphase]
              rfl
            have hsome := (hlocked.writer c).mpr ⟨access, hheld, hwriting⟩
            rw [hnone] at hsome
            cases hsome

end Linearization

/-!
# The store over files
-/

section Files

variable {disk : Type} [FileSystem disk] [IterationOrder disk] {call : Type}
  [DecidableEq call]

/--
However the threads interleave and whichever saves throw, the calls of a store
over files take effect one after the other, in an order that calls which do not
overlap keep.  At every moment the file has the entries of such an order, so that
a process that is killed then and started again shows every answered call.
-/
theorem store_calls_linearizable [LawfulFileSystem disk] [ReliableReads disk]
    {file : FilePersistence} {d d' : disk} {store : KvStore FilePersistence}
    (hcreate : outcome (create (some file)) d = (.ok store, d'))
    {history : List (Action call Access (Except Fault Reply))}
    {scene : Scene call (OpenStore FilePersistence disk) Access Frame
      (Except Fault Reply)}
    (hrun : calls.Run ⟨store, d'⟩ history scene) :
    exists order memory,
      Linearizes Access.Answers { entries := store.entries } history order memory ∧
      (outcome (create (some file)) scene.object.disk).1 =
        .ok { persistence := file, entries := memory.entries } ∧
      (scene.lock.writer = none -> scene.object.memory = memory) := by
  rcases OpenStore.coherent_of_create hcreate with ⟨hstart, hfile⟩
  rcases exists_linearization hstart hrun with ⟨order, memory, hlinearizes, hload, hfree⟩
  refine ⟨order, memory, hlinearizes, ?_, hfree⟩
  rw [OpenStore.outcome_create]
  change store.persistence = file at hfile
  change (outcome (Persistence.load store.persistence) _).1 = _ at hload
  rw [hfile] at hload
  rw [hload]
  rfl

def failingStore : OpenStore FilePersistence MemoryDisk :=
  { OpenStore.failingStart with disk := { script := [false] } }

def failingHistory : List (Action Nat Access (Except Fault Reply)) :=
  [.invoke 1 (.put [1] [2]), .invoke 2 (.get [1]), .acquire 1, .work 1, .work 1,
    .release 1, .acquire 2, .work 2, .release 2, .respond 2 (.ok (.found none)),
    .respond 1 (.error (.storageError
      "failed to open temporary storage file: kv.snapshot.tmp"))]

theorem store_calls_linearizable_failing :
    exists order memory,
      Linearizes Access.Answers {} failingHistory order memory := by
  have hcreate : outcome (create (some failingStore.store.persistence))
      failingStore.disk = (.ok failingStore.store, failingStore.disk) := rfl
  have hrun : calls.Run failingStore
      ([] : List (Action Nat Access (Except Fault Reply))) { object := failingStore } :=
    .start
  have h1 := hrun.step (.invoke (c := 1) (o := .put [1] [2]) rfl)
  have h2 := h1.step (.invoke (c := 2) (o := .get [1]) rfl)
  have h3 := h2.step (.acquire (c := 1) rfl ⟨rfl, fun _ => rfl⟩)
  have h4 := h3.step (.work (c := 1) rfl (.more rfl))
  have h5 := h4.step (.work (c := 1) rfl (.done rfl))
  have h6 := h5.step (.release (c := 1) rfl)
  have h7 := h6.step (.acquire (c := 2) rfl ⟨rfl, fun _ => rfl⟩)
  have h8 := h7.step (.work (c := 2) rfl (.done rfl))
  have h9 := h8.step (.release (c := 2) rfl)
  have h10 := h9.step (.respond (c := 2) rfl)
  have h11 := h10.step (.respond (c := 1) rfl)
  rcases store_calls_linearizable hcreate h11 with ⟨order, memory, h, _⟩
  exact ⟨order, memory, h⟩

/-- Whatever has happened, a call can return, and needs no other call for it. -/
theorem store_calls_return {start : OpenStore FilePersistence disk}
    {history : List (Action call Access (Except Fault Reply))}
    {scene : Scene call (OpenStore FilePersistence disk) Access Frame
      (Except Fault Reply)}
    (hrun : calls.Run start history scene) {c : call} {access : Access}
    (hinvoked : .invoke c access ∈ history) :
    exists actions scene' r, calls.Run start (history ++ actions) scene' ∧
      (forall c' access', .invoke c' access' ∉ actions) ∧
      .respond c r ∈ history ++ actions :=
  Guarded.exists_answer finishes hrun hinvoked

/-- The writer whose save is about to throw. -/
theorem store_calls_return_failing :
    exists actions scene r, calls.Run failingStore
        ([.invoke 1 (.put [1] [2]), .acquire 1, .work 1] ++ actions :
          List (Action Nat Access (Except Fault Reply))) scene ∧
      .respond 1 r ∈ actions := by
  have hrun : calls.Run failingStore
      ([] : List (Action Nat Access (Except Fault Reply))) { object := failingStore } :=
    .start
  have h1 := hrun.step (.invoke (c := 1) (o := .put [1] [2]) rfl)
  have h2 := h1.step (.acquire (c := 1) rfl ⟨rfl, fun _ => rfl⟩)
  have h3 := h2.step (.work (c := 1) rfl (.more rfl))
  rcases store_calls_return h3 List.mem_cons_self with
    ⟨actions, scene, r, hcontinued, _, hrespond⟩
  refine ⟨actions, scene, r, hcontinued, ?_⟩
  rcases List.mem_append.mp hrespond with hrespond | hrespond
  · simp at hrespond
  · exact hrespond

end Files

end KvStore

end Storage
end FTKV
