import Mathlib.Order.Defs.PartialOrder
import Mathlib.Logic.Relation

/-!
# Stateful computations that may stop with a fault

The computations of this module thread a state through and may stop early with
a fault.  The state reached when a fault is raised survives it: a caller that
catches the fault goes on with whatever had been changed by then.

## Reasoning about computations

`Ensures` is the weakest precondition of a computation.  Every rule below
is a rule about one way of building computations, so a proof about a program
follows the program text and never unfolds the monad.
-/

namespace FTKV
namespace Foundation

/-- A computation over a state that returns a result or stops with a fault. -/
abbrev Effect (state fault result : Type) := ExceptT fault (StateM state) result

namespace Effect

variable {state fault alpha beta : Type}

def outcome (x : Effect state fault alpha) (s : state) :
    Except fault alpha × state :=
  StateT.run (ExceptT.run x) s

/-- The run from a state ends in a result and a state that meet the condition. -/
def Ensures (x : Effect state fault alpha) (s : state)
    (post : Except fault alpha -> state -> Prop) : Prop :=
  post (outcome x s).1 (outcome x s).2

/-- Continue with a second computation, or report the fault of the first. -/
def Continues (f : alpha -> Effect state fault beta)
    (post : Except fault beta -> state -> Prop) :
    Except fault alpha -> state -> Prop
  | .ok a, s => Ensures (f a) s post
  | .error e, s => post (.error e) s

/-!
# Rules for the primitive computations
-/

section Primitive

variable {post : Except fault alpha -> state -> Prop} {s : state}

@[simp] theorem ensures_pure (a : alpha) :
    Ensures (pure a : Effect state fault alpha) s post <-> post (.ok a) s :=
  Iff.rfl

@[simp] theorem ensures_throw (e : fault) :
    Ensures (throw e : Effect state fault alpha) s post <-> post (.error e) s :=
  Iff.rfl

@[simp] theorem ensures_get {post : Except fault state -> state -> Prop} :
    Ensures (get : Effect state fault state) s post <-> post (.ok s) s :=
  Iff.rfl

@[simp] theorem ensures_set {post : Except fault PUnit -> state -> Prop}
    (s' : state) :
    Ensures (set s' : Effect state fault PUnit) s post <->
      post (.ok PUnit.unit) s' :=
  Iff.rfl

@[simp] theorem ensures_modify {post : Except fault PUnit -> state -> Prop}
    (f : state -> state) :
    Ensures (modify f : Effect state fault PUnit) s post <->
      post (.ok PUnit.unit) (f s) :=
  Iff.rfl

@[simp] theorem ensures_modifyGet (f : state -> alpha × state) :
    Ensures (modifyGet f : Effect state fault alpha) s post <->
      post (.ok (f s).1) (f s).2 :=
  Iff.rfl

@[simp] theorem ensures_ofExcept (r : Except fault alpha) :
    Ensures (ofExcept r : Effect state fault alpha) s post <-> post r s := by
  cases r <;> exact Iff.rfl

end Primitive

/-!
# Rules for composed computations
-/

section Composed

variable {s : state}

@[simp] theorem continues_ok {f : alpha -> Effect state fault beta}
    {post : Except fault beta -> state -> Prop} (a : alpha) :
    Continues f post (.ok a) s <-> Ensures (f a) s post :=
  Iff.rfl

@[simp] theorem continues_error {f : alpha -> Effect state fault beta}
    {post : Except fault beta -> state -> Prop} (e : fault) :
    Continues f post (.error e) s <-> post (.error e) s :=
  Iff.rfl

theorem outcome_bind (x : Effect state fault alpha)
    (f : alpha -> Effect state fault beta) :
    outcome (x >>= f) s =
      match outcome x s with
      | (.ok a, s') => outcome (f a) s'
      | (.error e, s') => (.error e, s') := by
  rcases hx : outcome x s with ⟨r, s'⟩
  unfold outcome at hx ⊢
  rw [ExceptT.run_bind, StateT.run_bind, hx]
  cases r <;> rfl

theorem outcome_bind_pure (x : Effect state fault alpha) (f : alpha -> beta) :
    outcome (x >>= fun a => pure (f a)) s =
      ((outcome x s).1.map f, (outcome x s).2) := by
  rw [outcome_bind]
  rcases outcome x s with ⟨r, s'⟩
  cases r <;> rfl

@[simp] theorem ensures_bind {x : Effect state fault alpha}
    {f : alpha -> Effect state fault beta}
    {post : Except fault beta -> state -> Prop} :
    Ensures (x >>= f) s post <-> Ensures x s (Continues f post) := by
  unfold Ensures
  rw [outcome_bind]
  rcases outcome x s with ⟨r, s'⟩
  cases r <;> rfl

theorem ensures_mono {x : Effect state fault alpha}
    {post post' : Except fault alpha -> state -> Prop}
    (h : Ensures x s post) (himp : forall r s', post r s' -> post' r s') :
    Ensures x s post' :=
  himp _ _ h

theorem ensures_bind_of {x : Effect state fault alpha}
    {f : alpha -> Effect state fault beta}
    {mid : Except fault alpha -> state -> Prop}
    {post : Except fault beta -> state -> Prop}
    (hx : Ensures x s mid)
    (hok : forall a s', mid (.ok a) s' -> Ensures (f a) s' post)
    (herror : forall e s', mid (.error e) s' -> post (.error e) s') :
    Ensures (x >>= f) s post := by
  rw [ensures_bind]
  refine ensures_mono hx ?_
  intro r s' hmid
  cases r with
  | ok a => exact hok a s' hmid
  | error e => exact herror e s' hmid

/--
A loop over a list keeps a condition on the state that one round keeps.  The
rounds may stop the loop with a fault, which must meet the condition as well.
-/
theorem ensures_forM {xs : List alpha} {f : alpha -> Effect state fault PUnit}
    (inv : state -> Prop) (failed : fault -> state -> Prop) (hs : inv s)
    (hround : forall a, a ∈ xs -> forall s', inv s' ->
      Ensures (f a) s' (fun r s'' =>
        match r with
        | .ok _ => inv s''
        | .error e => failed e s'')) :
    Ensures (xs.forM f) s (fun r s' =>
      match r with
      | .ok _ => inv s'
      | .error e => failed e s') := by
  induction xs generalizing s with
  | nil => exact hs
  | cons a rest ih =>
      change Ensures (f a >>= fun _ => rest.forM f) s _
      refine ensures_bind_of (hround a (List.mem_cons_self ..) s hs) ?_ ?_
      · intro _ s' hs'
        exact ih hs' (fun b hb => hround b (List.mem_cons_of_mem a hb))
      · intro e s' hfailed
        exact hfailed

theorem outcome_tryCatch (x : Effect state fault alpha)
    (handle : fault -> Effect state fault alpha) :
    outcome (tryCatch x handle) s =
      match outcome x s with
      | (.ok a, s') => (.ok a, s')
      | (.error e, s') => outcome (handle e) s' := by
  rcases hx : outcome x s with ⟨r, s'⟩
  unfold outcome at hx ⊢
  rw [ExceptT.run_tryCatch, StateT.run_bind, hx]
  cases r <;> rfl

theorem ensures_tryCatch {x : Effect state fault alpha}
    {handle : fault -> Effect state fault alpha}
    {mid post : Except fault alpha -> state -> Prop} (hx : Ensures x s mid)
    (hok : forall a s', mid (.ok a) s' -> post (.ok a) s')
    (hhandle : forall e s', mid (.error e) s' -> Ensures (handle e) s' post) :
    Ensures (tryCatch x handle) s post := by
  unfold Ensures at hx ⊢
  rw [outcome_tryCatch]
  rcases hr : outcome x s with ⟨r, s'⟩
  rw [hr] at hx
  cases r with
  | ok a => exact hok a s' hx
  | error e => exact hhandle e s' hx

end Composed

/-!
# Computations that leave a view of the state alone
-/

section Views

variable {view : state -> beta}

def Preserves (view : state -> beta) (x : Effect state fault alpha) : Prop :=
  forall s, Ensures x s (fun _ s' => view s' = view s)

theorem preserves_pure (a : alpha) :
    Preserves view (pure a : Effect state fault alpha) :=
  fun _ => rfl

theorem preserves_throw (e : fault) :
    Preserves view (throw e : Effect state fault alpha) :=
  fun _ => rfl

theorem preserves_get : Preserves view (get : Effect state fault state) :=
  fun _ => rfl

theorem preserves_modify {f : state -> state} (hview : forall s, view (f s) = view s) :
    Preserves view (modify f : Effect state fault PUnit) :=
  hview

theorem preserves_modifyGet {f : state -> alpha × state}
    (hview : forall s, view (f s).2 = view s) :
    Preserves view (modifyGet f : Effect state fault alpha) :=
  hview

theorem preserves_bind {gamma : Type} {x : Effect state fault alpha}
    {f : alpha -> Effect state fault gamma} (hx : Preserves view x)
    (hf : forall a, Preserves view (f a)) : Preserves view (x >>= f) := by
  intro s
  refine ensures_bind_of (hx s) ?_ ?_
  · intro a s' hs'
    refine ensures_mono (hf a s') ?_
    intro r s'' hs''
    exact hs''.trans hs'
  · intro e s' hs'
    exact hs'

theorem preserves_ite {condition : Prop} [Decidable condition]
    {x y : Effect state fault alpha} (hx : Preserves view x)
    (hy : Preserves view y) : Preserves view (if condition then x else y) := by
  split
  · exact hx
  · exact hy

theorem preserves_forM {xs : List alpha} {f : alpha -> Effect state fault PUnit}
    (hf : forall a, a ∈ xs -> Preserves view (f a)) :
    Preserves view (xs.forM f) := by
  induction xs with
  | nil => exact preserves_pure _
  | cons a rest ih =>
      change Preserves view (f a >>= fun _ => rest.forM f)
      refine preserves_bind (hf a (List.mem_cons_self ..)) ?_
      intro _
      exact ih fun b hb => hf b (List.mem_cons_of_mem a hb)

end Views

/-!
# Computations on a part of the state
-/

section Parts

variable {part : Type}

def within (project : state -> part) (replace : part -> state -> state)
    (x : Effect part fault alpha) : Effect state fault alpha := do
  let s <- get
  let (r, p) := outcome x (project s)
  set (replace p s)
  ofExcept r

@[simp] theorem ensures_within {project : state -> part}
    {replace : part -> state -> state} {x : Effect part fault alpha} {s : state}
    {post : Except fault alpha -> state -> Prop} :
    Ensures (within project replace x) s post <->
      Ensures x (project s) (fun r p => post r (replace p s)) := by
  unfold within
  rw [ensures_bind, ensures_get, continues_ok]
  unfold Ensures
  rcases outcome x (project s) with ⟨r, p⟩
  cases r <;> rfl

end Parts

/-!
# Computations with other faults
-/

section Faults

variable {fault' : Type}

def raising (convert : fault -> fault') (x : Effect state fault alpha) :
    Effect state fault' alpha :=
  ExceptT.adapt convert x

@[simp] theorem ensures_raising {convert : fault -> fault'}
    {x : Effect state fault alpha} {s : state}
    {post : Except fault' alpha -> state -> Prop} :
    Ensures (raising convert x) s post <->
      Ensures x s (fun r s' => post (r.mapError convert) s') :=
  Iff.rfl

theorem raising_bind (convert : fault -> fault') (x : Effect state fault alpha)
    (f : alpha -> Effect state fault beta) :
    raising convert (x >>= f) = raising convert x >>= fun a => raising convert (f a) := by
  funext s
  show outcome (raising convert (x >>= f)) s = outcome (raising convert x >>= _) s
  have hraising : forall {gamma : Type} (y : Effect state fault gamma) (s : state),
      outcome (raising convert y) s =
        ((outcome y s).1.mapError convert, (outcome y s).2) := fun _ _ => rfl
  rw [outcome_bind, hraising, hraising, outcome_bind]
  rcases outcome x s with ⟨r, s'⟩
  cases r <;> rfl

end Faults

end Effect
end Foundation
end FTKV
