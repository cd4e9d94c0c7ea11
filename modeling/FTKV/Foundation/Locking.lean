import Mathlib.Data.Finset.Card
import Mathlib.Data.List.Nodup
import Mathlib.Logic.Function.Basic

/-!
# Calls under a shared lock

An object is used by many calls at once.  Every call takes the lock of the object,
either alone or together with other readers, then runs the body of its operation
step by step, and gives the lock back.  The steps of different calls interleave.

## Linearizations

A linearization puts the calls in one order in which they could have run one after
the other.  It has all calls that were answered, and it respects the order of calls
that did not overlap.
-/

namespace FTKV
namespace Foundation

/-!
# Sequential runs
-/

structure Entry (call operation result : Type) where
  call : call
  operation : operation
  result : result

inductive Legal {state call operation result : Type}
    (spec : operation -> state -> result -> state -> Prop) (start : state) :
    List (Entry call operation result) -> state -> Prop where
  | nil : Legal spec start [] start
  | snoc {order : List (Entry call operation result)} {s s' : state}
      {entry : Entry call operation result} (horder : Legal spec start order s)
      (hentry : spec entry.operation s entry.result s') :
      Legal spec start (order ++ [entry]) s'

inductive Action (call operation result : Type) where
  | invoke (c : call) (o : operation)
  | acquire (c : call)
  | work (c : call)
  | release (c : call)
  | respond (c : call) (r : result)

def Action.call {call operation result : Type} :
    Action call operation result -> call
  | .invoke c _ => c
  | .acquire c => c
  | .work c => c
  | .release c => c
  | .respond c _ => c

structure Linearizes {state call operation result : Type}
    (spec : operation -> state -> result -> state -> Prop) (start : state)
    (history : List (Action call operation result))
    (order : List (Entry call operation result)) (final : state) : Prop where
  legal : Legal spec start order final
  once : (order.map Entry.call).Nodup
  invoked : forall entry, entry ∈ order ->
    .invoke entry.call entry.operation ∈ history
  answered : forall c r, .respond c r ∈ history -> exists o, ⟨c, o, r⟩ ∈ order
  realTime : order.Pairwise (fun earlier later => forall r o,
    ¬ [.respond later.call r, .invoke earlier.call o].Sublist history)

section Linearizations

variable {state call operation result : Type}
  {spec : operation -> state -> result -> state -> Prop} {start final final' : state}
  {history : List (Action call operation result)}
  {order : List (Entry call operation result)}

theorem pair_sublist_snoc {alpha : Type} {a b c : alpha} {xs : List alpha}
    (h : [a, b].Sublist (xs ++ [c])) :
    [a, b].Sublist xs ∨ (a ∈ xs ∧ b = c) := by
  rcases List.sublist_append_iff.mp h with ⟨front, back, hsplit, hfront, hback⟩
  rcases List.sublist_singleton.mp hback with hnil | hone
  · rw [hnil, List.append_nil] at hsplit
    rw [hsplit]
    exact Or.inl hfront
  · rw [hone] at hsplit
    right
    have hlast := List.append_inj' (show [a] ++ [b] = front ++ [c] from hsplit) rfl
    rw [← hlast.left] at hfront
    exact ⟨List.singleton_sublist.mp hfront, List.singleton_inj.mp hlast.right⟩

theorem Linearizes.snoc (h : Linearizes spec start history order final)
    (entry : Entry call operation result)
    (hfresh : entry.call ∉ order.map Entry.call)
    (hinvoked : .invoke entry.call entry.operation ∈ history)
    (hsilent : forall r, .respond entry.call r ∉ history)
    (hspec : spec entry.operation final entry.result final') :
    Linearizes spec start history (order ++ [entry]) final' := by
  constructor
  · exact .snoc h.legal hspec
  · rw [List.map_append, List.map_singleton]
    exact h.once.append (List.nodup_singleton _)
      (List.disjoint_singleton.mpr hfresh)
  · intro other hother
    rcases List.mem_append.mp hother with hother | hother
    · exact h.invoked other hother
    · rw [List.mem_singleton.mp hother]
      exact hinvoked
  · intro c r hrespond
    rcases h.answered c r hrespond with ⟨o, ho⟩
    exact ⟨o, List.mem_append_left _ ho⟩
  · apply List.pairwise_append.mpr
    refine ⟨h.realTime, List.pairwise_singleton _ _, ?_⟩
    intro earlier _ later hlater r o hsublist
    rw [List.mem_singleton.mp hlater] at hsublist
    exact hsilent r (hsublist.subset List.mem_cons_self)

theorem Linearizes.extend (h : Linearizes spec start history order final)
    {action : Action call operation result}
    (hquiet : forall c r, action = .respond c r -> exists o, ⟨c, o, r⟩ ∈ order)
    (hnew : forall c o, action = .invoke c o -> c ∉ order.map Entry.call) :
    Linearizes spec start (history ++ [action]) order final := by
  constructor
  · exact h.legal
  · exact h.once
  · intro entry hentry
    exact List.mem_append_left _ (h.invoked entry hentry)
  · intro c r hrespond
    rcases List.mem_append.mp hrespond with hrespond | hrespond
    · exact h.answered c r hrespond
    · exact hquiet c r (List.mem_singleton.mp hrespond).symm
  · apply h.realTime.imp_of_mem
    intro earlier later hearlier _ hapart r o hsublist
    rcases pair_sublist_snoc hsublist with hsublist | ⟨_, haction⟩
    · exact hapart r o hsublist
    · exact hnew _ _ haction.symm (List.mem_map_of_mem hearlier)

theorem Legal.map {state' : Type}
    {spec' : operation -> state' -> result -> state' -> Prop} {view : state -> state'}
    {valid : state -> Prop}
    (hspec : forall o s r s', valid s -> spec o s r s' ->
      valid s' ∧ spec' o (view s) r (view s'))
    (hstart : valid start) (h : Legal spec start order final) :
    valid final ∧ Legal spec' (view start) order (view final) := by
  induction h with
  | nil => exact ⟨hstart, .nil⟩
  | snoc _ hentry ih =>
      rcases hspec _ _ _ _ ih.left hentry with ⟨hvalid, hview⟩
      exact ⟨hvalid, .snoc ih.right hview⟩

theorem Linearizes.map {state' : Type}
    {spec' : operation -> state' -> result -> state' -> Prop} {view : state -> state'}
    {valid : state -> Prop}
    (hspec : forall o s r s', valid s -> spec o s r s' ->
      valid s' ∧ spec' o (view s) r (view s'))
    (hstart : valid start) (h : Linearizes spec start history order final) :
    valid final ∧ Linearizes spec' (view start) history order (view final) := by
  rcases h.legal.map hspec hstart with ⟨hvalid, hlegal⟩
  exact ⟨hvalid, hlegal, h.once, h.invoked, h.answered, h.realTime⟩

end Linearizations

/-!
# Interleaved runs
-/

/-- Bodies of operations; what runs under a shared lock changes nothing. -/
structure Guarded (object operation frame result : Type) where
  exclusive : operation -> Bool
  enter : operation -> frame
  work : operation -> frame -> object -> (frame ⊕ result) × object
  reads : forall o f s, exclusive o = false -> (work o f s).2 = s

inductive Phase (operation frame result : Type) where
  | absent
  | waiting (o : operation)
  | inside (o : operation) (f : frame)
  | leaving (o : operation) (r : result)
  | unlocked (o : operation) (r : result)
  | returned

namespace Phase

variable {operation frame result : Type}

def holding : Phase operation frame result -> Option operation
  | .inside o _ => some o
  | .leaving o _ => some o
  | _ => none

end Phase

structure Lock (call : Type) where
  writer : Option call := none
  readers : Finset call := ∅

namespace Lock

variable {call : Type} [DecidableEq call]

def Free (lock : Lock call) (exclusive : Bool) : Prop :=
  lock.writer = none ∧ (exclusive = true -> lock.readers = ∅)

def acquire (lock : Lock call) (exclusive : Bool) (c : call) : Lock call :=
  if exclusive then
    { lock with writer := some c }
  else
    { lock with readers := insert c lock.readers }

def release (lock : Lock call) (exclusive : Bool) (c : call) : Lock call :=
  if exclusive then
    { lock with writer := none }
  else
    { lock with readers := lock.readers.erase c }

end Lock

structure Scene (call object operation frame result : Type) where
  object : object
  lock : Lock call := {}
  phase : call -> Phase operation frame result := fun _ => .absent

namespace Guarded

variable {call object operation frame result : Type} [DecidableEq call]

inductive Works (g : Guarded object operation frame result) (o : operation)
    (f : frame) (s : object) : Phase operation frame result -> object -> Prop where
  | more {f' : frame} {s' : object} (hwork : g.work o f s = (.inl f', s')) :
      Works g o f s (.inside o f') s'
  | done {r : result} {s' : object} (hwork : g.work o f s = (.inr r, s')) :
      Works g o f s (.leaving o r) s'

inductive Step (g : Guarded object operation frame result)
    (scene : Scene call object operation frame result) :
    Action call operation result -> Scene call object operation frame result ->
      Prop where
  | invoke {c : call} {o : operation} (hphase : scene.phase c = .absent) :
      Step g scene (.invoke c o)
        { scene with phase := Function.update scene.phase c (.waiting o) }
  | acquire {c : call} {o : operation} (hphase : scene.phase c = .waiting o)
      (hfree : scene.lock.Free (g.exclusive o)) :
      Step g scene (.acquire c)
        { scene with
          lock := scene.lock.acquire (g.exclusive o) c
          phase := Function.update scene.phase c (.inside o (g.enter o)) }
  | work {c : call} {o : operation} {f : frame}
      {next : Phase operation frame result} {s : object}
      (hphase : scene.phase c = .inside o f) (hwork : g.Works o f scene.object next s) :
      Step g scene (.work c)
        { scene with
          object := s
          phase := Function.update scene.phase c next }
  | release {c : call} {o : operation} {r : result}
      (hphase : scene.phase c = .leaving o r) :
      Step g scene (.release c)
        { scene with
          lock := scene.lock.release (g.exclusive o) c
          phase := Function.update scene.phase c (.unlocked o r) }
  | respond {c : call} {o : operation} {r : result}
      (hphase : scene.phase c = .unlocked o r) :
      Step g scene (.respond c r)
        { scene with phase := Function.update scene.phase c .returned }

inductive Run (g : Guarded object operation frame result) (start : object) :
    List (Action call operation result) ->
      Scene call object operation frame result -> Prop where
  | start : Run g start [] { object := start }
  | step {history : List (Action call operation result)}
      {scene scene' : Scene call object operation frame result}
      {action : Action call operation result} (hrun : Run g start history scene)
      (hstep : g.Step scene action scene') : Run g start (history ++ [action]) scene'

/-!
# Bodies without interruption
-/

/-- A body that started on one object has come to a frame and another object. -/
inductive Inside (g : Guarded object operation frame result) (o : operation)
    (start : object) : frame -> object -> Prop where
  | enter : Inside g o start (g.enter o) start
  | work {f f' : frame} {s s' : object} (hinside : Inside g o start f s)
      (hwork : g.work o f s = (.inl f', s')) : Inside g o start f' s'

def Alone (g : Guarded object operation frame result) (o : operation)
    (start : object) (r : result) (final : object) : Prop :=
  exists f s, g.Inside o start f s ∧ g.work o f s = (.inr r, final)

/-!
# The lock
-/

section Invariants

variable {g : Guarded object operation frame result} {start : object}
  {history : List (Action call operation result)}
  {scene scene' : Scene call object operation frame result}
  {action : Action call operation result}

structure Locked (g : Guarded object operation frame result)
    (scene : Scene call object operation frame result) : Prop where
  readers : forall c, c ∈ scene.lock.readers <->
    exists o, (scene.phase c).holding = some o ∧ g.exclusive o = false
  writer : forall c, scene.lock.writer = some c <->
    exists o, (scene.phase c).holding = some o ∧ g.exclusive o = true
  alone : forall c, scene.lock.writer = some c -> scene.lock.readers = ∅

theorem Locked.update (h : g.Locked scene) {c : call}
    {next : Phase operation frame result} {s : object}
    (hsame : next.holding = (scene.phase c).holding) :
    g.Locked { scene with
      object := s
      phase := Function.update scene.phase c next } := by
  have hholding : forall c', (Function.update scene.phase c next c').holding =
      (scene.phase c').holding := by
    intro c'
    by_cases hc : c' = c
    · rw [hc, Function.update_self, hsame]
    · rw [Function.update_of_ne hc]
  constructor
  · intro c'
    simp only [hholding]
    exact h.readers c'
  · intro c'
    simp only [hholding]
    exact h.writer c'
  · exact h.alone

theorem Locked.acquire (h : g.Locked scene) {c : call} {o : operation} {f : frame}
    (hphase : scene.phase c = .waiting o)
    (hfree : scene.lock.Free (g.exclusive o)) :
    g.Locked { scene with
      lock := scene.lock.acquire (g.exclusive o) c
      phase := Function.update scene.phase c (.inside o f) } := by
  rcases hfree with ⟨hwriter, hreaders⟩
  have hout : c ∉ scene.lock.readers := by
    intro hmem
    rcases (h.readers c).mp hmem with ⟨_, hholding, _⟩
    rw [hphase] at hholding
    cases hholding
  have hno : forall c', ¬ exists o', (scene.phase c').holding = some o' ∧
      g.exclusive o' = true := by
    intro c' hheld
    rw [← h.writer c', hwriter] at hheld
    cases hheld
  cases hexclusive : g.exclusive o with
  | true =>
      constructor
      · intro c'
        show c' ∈ scene.lock.readers <-> _
        rw [hreaders hexclusive]
        by_cases hc : c' = c
        · simp [hc, Phase.holding, hexclusive]
        · have hold := h.readers c'
          rw [hreaders hexclusive] at hold
          simpa only [Function.update_of_ne hc] using hold
      · intro c'
        show some c = some c' <-> _
        by_cases hc : c' = c
        · simp [hc, Phase.holding, hexclusive]
        · simp only [Function.update_of_ne hc]
          constructor
          · intro heq
            exact absurd (Option.some.inj heq).symm hc
          · intro hheld
            exact absurd hheld (hno c')
      · intro _ _
        exact hreaders hexclusive
  | false =>
      constructor
      · intro c'
        show c' ∈ insert c scene.lock.readers <-> _
        rw [Finset.mem_insert]
        by_cases hc : c' = c
        · simp [hc, Phase.holding, hexclusive]
        · simp only [Function.update_of_ne hc, hc, false_or]
          exact h.readers c'
      · intro c'
        show scene.lock.writer = some c' <-> _
        by_cases hc : c' = c
        · simp [hc, Phase.holding, hexclusive, hwriter]
        · simp only [Function.update_of_ne hc]
          exact h.writer c'
      · intro c' hc'
        rw [show scene.lock.writer = some c' from hc'] at hwriter
        cases hwriter

theorem Locked.release (h : g.Locked scene) {c : call} {o : operation} {r : result}
    (hphase : scene.phase c = .leaving o r) :
    g.Locked { scene with
      lock := scene.lock.release (g.exclusive o) c
      phase := Function.update scene.phase c (.unlocked o r) } := by
  have hheld : (scene.phase c).holding = some o := by
    rw [hphase]
    rfl
  cases hexclusive : g.exclusive o with
  | true =>
      have hwriter := (h.writer c).mpr ⟨o, hheld, hexclusive⟩
      have hreaders := h.alone c hwriter
      constructor
      · intro c'
        show c' ∈ scene.lock.readers <-> _
        by_cases hc : c' = c
        · simp [hc, Phase.holding, hreaders]
        · simp only [Function.update_of_ne hc]
          exact h.readers c'
      · intro c'
        show none = some c' <-> _
        by_cases hc : c' = c
        · simp [hc, Phase.holding]
        · simp only [Function.update_of_ne hc]
          rw [← h.writer c', hwriter]
          constructor
          · intro heq
            cases heq
          · intro heq
            exact absurd (Option.some.inj heq).symm hc
      · intro _ _
        exact hreaders
  | false =>
      have hreader := (h.readers c).mpr ⟨o, hheld, hexclusive⟩
      constructor
      · intro c'
        show c' ∈ scene.lock.readers.erase c <-> _
        rw [Finset.mem_erase]
        by_cases hc : c' = c
        · simp [hc, Phase.holding]
        · simp only [Function.update_of_ne hc, ne_eq, hc, not_false_eq_true, true_and]
          exact h.readers c'
      · intro c'
        show scene.lock.writer = some c' <-> _
        by_cases hc : c' = c
        · rw [hc, h.writer c, hheld]
          simp [Phase.holding, hexclusive]
        · simp only [Function.update_of_ne hc]
          exact h.writer c'
      · intro c' hc'
        rw [h.alone c' hc'] at hreader
        cases hreader

theorem Works.holding {o : operation} {f : frame} {s s' : object}
    {next : Phase operation frame result} (h : g.Works o f s next s') :
    next.holding = some o := by
  cases h with
  | more _ => rfl
  | done _ => rfl

theorem Locked.step (h : g.Locked scene) (hstep : g.Step scene action scene') :
    g.Locked scene' := by
  cases hstep with
  | invoke hphase =>
      apply h.update
      rw [hphase]
      rfl
  | acquire hphase hfree => exact h.acquire hphase hfree
  | work hphase hwork =>
      apply h.update
      rw [hphase, hwork.holding]
      rfl
  | release hphase => exact h.release hphase
  | respond hphase =>
      apply h.update
      rw [hphase]
      rfl

theorem locked_of_run (h : g.Run start history scene) : g.Locked scene := by
  induction h with
  | start =>
      constructor
      · intro c
        simp [Phase.holding]
      · intro c
        simp [Phase.holding]
      · intro c hc
        cases hc
  | step _ hstep ih => exact ih.step hstep

omit [DecidableEq call] in
theorem Locked.eq_of_holding (h : g.Locked scene) {c c' : call} {o o' : operation}
    (hc : (scene.phase c).holding = some o) (hexclusive : g.exclusive o = true)
    (hc' : (scene.phase c').holding = some o') : c' = c := by
  have hwriter := (h.writer c).mpr ⟨o, hc, hexclusive⟩
  cases hother : g.exclusive o' with
  | true =>
      have hwriter' := (h.writer c').mpr ⟨o', hc', hother⟩
      rw [hwriter] at hwriter'
      exact (Option.some.inj hwriter').symm
  | false =>
      have hreader := (h.readers c').mpr ⟨o', hc', hother⟩
      rw [h.alone c hwriter] at hreader
      cases hreader

/-!
# The order of the calls

Calls take effect in the order in which their bodies end.
-/

def Silent (history : List (Action call operation result)) (c : call) : Prop :=
  forall r, .respond c r ∉ history

inductive Tracked (g : Guarded object operation frame result)
    (history : List (Action call operation result))
    (order : List (Entry call operation result)) (base s : object) (c : call) :
    Phase operation frame result -> Prop where
  | absent (hnone : forall o, .invoke c o ∉ history)
      (hfresh : c ∉ order.map Entry.call) (hsilent : Silent history c) :
      Tracked g history order base s c .absent
  | waiting {o : operation} (hinvoked : .invoke c o ∈ history)
      (hfresh : c ∉ order.map Entry.call) (hsilent : Silent history c) :
      Tracked g history order base s c (.waiting o)
  | inside {o : operation} {f : frame} (hinvoked : .invoke c o ∈ history)
      (hfresh : c ∉ order.map Entry.call) (hsilent : Silent history c)
      (hinside : g.Inside o base f s) :
      Tracked g history order base s c (.inside o f)
  | leaving {o : operation} {r : result} (hentry : ⟨c, o, r⟩ ∈ order)
      (hsilent : Silent history c) :
      Tracked g history order base s c (.leaving o r)
  | unlocked {o : operation} {r : result} (hentry : ⟨c, o, r⟩ ∈ order)
      (hsilent : Silent history c) :
      Tracked g history order base s c (.unlocked o r)
  | returned {r : result} (hanswered : .respond c r ∈ history) :
      Tracked g history order base s c .returned

/-- The calls that have ended, in order, and the object they lead to. -/
structure Tracks (g : Guarded object operation frame result) (start : object)
    (history : List (Action call operation result))
    (scene : Scene call object operation frame result)
    (order : List (Entry call operation result)) (base : object) : Prop where
  linearizes : Linearizes g.Alone start history order base
  calls : forall c, g.Tracked history order base scene.object c (scene.phase c)
  still : (forall c o f, scene.phase c = .inside o f -> g.exclusive o = false) ->
    scene.object = base

variable {order order' : List (Entry call operation result)}
  {base base' s s' : object} {c : call} {phase next : Phase operation frame result}

omit [DecidableEq call] in
theorem Silent.snoc (h : Silent history c) (haction : forall r, action ≠ .respond c r) :
    Silent (history ++ [action]) c := by
  intro r hrespond
  rcases List.mem_append.mp hrespond with hrespond | hrespond
  · exact h r hrespond
  · exact haction r (List.mem_singleton.mp hrespond).symm

omit [DecidableEq call] in
theorem Tracked.keep (h : g.Tracked history order base s c phase)
    (hother : action.call ≠ c) (hkept : order ⊆ order')
    (hcalls : c ∈ order'.map Entry.call -> c ∈ order.map Entry.call)
    (hinside : forall o f, phase = .inside o f -> g.Inside o base f s ->
      g.Inside o base' f s') :
    g.Tracked (history ++ [action]) order' base' s' c phase := by
  have hquiet : forall r, action ≠ .respond c r := by
    intro r heq
    rw [heq] at hother
    exact hother rfl
  cases h with
  | absent hnone hfresh hsilent =>
      refine .absent ?_ (fun hmem => hfresh (hcalls hmem)) (hsilent.snoc hquiet)
      intro o hinvoke
      rcases List.mem_append.mp hinvoke with hinvoke | hinvoke
      · exact hnone o hinvoke
      · rw [← List.mem_singleton.mp hinvoke] at hother
        exact hother rfl
  | waiting hinvoked hfresh hsilent =>
      exact .waiting (List.mem_append_left _ hinvoked)
        (fun hmem => hfresh (hcalls hmem)) (hsilent.snoc hquiet)
  | inside hinvoked hfresh hsilent hcame =>
      exact .inside (List.mem_append_left _ hinvoked)
        (fun hmem => hfresh (hcalls hmem)) (hsilent.snoc hquiet)
        (hinside _ _ rfl hcame)
  | leaving hentry hsilent => exact .leaving (hkept hentry) (hsilent.snoc hquiet)
  | unlocked hentry hsilent => exact .unlocked (hkept hentry) (hsilent.snoc hquiet)
  | returned hanswered => exact .returned (List.mem_append_left _ hanswered)

theorem Tracks.advance (h : g.Tracks start history scene order base)
    (hphase : scene.phase c = phase) (houtside : forall o f, phase ≠ .inside o f)
    (hlinearizes : Linearizes g.Alone start (history ++ [action]) order base)
    (haction : action.call = c)
    (hown : g.Tracked (history ++ [action]) order base scene.object c next)
    {lock : Lock call} :
    g.Tracks start (history ++ [action]) { scene with
      lock := lock
      phase := Function.update scene.phase c next } order base := by
  constructor
  · exact hlinearizes
  · intro c'
    show g.Tracked _ _ _ scene.object c' (Function.update scene.phase c next c')
    by_cases hc : c' = c
    · rw [hc, Function.update_self]
      exact hown
    · rw [Function.update_of_ne hc]
      apply (h.calls c').keep _ (List.Subset.refl _) id (fun _ _ _ hcame => hcame)
      rw [haction]
      exact Ne.symm hc
  · intro hreading
    apply h.still
    intro c' o f hinside
    apply hreading c' o f
    show Function.update scene.phase c next c' = _
    rw [Function.update_of_ne, hinside]
    intro hc
    rw [hc, hphase] at hinside
    exact houtside o f hinside

omit [DecidableEq call] in
theorem Tracks.object_eq (h : g.Tracks start history scene order base)
    (hlocked : g.Locked scene) (hwriter : scene.lock.writer = none) :
    scene.object = base := by
  apply h.still
  intro c o f hinside
  cases hexclusive : g.exclusive o with
  | false => rfl
  | true =>
      have hheld : (scene.phase c).holding = some o := by
        rw [hinside]
        rfl
      have hnone := (hlocked.writer c).mpr ⟨o, hheld, hexclusive⟩
      rw [hwriter] at hnone
      cases hnone

omit [DecidableEq call] in
theorem Tracks.inside_of_work (h : g.Tracks start history scene order base)
    (hlocked : g.Locked scene) {o : operation} {f : frame} {c' : call}
    {o' : operation} {f' : frame} (hphase : scene.phase c = .inside o f)
    (hother : c' ≠ c) (hphase' : scene.phase c' = .inside o' f') :
    g.exclusive o = false ∧ (g.work o f scene.object).2 = scene.object ∧
      scene.object = base := by
  have hheld : (scene.phase c).holding = some o := by
    rw [hphase]
    rfl
  have hheld' : (scene.phase c').holding = some o' := by
    rw [hphase']
    rfl
  have hshared : g.exclusive o = false := by
    cases hexclusive : g.exclusive o with
    | false => rfl
    | true => exact absurd (hlocked.eq_of_holding hheld hexclusive hheld') hother
  refine ⟨hshared, g.reads o f _ hshared, h.object_eq hlocked ?_⟩
  cases hwriter : scene.lock.writer with
  | none => rfl
  | some w =>
      have hreader := (hlocked.readers c).mpr ⟨o, hheld, hshared⟩
      rw [hlocked.alone w hwriter] at hreader
      cases hreader

theorem Tracks.work (h : g.Tracks start history scene order base)
    (hlocked : g.Locked scene) {o : operation} {f : frame}
    (hphase : scene.phase c = .inside o f)
    (hwork : g.Works o f scene.object next s') :
    exists order' base', g.Tracks start (history ++ [.work c])
      { scene with
        object := s'
        phase := Function.update scene.phase c next } order' base' := by
  have hcall := h.calls c
  rw [hphase] at hcall
  have hother : forall c', c' ≠ c ->
      (.work c : Action call operation result).call ≠ c' := fun _ hc => Ne.symm hc
  have hextend : Linearizes g.Alone start (history ++ [.work c]) order base := by
    apply h.linearizes.extend
    · intro c' r heq
      cases heq
    · intro c' o' heq
      cases heq
  cases hcall with
  | inside hinvoked hfresh hsilent hcame =>
      have hinvoked' : .invoke c o ∈ history ++ [.work c] :=
        List.mem_append_left _ hinvoked
      replace hsilent : Silent (history ++ [.work c]) c := by
        apply hsilent.snoc
        intro r heq
        cases heq
      cases hwork with
      | @more f' _ hmore =>
          refine ⟨order, base, hextend, ?_, ?_⟩
          · intro c'
            show g.Tracked _ _ _ s' c' (Function.update scene.phase c _ c')
            by_cases hc : c' = c
            · rw [hc, Function.update_self]
              exact .inside hinvoked' hfresh hsilent (.work hcame hmore)
            · rw [Function.update_of_ne hc]
              apply (h.calls c').keep (hother c' hc) (List.Subset.refl _) id
              intro o' f'' hphase' hcame'
              rcases h.inside_of_work hlocked hphase hc hphase' with ⟨_, hsame, _⟩
              rw [hmore] at hsame
              rw [show s' = scene.object from hsame]
              exact hcame'
          · intro hreading
            have hshared : g.exclusive o = false := by
              apply hreading c o f'
              show Function.update scene.phase c _ c = _
              rw [Function.update_self]
            have hsame := g.reads o f scene.object hshared
            rw [hmore] at hsame
            rw [show s' = scene.object from hsame]
            apply h.still
            intro c' o' f'' hphase'
            by_cases hc : c' = c
            · rw [hc, hphase] at hphase'
              cases hphase'
              exact hshared
            · apply hreading c' o' f''
              show Function.update scene.phase c _ c' = _
              rw [Function.update_of_ne hc, hphase']
      | @done r _ hdone =>
          have hlinearizes := hextend.snoc ⟨c, o, r⟩ hfresh hinvoked' hsilent
            ⟨f, scene.object, hcame, hdone⟩
          refine ⟨order ++ [⟨c, o, r⟩], s', hlinearizes, ?_, fun _ => rfl⟩
          intro c'
          show g.Tracked _ _ _ s' c' (Function.update scene.phase c _ c')
          by_cases hc : c' = c
          · rw [hc, Function.update_self]
            exact .leaving (List.mem_append_right _ (List.mem_singleton_self _)) hsilent
          · rw [Function.update_of_ne hc]
            apply (h.calls c').keep (hother c' hc) (List.subset_append_left _ _)
            · intro hmem
              rw [List.map_append, List.mem_append] at hmem
              rcases hmem with hmem | hmem
              · exact hmem
              · exact absurd (List.mem_singleton.mp hmem) hc
            · intro o' f' hphase' hcame'
              rcases h.inside_of_work hlocked hphase hc hphase' with ⟨_, hsame, hbase⟩
              rw [hdone] at hsame
              rw [show s' = scene.object from hsame, hbase]
              rw [hbase] at hcame'
              exact hcame'

theorem Tracks.step (h : g.Tracks start history scene order base)
    (hlocked : g.Locked scene) (hstep : g.Step scene action scene') :
    exists order' base', g.Tracks start (history ++ [action]) scene' order' base' := by
  cases hstep with
  | @invoke c o hphase =>
      have hcall := h.calls c
      rw [hphase] at hcall
      cases hcall with
      | absent _ hfresh hsilent =>
          refine ⟨order, base, h.advance hphase ?_ ?_ rfl ?_⟩
          · intro o' f heq
            cases heq
          · apply h.linearizes.extend
            · intro c' r heq
              cases heq
            · intro c' o' heq
              cases heq
              exact hfresh
          · apply Tracked.waiting (List.mem_append_right _ (List.mem_singleton_self _))
              hfresh
            apply hsilent.snoc
            intro r heq
            cases heq
  | @acquire c o hphase hfree =>
      have hcall := h.calls c
      rw [hphase] at hcall
      cases hcall with
      | waiting hinvoked hfresh hsilent =>
          refine ⟨order, base, h.advance hphase ?_ ?_ rfl ?_⟩
          · intro o' f heq
            cases heq
          · apply h.linearizes.extend
            · intro c' r heq
              cases heq
            · intro c' o' heq
              cases heq
          · apply Tracked.inside (List.mem_append_left _ hinvoked) hfresh
            · apply hsilent.snoc
              intro r heq
              cases heq
            · rw [h.object_eq hlocked hfree.left]
              exact .enter
  | work hphase hwork => exact h.work hlocked hphase hwork
  | @release c o r hphase =>
      have hcall := h.calls c
      rw [hphase] at hcall
      cases hcall with
      | leaving hentry hsilent =>
          refine ⟨order, base, h.advance hphase ?_ ?_ rfl ?_⟩
          · intro o' f heq
            cases heq
          · apply h.linearizes.extend
            · intro c' r' heq
              cases heq
            · intro c' o' heq
              cases heq
          · apply Tracked.unlocked hentry
            apply hsilent.snoc
            intro r' heq
            cases heq
  | @respond c o r hphase =>
      have hcall := h.calls c
      rw [hphase] at hcall
      cases hcall with
      | unlocked hentry _ =>
          refine ⟨order, base, h.advance hphase ?_ ?_ rfl ?_⟩
          · intro o' f heq
            cases heq
          · apply h.linearizes.extend
            · intro c' r' heq
              cases heq
              exact ⟨o, hentry⟩
            · intro c' o' heq
              cases heq
          · exact .returned (List.mem_append_right _ (List.mem_singleton_self _))

theorem exists_tracks (h : g.Run start history scene) :
    exists order base, g.Tracks start history scene order base := by
  induction h with
  | start =>
      refine ⟨[], start, ⟨.nil, List.nodup_nil, ?_, ?_, .nil⟩, ?_, fun _ => rfl⟩
      · intro entry hentry
        cases hentry
      · intro c r hrespond
        cases hrespond
      · intro c
        apply Tracked.absent
        · intro o hinvoke
          cases hinvoke
        · intro hmem
          cases hmem
        · intro r hrespond
          cases hrespond
  | step hrun hstep ih =>
      rcases ih with ⟨order, base, htracks⟩
      exact htracks.step (locked_of_run hrun) hstep

/-!
# Every call can return
-/

inductive Finishes (g : Guarded object operation frame result) (o : operation) :
    frame -> object -> Prop where
  | done {f : frame} {s s' : object} {r : result}
      (hwork : g.work o f s = (.inr r, s')) : Finishes g o f s
  | more {f f' : frame} {s s' : object} (hwork : g.work o f s = (.inl f', s'))
      (hrest : Finishes g o f' s') : Finishes g o f s

inductive Continues (g : Guarded object operation frame result) :
    Scene call object operation frame result -> List (Action call operation result) ->
      Scene call object operation frame result -> Prop where
  | refl (scene : Scene call object operation frame result) : Continues g scene [] scene
  | step {scene scene' scene'' : Scene call object operation frame result}
      {action : Action call operation result}
      {actions : List (Action call operation result)}
      (hstep : g.Step scene action scene') (hold : forall c o, action ≠ .invoke c o)
      (hrest : Continues g scene' actions scene'') :
      Continues g scene (action :: actions) scene''

variable {scene'' : Scene call object operation frame result}
  {actions actions' : List (Action call operation result)}

theorem Continues.trans (h : g.Continues scene actions scene')
    (h' : g.Continues scene' actions' scene'') :
    g.Continues scene (actions ++ actions') scene'' := by
  induction h with
  | refl _ => exact h'
  | step hstep hold _ ih => exact .step hstep hold (ih h')

theorem Continues.single (hstep : g.Step scene action scene')
    (hold : forall c o, action ≠ .invoke c o) : g.Continues scene [action] scene' :=
  .step hstep hold (.refl scene')

theorem Continues.locked (h : g.Continues scene actions scene')
    (hlocked : g.Locked scene) : g.Locked scene' := by
  induction h with
  | refl _ => exact hlocked
  | step hstep _ _ ih => exact ih (hlocked.step hstep)

theorem Continues.run (h : g.Continues scene actions scene')
    (hrun : g.Run start history scene) :
    g.Run start (history ++ actions) scene' := by
  induction h generalizing history with
  | refl _ =>
      rw [List.append_nil]
      exact hrun
  | step hstep _ _ ih =>
      have hrest := ih (hrun.step hstep)
      rw [List.append_assoc] at hrest
      exact hrest

theorem Continues.not_invoke (h : g.Continues scene actions scene') (c : call)
    (o : operation) : .invoke c o ∉ actions := by
  induction h with
  | refl _ =>
      intro hmem
      cases hmem
  | step _ hold _ ih =>
      intro hmem
      rcases List.mem_cons.mp hmem with heq | hmem
      · exact hold c o heq.symm
      · exact ih hmem

structure Changes (scene scene' : Scene call object operation frame result)
    (lock : Lock call) (c : call) (next : Phase operation frame result) : Prop where
  lock : scene'.lock = lock
  phase : scene'.phase = Function.update scene.phase c next

theorem exists_leaving {o : operation} {f : frame}
    (hfinishes : g.Finishes o f s) (hobject : scene.object = s)
    (hphase : scene.phase c = .inside o f) :
    exists actions scene' r, g.Continues scene actions scene' ∧
      Changes scene scene' scene.lock c (.leaving o r) := by
  have hold : forall c' o', (.work c : Action call operation result) ≠ .invoke c' o' := by
    intro c' o' heq
    cases heq
  induction hfinishes generalizing scene with
  | @done f s s' r hwork =>
      rw [← hobject] at hwork
      exact ⟨_, _, r, .single (.work hphase (.done hwork)) hold, rfl, rfl⟩
  | @more f f' s s' hwork _ ih =>
      rw [← hobject] at hwork
      rcases @ih { scene with
          object := s'
          phase := Function.update scene.phase c (.inside o f') } rfl
          (Function.update_self ..) with ⟨actions, scene', r, hcontinues, hlock, hphases⟩
      refine ⟨_, scene', r, .step (.work hphase (.more hwork)) hold hcontinues, hlock, ?_⟩
      rw [hphases, Function.update_idem]

variable (hfinishes : forall o f s, g.Finishes o f s)

include hfinishes

theorem exists_unlocked {o : operation} (hheld : (scene.phase c).holding = some o) :
    exists actions scene' r, g.Continues scene actions scene' ∧
      Changes scene scene' (scene.lock.release (g.exclusive o) c) c
        (.unlocked o r) := by
  have hold : forall c' o',
      (.release c : Action call operation result) ≠ .invoke c' o' := by
    intro c' o' heq
    cases heq
  cases hphase : scene.phase c with
  | absent | waiting | unlocked | returned =>
      rw [hphase] at hheld
      cases hheld
  | leaving o' r =>
      rw [hphase] at hheld
      cases hheld
      exact ⟨_, _, r, .single (.release hphase) hold, rfl, rfl⟩
  | inside o' f =>
      rw [hphase] at hheld
      cases hheld
      rcases exists_leaving (hfinishes o f scene.object) rfl hphase with
        ⟨actions, scene', r, hcontinues, hlock, hphases⟩
      have hleaving : scene'.phase c = .leaving o r := by
        rw [hphases, Function.update_self]
      refine ⟨_, _, r, hcontinues.trans (.single (.release hleaving) hold), ?_, ?_⟩
      · rw [hlock]
      · rw [hphases, Function.update_idem]

theorem exists_free (hlocked : g.Locked scene) :
    exists actions scene', g.Continues scene actions scene' ∧
      (forall exclusive, scene'.lock.Free exclusive) ∧
      forall c o, scene.phase c = .waiting o -> scene'.phase c = .waiting o := by
  have hwaits : forall (scene scene' : Scene call object operation frame result)
      (lock : Lock call) (c : call) (o : operation)
      (next : Phase operation frame result), (scene.phase c).holding = some o ->
      Changes scene scene' lock c next ->
      forall c' o', scene.phase c' = .waiting o' -> scene'.phase c' = .waiting o' := by
    intro scene scene' lock c o next hheld hchanges c' o' hwaiting
    rw [hchanges.phase, Function.update_of_ne, hwaiting]
    intro hc
    rw [← hc, hwaiting] at hheld
    cases hheld
  induction hcard : scene.lock.readers.card generalizing scene with
  | zero =>
      have hreaders := Finset.card_eq_zero.mp hcard
      cases hwriter : scene.lock.writer with
      | none =>
          exact ⟨[], scene, .refl scene, fun _ => ⟨hwriter, fun _ => hreaders⟩,
            fun _ _ hwaiting => hwaiting⟩
      | some c =>
          rcases (hlocked.writer c).mp hwriter with ⟨o, hheld, hexclusive⟩
          rcases exists_unlocked hfinishes hheld with
            ⟨actions, scene', r, hcontinues, hchanges⟩
          have hlock := hchanges.lock
          rw [hexclusive] at hlock
          refine ⟨actions, scene', hcontinues, ?_, hwaits _ _ _ _ _ _ hheld hchanges⟩
          intro exclusive
          rw [hlock]
          exact ⟨rfl, fun _ => hreaders⟩
  | succ n ih =>
      have hsome : scene.lock.readers.Nonempty := by
        rw [← Finset.card_pos, hcard]
        exact Nat.succ_pos n
      rcases hsome with ⟨c, hreader⟩
      rcases (hlocked.readers c).mp hreader with ⟨o, hheld, hexclusive⟩
      rcases exists_unlocked hfinishes hheld with
        ⟨actions, scene', r, hcontinues, hchanges⟩
      have hlock := hchanges.lock
      rw [hexclusive] at hlock
      have hfewer : scene'.lock.readers.card = n := by
        rw [hlock]
        show (scene.lock.readers.erase c).card = n
        rw [Finset.card_erase_of_mem hreader, hcard]
        rfl
      rcases ih (hcontinues.locked hlocked) hfewer with
        ⟨actions', scene'', hcontinues', hfree, hwaiting⟩
      refine ⟨_, scene'', hcontinues.trans hcontinues', hfree, ?_⟩
      intro c' o' hphase
      exact hwaiting c' o' (hwaits _ _ _ _ _ _ hheld hchanges c' o' hphase)

theorem exists_response {o : operation} (hheld : (scene.phase c).holding = some o) :
    exists actions scene' r, g.Continues scene actions scene' ∧
      .respond c r ∈ actions := by
  rcases exists_unlocked hfinishes hheld with
    ⟨actions, scene', r, hcontinues, hchanges⟩
  have hphase : scene'.phase c = .unlocked o r := by
    rw [hchanges.phase, Function.update_self]
  refine ⟨_, _, r, hcontinues.trans (.single (.respond hphase) ?_), ?_⟩
  · intro c' o' heq
    cases heq
  · exact List.mem_append_right _ (List.mem_singleton_self _)

/-- A run can go on such that a call is answered, and no other call has to come. -/
theorem exists_answer (hrun : g.Run start history scene) {o : operation}
    (hinvoked : .invoke c o ∈ history) :
    exists actions scene' r, g.Run start (history ++ actions) scene' ∧
      (forall c' o', .invoke c' o' ∉ actions) ∧ .respond c r ∈ history ++ actions := by
  suffices hsuffices : (exists r, .respond c r ∈ history) ∨
      exists actions scene' r, g.Continues scene actions scene' ∧
        .respond c r ∈ actions by
    rcases hsuffices with ⟨r, hrespond⟩ | ⟨actions, scene', r, hcontinues, hrespond⟩
    · refine ⟨[], scene, r, ?_, ?_, List.mem_append_left _ hrespond⟩
      · rw [List.append_nil]
        exact hrun
      · intro c' o' hmem
        cases hmem
    · exact ⟨actions, scene', r, hcontinues.run hrun, hcontinues.not_invoke,
        List.mem_append_right _ hrespond⟩
  rcases exists_tracks hrun with ⟨order, base, htracks⟩
  have hcall := htracks.calls c
  cases hphase : scene.phase c with
  | absent =>
      rw [hphase] at hcall
      cases hcall with
      | absent hnone _ _ => exact absurd hinvoked (hnone o)
  | waiting o' =>
      right
      rcases exists_free hfinishes (locked_of_run hrun) with
        ⟨actions, scene', hcontinues, hfree, hwaits⟩
      have hacquire := Step.acquire (g := g) (hwaits c o' hphase) (hfree _)
      have hheld : (Function.update scene'.phase c
          (.inside o' (g.enter o')) c).holding = some o' := by
        rw [Function.update_self]
        rfl
      rcases exists_response hfinishes
          (show (({ scene' with
            lock := scene'.lock.acquire (g.exclusive o') c
            phase := Function.update scene'.phase c (.inside o' (g.enter o')) } :
              Scene call object operation frame result).phase c).holding = some o'
            from hheld) with
        ⟨actions', scene'', r, hcontinues', hrespond⟩
      refine ⟨_, scene'', r, hcontinues.trans (.step hacquire ?_ hcontinues'), ?_⟩
      · intro c' o'' heq
        cases heq
      · exact List.mem_append_right _ (List.mem_cons_of_mem _ hrespond)
  | inside o' f =>
      right
      apply exists_response hfinishes
      rw [hphase]
      rfl
  | leaving o' r =>
      right
      apply exists_response hfinishes
      rw [hphase]
      rfl
  | unlocked o' r =>
      right
      refine ⟨_, _, r, .single (.respond hphase) ?_, List.mem_singleton_self _⟩
      intro c' o'' heq
      cases heq
  | returned =>
      left
      rw [hphase] at hcall
      cases hcall with
      | returned hanswered => exact ⟨_, hanswered⟩

end Invariants

end Guarded

end Foundation
end FTKV
