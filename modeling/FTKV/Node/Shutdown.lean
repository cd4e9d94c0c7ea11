import FTKV.Node.Threads
import Mathlib.Order.WellFounded
import Mathlib.Logic.Relation

/-!
# Ending the threads

`stop` clears the flag, takes the mutex to clear the queue, notifies the workers
and joins all threads.  No schedule makes it wait forever, but the process may end
under it: a node that throws at one of the threads leaves nothing to join.  A `start`
that fails does the same without taking the mutex in between, so its notification
can pass a worker that has tested the flag and has not blocked yet.
-/

namespace FTKV
namespace Node

open Raft (Message)

variable {config : NodeRuntimeConfig} {t t' : Threads}
  {observation : Observation}

/-!
# The mutex
-/

def Worker.Locked (worker : Worker) : Prop :=
  worker = .testing ∨ worker = .suspending

namespace Threads

def Exclusive (t : Threads) : Prop :=
  forall i, t.holder = some i <->
    exists worker, t.workers[i]? = some worker ∧ worker.Locked

theorem Exclusive.not_locked (h : Exclusive t) (hfree : t.holder = none) {i : Nat}
    {worker : Worker} (hworker : t.workers[i]? = some worker) : ¬ worker.Locked := by
  intro hlocked
  have hholder := (h i).mpr ⟨worker, hworker, hlocked⟩
  rw [hfree] at hholder
  cases hholder

theorem exclusive_put {i : Nat} {worker worker' : Worker} (h : Exclusive t)
    (hworker : t.workers[i]? = some worker) (hlocked : worker.Locked <-> worker'.Locked) :
    Exclusive (t.put i worker') := by
  intro j
  by_cases hij : i = j
  · subst hij
    rw [getElem?_put_self hworker]
    refine (h i).trans ?_
    rw [hworker]
    simpa using hlocked
  · rw [getElem?_put_of_ne hij]
    exact h j

theorem exclusive_acquire {i : Nat} {worker : Worker} (h : Exclusive t)
    (hfree : t.holder = none) (hworker : t.workers[i]? = some worker) :
    Exclusive { t.put i .testing with holder := some i } := by
  intro j
  change some i = some j <-> exists worker, (t.put i .testing).workers[j]? = some worker ∧ _
  by_cases hij : i = j
  · subst hij
    rw [getElem?_put_self hworker]
    simp [Worker.Locked]
  · rw [getElem?_put_of_ne hij]
    constructor
    · intro heq
      exact absurd (Option.some.inj heq) hij
    · rintro ⟨other, hother, hlocked⟩
      exact absurd hlocked (h.not_locked hfree hother)

theorem exclusive_release {i : Nat} {worker worker' : Worker} (h : Exclusive t)
    (hworker : t.workers[i]? = some worker) (hlocked : worker.Locked)
    (hunlocked : ¬ worker'.Locked) :
    Exclusive { t.put i worker' with holder := none } := by
  intro j
  change none = some j <-> exists worker, (t.put i worker').workers[j]? = some worker ∧ _
  constructor
  · intro heq
    cases heq
  · rintro ⟨other, hother, hheld⟩
    by_cases hij : i = j
    · subst hij
      rw [getElem?_put_self hworker] at hother
      cases hother
      exact absurd hheld hunlocked
    · rw [getElem?_put_of_ne hij] at hother
      have hi := (h i).mpr ⟨worker, hworker, hlocked⟩
      have hj := (h j).mpr ⟨other, hother, hheld⟩
      rw [hi] at hj
      exact absurd (Option.some.inj hj) hij

end Threads

theorem Worker.notified_locked (worker : Worker) :
    worker.notified.Locked <-> worker.Locked := by
  cases worker <;> simp [Worker.notified, Worker.Locked]

theorem Worker.Proceeds.not_locked {worker worker' : Worker}
    (h : worker.Proceeds config worker') : ¬ worker.Locked ∧ ¬ worker'.Locked := by
  cases h with
  | concludes message number ticket call reply =>
      unfold Sending.conclude
      refine ⟨by simp [Worker.Locked], ?_⟩
      split
      · simp [Worker.Locked]
      · split <;> simp [Worker.Locked]
  | skips hnone => simp [Worker.Locked]
  | begins ticket hcall => simp [Worker.Locked]
  | resumes message number ticket call => simp [Worker.Locked]
  | responds message rpc => simp [Worker.Locked]

namespace Threads

theorem exclusive_notifyAll (h : Exclusive t) : Exclusive t.notifyAll := by
  intro i
  refine (h i).trans ?_
  change (exists worker, _) <->
    exists worker, (t.workers.map Worker.notified)[i]? = some worker ∧ _
  rw [List.getElem?_map]
  cases t.workers[i]? with
  | none => simp
  | some worker => simpa using (Worker.notified_locked worker).symm

theorem exclusive_moves (h : Exclusive t) (hstaged : Staged t)
    (hmoves : Moves config t observation t') : Exclusive t' := by
  cases hmoves with
  | spawns hcontrol hfew =>
      intro i
      refine (h i).trans ?_
      change _ <-> exists worker, (t.workers ++ [.locking])[i]? = some worker ∧ _
      constructor
      · rintro ⟨worker, hworker, hlocked⟩
        have hi := (List.getElem?_eq_some_iff.mp hworker).choose
        exact ⟨worker, (List.getElem?_append_left hi).trans hworker, hlocked⟩
      · rintro ⟨worker, hworker, hlocked⟩
        rcases Nat.lt_or_ge i t.workers.length with hi | hi
        · exact ⟨worker, (List.getElem?_append_left hi).symm.trans hworker, hlocked⟩
        · rw [List.getElem?_append_right hi, List.getElem?_singleton] at hworker
          split at hworker
          · cases hworker
            simp [Worker.Locked] at hlocked
          · cases hworker
  | @closes ending joined hcontrol hall =>
      -- Every worker has been joined, so none of them holds the mutex.
      unfold Staged at hstaged
      simp only [hcontrol] at hstaged
      intro i
      refine (h i).trans ?_
      simp only [List.getElem?_nil]
      constructor
      · rintro ⟨worker, hworker, hlocked⟩
        have hi := (List.getElem?_eq_some_iff.mp hworker).choose
        have hjoined : i < joined :=
          Nat.lt_of_lt_of_le hi (List.getElem?_eq_none_iff.mp hall)
        rw [hstaged.right.right i hjoined] at hworker
        cases hworker
        simp [Worker.Locked] at hlocked
      · rintro ⟨worker, hworker, -⟩
        cases hworker
  | locks hworker hfree => exact exclusive_acquire h hfree hworker
  | sends hworker hqueue =>
      exact exclusive_release h hworker (Or.inl rfl) (by simp [Worker.Locked])
  | yields hworker hqueue hrunning =>
      exact exclusive_put h hworker (by simp [Worker.Locked])
  | exits hworker hqueue hstopped =>
      exact exclusive_release h hworker (Or.inl rfl) (by simp [Worker.Locked])
  | suspends hworker =>
      exact exclusive_release h hworker (Or.inr rfl) (by simp [Worker.Locked])
  | wakes hworker => exact exclusive_put h hworker (by simp [Worker.Locked])
  | proceeds hworker hproceeds =>
      exact exclusive_put h hworker
        ⟨fun hlocked => absurd hlocked hproceeds.not_locked.left,
          fun hlocked => absurd hlocked hproceeds.not_locked.right⟩
  | notifies hcontrol => exact exclusive_notifyAll h
  | announces hticker => exact exclusive_notifyAll h
  | repeats hidle => exact h
  | starts hidle hstopped => exact h
  | serves hcontrol => exact h
  | launches hcontrol hall => exact h
  | reports hcontrol => exact h
  | fails hcontrol => exact h
  | abandons hcontrol => exact h
  | stops hidle hrunning => exact h
  | clears hcontrol hfree => exact h
  | joinsTicker hcontrol hticker => exact h
  | joinsWorker hcontrol hworker => exact h
  | ticks hticker => exact h
  | takes messages hticker => exact h
  | enqueues hticker hfree => exact h
  | throws hthread => exact h
  | refuses hworker hprepare => exact h

end Threads

/-!
# Attempts
-/

def Worker.Fit : Worker -> Prop
  | .sending _ (.attempting number _ _) =>
      number <= NodeRuntime.clientOptions.maxAttempts
  | .sending _ (.pausing number _) => number < NodeRuntime.clientOptions.maxAttempts
  | _ => True

theorem Worker.Proceeds.fit {worker worker' : Worker}
    (h : worker.Proceeds config worker') (hfit : worker.Fit) : worker'.Fit := by
  cases h with
  | skips hnone => trivial
  | begins ticket hcall => exact Nat.le_succ 1
  | resumes message number ticket call => exact hfit
  | concludes message number ticket call reply =>
      unfold Sending.conclude
      split
      · trivial
      · split
        · rename_i hretry
          exact Nat.lt_of_le_of_ne hfit hretry.right
        · trivial
  | responds message rpc => trivial

namespace Threads

def Fitting (t : Threads) : Prop :=
  forall worker, worker ∈ t.workers -> worker.Fit

theorem fitting_moves (h : Fitting t) (hmoves : Moves config t observation t') :
    Fitting t' := by
  intro worker hworker
  rcases mem_workers_moves hmoves hworker with hold | hidle | ⟨message, hmessage, rfl⟩ |
    ⟨i, before, -, hbefore, hproceeds⟩
  · exact h worker hold
  · cases worker with
    | sending message phase => exact absurd rfl (hidle message phase)
    | locking => trivial
    | testing => trivial
    | suspending => trivial
    | waiting => trivial
    | returned => trivial
  · trivial
  · exact hproceeds.fit (h before (List.mem_of_getElem? hbefore))

/-!
# Workers that a notification has reached
-/

def Calm (t : Threads) : Prop :=
  forall worker, worker ∈ t.workers -> worker ≠ .suspending

def Awake (t : Threads) : Prop :=
  forall worker, worker ∈ t.workers -> worker ≠ .suspending ∧ worker ≠ .waiting

theorem awake_notifyAll (h : Calm t) : Awake t.notifyAll := by
  intro worker hworker
  rcases List.mem_map.mp hworker with ⟨before, hbefore, rfl⟩
  have hcalm := h before hbefore
  cases before with
  | suspending => exact absurd rfl hcalm
  | waiting => simp [Worker.notified]
  | sending message phase => simp [Worker.notified]
  | locking => simp [Worker.notified]
  | testing => simp [Worker.notified]
  | returned => simp [Worker.notified]

theorem calm_of_free (h : Exclusive t) (hfree : t.holder = none) : Calm t := by
  intro worker hworker heq
  rcases List.mem_iff_getElem?.mp hworker with ⟨i, hi⟩
  exact h.not_locked hfree hi (Or.inr heq)

inductive Successor (config : NodeRuntimeConfig) : Worker -> Worker -> Prop where
  | same (worker : Worker) : Successor config worker worker
  | notified (worker : Worker) : Successor config worker worker.notified
  | locks : Successor config .locking .testing
  | sends (message : Message) : Successor config .testing (.sending message .calling)
  | exits : Successor config .testing .returned
  | suspends : Successor config .suspending .waiting
  | wakes : Successor config .waiting .locking
  | proceeds {worker worker' : Worker} (h : worker.Proceeds config worker') :
      Successor config worker worker'

theorem exists_successor_put {i : Nat} {worker worker' : Worker}
    (hworker : t.workers[i]? = some worker) (hsuccessor : Successor config worker worker')
    {after : Worker} (hafter : after ∈ (t.put i worker').workers) :
    exists before, before ∈ t.workers ∧ Successor config before after := by
  rcases List.mem_or_eq_of_mem_set hafter with hmem | rfl
  · exact ⟨after, hmem, .same after⟩
  · exact ⟨worker, List.mem_of_getElem? hworker, hsuccessor⟩

theorem exists_successor_notifyAll {after : Worker}
    (hafter : after ∈ t.notifyAll.workers) :
    exists before, before ∈ t.workers ∧ Successor config before after := by
  rcases List.mem_map.mp hafter with ⟨before, hbefore, rfl⟩
  exact ⟨before, hbefore, .notified before⟩

theorem exists_successor (hstaged : Staged t) (hstopped : t.running = false)
    (hmoves : Moves config t observation t') {after : Worker}
    (hafter : after ∈ t'.workers) :
    exists before, before ∈ t.workers ∧ Successor config before after := by
  have hsame : after ∈ t.workers ->
      exists before, before ∈ t.workers ∧ Successor config before after :=
    fun hmem => ⟨after, hmem, .same after⟩
  cases hmoves with
  | spawns hcontrol hfew =>
      unfold Staged at hstaged
      simp only [hcontrol] at hstaged
      rw [hstaged.left] at hstopped
      cases hstopped
  | yields hworker hqueue hrunning =>
      rw [hstopped] at hrunning
      cases hrunning
  | closes hcontrol hall => cases hafter
  | locks hworker hfree => exact exists_successor_put hworker .locks hafter
  | @sends i message rest hworker hqueue =>
      exact exists_successor_put hworker (.sends message) hafter
  | exits hworker hqueue hstopped => exact exists_successor_put hworker .exits hafter
  | suspends hworker => exact exists_successor_put hworker .suspends hafter
  | wakes hworker => exact exists_successor_put hworker .wakes hafter
  | proceeds hworker hproceeds =>
      exact exists_successor_put hworker (.proceeds hproceeds) hafter
  | notifies hcontrol => exact exists_successor_notifyAll hafter
  | announces hticker => exact exists_successor_notifyAll hafter
  | repeats hidle => exact hsame hafter
  | starts hidle hstopped => exact hsame hafter
  | serves hcontrol => exact hsame hafter
  | launches hcontrol hall => exact hsame hafter
  | reports hcontrol => exact hsame hafter
  | fails hcontrol => exact hsame hafter
  | abandons hcontrol => exact hsame hafter
  | stops hidle hrunning => exact hsame hafter
  | clears hcontrol hfree => exact hsame hafter
  | joinsTicker hcontrol hticker => exact hsame hafter
  | joinsWorker hcontrol hworker => exact hsame hafter
  | ticks hticker => exact hsame hafter
  | takes messages hticker => exact hsame hafter
  | enqueues hticker hfree => exact hsame hafter
  | throws hthread => exact hsame hafter
  | refuses hworker hprepare => exact hsame hafter

theorem Successor.ne_suspending {before after : Worker} (h : Successor config before after)
    (hbefore : before ≠ .suspending) : after ≠ .suspending := by
  cases h with
  | same => exact hbefore
  | notified => cases before <;> simp_all [Worker.notified]
  | proceeds hproceeds =>
      intro heq
      exact hproceeds.not_locked.right (Or.inr heq)
  | locks => simp
  | sends message => simp
  | exits => simp
  | suspends => simp
  | wakes => simp

theorem Successor.ne_waiting {before after : Worker} (h : Successor config before after)
    (hcalm : before ≠ .suspending) (hbefore : before ≠ .waiting) : after ≠ .waiting := by
  cases h with
  | same => exact hbefore
  | notified => cases before <;> simp_all [Worker.notified]
  | suspends => exact absurd rfl hcalm
  | proceeds hproceeds =>
      cases hproceeds with
      | concludes message number ticket call reply =>
          unfold Sending.conclude
          split
          · simp
          · split <;> simp
      | skips hnone => simp
      | begins ticket hcall => simp
      | resumes message number ticket call => simp
      | responds message rpc => simp
  | locks => simp
  | sends message => simp
  | exits => simp
  | wakes => simp

theorem calm_moves (h : Calm t) (hstaged : Staged t) (hstopped : t.running = false)
    (hmoves : Moves config t observation t') : Calm t' := by
  intro worker hworker
  rcases exists_successor hstaged hstopped hmoves hworker with
    ⟨before, hbefore, hsuccessor⟩
  exact hsuccessor.ne_suspending (h before hbefore)

theorem awake_moves (h : Awake t) (hstaged : Staged t) (hstopped : t.running = false)
    (hmoves : Moves config t observation t') : Awake t' := by
  intro worker hworker
  rcases exists_successor hstaged hstopped hmoves hworker with
    ⟨before, hbefore, hsuccessor⟩
  rcases h before hbefore with ⟨hcalm, hawake⟩
  exact ⟨hsuccessor.ne_suspending hcalm, hsuccessor.ne_waiting hcalm hawake⟩

/-- The notification of the call reaches, or has reached, every worker. -/
def Roused (ending : Ending) (t : Threads) : Prop :=
  match t.control with
  | .notifying other => other = ending -> Calm t
  | .joiningTicker other => other = ending -> Awake t
  | .joiningWorkers other _ => other = ending -> Awake t
  | _ => True

theorem roused_beside {ending : Ending} (h : Roused ending t) (hstaged : Staged t)
    (hmoves : Moves config t observation t') (hcontrol : t'.control = t.control) :
    Roused ending t' := by
  unfold Roused at h ⊢
  have hstage := hstaged
  unfold Staged at hstage
  rw [hcontrol]
  cases hwhere : t.control with
  | notifying other =>
      simp only [hwhere] at h hstage
      exact fun heq => calm_moves (h heq) hstaged hstage hmoves
  | joiningTicker other =>
      simp only [hwhere] at h hstage
      exact fun heq => awake_moves (h heq) hstaged hstage hmoves
  | joiningWorkers other joined =>
      simp only [hwhere] at h hstage
      exact fun heq => awake_moves (h heq) hstaged hstage.left hmoves
  | idle => trivial
  | startingServer => trivial
  | startingWorkers => trivial
  | reporting => trivial
  | abandoning => trivial
  | clearing => trivial

/-- `stop` comes to its notification through the mutex; a failed `start` does not. -/
theorem roused_moves {ending : Ending} (h : Roused ending t) (hexclusive : Exclusive t)
    (hstaged : Staged t) (hentry : ending = .stop ∨ t.control ≠ .abandoning)
    (hmoves : Moves config t observation t') : Roused ending t' := by
  have hbeside := roused_beside h hstaged hmoves
  cases hmoves with
  | abandons hcontrol =>
      intro heq
      rcases hentry with hstop | hne
      · rw [hstop] at heq
        cases heq
      · exact absurd hcontrol hne
  | clears hcontrol hfree => exact fun _ => calm_of_free hexclusive hfree
  | notifies hcontrol =>
      unfold Roused at h
      simp only [hcontrol] at h
      exact fun heq => awake_notifyAll (h heq)
  | joinsTicker hcontrol hticker =>
      unfold Roused at h
      simp only [hcontrol] at h
      exact h
  | joinsWorker hcontrol hworker =>
      unfold Roused at h
      simp only [hcontrol] at h
      exact h
  | starts hidle hstopped => trivial
  | serves hcontrol => trivial
  | launches hcontrol hall => trivial
  | reports hcontrol => trivial
  | fails hcontrol => trivial
  | stops hidle hrunning => trivial
  | closes hcontrol hall => trivial
  | repeats hidle => exact hbeside rfl
  | spawns hcontrol hfew => exact hbeside rfl
  | ticks hticker => exact hbeside rfl
  | takes messages hticker => exact hbeside rfl
  | enqueues hticker hfree => exact hbeside rfl
  | announces hticker => exact hbeside rfl
  | locks hworker hfree => exact hbeside rfl
  | sends hworker hqueue => exact hbeside rfl
  | yields hworker hqueue hrunning => exact hbeside rfl
  | exits hworker hqueue hstopped => exact hbeside rfl
  | suspends hworker => exact hbeside rfl
  | wakes hworker => exact hbeside rfl
  | proceeds hworker hproceeds => exact hbeside rfl
  | throws hthread => exact hbeside rfl
  | refuses hworker hprepare => exact hbeside rfl

end Threads

/-!
# What is left to do

Once the flag is cleared, every step brings the threads closer to their end.  The
ticker goes through its loop at most once more and may fill the queue again, so
what it has left weighs more than anything the workers do.
-/

def Ticker.rank : Ticker -> Nat
  | .absent => 0
  | .returned => 1
  | .testing => 2
  | .sleeping => 2
  | .notifying => 3
  | .enqueueing _ => 4
  | .taking => 5
  | .ticking => 6

def Sending.rank : Sending -> Nat
  | .calling => 9
  | .attempting number _ _ => 2 * (NodeRuntime.clientOptions.maxAttempts - number) + 6
  | .pausing number _ => 2 * (NodeRuntime.clientOptions.maxAttempts - number) + 5
  | .responding _ => 4

def Worker.rank : Worker -> Nat
  | .suspending => 5
  | .waiting => 4
  | .locking => 3
  | .testing => 2
  | .returned => 0
  | .sending _ phase => phase.rank

def Worker.ranks : List Worker -> Nat
  | [] => 0
  | worker :: workers => worker.rank + ranks workers

def Control.rank (workers : Nat) : Control -> Nat
  | .clearing => workers + 4
  | .notifying _ => workers + 3
  | .joiningTicker _ => workers + 2
  | .joiningWorkers _ joined => workers + 1 - joined
  | _ => 0

namespace Threads

def rank (t : Threads) : Nat × Nat × Nat :=
  (t.ticker.rank, t.control.rank t.workers.length,
    8 * t.queue.length + Worker.ranks t.workers)

def Below : Nat × Nat × Nat -> Nat × Nat × Nat -> Prop :=
  Prod.Lex (· < ·) (Prod.Lex (· < ·) (· < ·))

theorem wellFounded_below : WellFounded Below :=
  WellFounded.prod_lex Nat.lt_wfRel.wf (WellFounded.prod_lex Nat.lt_wfRel.wf Nat.lt_wfRel.wf)

end Threads

theorem Worker.ranks_set {workers : List Worker} {i : Nat} {worker : Worker}
    (worker' : Worker) (hworker : workers[i]? = some worker) :
    ranks (workers.set i worker') + worker.rank = ranks workers + worker'.rank := by
  induction workers generalizing i with
  | nil => simp at hworker
  | cons first rest ih =>
      cases i with
      | zero =>
          cases hworker
          simp only [List.set_cons_zero, ranks]
          lia
      | succ i =>
          have hrest := ih (i := i) hworker
          simp only [List.set_cons_succ, ranks]
          lia

theorem Worker.Proceeds.rank_lt {worker worker' : Worker}
    (h : worker.Proceeds config worker') (hfit : worker.Fit) :
    worker'.rank < worker.rank := by
  cases h with
  | skips hnone => simp [Worker.rank, Sending.rank]
  | begins ticket hcall => simp [Worker.rank, Sending.rank, NodeRuntime.clientOptions]
  | resumes message number ticket call =>
      unfold Worker.Fit at hfit
      simp only [Worker.rank, Sending.rank]
      lia
  | concludes message number ticket call reply =>
      unfold Sending.conclude
      split
      · simp only [Worker.rank, Sending.rank]
        lia
      · split
        · simp only [Worker.rank, Sending.rank]
          lia
        · simp only [Worker.rank, Sending.rank]
          lia
  | responds message rpc => simp [Worker.rank, Sending.rank]

theorem Ticker.Proceeds.rank_lt {ticker ticker' : Ticker}
    (h : ticker.Proceeds false ticker') : ticker'.rank < ticker.rank := by
  cases h <;> decide

namespace Threads

theorem below_put {i : Nat} {worker worker' : Worker} {holder : Option Nat}
    {queue : List Message} (hworker : t.workers[i]? = some worker)
    (hless : 8 * queue.length + worker'.rank < 8 * t.queue.length + worker.rank) :
    Below { t.put i worker' with holder := holder, queue := queue }.rank t.rank := by
  have hset := Worker.ranks_set worker' hworker
  unfold rank put
  simp only [List.length_set]
  refine Prod.Lex.right _ (Prod.Lex.right _ ?_)
  lia

/--
Every step inside a call that ends the threads is a step towards its end, unless it
ends the process.
-/
theorem below_moves (hfitting : Fitting t) (hstaged : Staged t)
    (hstopped : t.running = false) (hbusy : t.control ≠ .idle)
    (hmoves : Moves config t observation t') (halive : t'.terminated = false) :
    Below t'.rank t.rank := by
  have hrunning : t.running ≠ true := by
    rw [hstopped]
    exact Bool.false_ne_true
  unfold Staged at hstaged
  cases hmoves with
  | repeats hidle => exact absurd hidle hbusy
  | starts hidle hstopped => exact absurd hidle hbusy
  | stops hidle hrunning => exact absurd hidle hbusy
  | serves hcontrol =>
      simp only [hcontrol] at hstaged
      exact absurd hstaged.left hrunning
  | spawns hcontrol hfew =>
      simp only [hcontrol] at hstaged
      exact absurd hstaged.left hrunning
  | launches hcontrol hall =>
      simp only [hcontrol] at hstaged
      exact absurd hstaged.left hrunning
  | reports hcontrol =>
      simp only [hcontrol] at hstaged
      exact absurd hstaged hrunning
  | fails hcontrol =>
      rcases hcontrol with hcontrol | hcontrol | hcontrol
      · simp only [hcontrol] at hstaged
        exact absurd hstaged.left hrunning
      · simp only [hcontrol] at hstaged
        exact absurd hstaged.left hrunning
      · simp only [hcontrol] at hstaged
        exact absurd hstaged hrunning
  | abandons hcontrol =>
      simp only [hcontrol] at hstaged
      exact absurd hstaged hrunning
  | clears hcontrol hfree =>
      refine Prod.Lex.right _ (Prod.Lex.left _ _ ?_)
      simp [hcontrol, Control.rank]
  | notifies hcontrol =>
      refine Prod.Lex.right _ (Prod.Lex.left _ _ ?_)
      simp [hcontrol, Control.rank, notifyAll]
  | joinsTicker hcontrol hticker =>
      rcases hticker with hticker | hticker
      · unfold rank
        rw [hticker]
        refine Prod.Lex.right _ (Prod.Lex.left _ _ ?_)
        simp [hcontrol, Control.rank]
      · refine Prod.Lex.left _ _ ?_
        simp [hticker, Ticker.rank]
  | joinsWorker hcontrol hworker =>
      have hlength := (List.getElem?_eq_some_iff.mp hworker).choose
      refine Prod.Lex.right _ (Prod.Lex.left _ _ ?_)
      simp only [hcontrol, Control.rank]
      lia
  | @closes ending joined hcontrol hall =>
      simp only [hcontrol] at hstaged
      have hjoined : joined <= t.workers.length := by
        by_contra hmore
        have hlast := hstaged.right.right t.workers.length (Nat.lt_of_not_le hmore)
        simp at hlast
      refine Prod.Lex.right _ (Prod.Lex.left _ _ ?_)
      simp only [hcontrol, Control.rank]
      lia
  | ticks hticker =>
      rw [hstopped] at hticker
      exact Prod.Lex.left _ _ hticker.rank_lt
  | takes messages hticker =>
      refine Prod.Lex.left _ _ ?_
      simp [hticker, Ticker.rank]
  | enqueues hticker hfree =>
      refine Prod.Lex.left _ _ ?_
      simp [hticker, Ticker.rank]
  | announces hticker =>
      refine Prod.Lex.left _ _ ?_
      simp [hticker, Ticker.rank]
  | locks hworker hfree =>
      exact below_put hworker (Nat.add_lt_add_left (by decide) _)
  | @sends i message rest hworker hqueue =>
      refine below_put hworker ?_
      rw [hqueue]
      simp only [Worker.rank, Sending.rank, List.length_cons]
      lia
  | yields hworker hqueue hrunning =>
      rw [hstopped] at hrunning
      cases hrunning
  | exits hworker hqueue hstopped =>
      exact below_put hworker (Nat.add_lt_add_left (by decide) _)
  | suspends hworker => exact below_put hworker (Nat.add_lt_add_left (by decide) _)
  | wakes hworker => exact below_put hworker (Nat.add_lt_add_left (by decide) _)
  | proceeds hworker hproceeds =>
      exact below_put hworker (Nat.add_lt_add_left
        (hproceeds.rank_lt (hfitting _ (List.mem_of_getElem? hworker))) _)
  | throws hthread => cases halive
  | refuses hworker hprepare => cases halive

theorem stopped_moves (hstopped : t.running = false) (hbusy : t.control ≠ .idle)
    (hmoves : Moves config t observation t') : t'.running = false := by
  cases hmoves with
  | starts hidle hstopped => exact absurd hidle hbusy
  | repeats hidle => exact hstopped
  | serves hcontrol => exact hstopped
  | spawns hcontrol hfew => exact hstopped
  | launches hcontrol hall => exact hstopped
  | reports hcontrol => exact hstopped
  | fails hcontrol => exact hstopped
  | abandons hcontrol => rfl
  | stops hidle hrunning => rfl
  | clears hcontrol hfree => exact hstopped
  | notifies hcontrol => exact hstopped
  | joinsTicker hcontrol hticker => exact hstopped
  | joinsWorker hcontrol hworker => exact hstopped
  | closes hcontrol hall => exact hstopped
  | ticks hticker => exact hstopped
  | takes messages hticker => exact hstopped
  | enqueues hticker hfree => exact hstopped
  | announces hticker => exact hstopped
  | locks hworker hfree => exact hstopped
  | sends hworker hqueue => exact hstopped
  | yields hworker hqueue hrunning => exact hstopped
  | exits hworker hqueue hstopped' => exact hstopped
  | suspends hworker => exact hstopped
  | wakes hworker => exact hstopped
  | proceeds hworker hproceeds => exact hstopped
  | throws hthread => exact hstopped
  | refuses hworker hprepare => exact hstopped

/-!
# Schedules
-/

def Steps (config : NodeRuntimeConfig) (t t' : Threads) : Prop :=
  exists action, t.next config action = some t'

/-- One moment of a schedule; after the end of the process nothing changes. -/
def Goes (config : NodeRuntimeConfig) (t t' : Threads) : Prop :=
  Steps config t t' ∨ t.terminated = true ∧ t' = t

def Reachable (config : NodeRuntimeConfig) : Threads -> Prop :=
  Relation.ReflTransGen (Steps config) {}

structure Sound (t : Threads) : Prop where
  staged : Staged t
  exclusive : Exclusive t
  fitting : Fitting t

theorem sound_steps (h : Sound t) (hsteps : Steps config t t') : Sound t' := by
  rcases hsteps with ⟨action, hnext⟩
  have hmoves := moves_of_next hnext
  exact ⟨staged_moves h.staged hmoves, exclusive_moves h.exclusive h.staged hmoves,
    fitting_moves h.fitting hmoves⟩

theorem sound_initial : Sound {} := by
  refine ⟨fun _ => ⟨rfl, rfl, rfl⟩, ?_, ?_⟩
  · intro i
    simp
  · intro worker hworker
    cases hworker

theorem sound_reachable (h : Reachable config t) : Sound t := by
  induction h with
  | refl => exact sound_initial
  | tail hreachable hsteps ih => exact sound_steps ih hsteps

theorem roused_reachable (h : Reachable config t) : Roused .stop t := by
  induction h with
  | refl => trivial
  | tail hreachable hsteps ih =>
      have hsound := sound_reachable hreachable
      rcases hsteps with ⟨action, hnext⟩
      exact roused_moves ih hsound.exclusive hsound.staged (Or.inl rfl)
        (moves_of_next hnext)

theorem eventually_idle {states : Nat -> Threads} (hsound : Sound (states 0))
    (hstopped : (states 0).running = false)
    (hgoes : forall k, Goes config (states k) (states (k + 1))) :
    exists k, (states k).terminated = true ∨
      (states k).control = .idle ∧ (states k).running = false ∧ Sound (states k) := by
  generalize hrank : (states 0).rank = rank
  induction rank using wellFounded_below.induction generalizing states with
  | _ rank ih =>
      by_cases hidle : (states 0).control = .idle
      · exact ⟨0, Or.inr ⟨hidle, hstopped, hsound⟩⟩
      · rcases hgoes 0 with hsteps | ⟨hended, _⟩
        · have hlater := sound_steps hsound hsteps
          rcases hsteps with ⟨action, hnext⟩
          have hmoves := moves_of_next hnext
          by_cases hended : (states (0 + 1)).terminated = true
          · exact ⟨0 + 1, Or.inl hended⟩
          · have hbelow := below_moves hsound.fitting hsound.staged hstopped hidle hmoves
              (Bool.eq_false_iff.mpr hended)
            rw [hrank] at hbelow
            rcases @ih _ hbelow (fun k => states (k + 1)) hlater
              (stopped_moves hstopped hidle hmoves) (fun k => hgoes (k + 1)) rfl with
              ⟨k, hk⟩
            exact ⟨k + 1, hk⟩
        · exact ⟨0, Or.inl hended⟩

/-!
# Progress
-/

/-- Some thread can take a step; no wait has to end by itself, and no node to throw. -/
def Enabled (config : NodeRuntimeConfig) (t : Threads) : Prop :=
  exists action, (t.next config action).isSome ∧ (forall i, action ≠ .wake i) ∧
    forall worker, action ≠ .throws worker

section Enabled

variable (halive : t.terminated = false)

include halive

theorem enabled_of_step (action : Action) (hstep : (t.step config action).isSome)
    (hwake : forall i, action ≠ .wake i) (hthrows : forall worker, action ≠ .throws worker) :
    Enabled config t := by
  refine ⟨action, ?_, hwake, hthrows⟩
  unfold next
  rw [halive]
  exact hstep

theorem enabled_control (h : (t.stepControl config).isSome) : Enabled config t :=
  enabled_of_step halive .control h (by simp) (by simp)

theorem enabled_ticker (h : t.stepTicker.isSome) : Enabled config t :=
  enabled_of_step halive .ticker h (by simp) (by simp)

theorem enabled_worker {i : Nat} (h : (t.stepWorker i).isSome) : Enabled config t :=
  enabled_of_step halive (.worker i) h (by simp) (by simp)

theorem enabled_locked {i : Nat} {worker : Worker} (hworker : t.workers[i]? = some worker)
    (hlocked : worker.Locked) : Enabled config t := by
  apply enabled_worker halive (i := i)
  unfold stepWorker
  rw [hworker]
  rcases hlocked with rfl | rfl
  · cases t.queue with
    | nil => cases t.running <;> rfl
    | cons message rest => rfl
  · rfl

theorem enabled_of_free (hexclusive : Exclusive t)
    (hfree : t.holder = none -> Enabled config t) : Enabled config t := by
  cases hholder : t.holder with
  | none => exact hfree hholder
  | some i =>
      rcases (hexclusive i).mp hholder with ⟨worker, hworker, hlocked⟩
      exact enabled_locked halive hworker hlocked

theorem enabled_ticker_of_present (hexclusive : Exclusive t) (habsent : t.ticker ≠ .absent)
    (hreturned : t.ticker ≠ .returned) : Enabled config t := by
  cases hticker : t.ticker with
  | absent => exact absurd hticker habsent
  | returned => exact absurd hticker hreturned
  | testing =>
      apply enabled_ticker halive
      simp [stepTicker, hticker]
  | sleeping =>
      apply enabled_ticker halive
      simp [stepTicker, hticker]
  | ticking =>
      exact enabled_of_step halive .ticked (by simp [step, hticker]) (by simp) (by simp)
  | taking =>
      exact enabled_of_step halive (.taken []) (by simp [step, hticker]) (by simp)
        (by simp)
  | notifying =>
      apply enabled_ticker halive
      simp [stepTicker, hticker]
  | enqueueing messages =>
      refine enabled_of_free halive hexclusive ?_
      intro hfree
      apply enabled_ticker halive
      cases messages with
      | nil => simp [stepTicker, hticker]
      | cons message messages => simp [stepTicker, hticker, hfree]

theorem enabled_sending {i : Nat} {message : Message} {phase : Sending}
    (hworker : t.workers[i]? = some (.sending message phase)) : Enabled config t := by
  cases phase with
  | calling =>
      refine enabled_of_step halive (.call i 0) ?_ (by simp) (by simp)
      simp only [step, stepCall, hworker]
      cases prepare config message with
      | error fault => rfl
      | ok call? => cases call? <;> rfl
  | attempting number ticket call =>
      refine enabled_of_step halive
        (.conclude i ⟨⟨.deadlineExceeded, ""⟩, .requestVote {}⟩) ?_ (by simp) (by simp)
      simp [step, hworker]
  | pausing number call =>
      exact enabled_of_step halive (.call i 0) (by simp [step, stepCall, hworker])
        (by simp) (by simp)
  | responding rpc =>
      exact enabled_of_step halive (.responded i) (by simp [step, hworker]) (by simp)
        (by simp)

theorem enabled_or_blocked (h : Sound t) (hstopped : t.running = false)
    (hbusy : t.control ≠ .idle) :
    Enabled config t ∨ exists ending joined,
      t.control = .joiningWorkers ending joined ∧ t.workers[joined]? = some .waiting := by
  have hrunning : t.running ≠ true := by
    rw [hstopped]
    exact Bool.false_ne_true
  have hstaged := h.staged
  unfold Staged at hstaged
  cases hcontrol : t.control with
  | idle => exact absurd hcontrol hbusy
  | startingServer =>
      simp only [hcontrol] at hstaged
      exact absurd hstaged.left hrunning
  | startingWorkers =>
      simp only [hcontrol] at hstaged
      exact absurd hstaged.left hrunning
  | reporting =>
      simp only [hcontrol] at hstaged
      exact absurd hstaged hrunning
  | abandoning =>
      simp only [hcontrol] at hstaged
      exact absurd hstaged hrunning
  | clearing =>
      left
      refine enabled_of_free halive h.exclusive ?_
      intro hfree
      apply enabled_control halive
      simp [stepControl, hcontrol, hfree]
  | notifying ending =>
      left
      apply enabled_control halive
      simp [stepControl, hcontrol]
  | joiningTicker ending =>
      left
      by_cases hticker : t.ticker = .absent ∨ t.ticker = .returned
      · apply enabled_control halive
        simp [stepControl, hcontrol, hticker]
      · exact enabled_ticker_of_present halive h.exclusive (fun heq => hticker (Or.inl heq))
          (fun heq => hticker (Or.inr heq))
  | joiningWorkers ending joined =>
      cases hworker : t.workers[joined]? with
      | none =>
          left
          apply enabled_control halive
          simp [stepControl, hcontrol, hworker]
      | some worker =>
          cases worker with
          | waiting => exact Or.inr ⟨ending, joined, rfl, hworker⟩
          | returned =>
              left
              apply enabled_control halive
              simp [stepControl, hcontrol, hworker]
          | locking =>
              left
              refine enabled_of_free halive h.exclusive ?_
              intro hfree
              apply enabled_worker halive (i := joined)
              simp [stepWorker, hworker, hfree]
          | testing => exact Or.inl (enabled_locked halive hworker (Or.inl rfl))
          | suspending => exact Or.inl (enabled_locked halive hworker (Or.inr rfl))
          | sending message phase =>
              exact Or.inl (enabled_sending halive hworker)

theorem enabled_of_roused {ending : Ending} (h : Sound t)
    (hstopped : t.running = false) (hbusy : t.control ≠ .idle)
    (hroused : Roused ending t)
    (hending : forall other joined, t.control = .joiningWorkers other joined ->
      other = ending) : Enabled config t := by
  rcases enabled_or_blocked halive h hstopped hbusy with
    henabled | ⟨other, joined, hcontrol, hwaits⟩
  · exact henabled
  · unfold Roused at hroused
    simp only [hcontrol] at hroused
    have hawake := hroused (hending other joined hcontrol) _ (List.mem_of_getElem? hwaits)
    exact absurd rfl hawake.right

end Enabled

end Threads

/-!
# Stopping
-/

def Control.ending : Control -> Option Ending
  | .clearing => some .stop
  | .notifying ending => some ending
  | .joiningTicker ending => some ending
  | .joiningWorkers ending _ => some ending
  | _ => none

namespace Threads

theorem stopped_of_ending {ending : Ending} (hstaged : Staged t)
    (hending : t.control.ending = some ending) :
    t.running = false ∧ t.control ≠ .idle := by
  unfold Staged at hstaged
  cases hcontrol : t.control with
  | clearing =>
      simp only [hcontrol] at hstaged
      exact ⟨hstaged, by simp⟩
  | notifying other =>
      simp only [hcontrol] at hstaged
      exact ⟨hstaged, by simp⟩
  | joiningTicker other =>
      simp only [hcontrol] at hstaged
      exact ⟨hstaged, by simp⟩
  | joiningWorkers other joined =>
      simp only [hcontrol] at hstaged
      exact ⟨hstaged.left, by simp⟩
  | idle => simp [hcontrol, Control.ending] at hending
  | startingServer => simp [hcontrol, Control.ending] at hending
  | startingWorkers => simp [hcontrol, Control.ending] at hending
  | reporting => simp [hcontrol, Control.ending] at hending
  | abandoning => simp [hcontrol, Control.ending] at hending

def Ended (t : Threads) : Prop :=
  t.control = .idle ∧ t.running = false ∧ t.ticker = .absent ∧ t.workers = [] ∧
    t.serving = false

theorem eventually_ended {states : Nat -> Threads} (hsound : Sound (states 0))
    (hstopped : (states 0).running = false)
    (hgoes : forall k, Goes config (states k) (states (k + 1))) :
    exists k, Ended (states k) ∨ (states k).terminated = true := by
  rcases eventually_idle hsound hstopped hgoes with
    ⟨k, hended | ⟨hidle, hstill, hlater⟩⟩
  · exact ⟨k, Or.inr hended⟩
  · have hstaged := hlater.staged
    unfold Staged at hstaged
    simp only [hidle] at hstaged
    rcases hstaged hstill with ⟨hworkers, hticker, hserving⟩
    exact ⟨k, Or.inl ⟨hidle, hstill, hticker, hworkers, hserving⟩⟩

/--
`stop` comes to its end unless the process does.  From whatever state it is called in
and however the threads are scheduled, some thread can go on until it returns, and
after finitely many steps it has returned, with every thread joined and the server
down, or an exception has left a thread and has ended the process.
-/
theorem stop_returns (hreachable : Reachable config t)
    (hstop : t.control.ending = some .stop) :
    (t.terminated = false -> Enabled config t) ∧
      forall states : Nat -> Threads, states 0 = t ->
        (forall k, Goes config (states k) (states (k + 1))) ->
          exists k, Ended (states k) ∨ (states k).terminated = true := by
  have hsound := sound_reachable hreachable
  rcases stopped_of_ending hsound.staged hstop with ⟨hstopped, hbusy⟩
  constructor
  · intro halive
    refine enabled_of_roused halive hsound hstopped hbusy (roused_reachable hreachable) ?_
    intro other joined hcontrol
    rw [hcontrol] at hstop
    exact Option.some.inj hstop
  · intro states hfirst hgoes
    rw [← hfirst] at hsound hstopped
    exact eventually_ended hsound hstopped hgoes

theorem reachable_follow {actions : List Action} {more : List Observation}
    (hreachable : Reachable config t)
    (hfollow : t.follow config actions = some (more, t')) : Reachable config t' := by
  induction actions generalizing t more with
  | nil =>
      cases hfollow
      exact hreachable
  | cons action actions ih =>
      unfold follow at hfollow
      cases hnext : t.next config action with
      | none => simp [hnext] at hfollow
      | some t1 =>
          simp only [hnext, Option.map_eq_some_iff, Prod.exists, Prod.mk.injEq] at hfollow
          rcases hfollow with ⟨rest, last, hrest, _, rfl⟩
          exact ih (hreachable.tail ⟨action, hnext⟩) hrest

def stopBeforeWait : List Action :=
  [.start, .control, .control, .worker 0, .worker 0, .control, .control, .stop]

theorem stop_returns_stopBeforeWait : exists t,
    Reachable pairRuntime.config t ∧ t.workers = [.suspending] ∧
      Enabled pairRuntime.config t ∧
      forall states : Nat -> Threads, states 0 = t ->
        (forall k, Goes pairRuntime.config (states k) (states (k + 1))) ->
          exists k, Ended (states k) ∨ (states k).terminated = true := by
  have hfollow : exists seen t,
      ({} : Threads).follow pairRuntime.config stopBeforeWait = some (seen, t) ∧
        t.workers = [.suspending] ∧ t.control.ending = some .stop ∧
        t.terminated = false :=
    ⟨_, _, rfl, rfl, rfl, rfl⟩
  rcases hfollow with ⟨seen, t, hfollow, hworkers, hending, halive⟩
  have hreachable : Reachable pairRuntime.config t := reachable_follow .refl hfollow
  rcases stop_returns hreachable hending with ⟨henabled, hends⟩
  exact ⟨t, hreachable, hworkers, henabled halive, hends⟩

/-!
# Starts that fail
-/

/-- The states that a call goes through before it returns. -/
def Within (config : NodeRuntimeConfig) (ending : Ending) : Threads -> Threads -> Prop :=
  Relation.ReflTransGen fun t t' => Steps config t t' ∧ t'.control.ending = some ending

def Unprompted (config : NodeRuntimeConfig) : Threads -> Threads -> Prop :=
  Relation.ReflTransGen fun t t' => exists action,
    t.next config action = some t' ∧ forall i, action ≠ .wake i

theorem observe_ne_wakes {action : Action} (h : forall i, action ≠ .wake i) (i : Nat) :
    t.observe action ≠ .wakes i := by
  cases action with
  | wake j => exact absurd rfl (h j)
  | worker j =>
      simp only [observe]
      split
      · cases t.queue <;> simp
      · simp
  | control =>
      simp only [observe]
      split <;> simp
  | start => simp [observe]
  | stop => simp [observe]
  | fail => simp [observe]
  | ticker => simp [observe]
  | ticked => simp [observe]
  | taken messages => simp [observe]
  | call j ticket => simp [observe]
  | conclude j reply => simp [observe]
  | responded j => simp [observe]
  | throws worker => simp [observe]

theorem roused_within {ending : Ending} (h : Within config ending t t')
    (hsound : Sound t) (hending : t.control.ending = some ending)
    (hroused : Roused ending t) :
    Sound t' ∧ t'.control.ending = some ending ∧ Roused ending t' := by
  induction h with
  | refl => exact ⟨hsound, hending, hroused⟩
  | tail hwithin hsteps ih =>
      rcases ih with ⟨hsound, hending, hroused⟩
      rcases hsteps with ⟨hsteps, hending'⟩
      refine ⟨sound_steps hsound hsteps, hending', ?_⟩
      rcases hsteps with ⟨action, hnext⟩
      refine roused_moves hroused hsound.exclusive hsound.staged (Or.inr ?_)
        (moves_of_next hnext)
      intro habandoning
      rw [habandoning] at hending
      cases hending

/-- A worker of a failed start that is blocked, or is about to block, for good. -/
structure Stranded (i : Nat) (t : Threads) : Prop where
  control : t.control = .joiningTicker .start ∨
    exists joined, joined <= i ∧ t.control = .joiningWorkers .start joined
  ticker : t.ticker = .absent
  worker : t.workers[i]? = some .suspending ∨ t.workers[i]? = some .waiting

theorem Stranded.ending {i : Nat} (h : Stranded i t) :
    t.control.ending = some .start := by
  rcases h.control with hcontrol | ⟨joined, -, hcontrol⟩ <;> rw [hcontrol] <;> rfl

theorem stranded_put {i j : Nat} {worker worker' : Worker} {holder : Option Nat}
    {queue : List Message} (h : Stranded i t) (hworker : t.workers[j]? = some worker)
    (hcalm : worker ≠ .suspending) (hawake : worker ≠ .waiting) :
    Stranded i { t.put j worker' with holder := holder, queue := queue } := by
  refine ⟨h.control, h.ticker, ?_⟩
  have hne : j ≠ i := by
    intro heq
    subst heq
    rcases h.worker with hself | hself
    · rw [hworker] at hself
      exact hcalm (Option.some.inj hself)
    · rw [hworker] at hself
      exact hawake (Option.some.inj hself)
  rw [getElem?_put_of_ne hne]
  exact h.worker

theorem stranded_moves {i : Nat} (h : Stranded i t)
    (hmoves : Moves config t observation t')
    (hunprompted : forall j, observation ≠ .wakes j) : Stranded i t' := by
  have hending := h.ending
  cases hmoves with
  | joinsTicker hcontrol hticker =>
      rw [hcontrol] at hending
      cases hending
      exact ⟨Or.inr ⟨0, Nat.zero_le i, rfl⟩, rfl, h.worker⟩
  | @joinsWorker ending joined hcontrol hworker =>
      rcases h.control with hother | ⟨other, hle, hother⟩
      · rw [hcontrol] at hother
        cases hother
      · rw [hcontrol] at hother
        cases hother
        have hne : joined ≠ i := by
          intro heq
          subst heq
          rcases h.worker with hself | hself <;> rw [hworker] at hself <;> cases hself
        exact ⟨Or.inr ⟨joined + 1, by lia, rfl⟩, h.ticker, h.worker⟩
  | @closes ending joined hcontrol hall =>
      rcases h.control with hother | ⟨other, hle, hother⟩
      · rw [hcontrol] at hother
        cases hother
      · rw [hcontrol] at hother
        cases hother
        have hlength := List.getElem?_eq_none_iff.mp hall
        have hnone : t.workers[i]? = none :=
          List.getElem?_eq_none_iff.mpr (Nat.le_trans hlength hle)
        rcases h.worker with hself | hself <;> rw [hnone] at hself <;> cases hself
  | ticks hticker => exact absurd h.ticker hticker.ne_absent
  | takes messages hticker =>
      rw [h.ticker] at hticker
      cases hticker
  | enqueues hticker hfree =>
      rw [h.ticker] at hticker
      cases hticker
  | announces hticker =>
      rw [h.ticker] at hticker
      cases hticker
  | locks hworker hfree => exact stranded_put h hworker (by simp) (by simp)
  | sends hworker hqueue => exact stranded_put h hworker (by simp) (by simp)
  | yields hworker hqueue hrunning => exact stranded_put h hworker (by simp) (by simp)
  | exits hworker hqueue hstopped => exact stranded_put h hworker (by simp) (by simp)
  | @suspends j hworker =>
      refine ⟨h.control, h.ticker, ?_⟩
      by_cases hij : j = i
      · subst hij
        exact Or.inr (getElem?_put_self hworker)
      · change (t.put j .waiting).workers[i]? = _ ∨ (t.put j .waiting).workers[i]? = _
        rw [getElem?_put_of_ne hij]
        exact h.worker
  | wakes hworker => exact absurd rfl (hunprompted _)
  | proceeds hworker hproceeds =>
      refine stranded_put h hworker ?_ ?_
      · intro heq
        exact hproceeds.not_locked.left (Or.inr heq)
      · intro heq
        subst heq
        cases hproceeds
  | repeats hidle =>
      rw [hidle] at hending
      cases hending
  | starts hidle hstopped =>
      rw [hidle] at hending
      cases hending
  | stops hidle hrunning =>
      rw [hidle] at hending
      cases hending
  | serves hcontrol =>
      rw [hcontrol] at hending
      cases hending
  | spawns hcontrol hfew =>
      rw [hcontrol] at hending
      cases hending
  | launches hcontrol hall =>
      rw [hcontrol] at hending
      cases hending
  | reports hcontrol =>
      rw [hcontrol] at hending
      cases hending
  | fails hcontrol =>
      rcases hcontrol with hcontrol | hcontrol | hcontrol <;> rw [hcontrol] at hending <;>
        cases hending
  | abandons hcontrol =>
      rw [hcontrol] at hending
      cases hending
  | clears hcontrol hfree =>
      rw [hcontrol] at hending
      cases hending
  | notifies hcontrol =>
      rcases h.control with hother | ⟨joined, -, hother⟩ <;> rw [hcontrol] at hother <;>
        cases hother
  | throws hthread => exact ⟨h.control, h.ticker, h.worker⟩
  | refuses hworker hprepare => exact ⟨h.control, h.ticker, h.worker⟩

theorem stranded_unprompted {i : Nat} (h : Unprompted config t t')
    (hstranded : Stranded i t) : Stranded i t' := by
  induction h with
  | refl => exact hstranded
  | tail hunprompted hstep ih =>
      rcases hstep with ⟨action, hnext, hnone⟩
      exact stranded_moves ih (moves_of_next hnext) (observe_ne_wakes hnone)

theorem exists_stranded (h : ¬ Awake t) (hcontrol : t.control = .joiningTicker .start)
    (hticker : t.ticker = .absent) : exists i, Stranded i t := by
  unfold Awake at h
  push Not at h
  rcases h with ⟨worker, hworker, hasleep⟩
  rcases List.mem_iff_getElem?.mp hworker with ⟨i, hi⟩
  refine ⟨i, Or.inl hcontrol, hticker, ?_⟩
  by_cases hsuspending : worker = .suspending
  · rw [hsuspending] at hi
    exact Or.inl hi
  · rw [hasleep hsuspending] at hi
    exact Or.inr hi

/--
How a failed `start` ends depends on the workers that its notification has not
reached.  If there are none it returns, as `stop` does, unless the process ends.  If
there is one and no ticker has been started, the call never returns unless the wait
of that worker ends by itself.
-/
theorem failed_start_returns_iff_awake (hreachable : Reachable config t)
    (hcontrol : t.control = .joiningTicker .start) :
    (Awake t ->
      (forall t', Within config .start t t' -> t'.terminated = false ->
        Enabled config t') ∧
        forall states : Nat -> Threads, states 0 = t ->
          (forall k, Goes config (states k) (states (k + 1))) ->
            exists k, Ended (states k) ∨ (states k).terminated = true) ∧
      (¬ Awake t -> t.ticker = .absent ->
        forall t', Unprompted config t t' -> t'.control.ending = some .start) := by
  have hsound := sound_reachable hreachable
  have hending : t.control.ending = some .start := by
    rw [hcontrol]
    rfl
  constructor
  · intro hawake
    have hroused : Roused .start t := by
      unfold Roused
      rw [hcontrol]
      exact fun _ => hawake
    constructor
    · intro t' hwithin halive
      rcases roused_within hwithin hsound hending hroused with
        ⟨hsound', hending', hroused'⟩
      rcases stopped_of_ending hsound'.staged hending' with ⟨hstopped, hbusy⟩
      refine enabled_of_roused halive hsound' hstopped hbusy hroused' ?_
      intro other joined hother
      rw [hother] at hending'
      exact Option.some.inj hending'
    · intro states hfirst hgoes
      have hstopped := (stopped_of_ending hsound.staged hending).left
      rw [← hfirst] at hsound hstopped
      exact eventually_ended hsound hstopped hgoes
  · intro hasleep hticker t' hunprompted
    rcases exists_stranded hasleep hcontrol hticker with ⟨i, hstranded⟩
    exact (stranded_unprompted hunprompted hstranded).ending

def missedNotification : List Action :=
  [.start, .control, .control, .worker 0, .worker 0, .fail, .control, .control]

theorem failed_start_returns_iff_awake_missed : exists t,
    Reachable pairRuntime.config t ∧ ¬ Awake t ∧
      forall t', Unprompted pairRuntime.config t t' ->
        t'.control.ending = some .start := by
  have hfollow : exists seen t,
      ({} : Threads).follow pairRuntime.config missedNotification = some (seen, t) ∧
        t.workers = [.suspending] ∧ t.control = .joiningTicker .start ∧
        t.ticker = .absent :=
    ⟨_, _, rfl, rfl, rfl, rfl⟩
  rcases hfollow with ⟨seen, t, hfollow, hworkers, hcontrol, hticker⟩
  have hreachable : Reachable pairRuntime.config t := reachable_follow .refl hfollow
  have hasleep : ¬ Awake t := by
    intro hawake
    have hworker := hawake .suspending (by simp [hworkers])
    exact hworker.left rfl
  exact ⟨t, hreachable, hasleep,
    (failed_start_returns_iff_awake hreachable hcontrol).right hasleep hticker⟩

end Threads

end Node
end FTKV
