import Mathlib.Algebra.BigOperators.Group.List.Basic
import Mathlib.Algebra.GroupWithZero.Nat
import Mathlib.Algebra.Order.BigOperators.Group.Finset
import Mathlib.Data.Prod.Lex

/-!
# Messages between parties

Parties keep a state and a queue of outgoing messages.  When a party is handed a
message that was in flight, it changes its state, and what it has queued is sent
off.

## Potentials

Handing over messages comes to an end if each message has a weight and every
handover lowers what its party has left to do, or else replaces the message by
messages of less weight together.  What a party has left to do is counted at two
levels, of which the first takes precedence.
-/

namespace FTKV
namespace Foundation

structure Traffic (party state message : Type) where
  states : party -> state
  inFlight : List message

section Handovers

variable {party state message : Type} [DecidableEq message]

/-- A party is handed a message and queues new ones; its queue is sent off. -/
structure Handover (queue : state -> List message) (s s' : Traffic party state message)
    (p : party) (m : message) (new : List message) : Prop where
  delivered : m ∈ s.inFlight
  others : forall q, q ≠ p -> s'.states q = s.states q
  emptied : queue (s'.states p) = []
  sent : s'.inFlight.Perm (s.inFlight.erase m ++ (queue (s.states p) ++ new))

/-- What makes a handover lower the potential. -/
inductive Spends (rank gap : state -> Nat)
    (weight : (party -> state) -> message -> Nat) (states states' : party -> state)
    (p : party) (m : message) (new : List message) : Prop where
  | rank (hrank : rank (states' p) < rank (states p))
  | gap (hrank : rank (states' p) = rank (states p))
      (hgap : gap (states' p) < gap (states p))
  | weight (hrank : rank (states' p) = rank (states p))
      (hgap : gap (states' p) = gap (states p))
      (hsame : weight states' = weight states)
      (hnew : (new.map (weight states)).sum < weight states m)

variable (parties : Finset party) (queue : state -> List message)
  (rank gap : state -> Nat) (weight : (party -> state) -> message -> Nat)

def load (s : Traffic party state message) : Nat :=
  (s.inFlight.map (weight s.states)).sum +
    ∑ p ∈ parties, ((queue (s.states p)).map (weight s.states)).sum

def potential (s : Traffic party state message) : Nat ×ₗ Nat ×ₗ Nat :=
  toLex (∑ p ∈ parties, rank (s.states p),
    toLex (∑ p ∈ parties, gap (s.states p), load parties queue weight s))

variable {parties queue rank gap weight} {s s' : Traffic party state message}
  {p : party} {m : message} {new : List message}

theorem sum_states_lt {f : state -> Nat} (hp : p ∈ parties)
    (h : Handover queue s s' p m new) (hlt : f (s'.states p) < f (s.states p)) :
    ∑ q ∈ parties, f (s'.states q) < ∑ q ∈ parties, f (s.states q) := by
  refine Finset.sum_lt_sum ?_ ⟨p, hp, hlt⟩
  intro q _
  by_cases hq : q = p
  · rw [hq]
    exact hlt.le
  · rw [h.others q hq]

theorem sum_states_eq {f : state -> Nat} (h : Handover queue s s' p m new)
    (heq : f (s'.states p) = f (s.states p)) :
    ∑ q ∈ parties, f (s'.states q) = ∑ q ∈ parties, f (s.states q) := by
  refine Finset.sum_congr rfl ?_
  intro q _
  by_cases hq : q = p
  · rw [hq, heq]
  · rw [h.others q hq]

theorem load_lt [DecidableEq party] (hp : p ∈ parties) (h : Handover queue s s' p m new)
    (hsame : weight s'.states = weight s.states)
    (hnew : (new.map (weight s.states)).sum < weight s.states m) :
    load parties queue weight s' < load parties queue weight s := by
  have hqueues : ∑ q ∈ parties.erase p, ((queue (s'.states q)).map
      (weight s.states)).sum =
        ∑ q ∈ parties.erase p, ((queue (s.states q)).map (weight s.states)).sum := by
    refine Finset.sum_congr rfl ?_
    intro q hq
    rw [h.others q (Finset.ne_of_mem_erase hq)]
  have hflight := (h.sent.map (weight s.states)).sum_eq
  have htaken := ((List.perm_cons_erase h.delivered).map (weight s.states)).sum_eq
  unfold load
  rw [hsame, ← Finset.add_sum_erase _ _ hp, ← Finset.add_sum_erase _ _ hp, hqueues,
    h.emptied, hflight, htaken]
  simp only [List.map_append, List.sum_append, List.map_cons, List.sum_cons,
    List.map_nil, List.sum_nil]
  lia

theorem potential_lt [DecidableEq party] (hp : p ∈ parties)
    (h : Handover queue s s' p m new)
    (hspends : Spends rank gap weight s.states s'.states p m new) :
    potential parties queue rank gap weight s' <
      potential parties queue rank gap weight s := by
  unfold potential
  cases hspends with
  | rank hrank => exact Prod.Lex.toLex_lt_toLex.mpr (Or.inl (sum_states_lt hp h hrank))
  | gap hrank hgap =>
      refine Prod.Lex.toLex_lt_toLex.mpr (Or.inr ⟨sum_states_eq h hrank, ?_⟩)
      exact Prod.Lex.toLex_lt_toLex.mpr (Or.inl (sum_states_lt hp h hgap))
  | weight hrank hgap hsame hnew =>
      refine Prod.Lex.toLex_lt_toLex.mpr (Or.inr ⟨sum_states_eq h hrank, ?_⟩)
      refine Prod.Lex.toLex_lt_toLex.mpr (Or.inr ⟨sum_states_eq h hgap, ?_⟩)
      exact load_lt hp h hsame hnew

/-- Handovers that spend come to an end. -/
theorem wellFounded_of_spends [DecidableEq party]
    {relation : Traffic party state message -> Traffic party state message -> Prop}
    (hspends : forall s s', relation s s' -> exists p m new, p ∈ parties ∧
      Handover queue s s' p m new ∧
        Spends rank gap weight s.states s'.states p m new) :
    WellFounded (fun s' s => relation s s') := by
  refine Subrelation.wf ?_ (InvImage.wf (potential parties queue rank gap weight)
    wellFounded_lt)
  intro s' s hrelated
  rcases hspends s s' hrelated with ⟨p, m, new, hp, hhandover, hspent⟩
  exact potential_lt hp hhandover hspent

end Handovers

end Foundation
end FTKV
