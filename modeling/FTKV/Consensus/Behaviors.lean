import FTKV.Consensus.Commitment

/-!
# Whole runs of the protocol

In a run every world evolves into all later ones.  What is settled at some point
is therefore held by the same quorum at every later point: the nodes that have
confirmed it lose it only to a leadership that started without it, and there is
none.
-/

namespace FTKV
namespace Consensus

open Foundation

variable {node term entry : Type} [LinearOrder term] [OrderBot term]
  [WellFoundedLT term] [Stamped entry term] {quorums : QuorumSystem node}

theorem take_lead_isPrefix_of_chosen {w : World node term entry}
    (h : Inv quorums w) {t : term} {k : Nat} (hchosen : Chosen quorums w t k)
    {v : node} (hconfirmed : k <= w.receipts v t) :
    (w.lead t).take k <+: (w.replica v).log := by
  rcases h.receipts.kept v t k hconfirmed with hheld | ⟨u, htu, _, hwon, hlost⟩
  · exact hheld
  · exact absurd (chosen_prefix_base h hchosen hwon htu) hlost

/--
What is settled is part of a leadership that no node of some quorum is ahead of:
one of these nodes has confirmed it.
-/
theorem settled_prefix_lead_of_quorum {w : World node term entry}
    (h : Inv quorums w) {Q : Finset node} (hQ : quorums.IsQuorum Q) {u : term}
    (hu : Won w u) (hforemost : forall v, v ∈ Q -> (w.replica v).current <= u)
    {bound : term} {log : List entry} {c : Nat}
    (hsettled : Settled quorums w bound log c) : log.take c <+: w.lead u := by
  rcases hsettled with ⟨_, hzero | ⟨t, k, _, hc, hchosen, hagree⟩⟩
  · rw [hzero]
    exact List.nil_prefix
  · rcases hchosen.confirmed with ⟨P, hP, hconfirmed⟩
    rcases quorums.intersects P Q hP hQ with ⟨v, hvP, hvQ⟩
    have hpositive := Nat.lt_of_lt_of_le hchosen.pos (hconfirmed v hvP)
    have hbehind := le_trans (h.receipts.bound v t hpositive).right.left
      (hforemost v hvQ)
    rw [hagree]
    exact (List.take_prefix_take_left hc).trans
      (chosen_prefix_lead h hchosen hu hbehind)

variable [DecidableEq node] [DecidableEq entry]

/-!
# Roles within a term

A node that enters a term is a candidate or a follower.  A candidate may win and
lead, and who does not lead any more leads this term never again.
-/

def Role.stage : Role -> Nat
  | .candidate => 0
  | .leader => 1
  | .follower => 2

theorem stage_le_follower (role : Role) : role.stage <= Role.follower.stage := by
  cases role <;> decide

structure Matures (w w' : World node term entry) (v : node) : Prop where
  current : (w.replica v).current <= (w'.replica v).current
  stage : (w'.replica v).current = (w.replica v).current ->
    (w.replica v).role.stage <= (w'.replica v).role.stage
  commit : (w'.replica v).current = (w.replica v).current ->
    (w.replica v).role = .leader -> (w'.replica v).role = .leader ->
      (w.replica v).commit <= (w'.replica v).commit

section Matures

variable {w w' w'' : World node term entry} {v i : node}

omit [OrderBot term] [WellFoundedLT term] [Stamped entry term] [DecidableEq node]
  [DecidableEq entry] in
theorem matures_of_eq (h : w'.replica v = w.replica v) : Matures w w' v := by
  constructor
  · rw [h]
  · intro _
    rw [h]
  · intro _ _ _
    rw [h]

omit [OrderBot term] [WellFoundedLT term] [Stamped entry term] [DecidableEq node]
  [DecidableEq entry] in
theorem Matures.trans (h : Matures w w' v) (h' : Matures w' w'' v) :
    Matures w w'' v := by
  have hbetween : (w''.replica v).current = (w.replica v).current ->
      (w'.replica v).current = (w.replica v).current ∧
        (w''.replica v).current = (w'.replica v).current := by
    intro hsame
    have hmiddle : (w'.replica v).current = (w.replica v).current :=
      le_antisymm (hsame ▸ h'.current) h.current
    exact ⟨hmiddle, hsame.trans hmiddle.symm⟩
  constructor
  · exact le_trans h.current h'.current
  · intro hsame
    rcases hbetween hsame with ⟨hfirst, hsecond⟩
    exact Nat.le_trans (h.stage hfirst) (h'.stage hsecond)
  · intro hsame hleads hleads'
    rcases hbetween hsame with ⟨hfirst, hsecond⟩
    -- Both stages around the middle are that of a leader.
    have hlow := h.stage hfirst
    have hhigh := h'.stage hsecond
    rw [hleads] at hlow
    rw [hleads'] at hhigh
    have hmiddle : (w'.replica v).role = .leader := by
      cases hrole : (w'.replica v).role with
      | leader => rfl
      | follower | candidate =>
          rw [hrole] at hlow hhigh
          simp [Role.stage] at hlow hhigh
    exact Nat.le_trans (h.commit hfirst hleads hmiddle)
      (h'.commit hsecond hmiddle hleads')

omit [WellFoundedLT term] in
theorem matures_act (h : Act quorums i w w') (v : node) : Matures w w' v := by
  by_cases hv : v = i
  · rw [hv]
    cases h with
    | retire ht _ =>
        constructor
        · simpa using ht
        · intro _
          simpa using stage_le_follower _
        · simp
    | campaign ht => constructor <;> simp [ht.le, ht.ne']
    | grant _ _ _ => constructor <;> simp
    | win hrole _ _ => constructor <;> simp [hrole, Role.stage]
    | extend hrole _ => constructor <;> simp
    | accept _ _ => constructor <;> simp
    | commit hraise _ _ => constructor <;> simp [hraise]
    | send _ => exact matures_of_eq rfl
  · exact matures_of_eq (act_replica_of_ne h hv)

omit [WellFoundedLT term] in
theorem matures_steps (h : Steps quorums w w') (v : node) : Matures w w' v := by
  induction h with
  | refl => exact matures_of_eq rfl
  | tail _ hact ih =>
      rcases hact with ⟨i, hact⟩
      exact ih.trans (matures_act hact v)

end Matures

/-- The worlds of a run, with any number of actions between two of them. -/
structure Behavior (quorums : QuorumSystem node)
    (worlds : Nat -> World node term entry) : Prop where
  initial : Initial (worlds 0)
  steps : forall k, Steps quorums (worlds k) (worlds (k + 1))

namespace Behavior

variable {worlds : Nat -> World node term entry} (h : Behavior quorums worlds)

include h

theorem inv (k : Nat) : Inv quorums (worlds k) := by
  induction k with
  | zero => exact inv_initial h.initial
  | succ k ih => exact (inv_steps ih (h.steps k)).left

theorem evolves {j k : Nat} (hjk : j <= k) :
    Evolves (worlds j) (worlds k) := by
  induction hjk with
  | refl => exact evolves_refl _
  | step _ ih => exact evolves_trans ih (inv_steps (h.inv _) (h.steps _)).right

omit [WellFoundedLT term] in
theorem matures {j k : Nat} (hjk : j <= k) (v : node) :
    Matures (worlds j) (worlds k) v := by
  induction hjk with
  | refl => exact matures_of_eq rfl
  | step _ ih => exact ih.trans (matures_steps (h.steps _) v)

theorem settled_later {j k : Nat} (hjk : j <= k) {bound : term}
    {log : List entry} {c : Nat}
    (hsettled : Settled quorums (worlds j) bound log c) :
    Settled quorums (worlds k) bound log c :=
  settled_mono (h.evolves hjk) (le_refl _) (List.take_prefix _ _)
    (Nat.le_refl _) hsettled

/-- One quorum holds what is settled from then on. -/
theorem settled_held {j : Nat} {bound : term} {log : List entry} {c : Nat}
    (hquorum : exists Q, quorums.IsQuorum Q)
    (hsettled : Settled quorums (worlds j) bound log c) :
    exists Q, quorums.IsQuorum Q ∧ forall k, j <= k -> forall v, v ∈ Q ->
      log.take c <+: ((worlds k).replica v).log := by
  rcases hsettled with ⟨_, hzero | ⟨t, reached, _, hc, hchosen, hagree⟩⟩
  · rcases hquorum with ⟨Q, hQ⟩
    exists Q
    constructor
    · exact hQ
    · intro k _ v _
      rw [hzero]
      exact List.nil_prefix
  · rcases hchosen.confirmed with ⟨Q, hQ, hconfirmed⟩
    exists Q
    constructor
    · exact hQ
    · intro k hjk v hv
      have hevolves := h.evolves hjk
      have hheld := take_lead_isPrefix_of_chosen (h.inv k)
        (chosen_mono hevolves hchosen)
        (Nat.le_trans (hconfirmed v hv) (hevolves.receipts v t))
      rw [take_lead_eq hevolves hchosen.won hchosen.length] at hheld
      rw [hagree]
      exact (List.take_prefix_take_left hc).trans hheld

end Behavior

end Consensus
end FTKV
