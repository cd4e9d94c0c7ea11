import FTKV.Consensus.Ballots
import FTKV.Consensus.Logs

/-!
# What every action preserves

Terms only rise, ballots and winners stay on record, a leadership only grows,
and a node confirms entries only in its current term.  The facts that the later
arguments carry from one world to the next are consequences of this.
-/

namespace FTKV
namespace Consensus

open Foundation

variable {node term entry : Type} [LinearOrder term]
  {quorums : QuorumSystem node} {w w' w'' : World node term entry} {i : node}

structure Evolves (w w' : World node term entry) : Prop where
  current : forall v, (w.replica v).current <= (w'.replica v).current
  sent : w.sent ⊆ w'.sent
  ballots : forall v t b, w.ballots v t = some b -> w'.ballots v t = some b
  winner : forall t l, w.winner t = some l -> w'.winner t = some l
  base : forall t, Won w t -> w'.base t = w.base t
  lead : forall t, Won w t -> w.lead t <+: w'.lead t
  receipts : forall v t, w.receipts v t <= w'.receipts v t
  past : forall v t, t < (w.replica v).current ->
    w'.receipts v t = w.receipts v t

/-!
# Evolution as an order
-/

theorem won_mono (h : Evolves w w') {t : term} (ht : Won w t) : Won w' t := by
  rcases ht with ⟨l, hl⟩
  exact ⟨l, h.winner t l hl⟩

theorem evolves_refl (w : World node term entry) : Evolves w w := by
  constructor
  · intro v
    exact le_refl _
  · exact fun _ hp => hp
  · intro v t b hb
    exact hb
  · intro t l hl
    exact hl
  · intro t _
    rfl
  · intro t _
    exact List.prefix_refl _
  · intro v t
    exact Nat.le_refl _
  · intro v t _
    rfl

theorem evolves_trans (h : Evolves w w') (h' : Evolves w' w'') :
    Evolves w w'' := by
  constructor
  · intro v
    exact le_trans (h.current v) (h'.current v)
  · exact fun _ hp => h'.sent (h.sent hp)
  · intro v t b hb
    exact h'.ballots v t b (h.ballots v t b hb)
  · intro t l hl
    exact h'.winner t l (h.winner t l hl)
  · intro t ht
    rw [h'.base t (won_mono h ht), h.base t ht]
  · intro t ht
    exact (h.lead t ht).trans (h'.lead t (won_mono h ht))
  · intro v t
    exact Nat.le_trans (h.receipts v t) (h'.receipts v t)
  · intro v t ht
    rw [h'.past v t (lt_of_lt_of_le ht (h.current v)), h.past v t ht]

/-!
# Facts that last
-/

theorem rooted_mono [Stamped entry term] (h : Evolves w w') {log : List entry}
    (hlog : Rooted w log) : Rooted w' log := by
  intro k e he
  rcases hlog k e he with ⟨hwon, hpre⟩
  exact ⟨won_mono h hwon, hpre.trans (h.lead _ hwon)⟩

theorem take_lead_eq (h : Evolves w w') {t : term} {k : Nat} (ht : Won w t)
    (hk : k <= (w.lead t).length) :
    (w'.lead t).take k = (w.lead t).take k :=
  (take_eq_take_of_isPrefix (h.lead t ht) hk).symm

theorem keeps_mono (h : Evolves w w') {t : term} {k : Nat}
    {within within' : term -> Prop} {log : List entry}
    (ht : k = 0 ∨ (Won w t ∧ k <= (w.lead t).length))
    (hwithin : forall u, within u -> within' u)
    (hkeeps : Keeps w t k within log) : Keeps w' t k within' log := by
  rcases ht with hzero | ⟨hwon, hk⟩
  · subst hzero
    exact Or.inl (by simp)
  · unfold Keeps
    rw [take_lead_eq h hwon hk]
    rcases hkeeps with hleft | ⟨u, htu, hu, hwonu, hbase⟩
    · exact Or.inl hleft
    · refine Or.inr ⟨u, htu, hwithin u hu, won_mono h hwonu, ?_⟩
      rw [h.base u hwonu]
      exact hbase

theorem receipt_in_lead (hreceipts : ReceiptInv w) {v : node} {t : term}
    {k : Nat} (hk : k <= w.receipts v t) :
    k = 0 ∨ (Won w t ∧ k <= (w.lead t).length) := by
  cases k with
  | zero => exact Or.inl rfl
  | succ k =>
      rcases hreceipts.bound v t (Nat.lt_of_lt_of_le (Nat.succ_pos k) hk) with
        ⟨hwon, -, hlength⟩
      exact Or.inr ⟨hwon, Nat.le_trans hk hlength⟩

section Lasting

variable [OrderBot term] [Stamped entry term]

theorem carried_mono (h : Evolves w w') (hreceipts : ReceiptInv w) {v : node}
    {t : term} (ht : Won w t) (hcurrent : t <= (w.replica v).current)
    (hcarried : Carried w v t) : Carried w' v t := by
  intro s k hst hk hpos hstamp
  have hpast := h.past v s (lt_of_lt_of_le hst hcurrent)
  rw [hpast] at hk
  have hlead := receipt_in_lead hreceipts hk
  rcases hlead with hzero | ⟨hwon, hlength⟩
  · subst hzero
    cases hpos
  · rw [← stampAt_of_isPrefix (h.lead s hwon) hlength] at hstamp
    rw [h.base t ht]
    exact keeps_mono h (Or.inr ⟨hwon, hlength⟩) (fun _ hu => hu)
      (hcarried s k hst hk hpos hstamp)

theorem chosen_mono (h : Evolves w w') {t : term} {k : Nat}
    (hchosen : Chosen quorums w t k) : Chosen quorums w' t k := by
  have hpre := h.lead t hchosen.won
  refine ⟨won_mono h hchosen.won, hchosen.pos,
    Nat.le_trans hchosen.length hpre.length_le, ?_, ?_⟩
  · rw [← stampAt_of_isPrefix hpre hchosen.length]
    exact hchosen.stamp
  · rcases hchosen.confirmed with ⟨Q, hQ, hconfirmed⟩
    exists Q
    refine ⟨hQ, ?_⟩
    intro v hv
    exact Nat.le_trans (hconfirmed v hv) (h.receipts v t)

theorem settled_mono (h : Evolves w w') {bound bound' : term}
    {log log' : List entry} {c c' : Nat} (hbound : bound <= bound')
    (hlog : log.take c <+: log') (hc : c' <= c)
    (hsettled : Settled quorums w bound log c) :
    Settled quorums w' bound' log' c' := by
  rcases hsettled with ⟨hlength, hsettled⟩
  have htake : (log.take c).length = c := by
    rw [List.length_take]
    exact min_eq_left hlength
  have hlength' : c' <= log'.length := by
    have hle := hlog.length_le
    lia
  refine ⟨hlength', ?_⟩
  rcases hsettled with hzero | ⟨t, k, ht, hk, hchosen, hagree⟩
  · exact Or.inl (by lia)
  · refine Or.inr ⟨t, k, le_trans ht hbound, Nat.le_trans hc hk,
      chosen_mono h hchosen, ?_⟩
    have hck : c' <= (w.lead t).length :=
      Nat.le_trans hc (Nat.le_trans hk hchosen.length)
    rw [take_lead_eq h hchosen.won hck,
      ← take_eq_take_of_isPrefix hlog (by lia), hagree, List.take_take,
      min_eq_left hc]

end Lasting

/-!
# Every action is an evolution
-/

section Winning

variable [OrderBot term] [Stamped entry term] {Q : Finset node}

theorem ballot_of_win (h : BallotInv w)
    (hrole : (w.replica i).role = .candidate)
    (hballots : forall v, v ∈ Q -> v = i ∨
      .ballot (w.replica i).current v i ∈ w.sent) {v : node} (hv : v ∈ Q) :
    exists log, w.ballots v (w.replica i).current = some (i, log) := by
  rcases hballots v hv with hself | hsent
  · subst hself
    exact h.ballot_of_vote v v (h.own v hrole)
  · exact h.recorded _ _ _ hsent

theorem winner_eq_none_of_win (hb : BallotInv w) (hr : ReignInv quorums w)
    (hrole : (w.replica i).role = .candidate) (hquorum : quorums.IsQuorum Q)
    (hballots : forall v, v ∈ Q -> v = i ∨
      .ballot (w.replica i).current v i ∈ w.sent) :
    w.winner (w.replica i).current = none := by
  cases hwinner : w.winner (w.replica i).current with
  | none => rfl
  | some l =>
      rcases hr.elected _ l hwinner with ⟨Q', hquorum', helected⟩
      rcases quorums.intersects Q Q' hquorum hquorum' with ⟨v, hvQ, hvQ'⟩
      rcases ballot_of_win hb hrole hballots hvQ with ⟨log, hlog⟩
      rcases (helected v hvQ').left with ⟨log', hlog'⟩
      rw [hlog] at hlog'
      cases hlog'
      exact absurd hrole ((hr.bound _ i hwinner).right rfl)

end Winning

section Actions

variable [DecidableEq node]

theorem evolves_put {r : Replica node term entry}
    (hcurrent : (w.replica i).current <= r.current) :
    Evolves w (w.put i r) := by
  have hrefl := evolves_refl w
  refine ⟨?_, hrefl.sent, hrefl.ballots, hrefl.winner, hrefl.base, hrefl.lead,
    hrefl.receipts, hrefl.past⟩
  intro v
  by_cases hv : v = i
  · subst hv
    simpa using hcurrent
  · simp [hv]

omit [DecidableEq node] in
theorem evolves_send (p : Packet node term entry) : Evolves w (w.send p) := by
  have hrefl := evolves_refl w
  exact ⟨hrefl.current, Set.subset_insert p w.sent, hrefl.ballots, hrefl.winner,
    hrefl.base, hrefl.lead, hrefl.receipts, hrefl.past⟩

theorem evolves_recordBallot {t : term} {b : node × List entry}
    (hfresh : w.ballots i t = none) : Evolves w (w.recordBallot i t b) := by
  have hrefl := evolves_refl w
  refine ⟨hrefl.current, hrefl.sent, ?_, hrefl.winner, hrefl.base, hrefl.lead,
    hrefl.receipts, hrefl.past⟩
  intro v s b' hb'
  have hne : ¬ (v = i ∧ s = t) := by
    intro heq
    rw [heq.left, heq.right, hfresh] at hb'
    cases hb'
  rw [World.recordBallot_ballots, if_neg hne]
  exact hb'

omit [DecidableEq node] in
theorem evolves_crown {t : term} {log : List entry}
    (hnone : w.winner t = none) : Evolves w (w.crown i t log) := by
  have hrefl := evolves_refl w
  have hne : forall s, Won w s -> s ≠ t := by
    intro s hs hst
    rcases hs with ⟨l, hl⟩
    rw [hst, hnone] at hl
    cases hl
  refine ⟨hrefl.current, hrefl.sent, hrefl.ballots, ?_, ?_, ?_,
    hrefl.receipts, hrefl.past⟩
  · intro s l hl
    simpa [hne s ⟨l, hl⟩] using hl
  · intro s hs
    simp [hne s hs]
  · intro s hs
    simp [hne s hs]

omit [DecidableEq node] in
theorem evolves_lengthen {t : term} {log : List entry}
    (hlead : w.lead t <+: log) : Evolves w (w.lengthen t log) := by
  have hrefl := evolves_refl w
  refine ⟨hrefl.current, hrefl.sent, hrefl.ballots, hrefl.winner, hrefl.base,
    ?_, hrefl.receipts, hrefl.past⟩
  intro s _
  by_cases hs : s = t
  · subst hs
    simpa using hlead
  · simp [hs]

theorem evolves_confirm_of_eq {t : term} {k : Nat}
    (ht : t = (w.replica i).current) : Evolves w (w.confirm i t k) := by
  have hrefl := evolves_refl w
  subst ht
  refine ⟨hrefl.current, hrefl.sent, hrefl.ballots, hrefl.winner, hrefl.base,
    hrefl.lead, ?_, ?_⟩
  · intro v t
    rw [World.confirm_receipts]
    split
    · exact Nat.le_max_left _ _
    · exact Nat.le_refl _
  · intro v t ht
    have hne : ¬ (v = i ∧ t = (w.replica i).current) := by
      intro heq
      rw [heq.left, heq.right] at ht
      exact lt_irrefl _ ht
    rw [World.confirm_receipts, if_neg hne]

theorem evolves_act [OrderBot term] [Stamped entry term]
    [DecidableEq entry] (hb : BallotInv w)
    (hr : ReignInv quorums w) (hact : Act quorums i w w') : Evolves w w' := by
  cases hact with
  | retire ht hc => exact evolves_put ht
  | campaign ht =>
      refine evolves_trans (?_ : Evolves w (w.put i _))
        (evolves_recordBallot (ballots_eq_none_of_current_lt hb ht))
      exact evolves_put (le_of_lt ht)
  | grant hsolicited hvote hcurrent =>
      refine evolves_trans (?_ : Evolves w (w.put i _))
        (evolves_recordBallot (ballots_eq_none_of_vote_eq_none hb hvote))
      exact evolves_put (le_refl _)
  | win hrole hquorum hballots =>
      refine evolves_trans (?_ : Evolves w (w.put i _)) (evolves_crown
        (winner_eq_none_of_win hb hr hrole hquorum hballots))
      exact evolves_put (le_refl _)
  | extend hrole hstamp =>
      have hlead := (hr.leader i hrole).right
      refine evolves_trans (?_ : Evolves w ((w.put i _).lengthen _ _))
        (evolves_confirm_of_eq (by simp))
      refine evolves_trans (?_ : Evolves w (w.put i _)) (evolves_lengthen ?_)
      · exact evolves_put (le_refl _)
      · rw [World.put_lead, hlead]
        exact List.prefix_append _ _
  | accept hrole hconnects =>
      refine evolves_trans (?_ : Evolves w (w.put i _))
        (evolves_confirm_of_eq (by simp))
      exact evolves_put (le_refl _)
  | commit hraise hk hmay => exact evolves_put (le_refl _)
  | send hp => exact evolves_send _

end Actions

end Consensus
end FTKV
