import FTKV.Consensus.Evolution

/-!
# Reigns

Each term has at most one winner.  The log a winner starts from holds
everything its voters had confirmed, unless an earlier winner already lacked it;
this is what makes leaderships complete.
-/

namespace FTKV
namespace Consensus

open Foundation

variable {node term entry : Type} [LinearOrder term] [OrderBot term]
  [Stamped entry term] {quorums : QuorumSystem node}
  {w w' : World node term entry} {i : node}

/-!
# Domination

A candidate's log that is at least as current as the log of a voter holds what
the voter's log holds of a chosen leadership.
-/

theorem exists_entry_of_stampAt {log : List entry} {k : Nat} {t : term}
    (hpos : 0 < k) (hk : k <= log.length) (hstamp : stampAt log k = t) :
    exists e, log[k - 1]? = some e ∧ stamp e = t := by
  have hlt : k - 1 < log.length := by
    lia
  have he : log[k - 1]? = some log[k - 1] := List.getElem?_eq_getElem hlt
  refine ⟨_, he, ?_⟩
  rw [← stampAt_succ he, Nat.sub_add_cancel hpos]
  exact hstamp

theorem keeps_of_last_eq {s : term} {k : Nat}
    {within : term -> Prop} {a b : List entry} (ha : Rooted w a)
    (hb : Rooted w b) (hkeeps : (w.lead s).take k <+: b) (hbne : b ≠ [])
    (hlast : lastStamp a = lastStamp b) (hlength : b.length <= a.length) :
    Keeps w s k within a := by
  have hane : a ≠ [] := by
    intro hnil
    rw [hnil] at hlength
    exact hbne (List.length_eq_zero_iff.mp (Nat.le_zero.mp hlength))
  rcases exists_last_of_ne_nil term hane with ⟨x, hx, hxlast⟩
  rcases exists_last_of_ne_nil term hbne with ⟨y, hy, hylast⟩
  have hxy : stamp x = stamp y := by
    rw [← hxlast, ← hylast]
    exact hlast
  have hax := (ha _ x hx).right
  have hby := (hb _ y hy).right
  rw [Nat.sub_add_cancel (List.length_pos_of_ne_nil hane), List.take_length,
    hxy] at hax
  rw [Nat.sub_add_cancel (List.length_pos_of_ne_nil hbne),
    List.take_length] at hby
  exact Or.inl (hkeeps.trans (List.prefix_of_prefix_length_le hby hax hlength))

theorem keeps_of_last_lt (h : ReignInv quorums w) {s t : term} {k : Nat}
    {a b : List entry} (ha : Rooted w a)
    (hbelow : forall e, e ∈ a -> stamp e < t) (hs : s <= lastStamp b)
    (hlast : lastStamp b < lastStamp a) : Keeps w s k (· < t) a := by
  have hane : a ≠ [] := by
    intro hnil
    rw [hnil] at hlast
    exact not_lt_bot hlast
  rcases exists_last_of_ne_nil term hane with ⟨x, hx, hxlast⟩
  have hsx : s < stamp x := by
    rw [← hxlast]
    exact lt_of_le_of_lt hs hlast
  have hbase := base_prefix_of_last h ha hx
  rw [Nat.sub_add_cancel (List.length_pos_of_ne_nil hane),
    List.take_length] at hbase
  by_cases hheld : (w.lead s).take k <+: w.base (stamp x)
  · exact Or.inl (hheld.trans hbase)
  · exact Or.inr ⟨stamp x, hsx, hbelow x (List.mem_of_getElem? hx),
      (ha _ x hx).left, hheld⟩

theorem keeps_of_upToDate (h : ReignInv quorums w) {s t : term} {k : Nat}
    {a b : List entry} (ha : Rooted w a) (hb : Rooted w b)
    (hbelow : forall e, e ∈ a -> stamp e < t)
    (hupToDate : UpToDate a.length (lastStamp a) b) (hpos : 0 < k)
    (hlength : k <= (w.lead s).length) (hstamp : stampAt (w.lead s) k = s)
    (hkeeps : Keeps w s k (· < t) b) : Keeps w s k (· < t) a := by
  rcases hkeeps with hheld | hlost
  · rcases exists_entry_of_stampAt hpos hlength hstamp with ⟨x, hx, hxs⟩
    have hxb : b[k - 1]? = some x := by
      refine getElem?_of_take_isPrefix ?_ hx
      rw [Nat.sub_add_cancel hpos]
      exact hheld
    have hbne : b ≠ [] := by
      intro hnil
      rw [hnil] at hxb
      cases hxb
    rcases exists_last_of_ne_nil term hbne with ⟨y, hy, hylast⟩
    have hs : s <= lastStamp b := by
      rw [hylast, ← hxs]
      refine rooted_stamp_le h hb ?_ hxb hy
      have hlt := length_of_getElem? hxb
      lia
    rcases hupToDate with hlt | ⟨heq, hle⟩
    · exact keeps_of_last_lt h ha hbelow hs hlt
    · exact keeps_of_last_eq ha hb hheld hbne heq hle
  · exact Or.inr hlost

/-!
# Leader completeness
-/

theorem chosen_prefix_base [WellFoundedLT term] (h : Inv quorums w) {t : term}
    {k : Nat} (hchosen : Chosen quorums w t k) {u : term} (hu : Won w u)
    (htu : t < u) : (w.lead t).take k <+: w.base u := by
  induction u using WellFoundedLT.induction with
  | ind u ih =>
      rcases hu with ⟨l, hl⟩
      rcases h.reigns.elected u l hl with ⟨Q, hQ, helected⟩
      rcases hchosen.confirmed with ⟨P, hP, hconfirmed⟩
      rcases quorums.intersects P Q hP hQ with ⟨v, hvP, hvQ⟩
      have hcarried := (helected v hvQ).right t k htu (hconfirmed v hvP)
        hchosen.pos hchosen.stamp
      rcases hcarried with hheld | ⟨s, hts, hsu, hs, hlost⟩
      · exact hheld
      · exact absurd (ih s hsu hs hts) hlost

/-!
# Preservation
-/

theorem winner_unique (h : ReignInv quorums w) {l l' : node}
    (hl : (w.replica l).role = .leader) (hl' : (w.replica l').role = .leader)
    (hcurrent : (w.replica l).current = (w.replica l').current) : l = l' := by
  have hwinner := (h.leader l hl).left
  rw [hcurrent, (h.leader l' hl').left] at hwinner
  cases hwinner
  rfl

theorem elected_mono (h : Inv quorums w) (hevolves : Evolves w w') {t : term}
    {l : node} (hl : w.winner t = some l) :
    exists Q, quorums.IsQuorum Q ∧ forall v, v ∈ Q ->
      (exists log, w'.ballots v t = some (l, log)) ∧ Carried w' v t := by
  rcases h.reigns.elected t l hl with ⟨Q, hQ, helected⟩
  exists Q
  refine ⟨hQ, ?_⟩
  intro v hv
  rcases helected v hv with ⟨⟨log, hlog⟩, hcarried⟩
  refine ⟨⟨log, hevolves.ballots v t _ hlog⟩, ?_⟩
  exact carried_mono hevolves h.receipts ⟨l, hl⟩
    (h.ballots.bound v t l log hlog).left hcarried

/--
An action that neither wins nor lengthens a leadership preserves the group, if
it makes candidates only in fresh terms, keeps leaders as they are and leaves a
node that once won with the base of some leadership.
-/
theorem reignInv_of_same (h : Inv quorums w) (hevolves : Evolves w w')
    (hwinner : w'.winner = w.winner) (hbase : w'.base = w.base)
    (hlead : w'.lead = w.lead)
    (hcandidate : forall l, (w'.replica l).role = .candidate ->
      ((w.replica l).role = .candidate ∧
        (w'.replica l).current = (w.replica l).current) ∨
        (w.replica l).current < (w'.replica l).current)
    (hleader : forall l, (w'.replica l).role = .leader ->
      (w.replica l).role = .leader ∧
        (w'.replica l).current = (w.replica l).current ∧
        (w'.replica l).log = (w.replica l).log)
    (hseated : forall l u, Won w u -> u <= (w.replica l).current ->
      w.base u <+: (w.replica l).log ->
        exists u', u <= u' ∧ u' <= (w'.replica l).current ∧ Won w u' ∧
          w.base u' <+: (w'.replica l).log) :
    ReignInv quorums w' := by
  have hwon : forall t, Won w' t <-> Won w t := by
    intro t
    unfold Won
    rw [hwinner]
  constructor
  · intro t l hl
    rw [hwinner] at hl
    exact elected_mono h hevolves hl
  · intro t l hl
    rw [hwinner] at hl
    rcases h.reigns.bound t l hl with ⟨hle, hrole⟩
    refine ⟨le_trans hle (hevolves.current l), ?_⟩
    intro heq hcand
    rcases hcandidate l hcand with ⟨hold, hsame⟩ | hlt
    · exact hrole (heq.trans hsame) hold
    · exact absurd (lt_of_le_of_lt hle hlt) (by rw [← heq]; exact lt_irrefl _)
  · intro l hl
    rcases hleader l hl with ⟨hold, hcurrent, hlog⟩
    rw [hwinner, hlead, hcurrent, hlog]
    exact h.reigns.leader l hold
  · intro l k hl hpos hlength hstamp
    rcases hleader l hl with ⟨hold, hcurrent, hlog⟩
    rw [hlog] at hlength hstamp
    rw [hcurrent] at hstamp ⊢
    exact Nat.le_trans (h.reigns.confirmed l k hold hpos hlength hstamp)
      (hevolves.receipts l _)
  · intro t ht
    rw [hbase, hlead]
    exact h.reigns.base_prefix t ((hwon t).mp ht)
  · intro t e ht he
    rw [hbase] at he
    exact h.reigns.base_stamp t e ((hwon t).mp ht) he
  · intro t k e ht he hk
    rw [hlead] at he
    rw [hbase] at hk
    exact h.reigns.lead_stamp t k e ((hwon t).mp ht) he hk
  · intro t l hl
    rw [hwinner] at hl
    rcases h.reigns.seated t l hl with ⟨u, htu, hu, hwonu, hpre⟩
    rcases hseated l u hwonu hu hpre with ⟨u', huu', hu', hwonu', hpre'⟩
    refine ⟨u', le_trans htu huu', hu', (hwon u').mpr hwonu', ?_⟩
    rw [hbase]
    exact hpre'

section Winning

variable [DecidableEq node] {Q : Finset node}

theorem carried_of_win (h : Inv quorums w)
    (hrole : (w.replica i).role = .candidate)
    (hnone : w.winner (w.replica i).current = none) {v : node}
    {log : List entry}
    (hballot : w.ballots v (w.replica i).current = some (i, log))
    (hevolves : Evolves w ((w.put i { w.replica i with
      role := .leader }).crown i (w.replica i).current (w.replica i).log)) :
    Carried ((w.put i { w.replica i with
      role := .leader }).crown i (w.replica i).current (w.replica i).log) v
        (w.replica i).current := by
  intro s k hst hk hpos hstamp
  have hk' : k <= w.receipts v s := by
    simpa using hk
  rcases receipt_in_lead h.receipts hk' with hzero | ⟨hwon, hlength⟩
  · subst hzero
    cases hpos
  · rw [← stampAt_of_isPrefix (hevolves.lead s hwon) hlength] at hstamp
    have hvoted := h.receipts.voted v _ i log hnone hballot s k hst hk'
    have hkeeps := keeps_of_upToDate h.reigns (h.logs.logs i)
      (h.logs.ballots v _ i log hballot)
      (fun e he => h.logs.candidate i e hrole he)
      (h.ballots.upToDate i v log hrole hballot) hpos hlength hstamp hvoted
    have hresult := keeps_mono hevolves (Or.inr ⟨hwon, hlength⟩)
      (fun _ hu => hu) hkeeps
    simpa using hresult

theorem reignInv_win (h : Inv quorums w)
    (hrole : (w.replica i).role = .candidate) (hquorum : quorums.IsQuorum Q)
    (hballots : forall v, v ∈ Q -> v = i ∨
      .ballot (w.replica i).current v i ∈ w.sent)
    (hevolves : Evolves w ((w.put i { w.replica i with
      role := .leader }).crown i (w.replica i).current (w.replica i).log)) :
    ReignInv quorums ((w.put i { w.replica i with
      role := .leader }).crown i (w.replica i).current (w.replica i).log) := by
  have hnone := winner_eq_none_of_win h.ballots h.reigns hrole hquorum hballots
  have hold : forall {t : term}, Won w t -> t ≠ (w.replica i).current := by
    intro t ht heq
    rcases ht with ⟨l, hl⟩
    rw [heq, hnone] at hl
    cases hl
  have hwon : forall {t : term}, t ≠ (w.replica i).current ->
      Won ((w.put i { w.replica i with
        role := .leader }).crown i (w.replica i).current (w.replica i).log) t ->
        Won w t := by
    intro t ht hwon
    rcases hwon with ⟨l, hl⟩
    exact ⟨l, by simpa [ht] using hl⟩
  constructor
  · intro t l hl
    by_cases ht : t = (w.replica i).current
    · subst ht
      have hli : l = i := by
        simpa using hl.symm
      subst hli
      exists Q
      refine ⟨hquorum, ?_⟩
      intro v hv
      rcases ballot_of_win h.ballots hrole hballots hv with ⟨log, hlog⟩
      exact ⟨⟨log, hlog⟩, carried_of_win h hrole hnone hlog hevolves⟩
    · exact elected_mono h hevolves (by simpa [ht] using hl)
  · intro t l hl
    have hbound := h.reigns.bound t l
    grind
  · intro l hl
    by_cases hli : l = i
    · subst hli
      simp
    · have hleader := h.reigns.leader l (by simpa [hli] using hl)
      have hne := hold ⟨l, hleader.left⟩
      simpa [hli, hne] using hleader
  · intro l k hl hpos hlength hstamp
    by_cases hli : l = i
    · subst hli
      simp only [World.crown_replica, World.put_replica, if_true] at hlength hstamp
      rcases exists_entry_of_stampAt hpos hlength hstamp with ⟨e, he, hes⟩
      have hlt := h.logs.candidate l e hrole (List.mem_of_getElem? he)
      rw [hes] at hlt
      exact absurd hlt (lt_irrefl _)
    · have hconfirmed := h.reigns.confirmed l k
      grind
  · intro t ht
    by_cases hti : t = (w.replica i).current
    · simp [hti]
    · simpa [hti] using h.reigns.base_prefix t (hwon hti ht)
  · intro t e ht he
    by_cases hti : t = (w.replica i).current
    · subst hti
      exact h.logs.candidate i e hrole (by simpa using he)
    · exact h.reigns.base_stamp t e (hwon hti ht) (by simpa [hti] using he)
  · intro t k e ht he hk
    by_cases hti : t = (w.replica i).current
    · subst hti
      have hlt := length_of_getElem? he
      simp at hlt hk
      lia
    · exact h.reigns.lead_stamp t k e (hwon hti ht) (by simpa [hti] using he)
        (by simpa [hti] using hk)
  · intro t l hl
    by_cases hti : t = (w.replica i).current
    · subst hti
      have hli : l = i := by
        simpa using hl.symm
      subst hli
      exact ⟨(w.replica l).current, le_refl _, by simp, ⟨l, by simp⟩, by simp⟩
    · rcases h.reigns.seated t l (by simpa [hti] using hl) with
        ⟨u, htu, hu, hwonu, hpre⟩
      refine ⟨u, htu, le_trans hu (hevolves.current l), won_mono hevolves hwonu,
        ?_⟩
      rw [hevolves.base u hwonu]
      by_cases hli : l = i
      · subst hli
        simpa using hpre
      · simpa [hli] using hpre

end Winning

section Extending

variable [DecidableEq node] {e : entry}

theorem reignInv_extend (h : Inv quorums w)
    (hrole : (w.replica i).role = .leader)
    (hstamp : stamp e = (w.replica i).current)
    (hevolves : Evolves w (((w.put i { w.replica i with
      log := (w.replica i).log ++ [e] }).lengthen (w.replica i).current
        ((w.replica i).log ++ [e])).confirm i (w.replica i).current
          ((w.replica i).log.length + 1))) :
    ReignInv quorums (((w.put i { w.replica i with
      log := (w.replica i).log ++ [e] }).lengthen (w.replica i).current
        ((w.replica i).log ++ [e])).confirm i (w.replica i).current
          ((w.replica i).log.length + 1)) := by
  have hleader := h.reigns.leader i hrole
  have hwon : Won w (w.replica i).current := ⟨i, hleader.left⟩
  constructor
  · intro t l hl
    exact elected_mono h hevolves hl
  · intro t l hl
    have hbound := h.reigns.bound t l hl
    grind
  · intro l hl
    by_cases hli : l = i
    · subst hli
      simpa using hleader.left
    · have hl' : (w.replica l).role = .leader := by
        simpa [hli] using hl
      have hne : (w.replica l).current ≠ (w.replica i).current := by
        intro heq
        exact hli (winner_unique h.reigns hl' hrole heq)
      simpa [hli, hne] using h.reigns.leader l hl'
  · intro l k hl hpos hlength hk
    by_cases hli : l = i
    · subst hli
      simp at hlength ⊢
      lia
    · have hconfirmed := h.reigns.confirmed l k
      grind
  · intro t ht
    have hpre := h.reigns.base_prefix t ht
    by_cases hti : t = (w.replica i).current
    · subst hti
      rw [hleader.right] at hpre
      simpa using hpre.trans (List.prefix_append _ _)
    · simpa [hti] using hpre
  · intro t x ht hx
    exact h.reigns.base_stamp t x ht hx
  · intro t k x ht hx hk
    by_cases hti : t = (w.replica i).current
    · subst hti
      have hx' : ((w.replica i).log ++ [e])[k]? = some x := by
        simpa using hx
      by_cases hlast : k < (w.replica i).log.length
      · rw [List.getElem?_append_left hlast, ← hleader.right] at hx'
        exact h.reigns.lead_stamp _ k x hwon hx' hk
      · rw [List.getElem?_append_right (Nat.le_of_not_lt hlast)] at hx'
        have hxe : x = e := by
          have := List.mem_of_getElem? hx'
          simpa using this
        rw [hxe]
        exact hstamp
    · exact h.reigns.lead_stamp t k x ht (by simpa [hti] using hx) hk
  · intro t l hl
    rcases h.reigns.seated t l hl with ⟨u, htu, hu, hwonu, hpre⟩
    refine ⟨u, htu, le_trans hu (hevolves.current l), hwonu, ?_⟩
    by_cases hli : l = i
    · subst hli
      simpa using hpre.trans (List.prefix_append _ _)
    · simpa [hli] using hpre

end Extending

section Actions

variable [DecidableEq node] [DecidableEq entry]

theorem reignInv_act (h : Inv quorums w) (hact : Act quorums i w w') :
    ReignInv quorums w' := by
  have hevolves := evolves_act h.ballots h.reigns hact
  cases hact with
  | retire | campaign | grant | commit =>
      refine reignInv_of_same h hevolves rfl rfl rfl ?_ ?_ ?_
      · intro l hl
        grind
      · intro l hl
        grind
      · intro l u hu hle hpre
        exists u
        grind
  | win hrole hquorum hballots =>
      exact reignInv_win h hrole hquorum hballots hevolves
  | extend hrole hstamp => exact reignInv_extend h hrole hstamp hevolves
  | accept hrole hconnects =>
      rename_i l previous previousStamp suffix commit
      rcases exists_snapshot h.logs hconnects.left with ⟨log, hsnapshot⟩
      refine reignInv_of_same h hevolves rfl rfl rfl ?_ ?_ ?_
      · intro l hl
        grind
      · intro l hl
        grind
      · intro v u hu hle hpre
        by_cases hv : v = i
        · subst hv
          refine ⟨(w.replica v).current, hle, by simp,
            ⟨l, hsnapshot.winner⟩, ?_⟩
          simpa using
            hsnapshot.base.trans (hsnapshot.prefix_splice h.logs hconnects)
        · exact ⟨u, le_refl u, by simpa [hv] using hle, hu,
            by simpa [hv] using hpre⟩
  | send hp =>
      refine reignInv_of_same h hevolves rfl rfl rfl ?_ ?_ ?_
      · intro l hl
        exact Or.inl ⟨hl, rfl⟩
      · intro l hl
        exact ⟨hl, rfl, rfl⟩
      · intro l u hu hle hpre
        exact ⟨u, le_refl u, hle, hu, hpre⟩

end Actions

end Consensus
end FTKV
