import FTKV.Consensus.Replication
import Mathlib.Logic.Relation

/-!
# Commitment

What a node has committed was chosen by a quorum in some term.  Every later
leadership starts from it, so nothing committed is ever lost, and any two nodes
agree on what both have committed.
-/

namespace FTKV
namespace Consensus

open Foundation

variable {node term entry : Type} [LinearOrder term] [OrderBot term]
  [Stamped entry term] {quorums : QuorumSystem node}
  {w w' w'' : World node term entry} {i : node}

/-!
# Settled prefixes
-/

theorem chosen_of_mayCommit (h : Inv quorums w) {k : Nat} {Q : Finset node}
    (hpos : 0 < k) (hk : k <= (w.replica i).log.length)
    (hrole : (w.replica i).role = .leader)
    (hstamp : stampAt (w.replica i).log k = (w.replica i).current)
    (hquorum : quorums.IsQuorum Q)
    (hreceipts : forall v, v ∈ Q -> v = i ∨
      exists k', k <= k' ∧ .receipt (w.replica i).current v k' ∈ w.sent) :
    Chosen quorums w (w.replica i).current k := by
  rcases h.reigns.leader i hrole with ⟨hwinner, hlead⟩
  refine ⟨⟨i, hwinner⟩, hpos, ?_, ?_, Q, hquorum, ?_⟩
  · rw [hlead]
    exact hk
  · rw [hlead]
    exact hstamp
  · intro v hv
    rcases hreceipts v hv with hself | ⟨k', hk', hsent⟩
    · rw [hself]
      exact h.reigns.confirmed i k hrole hpos hk hstamp
    · exact Nat.le_trans hk' (h.receipts.sent _ v k' hsent)

theorem settled_of_mayCommit (h : Inv quorums w) {k : Nat}
    (hk : k <= (w.replica i).log.length) (hmay : MayCommit quorums w i k) :
    Settled quorums w (w.replica i).current (w.replica i).log k := by
  cases hmay with
  | leader hrole hstamp hquorum hreceipts =>
      refine ⟨hk, ?_⟩
      rcases Nat.eq_zero_or_pos k with hzero | hpos
      · exact Or.inl hzero
      · refine Or.inr ⟨_, k, le_refl _, Nat.le_refl k,
          chosen_of_mayCommit h hpos hk hrole hstamp hquorum hreceipts, ?_⟩
        rw [(h.reigns.leader i hrole).right]
  | follower hconnects hcontains hcommit =>
      rcases exists_snapshot h.logs hconnects.left with ⟨log, hsnapshot⟩
      have hpre := (hsnapshot.prefix_iff h.logs hconnects).mp hcontains
      exact settled_mono (evolves_refl w) (le_refl _)
        ((List.take_prefix _ _).trans hpre) hcommit hsnapshot.settled

variable [WellFoundedLT term]

/-- A chosen prefix is part of every leadership from its term on. -/
theorem chosen_prefix_lead (h : Inv quorums w) {t u : term} {k : Nat}
    (hchosen : Chosen quorums w t k) (hu : Won w u) (htu : t <= u) :
    (w.lead t).take k <+: w.lead u := by
  rcases lt_or_eq_of_le htu with hlt | heq
  · exact (chosen_prefix_base h hchosen hu hlt).trans (h.reigns.base_prefix u hu)
  · rw [← heq]
    exact List.take_prefix _ _

theorem settled_prefix_lead (h : Inv quorums w) {bound u : term}
    {log : List entry} {c : Nat} (hsettled : Settled quorums w bound log c)
    (hu : Won w u) (hbound : bound <= u) : log.take c <+: w.lead u := by
  rcases hsettled with ⟨-, hzero | ⟨t, k, ht, hck, hchosen, hagree⟩⟩
  · rw [hzero]
    simp
  · rw [hagree]
    exact (List.take_prefix_take_left hck).trans
      (chosen_prefix_lead h hchosen hu (le_trans ht hbound))

theorem settled_prefix_base (h : Inv quorums w) {bound u : term}
    {log : List entry} {c : Nat} (hsettled : Settled quorums w bound log c)
    (hu : Won w u) (hbound : bound < u) : log.take c <+: w.base u := by
  rcases hsettled with ⟨-, hzero | ⟨t, k, ht, hck, hchosen, hagree⟩⟩
  · rw [hzero]
    simp
  · rw [hagree]
    exact (List.take_prefix_take_left hck).trans
      (chosen_prefix_base h hchosen hu (lt_of_le_of_lt ht hbound))

theorem settled_comparable (h : Inv quorums w) {u : term} {log log' : List entry}
    {c : Nat} (hsettled : Settled quorums w u log c) {l : node} {previous : Nat}
    {previousStamp : term} {suffix : List entry} {commit : Nat}
    (hsnapshot : Snapshot quorums w u l previous previousStamp suffix commit
      log') : log.take c <+: log' ∨ log' <+: log.take c :=
  List.prefix_or_prefix_of_prefix
    (settled_prefix_lead h hsettled ⟨l, hsnapshot.winner⟩ (le_refl u))
    hsnapshot.lead

theorem Snapshot.entry_eq_of_settled (h : Inv quorums w) {u : term}
    {log log' : List entry} {c : Nat} (hsettled : Settled quorums w u log' c)
    {l : node} {previous : Nat} {previousStamp : term} {suffix : List entry}
    {commit : Nat}
    (hsnapshot : Snapshot quorums w u l previous previousStamp suffix commit log)
    {offset : Nat} {x y : entry} (hx : log'[previous + offset]? = some x)
    (hy : suffix[offset]? = some y) (hlt : previous + offset < c) : x = y := by
  rw [hsnapshot.getElem?_suffix] at hy
  have hx' : (log'.take c)[previous + offset]? = some x := by
    rwa [List.getElem?_take_of_lt hlt]
  rcases settled_comparable h hsettled hsnapshot with hpre | hpre
  · have hsame := getElem?_of_isPrefix hpre hx'
    rw [hy] at hsame
    exact (Option.some.inj hsame).symm
  · have hsame := getElem?_of_isPrefix hpre hy
    rw [hx'] at hsame
    exact Option.some.inj hsame

/-- Two settled prefixes agree as far as both reach. -/
theorem settled_agree (h : Inv quorums w) {bound bound' : term}
    {log log' : List entry} {c c' k : Nat}
    (hsettled : Settled quorums w bound log c)
    (hsettled' : Settled quorums w bound' log' c') (hk : k <= c)
    (hk' : k <= c') : log.take k = log'.take k := by
  rcases hsettled with ⟨-, hzero | ⟨t, j, -, hcj, hchosen, hagree⟩⟩
  · have hk0 : k = 0 := by
      lia
    simp [hk0]
  rcases hsettled' with ⟨-, hzero | ⟨t', j', -, hcj', hchosen', hagree'⟩⟩
  · have hk0 : k = 0 := by
      lia
    simp [hk0]
  have hleft : log.take k = (w.lead t).take k := by
    have htake := congrArg (List.take k) hagree
    rwa [List.take_take, List.take_take, min_eq_left hk] at htake
  have hright : log'.take k = (w.lead t').take k := by
    have htake := congrArg (List.take k) hagree'
    rwa [List.take_take, List.take_take, min_eq_left hk'] at htake
  rw [hleft, hright]
  rcases le_total t t' with hle | hle
  · exact take_eq_take_of_take_isPrefix
      (chosen_prefix_lead h hchosen hchosen'.won hle) (Nat.le_trans hk hcj)
      hchosen.length
  · exact (take_eq_take_of_take_isPrefix
      (chosen_prefix_lead h hchosen' hchosen.won hle) (Nat.le_trans hk' hcj')
      hchosen'.length).symm

/-!
# Preservation
-/

theorem take_commit_prefix_splice [DecidableEq entry] (h : Inv quorums w) {l : node}
    {previous : Nat} {previousStamp : term} {suffix : List entry} {commit : Nat}
    (hconnects : Connects w i l previous previousStamp suffix commit) :
    (w.replica i).log.take (w.replica i).commit <+:
      splice (w.replica i).log previous suffix := by
  rcases exists_snapshot h.logs hconnects.left with ⟨log, hsnapshot⟩
  rcases hsnapshot.splice_cases h.logs hconnects with
    ⟨hsplice, -⟩ | ⟨hsplice, hlost⟩
  · rw [hsplice]
    exact List.take_prefix _ _
  · rw [hsplice]
    rcases settled_comparable h (h.commits.settled i) hsnapshot with
      hkept | hshort
    · exact hkept
    · exact absurd (hshort.trans (List.take_prefix _ _)) hlost

section Actions

variable [DecidableEq node] [DecidableEq entry]

omit [WellFoundedLT term] in
theorem act_replica_of_ne (hact : Act quorums i w w') {v : node}
    (hv : v ≠ i) : w'.replica v = w.replica v := by
  cases hact <;> simp [hv]

omit [WellFoundedLT term] in
theorem sent_subset_act (hact : Act quorums i w w') : w.sent ⊆ w'.sent := by
  cases hact with
  | send hp => exact Set.subset_insert _ _
  | retire | campaign | grant | win | extend | accept | commit =>
      exact fun _ hp => hp

theorem commitInv_act (h : Inv quorums w) (hact : Act quorums i w w') :
    CommitInv quorums w' := by
  have hevolves := evolves_act h.ballots h.reigns hact
  have hkeep : forall v, (w'.replica v).commit <= (w.replica v).commit ->
      (w.replica v).log.take (w.replica v).commit <+: (w'.replica v).log ->
        Settled quorums w' (w'.replica v).current (w'.replica v).log
          (w'.replica v).commit := by
    intro v hcommit hlog
    exact settled_mono hevolves (hevolves.current v) hlog hcommit
      (h.commits.settled v)
  have htake : forall v, (w.replica v).log.take (w.replica v).commit <+:
      (w.replica v).log := fun v => List.take_prefix _ _
  constructor
  intro v
  by_cases hv : v = i
  · subst hv
    cases hact with
    | retire ht hc => exact hkeep v (by simpa using hc) (by simpa using htake v)
    | campaign ht => exact hkeep v (by simp) (by simpa using htake v)
    | grant hsolicited hvote hcurrent =>
        exact hkeep v (by simp) (by simpa using htake v)
    | win hrole hquorum hballots =>
        exact hkeep v (by simp) (by simpa using htake v)
    | extend hrole hstamp =>
        refine hkeep v (by simp) ?_
        simpa using (htake v).trans (List.prefix_append _ _)
    | accept hrole hconnects =>
        refine hkeep v (by simp) ?_
        simpa using take_commit_prefix_splice h hconnects
    | commit hraise hk hmay =>
        have hsettled := settled_of_mayCommit h hk hmay
        have hnew := settled_mono hevolves (le_refl _) (List.take_prefix _ _)
          (Nat.le_refl _) hsettled
        simpa using hnew
    | send hp => exact hkeep v (Nat.le_refl _) (htake v)
  · have hsame := act_replica_of_ne hact hv
    exact hkeep v (by rw [hsame]) (by rw [hsame]; exact htake v)

/-!
# All invariants together
-/

theorem inv_act (h : Inv quorums w) (hact : Act quorums i w w') :
    Inv quorums w' :=
  ⟨ballotInv_act h.ballots hact, reignInv_act h hact, logInv_act h hact,
    receiptInv_act h hact, commitInv_act h hact⟩

def Steps (quorums : QuorumSystem node) :
    World node term entry -> World node term entry -> Prop :=
  Relation.ReflTransGen fun w w' => exists i, Act quorums i w w'

theorem inv_steps (h : Inv quorums w) (hsteps : Steps quorums w w') :
    Inv quorums w' ∧ Evolves w w' := by
  induction hsteps with
  | refl => exact ⟨h, evolves_refl w⟩
  | tail _ hact ih =>
      rcases hact with ⟨v, hact⟩
      exact ⟨inv_act ih.left hact, evolves_trans ih.right
        (evolves_act ih.left.ballots ih.left.reigns hact)⟩

omit [WellFoundedLT term] [DecidableEq node] [DecidableEq entry] in
theorem inv_initial (h : Initial w) : Inv quorums w := by
  have hwon : forall t, ¬ Won w t := by
    intro t ht
    rcases ht with ⟨l, hl⟩
    rw [h.winner t] at hl
    cases hl
  constructor
  · constructor <;> simp [h.replica, h.sent, h.ballots]
  · constructor <;> simp [h.replica, h.winner, hwon]
  · constructor <;>
      simp [h.replica, h.sent, h.ballots, hwon, rooted_nil]
  · constructor <;> simp [h.sent, h.receipts, h.ballots, Keeps]
  · constructor
    simp [h.replica, Settled]

end Actions

end Consensus
end FTKV
