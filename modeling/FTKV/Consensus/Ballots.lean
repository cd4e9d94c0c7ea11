import FTKV.Consensus.Invariants

/-!
# Ballots

A node casts at most one ballot in a term, it casts it for a candidate that has
reached the term, and the log of a candidate is at least as current as the log
of everyone who voted for it.
-/

namespace FTKV
namespace Consensus

open Foundation

variable {node term entry : Type} [LinearOrder term] [OrderBot term]
  [Stamped entry term] {quorums : QuorumSystem node}
  {w w' : World node term entry} {i : node}

theorem upToDate_self (log : List entry) :
    UpToDate log.length (lastStamp log) log :=
  Or.inr ⟨rfl, Nat.le_refl _⟩

/-!
# Ballots on record

A node without a vote in its term has cast no ballot in it, and nobody has cast
a ballot in a term that is still ahead of the voter or of the candidate.
-/

theorem ballots_eq_none_of_vote_eq_none (h : BallotInv w) {v : node}
    (hvote : (w.replica v).vote = none) :
    w.ballots v (w.replica v).current = none := by
  cases hballot : w.ballots v (w.replica v).current with
  | none => rfl
  | some ballot =>
      rcases ballot with ⟨c, log⟩
      have hsome := h.vote_of_ballot v c log hballot
      rw [hvote] at hsome
      cases hsome

theorem ballots_eq_none_of_current_lt (h : BallotInv w) {v : node} {t : term}
    (ht : (w.replica v).current < t) : w.ballots v t = none := by
  cases hballot : w.ballots v t with
  | none => rfl
  | some ballot =>
      rcases ballot with ⟨c, log⟩
      exact absurd (h.bound v t c log hballot).left (not_le_of_gt ht)

theorem ballots_ne_of_candidate_current_lt (h : BallotInv w) {v c : node}
    {t : term} {log : List entry} (ht : (w.replica c).current < t) :
    w.ballots v t ≠ some (c, log) := by
  intro hballot
  exact absurd (h.bound v t c log hballot).right (not_le_of_gt ht)

/-!
# Preservation

The group reads terms, votes, roles and logs of the nodes, the packets and the
ballots.  A change elsewhere, or a change of the log or the role of a node that
is no candidate afterwards, preserves it at once.
-/

theorem ballotInv_congr (h : BallotInv w) (hreplica : w'.replica = w.replica)
    (hsent : w'.sent = w.sent) (hballots : w'.ballots = w.ballots) :
    BallotInv w' := by
  constructor
  · rw [hsent, hballots]
    exact h.recorded
  · rw [hreplica, hballots]
    exact h.bound
  · rw [hreplica, hballots]
    exact h.vote_of_ballot
  · rw [hreplica, hballots]
    exact h.ballot_of_vote
  · rw [hreplica, hsent]
    exact h.solicited
  · rw [hreplica]
    exact h.own
  · rw [hreplica, hballots]
    exact h.upToDate

theorem ballotInv_send (h : BallotInv w) {p : Packet node term entry}
    (hp : MaySend w i p) : BallotInv (w.send p) := by
  constructor
  · intro s v d hsent
    rcases hsent with hnew | hold
    · cases hp with
      | solicitation hrole => cases hnew
      | ballot hvote =>
          cases hnew
          exact h.ballot_of_vote i d hvote
      | entries hrole hprevious => cases hnew
      | receipt hk => cases hnew
    · exact h.recorded s v d hold
  · exact h.bound
  · exact h.vote_of_ballot
  · exact h.ballot_of_vote
  · intro s d lastIndex last hsent
    rcases hsent with hnew | hold
    · cases hp with
      | solicitation hrole =>
          cases hnew
          exact ⟨le_refl _, fun _ _ => ⟨rfl, rfl⟩⟩
      | ballot hvote => cases hnew
      | entries hrole hprevious => cases hnew
      | receipt hk => cases hnew
    · exact h.solicited s d lastIndex last hold
  · exact h.own
  · exact h.upToDate

section Actions

variable [DecidableEq node]

theorem ballotInv_put (h : BallotInv w) {r : Replica node term entry}
    (hcurrent : r.current = (w.replica i).current)
    (hvote : r.vote = (w.replica i).vote)
    (hrole : r.role = .candidate ->
      (w.replica i).role = .candidate ∧ r.log = (w.replica i).log) :
    BallotInv (w.put i r) := by
  constructor
  · exact h.recorded
  · intro v t c log hballot
    have hbound := h.bound v t c log hballot
    grind
  · intro v c log hballot
    have hvoted := h.vote_of_ballot v c log
    grind
  · intro v c hvoted
    have hballot := h.ballot_of_vote v c
    grind
  · intro t c lastIndex last hsent
    have hsolicited := h.solicited t c lastIndex last hsent
    grind
  · intro c hcandidate
    have hown := h.own c
    grind
  · intro c v log hcandidate hballot
    have hupToDate := h.upToDate c v log
    grind

theorem ballotInv_retire (h : BallotInv w) {t : term} {c : Nat}
    (ht : (w.replica i).current <= t) :
    BallotInv (w.put i { w.replica i with
      current := t
      vote := if t = (w.replica i).current then (w.replica i).vote else none
      role := .follower
      commit := c }) := by
  constructor
  · exact h.recorded
  · intro v s d log hballot
    have hbound := h.bound v s d log hballot
    grind
  · intro v d log hballot
    by_cases hv : v = i
    · subst hv
      have hballot' : w.ballots v t = some (d, log) := by
        simpa using hballot
      have hcurrent : t = (w.replica v).current :=
        le_antisymm (h.bound v t d log hballot').left ht
      subst hcurrent
      simpa using h.vote_of_ballot v d log hballot'
    · simpa [hv] using h.vote_of_ballot v d log (by simpa [hv] using hballot)
  · intro v d hvote
    by_cases hv : v = i
    · subst hv
      by_cases hcurrent : t = (w.replica v).current
      · subst hcurrent
        simpa using h.ballot_of_vote v d (by simpa using hvote)
      · simp [hcurrent] at hvote
    · simpa [hv] using h.ballot_of_vote v d (by simpa [hv] using hvote)
  · intro s d lastIndex last hsent
    have hsolicited := h.solicited s d lastIndex last hsent
    grind
  · intro d hrole
    have hown := h.own d
    grind
  · intro d v log hrole hballot
    have hupToDate := h.upToDate d v log
    grind

theorem ballotInv_campaign (h : BallotInv w) {t : term}
    (ht : (w.replica i).current < t) :
    BallotInv ((w.put i { w.replica i with
      current := t
      vote := some i
      role := .candidate }).recordBallot i t (i, (w.replica i).log)) := by
  have hfresh := ballots_eq_none_of_current_lt h ht
  constructor
  · intro s v d hsent
    rcases h.recorded s v d hsent with ⟨log, hballot⟩
    exists log
    grind
  · intro v s d log hballot
    have hbound := h.bound v s d log
    grind
  · intro v d log hballot
    have hvote := h.vote_of_ballot v d log
    grind
  · intro v d hvote
    have hballot := h.ballot_of_vote v d
    grind
  · intro s d lastIndex last hsent
    have hsolicited := h.solicited s d lastIndex last hsent
    grind
  · intro d hrole
    have hown := h.own d
    grind
  · intro d v log hrole hballot
    by_cases hd : d = i
    · subst hd
      by_cases hv : v = d
      · subst hv
        have hlog : log = (w.replica v).log := by
          simpa using hballot.symm
        subst hlog
        simpa using upToDate_self (w.replica v).log
      · have hold : w.ballots v t = some (d, log) := by
          simpa [hv] using hballot
        exact absurd hold (ballots_ne_of_candidate_current_lt h ht)
    · have hupToDate := h.upToDate d v log
      grind

theorem ballotInv_grant (h : BallotInv w) {c : node} {lastIndex : Nat}
    {last : term}
    (hsolicited : .solicitation (w.replica i).current c lastIndex last ∈ w.sent)
    (hvote : (w.replica i).vote = none)
    (hcurrent : UpToDate lastIndex last (w.replica i).log) :
    BallotInv ((w.put i { w.replica i with
      vote := some c }).recordBallot i (w.replica i).current
        (c, (w.replica i).log)) := by
  have hfresh := ballots_eq_none_of_vote_eq_none h hvote
  rcases h.solicited _ _ _ _ hsolicited with ⟨hreached, hlast⟩
  constructor
  · intro s v d hsent
    rcases h.recorded s v d hsent with ⟨log, hballot⟩
    exists log
    grind
  · intro v s d log hballot
    have hbound := h.bound v s d log
    grind
  · intro v d log hballot
    have hvote := h.vote_of_ballot v d log
    grind
  · intro v d hvote
    have hballot := h.ballot_of_vote v d
    grind
  · intro s d lastIndex last hsent
    have hsolicited := h.solicited s d lastIndex last hsent
    grind
  · intro d hrole
    have hown := h.own d
    grind
  · intro d v log hrole hballot
    have hupToDate := h.upToDate d v log
    grind

theorem ballotInv_act [DecidableEq entry] (h : BallotInv w)
    (hact : Act quorums i w w') : BallotInv w' := by
  cases hact with
  | retire ht hc => exact ballotInv_retire h ht
  | campaign ht => exact ballotInv_campaign h ht
  | grant hsolicited hvote hcurrent =>
      exact ballotInv_grant h hsolicited hvote hcurrent
  | win hrole hquorum hballots =>
      refine ballotInv_congr (?_ : BallotInv (w.put i _)) rfl rfl rfl
      refine ballotInv_put h rfl rfl ?_
      intro hcandidate
      cases hcandidate
  | extend hrole hstamp =>
      refine ballotInv_congr (?_ : BallotInv (w.put i _)) rfl rfl rfl
      refine ballotInv_put h rfl rfl ?_
      intro hcandidate
      cases hrole.symm.trans hcandidate
  | accept hrole hconnects =>
      refine ballotInv_congr (?_ : BallotInv (w.put i _)) rfl rfl rfl
      refine ballotInv_put h rfl rfl ?_
      intro hcandidate
      cases hrole.symm.trans hcandidate
  | commit hraise hk hmay =>
      exact ballotInv_put h rfl rfl (fun hcandidate => ⟨hcandidate, rfl⟩)
  | send hp => exact ballotInv_send h hp

end Actions

end Consensus
end FTKV
