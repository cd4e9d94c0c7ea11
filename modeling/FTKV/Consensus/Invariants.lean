import FTKV.Consensus.World

/-!
# Invariants of replicated logs

The invariants are grouped by what they speak about: ballots, reigns (who leads
a term and with which log), logs, receipts and commitment.  Each group is
preserved by every action; the modules that follow prove this group by group.
-/

namespace FTKV
namespace Consensus

open Foundation

variable {node term entry : Type}

/-!
# Vocabulary
-/

def Won (w : World node term entry) (t : term) : Prop :=
  exists l, w.winner t = some l

section Vocabulary

variable [LinearOrder term] [OrderBot term] [Stamped entry term]

/--
Every initial segment of the log is an initial segment of the leadership that
created its last entry.
-/
def Rooted (w : World node term entry) (log : List entry) : Prop :=
  forall k e, log[k]? = some e ->
    Won w (stamp e) ∧ log.take (k + 1) <+: w.lead (stamp e)

/--
The log holds the first `k` entries of leadership `t`, unless a later
leadership within the bound started without them.
-/
def Keeps (w : World node term entry) (t : term) (k : Nat)
    (within : term -> Prop) (log : List entry) : Prop :=
  (w.lead t).take k <+: log ∨
    exists u, t < u ∧ within u ∧ Won w u ∧ ¬ (w.lead t).take k <+: w.base u

/-- What voter `v` had confirmed in earlier terms reaches the winner of `t`. -/
def Carried (w : World node term entry) (v : node) (t : term) : Prop :=
  forall s k, s < t -> k <= w.receipts v s -> 0 < k ->
    stampAt (w.lead s) k = s -> Keeps w s k (· < t) (w.base t)

/-- A quorum has confirmed the first `k` entries of leadership `t`. -/
structure Chosen (quorums : QuorumSystem node) (w : World node term entry)
    (t : term) (k : Nat) : Prop where
  won : Won w t
  pos : 0 < k
  length : k <= (w.lead t).length
  stamp : stampAt (w.lead t) k = t
  confirmed : exists Q, quorums.IsQuorum Q ∧
    forall v, v ∈ Q -> k <= w.receipts v t

/-- The first `c` entries of the log were chosen in some term up to `bound`. -/
def Settled (quorums : QuorumSystem node) (w : World node term entry)
    (bound : term) (log : List entry) (c : Nat) : Prop :=
  c <= log.length ∧ (c = 0 ∨ exists t k, t <= bound ∧ c <= k ∧
    Chosen quorums w t k ∧ log.take c = (w.lead t).take c)

end Vocabulary

/-!
# The invariants
-/

section Groups

variable [LinearOrder term] [OrderBot term] [Stamped entry term]

structure BallotInv (w : World node term entry) : Prop where
  recorded : forall t v c, .ballot t v c ∈ w.sent ->
    exists log, w.ballots v t = some (c, log)
  bound : forall v t c log, w.ballots v t = some (c, log) ->
    t <= (w.replica v).current ∧ t <= (w.replica c).current
  vote_of_ballot : forall v c log,
    w.ballots v (w.replica v).current = some (c, log) ->
      (w.replica v).vote = some c
  ballot_of_vote : forall v c, (w.replica v).vote = some c ->
    exists log, w.ballots v (w.replica v).current = some (c, log)
  solicited : forall t c lastIndex last,
    .solicitation t c lastIndex last ∈ w.sent ->
      t <= (w.replica c).current ∧
        (t = (w.replica c).current -> (w.replica c).role = .candidate ->
          lastIndex = (w.replica c).log.length ∧
            last = lastStamp (w.replica c).log)
  own : forall c, (w.replica c).role = .candidate ->
    (w.replica c).vote = some c
  upToDate : forall c v log, (w.replica c).role = .candidate ->
    w.ballots v (w.replica c).current = some (c, log) ->
      UpToDate (w.replica c).log.length (lastStamp (w.replica c).log) log

structure ReignInv (quorums : QuorumSystem node) (w : World node term entry) :
    Prop where
  elected : forall t l, w.winner t = some l ->
    exists Q, quorums.IsQuorum Q ∧ forall v, v ∈ Q ->
      (exists log, w.ballots v t = some (l, log)) ∧ Carried w v t
  bound : forall t l, w.winner t = some l ->
    t <= (w.replica l).current ∧
      (t = (w.replica l).current -> (w.replica l).role ≠ .candidate)
  leader : forall l, (w.replica l).role = .leader ->
    w.winner (w.replica l).current = some l ∧
      w.lead (w.replica l).current = (w.replica l).log
  confirmed : forall l k, (w.replica l).role = .leader -> 0 < k ->
    k <= (w.replica l).log.length ->
      stampAt (w.replica l).log k = (w.replica l).current ->
        k <= w.receipts l (w.replica l).current
  base_prefix : forall t, Won w t -> w.base t <+: w.lead t
  base_stamp : forall t e, Won w t -> e ∈ w.base t -> stamp e < t
  lead_stamp : forall t k e, Won w t -> (w.lead t)[k]? = some e ->
    (w.base t).length <= k -> stamp e = t
  seated : forall t l, w.winner t = some l ->
    exists u, t <= u ∧ u <= (w.replica l).current ∧ Won w u ∧
      w.base u <+: (w.replica l).log

structure LogInv (quorums : QuorumSystem node) (w : World node term entry) :
    Prop where
  logs : forall v, Rooted w (w.replica v).log
  leads : forall t, Won w t -> Rooted w (w.lead t)
  ballots : forall v t c log, w.ballots v t = some (c, log) -> Rooted w log
  stamps : forall v e, e ∈ (w.replica v).log ->
    stamp e <= (w.replica v).current
  candidate : forall v e, (w.replica v).role = .candidate ->
    e ∈ (w.replica v).log -> stamp e < (w.replica v).current
  packets : forall t l previous previousStamp suffix commit,
    .entries t l previous previousStamp suffix commit ∈ w.sent ->
      w.winner t = some l ∧ exists log,
        w.base t <+: log ∧ log <+: w.lead t ∧ previous <= log.length ∧
          suffix = log.drop previous ∧ previousStamp = stampAt log previous ∧
          Settled quorums w t log commit

structure ReceiptInv (w : World node term entry) : Prop where
  sent : forall t v k, .receipt t v k ∈ w.sent -> k <= w.receipts v t
  bound : forall v t, 0 < w.receipts v t ->
    Won w t ∧ t <= (w.replica v).current ∧
      w.receipts v t <= (w.lead t).length
  kept : forall v t k, k <= w.receipts v t ->
    Keeps w t k (· <= (w.replica v).current) (w.replica v).log
  voted : forall v t' c log, w.winner t' = none ->
    w.ballots v t' = some (c, log) -> forall t k, t < t' ->
      k <= w.receipts v t -> Keeps w t k (· < t') log

structure CommitInv (quorums : QuorumSystem node)
    (w : World node term entry) : Prop where
  settled : forall v, Settled quorums w (w.replica v).current
    (w.replica v).log (w.replica v).commit

structure Inv (quorums : QuorumSystem node) (w : World node term entry) :
    Prop where
  ballots : BallotInv w
  reigns : ReignInv quorums w
  logs : LogInv quorums w
  receipts : ReceiptInv w
  commits : CommitInv quorums w

end Groups

end Consensus
end FTKV
