import FTKV.Foundation.Quorums
import Mathlib.Data.Set.Insert
import Mathlib.Data.List.Infix
import Mathlib.Order.BoundedOrder.Basic
import Mathlib.Tactic.Simps.Basic

/-!
# Replicated logs under elected leaders

An abstract model of consensus by elected leaders, over arbitrary types of
nodes, terms and log entries and an arbitrary quorum system.  A step is one
atomic action of one node.  Messages are never removed, so that loss, delay,
reordering and duplication are all covered by never, late, out of order or
repeatedly acting on a message.

## History variables

Next to the state of the nodes a world remembers the ballots that were cast,
who won each term, the log each winner started from, the log of each leadership
so far and how much of it each node has confirmed.
-/

namespace FTKV
namespace Consensus

open Foundation

class Stamped (entry : Type) (term : outParam Type) where
  stamp : entry -> term

export Stamped (stamp)

inductive Role where
  | follower
  | candidate
  | leader
deriving DecidableEq

/-- The part of a node's state that the protocol is about. -/
structure Replica (node term entry : Type) where
  current : term
  vote : Option node
  log : List entry
  role : Role
  commit : Nat

inductive Packet (node term entry : Type) where
  | solicitation (t : term) (candidate : node) (lastIndex : Nat) (lastStamp : term)
  | ballot (t : term) (voter candidate : node)
  | entries (t : term) (leader : node) (previous : Nat) (previousStamp : term)
      (suffix : List entry) (commit : Nat)
  | receipt (t : term) (replica : node) (upTo : Nat)

structure World (node term entry : Type) where
  replica : node -> Replica node term entry
  sent : Set (Packet node term entry)
  ballots : node -> term -> Option (node × List entry)
  winner : term -> Option node
  base : term -> List entry
  lead : term -> List entry
  receipts : node -> term -> Nat

variable {node term entry : Type}

/-!
# Stamps of log positions

Positions count from one; position zero lies before every entry and carries the
least term.
-/

section Stamps

variable [LinearOrder term] [OrderBot term] [Stamped entry term]

def stampAt (log : List entry) : Nat -> term
  | 0 => ⊥
  | k + 1 => (log[k]?.map stamp).getD ⊥

def lastStamp (log : List entry) : term :=
  stampAt log log.length

def UpToDate (lastIndex : Nat) (last : term) (log : List entry) : Prop :=
  lastStamp log < last ∨ (last = lastStamp log ∧ log.length <= lastIndex)

end Stamps

/-!
# Updates
-/

section Updates

namespace World

@[simps]
def put [DecidableEq node] (w : World node term entry) (i : node)
    (r : Replica node term entry) : World node term entry :=
  { w with replica := fun v => if v = i then r else w.replica v }

@[simps]
def send (w : World node term entry) (p : Packet node term entry) :
    World node term entry :=
  { w with sent := insert p w.sent }

@[simps]
def recordBallot [DecidableEq node] [DecidableEq term]
    (w : World node term entry) (i : node) (t : term)
    (ballot : node × List entry) : World node term entry :=
  { w with
    ballots := fun v s =>
      if v = i ∧ s = t then some ballot else w.ballots v s }

@[simps]
def crown [DecidableEq term] (w : World node term entry) (i : node) (t : term)
    (log : List entry) : World node term entry :=
  { w with
    winner := fun s => if s = t then some i else w.winner s
    base := fun s => if s = t then log else w.base s
    lead := fun s => if s = t then log else w.lead s }

@[simps]
def lengthen [DecidableEq term] (w : World node term entry) (t : term)
    (log : List entry) : World node term entry :=
  { w with lead := fun s => if s = t then log else w.lead s }

@[simps]
def confirm [DecidableEq node] [DecidableEq term] (w : World node term entry)
    (i : node) (t : term) (k : Nat) : World node term entry :=
  { w with
    receipts := fun v s =>
      if v = i ∧ s = t then max (w.receipts v s) k else w.receipts v s }

end World

attribute [grind =] World.put_replica World.put_sent World.put_ballots
  World.put_winner World.put_base World.put_lead World.put_receipts
  World.send_replica World.send_sent World.send_ballots World.send_winner
  World.send_base World.send_lead World.send_receipts
  World.recordBallot_replica World.recordBallot_sent World.recordBallot_ballots
  World.recordBallot_winner World.recordBallot_base World.recordBallot_lead
  World.recordBallot_receipts World.crown_replica World.crown_sent
  World.crown_ballots World.crown_winner World.crown_base World.crown_lead
  World.crown_receipts World.lengthen_replica World.lengthen_sent
  World.lengthen_ballots World.lengthen_winner World.lengthen_base
  World.lengthen_lead World.lengthen_receipts World.confirm_replica
  World.confirm_sent World.confirm_ballots World.confirm_winner
  World.confirm_base World.confirm_lead World.confirm_receipts

end Updates

/-- Replace what follows a position, unless it already agrees. -/
def splice [DecidableEq entry] (log : List entry) (previous : Nat)
    (suffix : List entry) : List entry :=
  if suffix <+: log.drop previous then log else log.take previous ++ suffix

/-!
# Actions
-/

section Actions

variable [DecidableEq node] [DecidableEq entry] [LinearOrder term]
  [OrderBot term] [Stamped entry term]

inductive MaySend (w : World node term entry) (i : node) :
    Packet node term entry -> Prop where
  | solicitation (hrole : (w.replica i).role = .candidate) :
      MaySend w i (.solicitation (w.replica i).current i
        (w.replica i).log.length (lastStamp (w.replica i).log))
  | ballot {c : node} (hvote : (w.replica i).vote = some c) :
      MaySend w i (.ballot (w.replica i).current i c)
  | entries {previous : Nat} (hrole : (w.replica i).role = .leader)
      (hprevious : previous <= (w.replica i).log.length) :
      MaySend w i (.entries (w.replica i).current i previous
        (stampAt (w.replica i).log previous) ((w.replica i).log.drop previous)
        (w.replica i).commit)
  | receipt {k : Nat} (hk : k <= w.receipts i (w.replica i).current) :
      MaySend w i (.receipt (w.replica i).current i k)

def Connects (w : World node term entry) (i l : node) (previous : Nat)
    (previousStamp : term) (suffix : List entry) (commit : Nat) : Prop :=
  .entries (w.replica i).current l previous previousStamp suffix commit ∈ w.sent ∧
    previous <= (w.replica i).log.length ∧
    (previous = 0 ∨ stampAt (w.replica i).log previous = previousStamp)

/-- What entitles a node to treat the first `k` entries of its log as settled. -/
inductive MayCommit (quorums : QuorumSystem node) (w : World node term entry)
    (i : node) (k : Nat) : Prop where
  | leader {Q : Finset node} (hrole : (w.replica i).role = .leader)
      (hstamp : stampAt (w.replica i).log k = (w.replica i).current)
      (hquorum : quorums.IsQuorum Q)
      (hreceipts : forall v, v ∈ Q -> v = i ∨
        exists k', k <= k' ∧ .receipt (w.replica i).current v k' ∈ w.sent)
  | follower {l : node} {previous : Nat} {previousStamp : term}
      {suffix : List entry} {commit : Nat}
      (hconnects : Connects w i l previous previousStamp suffix commit)
      (hcontains : suffix <+: (w.replica i).log.drop previous)
      (hk : k <= commit)

/-- One atomic action of node `i`. -/
inductive Act (quorums : QuorumSystem node) (i : node) :
    World node term entry -> World node term entry -> Prop where
  | retire {w : World node term entry} {t : term} {c : Nat}
      (ht : (w.replica i).current <= t) (hc : c <= (w.replica i).commit) :
      Act quorums i w (w.put i { w.replica i with
        current := t
        vote := if t = (w.replica i).current then (w.replica i).vote else none
        role := .follower
        commit := c })
  | campaign {w : World node term entry} {t : term}
      (ht : (w.replica i).current < t) :
      Act quorums i w ((w.put i { w.replica i with
        current := t
        vote := some i
        role := .candidate }).recordBallot i t (i, (w.replica i).log))
  | grant {w : World node term entry} {c : node} {lastIndex : Nat} {last : term}
      (hsolicited :
        .solicitation (w.replica i).current c lastIndex last ∈ w.sent)
      (hvote : (w.replica i).vote = none)
      (hcurrent : UpToDate lastIndex last (w.replica i).log) :
      Act quorums i w ((w.put i { w.replica i with
        vote := some c }).recordBallot i (w.replica i).current
          (c, (w.replica i).log))
  | win {w : World node term entry} {Q : Finset node}
      (hrole : (w.replica i).role = .candidate) (hquorum : quorums.IsQuorum Q)
      (hballots : forall v, v ∈ Q -> v = i ∨
        .ballot (w.replica i).current v i ∈ w.sent) :
      Act quorums i w ((w.put i { w.replica i with
        role := .leader }).crown i (w.replica i).current (w.replica i).log)
  | extend {w : World node term entry} {e : entry}
      (hrole : (w.replica i).role = .leader)
      (hstamp : stamp e = (w.replica i).current) :
      Act quorums i w (((w.put i { w.replica i with
        log := (w.replica i).log ++ [e] }).lengthen (w.replica i).current
          ((w.replica i).log ++ [e])).confirm i (w.replica i).current
            ((w.replica i).log.length + 1))
  | accept {w : World node term entry} {l : node} {previous : Nat}
      {previousStamp : term} {suffix : List entry} {commit : Nat}
      (hrole : (w.replica i).role = .follower)
      (hconnects : Connects w i l previous previousStamp suffix commit) :
      Act quorums i w ((w.put i { w.replica i with
        log := splice (w.replica i).log previous suffix }).confirm i
          (w.replica i).current (previous + suffix.length))
  | commit {w : World node term entry} {k : Nat}
      (hraise : (w.replica i).commit <= k)
      (hk : k <= (w.replica i).log.length)
      (hmay : MayCommit quorums w i k) :
      Act quorums i w (w.put i { w.replica i with commit := k })
  | send {w : World node term entry} {p : Packet node term entry}
      (hp : MaySend w i p) :
      Act quorums i w (w.send p)

structure Initial (w : World node term entry) : Prop where
  replica : forall v, w.replica v =
    { current := ⊥, vote := none, log := [], role := .follower, commit := 0 }
  sent : w.sent = ∅
  ballots : forall v t, w.ballots v t = none
  winner : forall t, w.winner t = none
  receipts : forall v t, w.receipts v t = 0

end Actions

end Consensus
end FTKV
