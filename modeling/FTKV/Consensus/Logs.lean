import FTKV.Consensus.Invariants

/-!
# Rooted logs

A log is rooted when each of its initial segments is an initial segment of the
leadership that created its last entry.  Two rooted logs that agree on the stamp
of one position therefore agree on everything up to it, and the stamps along a
rooted log never decrease.

## Connecting a packet

The last part uses this to describe what happens when a node takes in the
entries of a packet: either its log already holds the sender's log, or it
becomes the sender's log.
-/

namespace FTKV
namespace Consensus

open Foundation

variable {node term entry : Type} {quorums : QuorumSystem node}
  {w w' : World node term entry} {i : node}

/-!
# Initial segments
-/

theorem take_eq_take_of_isPrefix {a b : List entry} {k : Nat} (hab : a <+: b)
    (hk : k <= a.length) : a.take k = b.take k := by
  rcases hab with ⟨rest, rfl⟩
  rw [List.take_append_of_le_length hk]

theorem take_eq_take_of_take_isPrefix {a b : List entry} {c k : Nat}
    (hab : a.take c <+: b) (hk : k <= c) (hc : c <= a.length) :
    a.take k = b.take k := by
  have htake := take_eq_take_of_isPrefix hab (k := k) (by
    rw [List.length_take]
    lia)
  rwa [List.take_take, min_eq_left hk] at htake

theorem getElem?_of_isPrefix {a b : List entry} {k : Nat} {e : entry}
    (hab : a <+: b) (he : a[k]? = some e) : b[k]? = some e := by
  rcases hab with ⟨rest, rfl⟩
  have hk : k < a.length := (List.getElem?_eq_some_iff.mp he).1
  rw [List.getElem?_append_left hk]
  exact he

theorem length_of_getElem? {a : List entry} {k : Nat} {e : entry}
    (he : a[k]? = some e) : k < a.length :=
  (List.getElem?_eq_some_iff.mp he).1

theorem getElem?_of_take_isPrefix {a b : List entry} {k : Nat} {e : entry}
    (hab : a.take (k + 1) <+: b) (he : a[k]? = some e) : b[k]? = some e := by
  refine getElem?_of_isPrefix hab ?_
  rw [List.getElem?_take_of_lt (Nat.lt_succ_self k)]
  exact he

section Stamps

variable [LinearOrder term] [OrderBot term] [Stamped entry term]

theorem stampAt_succ {a : List entry} {k : Nat} {e : entry}
    (he : a[k]? = some e) : stampAt a (k + 1) = stamp e := by
  simp [stampAt, he]

variable (term) in
theorem exists_last_of_ne_nil {a : List entry} (ha : a ≠ []) :
    exists e, a[a.length - 1]? = some e ∧ lastStamp a = stamp e := by
  have hpos : 0 < a.length := List.length_pos_of_ne_nil ha
  have hlt : a.length - 1 < a.length := by
    lia
  have hlast : a[a.length - 1]? = some a[a.length - 1] :=
    List.getElem?_eq_getElem hlt
  refine ⟨_, hlast, ?_⟩
  have hstamp := stampAt_succ hlast
  rw [Nat.sub_add_cancel hpos] at hstamp
  exact hstamp

theorem stampAt_of_isPrefix {a b : List entry} {k : Nat} (hab : a <+: b)
    (hk : k <= a.length) : stampAt a k = stampAt b k := by
  cases k with
  | zero => rfl
  | succ k =>
      have ha : a[k]? = some a[k] := List.getElem?_eq_getElem hk
      rw [stampAt_succ ha, stampAt_succ (getElem?_of_isPrefix hab ha)]

end Stamps

/-!
# Rooted logs
-/

section Agreement

variable [Stamped entry term]

theorem rooted_nil : Rooted w ([] : List entry) := by
  intro k e he
  cases he

theorem rooted_of_isPrefix {a b : List entry} (hab : a <+: b) (hb : Rooted w b) :
    Rooted w a := by
  intro k e he
  rcases hb k e (getElem?_of_isPrefix hab he) with ⟨hwon, hpre⟩
  refine ⟨hwon, ?_⟩
  rw [take_eq_take_of_isPrefix hab (length_of_getElem? he)]
  exact hpre

theorem rooted_take_eq {a b : List entry} {k : Nat} {x y : entry}
    (ha : Rooted w a) (hb : Rooted w b) (hx : a[k]? = some x)
    (hy : b[k]? = some y) (hstamp : stamp x = stamp y) :
    a.take (k + 1) = b.take (k + 1) := by
  have hax := (ha k x hx).right
  have hby := (hb k y hy).right
  rw [← hstamp] at hby
  have hla : (a.take (k + 1)).length = k + 1 := by
    rw [List.length_take]
    exact min_eq_left (length_of_getElem? hx)
  have hlb : (b.take (k + 1)).length = k + 1 := by
    rw [List.length_take]
    exact min_eq_left (length_of_getElem? hy)
  have hpre := List.prefix_of_prefix_length_le hax hby (by rw [hla, hlb])
  exact hpre.eq_of_length (by rw [hla, hlb])

theorem rooted_getElem?_eq {a b : List entry} {k m : Nat} {x y : entry}
    (ha : Rooted w a) (hb : Rooted w b) (hx : a[k]? = some x) (hy : b[m]? = some y)
    (hkm : k <= m) (hstamp : stamp x = stamp y) : b[k]? = some x := by
  have hax := (ha k x hx).right
  have hby := (hb m y hy).right
  rw [← hstamp] at hby
  have hm := length_of_getElem? hy
  have hle : (a.take (k + 1)).length <= (b.take (m + 1)).length := by
    rw [List.length_take, List.length_take]
    lia
  have hheld := getElem?_of_take_isPrefix
    (List.prefix_of_prefix_length_le hax hby hle) hx
  rw [List.getElem?_take_of_lt (by lia)] at hheld
  exact hheld

end Agreement

variable [LinearOrder term] [OrderBot term] [Stamped entry term]

theorem rooted_take_eq_of_stampAt {a b : List entry} {k : Nat}
    (ha : Rooted w a) (hb : Rooted w b) (hka : k <= a.length)
    (hkb : k <= b.length) (hstamp : k = 0 ∨ stampAt a k = stampAt b k) :
    a.take k = b.take k := by
  cases k with
  | zero => simp
  | succ k =>
      have hx : a[k]? = some a[k] := List.getElem?_eq_getElem hka
      have hy : b[k]? = some b[k] := List.getElem?_eq_getElem hkb
      refine rooted_take_eq ha hb hx hy ?_
      rcases hstamp with hzero | hstamp
      · cases hzero
      · rw [stampAt_succ hx, stampAt_succ hy] at hstamp
        exact hstamp

theorem lead_stamp_le (h : ReignInv quorums w) {t : term} (ht : Won w t)
    {k : Nat} {e : entry} (he : (w.lead t)[k]? = some e) : stamp e <= t := by
  by_cases hk : (w.base t).length <= k
  · exact le_of_eq (h.lead_stamp t k e ht he hk)
  · have hlt : k < (w.base t).length := Nat.lt_of_not_le hk
    have hbase : (w.base t)[k]? = some (w.base t)[k] :=
      List.getElem?_eq_getElem hlt
    have hsame := getElem?_of_isPrefix (h.base_prefix t ht) hbase
    rw [he] at hsame
    cases hsame
    exact le_of_lt (h.base_stamp t _ ht (List.getElem_mem hlt))

theorem rooted_stamp_le (h : ReignInv quorums w) {a : List entry}
    (ha : Rooted w a) {j k : Nat} {x y : entry} (hjk : j <= k)
    (hx : a[j]? = some x) (hy : a[k]? = some y) : stamp x <= stamp y := by
  rcases ha k y hy with ⟨hwon, hpre⟩
  have hx' : (a.take (k + 1))[j]? = some x := by
    rw [List.getElem?_take_of_lt (Nat.lt_succ_of_le hjk)]
    exact hx
  exact lead_stamp_le h hwon (getElem?_of_isPrefix hpre hx')

theorem base_prefix_of_last (h : ReignInv quorums w) {a : List entry}
    (ha : Rooted w a) {k : Nat} {e : entry} (he : a[k]? = some e) :
    w.base (stamp e) <+: a.take (k + 1) := by
  rcases ha k e he with ⟨hwon, hpre⟩
  refine List.prefix_of_prefix_length_le (h.base_prefix _ hwon) hpre ?_
  by_contra hlength
  have hbase : a.take (k + 1) <+: w.base (stamp e) := by
    refine List.prefix_of_prefix_length_le hpre (h.base_prefix _ hwon) ?_
    exact le_of_lt (Nat.lt_of_not_le hlength)
  have hmem : e ∈ w.base (stamp e) :=
    List.mem_of_getElem? (getElem?_of_take_isPrefix hbase he)
  exact lt_irrefl _ (h.base_stamp _ e hwon hmem)

/-!
# Connecting a packet
-/

/-- The log that a leader of term `t` had when it sent a packet. -/
structure Snapshot (quorums : QuorumSystem node) (w : World node term entry)
    (t : term) (l : node) (previous : Nat) (previousStamp : term)
    (suffix : List entry) (commit : Nat) (log : List entry) : Prop where
  winner : w.winner t = some l
  base : w.base t <+: log
  lead : log <+: w.lead t
  previous_le : previous <= log.length
  suffix_eq : suffix = log.drop previous
  stamp_eq : previousStamp = stampAt log previous
  settled : Settled quorums w t log commit

theorem exists_snapshot (h : LogInv quorums w) {t : term} {l : node}
    {previous : Nat} {previousStamp : term} {suffix : List entry} {commit : Nat}
    (hsent : .entries t l previous previousStamp suffix commit ∈ w.sent) :
    exists log, Snapshot quorums w t l previous previousStamp suffix commit
      log := by
  rcases h.packets _ _ _ _ _ _ hsent with
    ⟨hwinner, log, hbase, hlead, hprevious, hsuffix, hstamp, hsettled⟩
  exact ⟨log, hwinner, hbase, hlead, hprevious, hsuffix, hstamp, hsettled⟩

theorem Snapshot.length_eq {t : term} {l : node} {previous : Nat}
    {previousStamp : term} {suffix : List entry} {commit : Nat}
    {log : List entry}
    (h : Snapshot quorums w t l previous previousStamp suffix commit log) :
    previous + suffix.length = log.length := by
  rw [h.suffix_eq, List.length_drop]
  have hle := h.previous_le
  lia

theorem Snapshot.rooted (hlogs : LogInv quorums w) {t : term} {l : node}
    {previous : Nat} {previousStamp : term} {suffix : List entry} {commit : Nat}
    {log : List entry}
    (h : Snapshot quorums w t l previous previousStamp suffix commit log) :
    Rooted w log :=
  rooted_of_isPrefix h.lead (hlogs.leads t ⟨l, h.winner⟩)

theorem Snapshot.getElem?_suffix {t : term} {l : node} {previous : Nat}
    {previousStamp : term} {suffix : List entry} {commit : Nat}
    {log : List entry}
    (h : Snapshot quorums w t l previous previousStamp suffix commit log)
    (offset : Nat) : suffix[offset]? = log[previous + offset]? := by
  rw [h.suffix_eq, List.getElem?_drop]

theorem Snapshot.entry_eq_of_stamp (hlogs : LogInv quorums w) {t : term} {l : node}
    {previous : Nat} {previousStamp : term} {suffix : List entry} {commit : Nat}
    {log log' : List entry}
    (h : Snapshot quorums w t l previous previousStamp suffix commit log)
    (hrooted : Rooted w log') {offset : Nat} {x y : entry}
    (hx : log'[previous + offset]? = some x) (hy : suffix[offset]? = some y)
    (hstamp : stamp x = stamp y) : x = y := by
  rw [h.getElem?_suffix] at hy
  have htake := rooted_take_eq hrooted (h.rooted hlogs) hx hy hstamp
  have hentry := congrArg (fun entries => entries[previous + offset]?) htake
  simpa [List.getElem?_take_of_lt (Nat.lt_succ_self _), hx, hy] using hentry

theorem Snapshot.take_eq (hlogs : LogInv quorums w) {l : node} {previous : Nat}
    {previousStamp : term} {suffix : List entry} {commit : Nat}
    {log : List entry}
    (h : Snapshot quorums w (w.replica i).current l previous previousStamp
      suffix commit log)
    (hconnects : Connects w i l previous previousStamp suffix commit) :
    (w.replica i).log.take previous = log.take previous := by
  refine rooted_take_eq_of_stampAt (hlogs.logs i) (h.rooted hlogs)
    hconnects.right.left h.previous_le ?_
  rw [← h.stamp_eq]
  exact hconnects.right.right

theorem Snapshot.eq_append (hlogs : LogInv quorums w) {l : node}
    {previous : Nat} {previousStamp : term} {suffix : List entry} {commit : Nat}
    {log : List entry}
    (h : Snapshot quorums w (w.replica i).current l previous previousStamp
      suffix commit log)
    (hconnects : Connects w i l previous previousStamp suffix commit) :
    (w.replica i).log.take previous ++ suffix = log := by
  rw [h.take_eq hlogs hconnects, h.suffix_eq, List.take_append_drop]

theorem Snapshot.prefix_iff (hlogs : LogInv quorums w) {l : node}
    {previous : Nat} {previousStamp : term} {suffix : List entry} {commit : Nat}
    {log : List entry}
    (h : Snapshot quorums w (w.replica i).current l previous previousStamp
      suffix commit log)
    (hconnects : Connects w i l previous previousStamp suffix commit) :
    suffix <+: (w.replica i).log.drop previous <-> log <+: (w.replica i).log := by
  rw [← h.eq_append hlogs hconnects]
  have hsplit := List.take_append_drop previous (w.replica i).log
  constructor
  · intro hsuffix
    have hgoal : (w.replica i).log.take previous ++ suffix <+:
        (w.replica i).log.take previous ++ (w.replica i).log.drop previous :=
      (List.prefix_append_right_inj _).mpr hsuffix
    rw [hsplit] at hgoal
    exact hgoal
  · intro hlog
    have hgoal : (w.replica i).log.take previous ++ suffix <+:
        (w.replica i).log.take previous ++ (w.replica i).log.drop previous := by
      rw [hsplit]
      exact hlog
    exact (List.prefix_append_right_inj _).mp hgoal

/--
Taking in the entries of a packet leaves a log that holds the sender's log, or
replaces a log that did not hold it by exactly the sender's log.
-/
theorem Snapshot.splice_cases [DecidableEq entry] (hlogs : LogInv quorums w)
    {l : node} {previous : Nat} {previousStamp : term} {suffix : List entry}
    {commit : Nat} {log : List entry}
    (h : Snapshot quorums w (w.replica i).current l previous previousStamp
      suffix commit log)
    (hconnects : Connects w i l previous previousStamp suffix commit) :
    (splice (w.replica i).log previous suffix = (w.replica i).log ∧
        log <+: (w.replica i).log) ∨
      (splice (w.replica i).log previous suffix = log ∧
        ¬ log <+: (w.replica i).log) := by
  have hiff := h.prefix_iff hlogs hconnects
  by_cases hsuffix : suffix <+: (w.replica i).log.drop previous
  · refine Or.inl ⟨?_, hiff.mp hsuffix⟩
    unfold splice
    rw [if_pos hsuffix]
  · refine Or.inr ⟨?_, fun hlog => hsuffix (hiff.mpr hlog)⟩
    unfold splice
    rw [if_neg hsuffix]
    exact h.eq_append hlogs hconnects

theorem Snapshot.prefix_splice [DecidableEq entry] (hlogs : LogInv quorums w)
    {l : node} {previous : Nat} {previousStamp : term} {suffix : List entry}
    {commit : Nat} {log : List entry}
    (h : Snapshot quorums w (w.replica i).current l previous previousStamp
      suffix commit log)
    (hconnects : Connects w i l previous previousStamp suffix commit) :
    log <+: splice (w.replica i).log previous suffix := by
  rcases h.splice_cases hlogs hconnects with ⟨hsplice, hlog⟩ | ⟨hsplice, -⟩
  · rw [hsplice]
    exact hlog
  · rw [hsplice]

end Consensus
end FTKV
