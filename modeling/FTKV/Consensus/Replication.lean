import FTKV.Consensus.Reigns

/-!
# Replication

Logs stay rooted in the leaderships that created their entries, packets carry
what their sender's log held, and a node never loses what it has confirmed
unless a later leadership started without it.
-/

namespace FTKV
namespace Consensus

open Foundation

variable {node term entry : Type} {quorums : QuorumSystem node}
  {w w' : World node term entry} {i : node}

/-!
# Logs
-/

theorem rooted_append [Stamped entry term] {log : List entry} {e : entry}
    (hlog : Rooted w log) (hwon : Won w (stamp e))
    (hlead : w.lead (stamp e) = log ++ [e]) :
    Rooted w (log ++ [e]) := by
  intro k x hx
  by_cases hk : k < log.length
  · rw [List.getElem?_append_left hk] at hx
    rcases hlog k x hx with ⟨hwonx, hpre⟩
    refine ⟨hwonx, ?_⟩
    rw [List.take_append_of_le_length hk]
    exact hpre
  · rw [List.getElem?_append_right (Nat.le_of_not_lt hk)] at hx
    have hxe : x = e := by
      simpa using List.mem_of_getElem? hx
    rw [hxe, hlead]
    exact ⟨hwon, List.take_prefix _ _⟩

theorem keeps_of_current_le [LinearOrder term] {v : node} {t : term} {k : Nat}
    {log log' : List entry} {current : term}
    (hcurrent : (w.replica v).current <= current) (hlog : log <+: log')
    (hkeeps : Keeps w t k (· <= (w.replica v).current) log) :
    Keeps w t k (· <= current) log' := by
  rcases hkeeps with hheld | ⟨u, htu, hu, hwonu, hlost⟩
  · exact Or.inl (hheld.trans hlog)
  · exact Or.inr ⟨u, htu, le_trans hu hcurrent, hwonu, hlost⟩

variable [LinearOrder term] [OrderBot term] [Stamped entry term]

/--
An action preserves the group of log invariants if the logs and leaderships it
changes are rooted, it records only current logs with ballots, it makes
candidates only in fresh terms, and it sends only what may be sent.
-/
theorem logInv_of_step (h : Inv quorums w) (hevolves : Evolves w w')
    (hlogs : forall v, (w'.replica v).log = (w.replica v).log ∨
      (Rooted w' (w'.replica v).log ∧ forall e, e ∈ (w'.replica v).log ->
        stamp e <= (w'.replica v).current))
    (hleads : forall t, Won w' t ->
      (Won w t ∧ w'.lead t = w.lead t) ∨ Rooted w' (w'.lead t))
    (hballots : forall v t c log, w'.ballots v t = some (c, log) ->
      w.ballots v t = some (c, log) ∨ log = (w.replica v).log)
    (hcandidate : forall v, (w'.replica v).role = .candidate ->
      (w'.replica v).log = (w.replica v).log ∧
        (((w.replica v).role = .candidate ∧
          (w'.replica v).current = (w.replica v).current) ∨
          (w.replica v).current < (w'.replica v).current))
    (hsent : forall p, p ∈ w'.sent -> p ∈ w.sent ∨ exists v, MaySend w v p) :
    LogInv quorums w' := by
  constructor
  · intro v
    rcases hlogs v with hsame | hnew
    · rw [hsame]
      exact rooted_mono hevolves (h.logs.logs v)
    · exact hnew.left
  · intro t ht
    rcases hleads t ht with ⟨hwon, hsame⟩ | hnew
    · rw [hsame]
      exact rooted_mono hevolves (h.logs.leads t hwon)
    · exact hnew
  · intro v t c log hballot
    rcases hballots v t c log hballot with hold | hnew
    · exact rooted_mono hevolves (h.logs.ballots v t c log hold)
    · rw [hnew]
      exact rooted_mono hevolves (h.logs.logs v)
  · intro v e he
    rcases hlogs v with hsame | hnew
    · rw [hsame] at he
      exact le_trans (h.logs.stamps v e he) (hevolves.current v)
    · exact hnew.right e he
  · intro v e hrole he
    rcases hcandidate v hrole with ⟨hsame, hrest⟩
    rw [hsame] at he
    rcases hrest with ⟨hold, hcurrent⟩ | hlt
    · rw [hcurrent]
      exact h.logs.candidate v e hold he
    · exact lt_of_le_of_lt (h.logs.stamps v e he) hlt
  · intro t l previous previousStamp suffix commit hp
    rcases hsent _ hp with hold | ⟨v, hmay⟩
    · rcases h.logs.packets _ _ _ _ _ _ hold with
        ⟨hwinner, log, hbase, hlead, hprevious, hsuffix, hstamp, hsettled⟩
      refine ⟨hevolves.winner t l hwinner, log, ?_, ?_, hprevious, hsuffix,
        hstamp, ?_⟩
      · rw [hevolves.base t ⟨l, hwinner⟩]
        exact hbase
      · exact hlead.trans (hevolves.lead t ⟨l, hwinner⟩)
      · exact settled_mono hevolves (le_refl t) (List.take_prefix _ _)
          (Nat.le_refl _) hsettled
    · cases hmay with
      | entries hrole hprevious =>
          rcases h.reigns.leader l hrole with ⟨hwinner, hlead⟩
          refine ⟨hevolves.winner _ l hwinner, (w.replica l).log, ?_, ?_,
            hprevious, rfl, rfl, ?_⟩
          · rw [hevolves.base _ ⟨l, hwinner⟩, ← hlead]
            exact h.reigns.base_prefix _ ⟨l, hwinner⟩
          · rw [← hlead]
            exact hevolves.lead _ ⟨l, hwinner⟩
          · exact settled_mono hevolves (le_refl _) (List.take_prefix _ _)
              (Nat.le_refl _) (h.commits.settled l)

section LogActions

variable [DecidableEq node] [DecidableEq entry]

theorem sent_of_act (hact : Act quorums i w w') (p : Packet node term entry)
    (hp : p ∈ w'.sent) : p ∈ w.sent ∨ exists v, MaySend w v p := by
  cases hact with
  | send hmay =>
      rcases Set.mem_insert_iff.mp hp with hnew | hold
      · subst hnew
        exact Or.inr ⟨i, hmay⟩
      · exact Or.inl hold
  | retire | campaign | grant | win | extend | accept | commit =>
      exact Or.inl hp

theorem logInv_act (h : Inv quorums w) (hact : Act quorums i w w') :
    LogInv quorums w' := by
  have hevolves := evolves_act h.ballots h.reigns hact
  have hsent := sent_of_act hact
  cases hact with
  | retire | commit =>
      refine logInv_of_step h hevolves ?_ (fun t ht => Or.inl ⟨ht, rfl⟩)
        (fun v t c log hb => Or.inl hb) ?_ hsent
      · grind
      · grind
  | campaign | grant =>
      refine logInv_of_step h hevolves ?_ (fun t ht => Or.inl ⟨ht, rfl⟩)
        ?_ ?_ hsent
      · grind
      · grind
      · grind
  | win hrole hquorum hballots =>
      refine logInv_of_step h hevolves ?_ ?_
        (fun v t c log hb => Or.inl hb) ?_ hsent
      · grind
      · intro t ht
        by_cases hti : t = (w.replica i).current
        · have hrooted := rooted_mono hevolves (h.logs.logs i)
          exact Or.inr (by simpa [hti] using hrooted)
        · refine Or.inl ⟨?_, by simp [hti]⟩
          rcases ht with ⟨l, hl⟩
          exact ⟨l, by simpa [hti] using hl⟩
      · grind
  | extend hrole hstamp =>
      rename_i e
      have hleader := h.reigns.leader i hrole
      have hrooted := rooted_append (rooted_mono hevolves (h.logs.logs i))
        (e := e) (won_mono hevolves ⟨i, by rw [hstamp]; exact hleader.left⟩)
        (by simp [hstamp])
      refine logInv_of_step h hevolves ?_ ?_
        (fun v t c log hb => Or.inl hb) ?_ hsent
      · intro v
        by_cases hv : v = i
        · subst hv
          refine Or.inr ⟨by simpa using hrooted, ?_⟩
          intro x hx
          have hstamps := h.logs.stamps v x
          grind
        · exact Or.inl (by simp [hv])
      · intro t ht
        by_cases hti : t = (w.replica i).current
        · exact Or.inr (by simpa [hti] using hrooted)
        · exact Or.inl ⟨ht, by simp [hti]⟩
      · grind
  | accept hrole hconnects =>
      rename_i l previous previousStamp suffix commit
      rcases exists_snapshot h.logs hconnects.left with ⟨log, hsnapshot⟩
      refine logInv_of_step h hevolves ?_ (fun t ht => Or.inl ⟨ht, rfl⟩)
        (fun v t c log hb => Or.inl hb) ?_ hsent
      · intro v
        by_cases hv : v = i
        · subst hv
          rcases hsnapshot.splice_cases h.logs hconnects with
            ⟨hsplice, -⟩ | ⟨hsplice, -⟩
          · exact Or.inl (by simpa using hsplice)
          · right
            simp only [World.confirm_replica, World.put_replica, if_true,
              hsplice]
            refine ⟨rooted_mono hevolves (hsnapshot.rooted h.logs), ?_⟩
            intro e he
            rcases List.getElem?_of_mem he with ⟨k, hk⟩
            exact lead_stamp_le h.reigns ⟨l, hsnapshot.winner⟩
              (getElem?_of_isPrefix hsnapshot.lead hk)
        · exact Or.inl (by simp [hv])
      · grind
  | send hp =>
      refine logInv_of_step h hevolves (fun v => Or.inl rfl)
        (fun t ht => Or.inl ⟨ht, rfl⟩) (fun v t c log hb => Or.inl hb)
        (fun v hrole => ⟨rfl, Or.inl ⟨hrole, rfl⟩⟩) hsent

end LogActions

/-!
# Receipts
-/

theorem keeps_of_snapshot {t u : term} {k : Nat} {l : node}
    {previous : Nat} {previousStamp : term} {suffix : List entry}
    {commit : Nat} {log log' : List entry}
    (hsnapshot : Snapshot quorums w u l previous previousStamp suffix commit
      log') (htu : t <= u) (hlost : ¬ log' <+: log)
    (hkeeps : Keeps w t k (· <= u) log) : Keeps w t k (· <= u) log' := by
  rcases hkeeps with hheld | hbad
  · rcases lt_or_eq_of_le htu with hlt | heq
    · by_cases hbase : (w.lead t).take k <+: w.base u
      · exact Or.inl (hbase.trans hsnapshot.base)
      · exact Or.inr ⟨u, hlt, le_refl u, ⟨l, hsnapshot.winner⟩, hbase⟩
    · subst heq
      rcases List.prefix_or_prefix_of_prefix (List.take_prefix k (w.lead t))
        hsnapshot.lead with hshort | hlong
      · exact Or.inl hshort
      · exact absurd (hlong.trans hheld) hlost
  · exact Or.inr hbad

/--
An action preserves the group of receipt invariants if no node loses what it
had confirmed, new receipts are for what the node's log holds of its
leadership, and ballots are recorded with current logs.
-/
theorem receiptInv_of_step (h : Inv quorums w) (hevolves : Evolves w w')
    (hkept : forall v t k, k <= w.receipts v t -> 0 < k ->
      Keeps w t k (· <= (w.replica v).current) (w.replica v).log ->
        Keeps w t k (· <= (w'.replica v).current) (w'.replica v).log)
    (hreceipts : forall v t, w'.receipts v t = w.receipts v t ∨
      (Won w' t ∧ t <= (w'.replica v).current ∧
        w'.receipts v t <= (w'.lead t).length ∧
        forall k, w.receipts v t < k -> k <= w'.receipts v t ->
          (w'.lead t).take k <+: (w'.replica v).log))
    (hballots : forall v t c log, w'.ballots v t = some (c, log) ->
      w.ballots v t = some (c, log) ∨
        (log = (w.replica v).log ∧ w'.receipts = w.receipts ∧
          (w'.winner t = none -> forall u, u <= (w.replica v).current ->
            Won w u -> u < t)))
    (hsent : forall p, p ∈ w'.sent -> p ∈ w.sent ∨ exists v, MaySend w v p) :
    ReceiptInv w' := by
  constructor
  · intro t v k hk
    rcases hsent _ hk with hold | ⟨i, hmay⟩
    · exact Nat.le_trans (h.receipts.sent t v k hold) (hevolves.receipts v t)
    · cases hmay with
      | receipt hk => exact Nat.le_trans hk (hevolves.receipts _ _)
  · intro v t hpos
    rcases hreceipts v t with hsame | ⟨hwon, hcurrent, hlength, -⟩
    · rw [hsame] at hpos ⊢
      rcases h.receipts.bound v t hpos with ⟨hwon, hcurrent, hlength⟩
      exact ⟨won_mono hevolves hwon, le_trans hcurrent (hevolves.current v),
        Nat.le_trans hlength (hevolves.lead t hwon).length_le⟩
    · exact ⟨hwon, hcurrent, hlength⟩
  · intro v t k hk
    cases Nat.eq_zero_or_pos k with
    | inl hzero =>
        subst hzero
        exact Or.inl (by simp)
    | inr hpos =>
        by_cases hold : k <= w.receipts v t
        · exact keeps_mono hevolves (receipt_in_lead h.receipts hold)
            (fun _ hu => hu)
            (hkept v t k hold hpos (h.receipts.kept v t k hold))
        · rcases hreceipts v t with hsame | ⟨-, -, -, hnew⟩
          · rw [hsame] at hk
            exact absurd hk hold
          · exact Or.inl (hnew k (Nat.lt_of_not_le hold) hk)
  · intro v t' c log hnone hballot t k htt' hk
    have hnone' : w.winner t' = none := by
      cases hwinner : w.winner t' with
      | none => rfl
      | some l =>
          rw [hevolves.winner t' l hwinner] at hnone
          cases hnone
    rcases hballots v t' c log hballot with hold | ⟨hlog, hsame, hfresh⟩
    · have hbound := (h.ballots.bound v t' c log hold).left
      rw [hevolves.past v t (lt_of_lt_of_le htt' hbound)] at hk
      exact keeps_mono hevolves (receipt_in_lead h.receipts hk)
        (fun _ hu => hu)
        (h.receipts.voted v t' c log hnone' hold t k htt' hk)
    · rw [hsame] at hk
      rw [hlog]
      have hkeeps := h.receipts.kept v t k hk
      refine keeps_mono hevolves (receipt_in_lead h.receipts hk)
        (fun _ hu => hu) ?_
      rcases hkeeps with hheld | ⟨u, htu, hu, hwonu, hlost⟩
      · exact Or.inl hheld
      · exact Or.inr ⟨u, htu, hfresh hnone u hu hwonu, hwonu, hlost⟩

section ReceiptActions

variable [DecidableEq node] [DecidableEq entry]

omit [OrderBot term] [Stamped entry term] [DecidableEq node]
  [DecidableEq entry] in
theorem keeps_of_growth (hevolves : Evolves w w')
    (hlogs : forall v, (w.replica v).log <+: (w'.replica v).log) (v : node)
    (t : term) (k : Nat) (_ : k <= w.receipts v t) (_ : 0 < k)
    (hkeeps : Keeps w t k (· <= (w.replica v).current) (w.replica v).log) :
    Keeps w t k (· <= (w'.replica v).current) (w'.replica v).log :=
  keeps_of_current_le (hevolves.current v) (hlogs v) hkeeps

theorem receiptInv_extend (h : Inv quorums w) {e : entry}
    (hrole : (w.replica i).role = .leader)
    (hstamp : stamp e = (w.replica i).current) :
    ReceiptInv (((w.put i { w.replica i with
      log := (w.replica i).log ++ [e] }).lengthen (w.replica i).current
        ((w.replica i).log ++ [e])).confirm i (w.replica i).current
          ((w.replica i).log.length + 1)) := by
  have hact : Act quorums i w _ := .extend hrole hstamp
  have hevolves := evolves_act h.ballots h.reigns hact
  have hleader := h.reigns.leader i hrole
  refine receiptInv_of_step h hevolves (keeps_of_growth hevolves ?_) ?_
    (fun v t c log hb => Or.inl hb) (sent_of_act hact)
  · intro v
    by_cases hv : v = i
    · simp [hv]
    · simp [hv]
  · intro v t
    by_cases hnew : v = i ∧ t = (w.replica i).current
    · rcases hnew with ⟨rfl, rfl⟩
      refine Or.inr ⟨⟨v, hleader.left⟩, by simp, ?_, ?_⟩
      · have hbound := h.receipts.bound v (w.replica v).current
        rw [hleader.right] at hbound
        simp
        lia
      · intro k _ _
        simpa using List.take_prefix k _
    · exact Or.inl (by simp [hnew])

theorem receiptInv_accept (h : Inv quorums w) {l : node} {previous : Nat}
    {previousStamp : term} {suffix : List entry} {commit : Nat}
    (hrole : (w.replica i).role = .follower)
    (hconnects : Connects w i l previous previousStamp suffix commit) :
    ReceiptInv ((w.put i { w.replica i with
      log := splice (w.replica i).log previous suffix }).confirm i
        (w.replica i).current (previous + suffix.length)) := by
  have hact : Act quorums i w _ := .accept hrole hconnects
  have hevolves := evolves_act h.ballots h.reigns hact
  rcases exists_snapshot h.logs hconnects.left with ⟨log, hsnapshot⟩
  refine receiptInv_of_step h hevolves ?_ ?_ (fun v t c log hb => Or.inl hb)
    (sent_of_act hact)
  · intro v t k hk hpos hkeeps
    by_cases hv : v = i
    · subst hv
      simp only [World.confirm_replica, World.put_replica, if_true]
      rcases hsnapshot.splice_cases h.logs hconnects with
        ⟨hsplice, -⟩ | ⟨hsplice, hlost⟩
      · rw [hsplice]
        exact hkeeps
      · rw [hsplice]
        have hbound := h.receipts.bound v t (Nat.lt_of_lt_of_le hpos hk)
        exact keeps_of_snapshot hsnapshot hbound.right.left hlost hkeeps
    · simpa [hv] using hkeeps
  · intro v t
    by_cases hnew : v = i ∧ t = (w.replica i).current
    · rcases hnew with ⟨rfl, rfl⟩
      have hlead := hsnapshot.lead.length_le
      rw [← hsnapshot.length_eq] at hlead
      have hbound := h.receipts.bound v (w.replica v).current
      refine Or.inr ⟨⟨l, hsnapshot.winner⟩, by simp, ?_, ?_⟩
      · simp
        lia
      · intro k hlow hhigh
        have hk : k <= log.length := by
          rw [← hsnapshot.length_eq]
          simp at hhigh
          lia
        have htake := take_eq_take_of_isPrefix hsnapshot.lead hk
        have hpre := hsnapshot.prefix_splice h.logs hconnects
        have hgoal := (List.take_prefix k log).trans hpre
        rw [htake] at hgoal
        simpa using hgoal
    · exact Or.inl (by simp [hnew])

omit [OrderBot term] [Stamped entry term] [DecidableEq entry] in
theorem ballots_recordBallot {c : node} {t : term}
    {r : Replica node term entry} {log : List entry} {v c' : node} {t' : term}
    (hb : ((w.put i r).recordBallot i t (c, (w.replica i).log)).ballots v t' =
      some (c', log)) :
    w.ballots v t' = some (c', log) ∨
      (v = i ∧ t' = t ∧ log = (w.replica v).log) := by
  by_cases hnew : v = i ∧ t' = t
  · rw [World.recordBallot_ballots, if_pos hnew] at hb
    cases hb
    exact Or.inr ⟨hnew.left, hnew.right, by rw [hnew.left]⟩
  · rw [World.recordBallot_ballots, if_neg hnew] at hb
    exact Or.inl hb

theorem receiptInv_act (h : Inv quorums w) (hact : Act quorums i w w') :
    ReceiptInv w' := by
  have hevolves := evolves_act h.ballots h.reigns hact
  have hsent := sent_of_act hact
  cases hact with
  | extend hrole hstamp => exact receiptInv_extend h hrole hstamp
  | accept hrole hconnects => exact receiptInv_accept h hrole hconnects
  | campaign ht =>
      refine receiptInv_of_step h hevolves (keeps_of_growth hevolves ?_)
        (fun v t => Or.inl rfl) ?_ hsent
      · grind
      · intro v t' c log hb
        rcases ballots_recordBallot hb with hold | ⟨rfl, rfl, hlog⟩
        · exact Or.inl hold
        · exact Or.inr ⟨hlog, rfl, fun _ u hu _ => lt_of_le_of_lt hu ht⟩
  | grant hsolicited hvote hcurrent =>
      refine receiptInv_of_step h hevolves (keeps_of_growth hevolves ?_)
        (fun v t => Or.inl rfl) ?_ hsent
      · grind
      · intro v t' c log hb
        rcases ballots_recordBallot hb with hold | ⟨rfl, rfl, hlog⟩
        · exact Or.inl hold
        · refine Or.inr ⟨hlog, rfl, ?_⟩
          intro hnone u hu hwonu
          refine lt_of_le_of_ne hu ?_
          intro heq
          rcases hwonu with ⟨l, hl⟩
          rw [heq] at hl
          have hwinner := hevolves.winner _ l hl
          rw [hnone] at hwinner
          cases hwinner
  | retire | win | commit =>
      refine receiptInv_of_step h hevolves (keeps_of_growth hevolves ?_)
        (fun v t => Or.inl rfl) (fun v t c log hb => Or.inl hb) hsent
      grind
  | send hp =>
      exact receiptInv_of_step h hevolves
        (keeps_of_growth hevolves (fun v => List.prefix_refl _))
        (fun v t => Or.inl rfl) (fun v t c log hb => Or.inl hb) hsent

end ReceiptActions

end Consensus
end FTKV
