import FTKV.Grpc.Client
import Mathlib.Order.Bounds.Basic

/-!
# The law of the retry loop

`invoke_with_retry` counts its attempts in a `std::size_t`, gives every attempt a
deadline and doubles a number of milliseconds.  The counter may reach the end of its
range: the loop then returns before the counter wraps around.  The doubling stays in
range if twice the maximum backoff does.  The deadline is the present time plus the
timeout, and nothing that `validate_options` checks keeps it in range.

The loop with machine integers does what the loop of the client does, on any
operation, as long as nothing overflows.  What that is, is said for an operation that
returns a given sequence of replies.
-/

namespace FTKV
namespace Rpc

open Foundation
open Foundation.Effect

def validateOptions (options : GrpcClientOptions) : Except Fault Unit :=
  if options.timeout <= 0 ∨ options.maxAttempts = 0 ∨ options.initialBackoff < 0 ∨
      options.maximumBackoff < 0 ∨ options.maximumBackoff < options.initialBackoff then
    .error (.invalidArgument "invalid gRPC client options")
  else
    .ok ()

structure Accepted (options : GrpcClientOptions) : Prop where
  timeout : 0 < options.timeout
  attempts : options.maxAttempts ≠ 0
  initial : 0 <= options.initialBackoff
  maximum : 0 <= options.maximumBackoff
  order : options.initialBackoff <= options.maximumBackoff

theorem accepted_of_validate {options : GrpcClientOptions}
    (h : validateOptions options = .ok ()) : Accepted options := by
  unfold validateOptions at h
  by_cases hinvalid : options.timeout <= 0 ∨ options.maxAttempts = 0 ∨
      options.initialBackoff < 0 ∨ options.maximumBackoff < 0 ∨
      options.maximumBackoff < options.initialBackoff
  · rw [if_pos hinvalid] at h
    cases h
  · simp only [not_or, not_le, not_lt] at hinvalid
    rcases hinvalid with ⟨htimeout, hattempts, hinitial, hmaximum, horder⟩
    exact ⟨htimeout, hattempts, hinitial, hmaximum, horder⟩

/-!
# The loop with machine integers
-/

namespace Sized

variable {world response : Type}

/-- What ends a loop that computes with machine integers. -/
inductive LoopFault where
  | raised (fault : Fault)
  /-- A signed overflow, whose effect C++ leaves undefined. -/
  | overflow

def Fits (value : Int) : Prop :=
  -2 ^ 63 <= value ∧ value < 2 ^ 63

instance (value : Int) : Decidable (Fits value) :=
  inferInstanceAs (Decidable (_ ∧ _))

/-- `std::chrono::system_clock`, which counts a fixed number of ticks a millisecond. -/
structure SystemClock (world : Type) where
  ticks : Int
  now : world -> Int

def SystemClock.deadline (clock : SystemClock world) (options : GrpcClientOptions)
    (w : world) : Int :=
  clock.now w + options.timeout * clock.ticks

def SystemClock.Allows (clock : SystemClock world) (options : GrpcClientOptions)
    (w : world) : Prop :=
  Fits (options.timeout * clock.ticks) ∧ Fits (clock.deadline options w)

instance (clock : SystemClock world) (options : GrpcClientOptions) (w : world) :
    Decidable (clock.Allows options w) :=
  inferInstanceAs (Decidable (_ ∧ _))

def setDeadline (clock : SystemClock world) (options : GrpcClientOptions) :
    Effect world LoopFault Int := do
  let w <- get
  if clock.Allows options w then pure (clock.deadline options w) else throw .overflow

def double (duration : Int) : Effect world LoopFault Int :=
  if Fits (duration * 2) then pure (duration * 2) else throw .overflow

def maxAttempts (options : GrpcClientOptions) : UInt64 :=
  UInt64.ofNat options.maxAttempts

/-- The counter does not wrap around before the last attempt. -/
theorem toNat_next {attempt last : UInt64} (hround : attempt <= last)
    (hbefore : attempt ≠ last) : (attempt + 1).toNat = attempt.toNat + 1 := by
  have hlt : attempt.toNat < last.toNat :=
    UInt64.lt_iff_toNat_lt.mp (UInt64.lt_of_le_of_ne hround hbefore)
  have hlast := last.toNat_lt
  rw [UInt64.toNat_add, UInt64.toNat_one, Nat.mod_eq_of_lt (by lia)]

def attemptFrom (clock : SystemClock world) (options : GrpcClientOptions)
    (sleepFor : Int -> Effect world Fault Unit)
    (operation : Int -> Effect world Fault (Reply response)) (attempt : UInt64)
    (backoff : Int) : Effect world LoopFault (InvocationResult response) :=
  if hround : attempt <= maxAttempts options then do
    let deadline <- setDeadline clock options
    let reply <- raising .raised (operation deadline)
    if hends : reply.status.code = .ok ∨ isRetryable reply.status.code = false ∨
        attempt = maxAttempts options then
      pure ⟨reply.status, attempt.toNat, reply.response⟩
    else do
      raising .raised (sleepFor backoff)
      let doubled <- double backoff
      attemptFrom clock options sleepFor operation (attempt + 1)
        (min options.maximumBackoff doubled)
  else
    throw (.raised (.logicError "gRPC retry loop terminated unexpectedly"))
termination_by (maxAttempts options).toNat - attempt.toNat
decreasing_by
  have hbefore : attempt ≠ maxAttempts options := fun h => hends (Or.inr (Or.inr h))
  have hlt := UInt64.lt_iff_toNat_lt.mp (UInt64.lt_of_le_of_ne hround hbefore)
  rw [toNat_next hround hbefore]
  lia

def invokeWithRetry (clock : SystemClock world) (options : GrpcClientOptions)
    (sleepFor : Int -> Effect world Fault Unit)
    (operation : Int -> Effect world Fault (Reply response)) :
    Effect world LoopFault (InvocationResult response) :=
  attemptFrom clock options sleepFor operation 1 options.initialBackoff

/-- The operation with the deadline it gets, if that does not overflow. -/
def timed (clock : SystemClock world) (options : GrpcClientOptions)
    (operation : Int -> Effect world Fault (Reply response)) :
    Effect world Fault (Reply response) := do
  let w <- get
  operation (clock.deadline options w)

structure InRange (clock : SystemClock world) (options : GrpcClientOptions) : Prop where
  attempts : options.maxAttempts < 2 ^ 64
  doubled : Fits (options.maximumBackoff * 2)
  nonneg : 0 <= options.maximumBackoff
  deadlines : forall w, clock.Allows options w

variable {clock : SystemClock world} {options : GrpcClientOptions}
  {sleepFor : Int -> Effect world Fault Unit}
  {operation : Int -> Effect world Fault (Reply response)}

theorem setDeadline_bind (hrange : InRange clock options) {result : Type}
    (f : Reply response -> Effect world LoopFault result) :
    (do
      let deadline <- setDeadline clock options
      let reply <- raising .raised (operation deadline)
      f reply) = raising .raised (timed clock options operation) >>= f := by
  have hset : setDeadline clock options =
      (get >>= fun w => pure (clock.deadline options w)) := by
    unfold setDeadline
    congr 1
    funext w
    exact if_pos (hrange.deadlines w)
  rw [hset, timed, raising_bind, bind_assoc, bind_assoc]
  rfl

theorem double_of_le (hrange : InRange clock options) {backoff : Int}
    (hnonneg : 0 <= backoff)
    (hbackoff : backoff <= options.maximumBackoff) :
    (double backoff : Effect world LoopFault Int) = pure (backoff * 2) := by
  apply if_pos
  have hmaximum := hrange.doubled
  unfold Fits at hmaximum ⊢
  lia

theorem toNat_maxAttempts (hrange : InRange clock options) :
    (maxAttempts options).toNat = options.maxAttempts :=
  UInt64.toNat_ofNat_of_lt hrange.attempts

theorem eq_maxAttempts_iff (hrange : InRange clock options) {attempt : UInt64} :
    attempt = maxAttempts options <-> attempt.toNat = options.maxAttempts := by
  rw [← UInt64.toNat_inj, toNat_maxAttempts hrange]

theorem le_maxAttempts_iff (hrange : InRange clock options) {attempt : UInt64} :
    attempt <= maxAttempts options <-> attempt.toNat <= options.maxAttempts := by
  rw [UInt64.le_iff_toNat_le, toNat_maxAttempts hrange]

theorem attemptFrom_round (hrange : InRange clock options) {left : Nat} {attempt : UInt64}
    (hround : attempt <= maxAttempts options) {backoff : Int} (hnonneg : 0 <= backoff)
    (hbackoff : backoff <= options.maximumBackoff)
    (hnext : attempt ≠ maxAttempts options ->
      attemptFrom clock options sleepFor operation (attempt + 1)
          (min options.maximumBackoff (backoff * 2)) =
        raising .raised (Rpc.attemptFrom options sleepFor (timed clock options operation)
          left (attempt.toNat + 1) (min options.maximumBackoff (backoff * 2)))) :
    attemptFrom clock options sleepFor operation attempt backoff =
      raising .raised (Rpc.attemptFrom options sleepFor (timed clock options operation)
        (left + 1) attempt.toNat backoff) := by
  rw [attemptFrom, dif_pos hround, setDeadline_bind hrange, Rpc.attemptFrom, raising_bind]
  congr 1
  funext reply
  by_cases hends : reply.status.code = .ok ∨ isRetryable reply.status.code = false ∨
      attempt = maxAttempts options
  · have hends' := hends
    rw [eq_maxAttempts_iff hrange] at hends'
    rw [dif_pos hends, if_pos hends']
    rfl
  · have hends' := hends
    rw [eq_maxAttempts_iff hrange] at hends'
    have hbefore : attempt ≠ maxAttempts options := fun h => hends (Or.inr (Or.inr h))
    rw [dif_neg hends, if_neg hends', raising_bind, double_of_le hrange hnonneg hbackoff,
      ← hnext hbefore]
    rfl

theorem attemptFrom_eq (hrange : InRange clock options) (left : Nat) {attempt : UInt64}
    (hattempt : attempt.toNat + left = options.maxAttempts) {backoff : Int}
    (hnonneg : 0 <= backoff) (hbackoff : backoff <= options.maximumBackoff) :
    attemptFrom clock options sleepFor operation attempt backoff =
      raising .raised (Rpc.attemptFrom options sleepFor (timed clock options operation)
        (left + 1) attempt.toNat backoff) := by
  have hround : attempt <= maxAttempts options := by
    rw [le_maxAttempts_iff hrange]
    lia
  induction left generalizing attempt backoff with
  | zero =>
      apply attemptFrom_round hrange hround hnonneg hbackoff
      intro hbefore
      exact absurd ((eq_maxAttempts_iff hrange).mpr hattempt) hbefore
  | succ left ih =>
      apply attemptFrom_round hrange hround hnonneg hbackoff
      intro hbefore
      have hmaximum := hrange.nonneg
      have hcounts := toNat_next hround hbefore
      rw [← hcounts]
      apply ih
      · lia
      · lia
      · lia
      · rw [le_maxAttempts_iff hrange]
        lia

theorem invokeWithRetry_eq (hrange : InRange clock options)
    (hattempts : options.maxAttempts ≠ 0) (hnonneg : 0 <= options.initialBackoff)
    (hbackoff : options.initialBackoff <= options.maximumBackoff) :
    invokeWithRetry clock options sleepFor operation =
      raising .raised
        (Rpc.invokeWithRetry options sleepFor (timed clock options operation)) := by
  rcases Nat.exists_eq_succ_of_ne_zero hattempts with ⟨left, hleft⟩
  have hfirst : (1 : UInt64).toNat + left = options.maxAttempts := by
    rw [hleft, UInt64.toNat_one]
    lia
  unfold invokeWithRetry Rpc.invokeWithRetry
  rw [attemptFrom_eq hrange left hfirst hnonneg hbackoff, hleft]
  rfl

end Sized

/-!
# The law
-/

/-- How often the operation was called, its deadlines and the pauses in between. -/
structure Tally where
  calls : Nat := 0
  deadlines : List Int := []
  pauses : List Int := []

def replay {response : Type} (replies : Nat -> Reply response) (deadline : Int) :
    Effect Tally Fault (Reply response) :=
  modifyGet fun tally => (replies tally.calls, { tally with
    calls := tally.calls + 1
    deadlines := tally.deadlines ++ [deadline] })

def attemptClock (ticks : Int) (times : Nat -> Int) : Sized.SystemClock Tally where
  ticks := ticks
  now tally := times tally.calls

def recordPause (pause : Int) : Effect Tally Fault Unit :=
  modify fun tally => { tally with pauses := tally.pauses ++ [pause] }

def Final {response : Type} (reply : Reply response) : Prop :=
  reply.status.code = .ok ∨ isRetryable reply.status.code = false

def pausesAfter (options : GrpcClientOptions) (count : Nat) : List Int :=
  (List.range count).map fun j =>
    min options.maximumBackoff (options.initialBackoff * 2 ^ j)

def deadlinesOf (options : GrpcClientOptions) (ticks : Int) (times : Nat -> Int)
    (count : Nat) : List Int :=
  (List.range count).map fun j => times j + options.timeout * ticks

/-- The last attempt: the final one that is allowed, or the first with a final status. -/
def LastAttempt {response : Type} (options : GrpcClientOptions)
    (replies : Nat -> Reply response) (k : Nat) : Prop :=
  IsLeast (insert options.maxAttempts
    {position | exists i, position = i + 1 ∧ Final (replies i)}) k

/-- The result of k attempts, and what they leave in the tally. -/
def Reported {response : Type} (options : GrpcClientOptions) (ticks : Int)
    (times : Nat -> Int) (replies : Nat -> Reply response) (k : Nat)
    (result : InvocationResult response) (tally : Tally) : Prop :=
  result = ⟨(replies (k - 1)).status, k, (replies (k - 1)).response⟩ ∧
    tally = ⟨k, deadlinesOf options ticks times k, pausesAfter options (k - 1)⟩

section Law

variable {response : Type} {options : GrpcClientOptions} {replies : Nat -> Reply response}
  {ticks : Int} {times : Nat -> Int}

theorem pausesAfter_succ (options : GrpcClientOptions) (count : Nat) :
    pausesAfter options (count + 1) = pausesAfter options count ++
      [min options.maximumBackoff (options.initialBackoff * 2 ^ count)] := by
  unfold pausesAfter
  rw [List.range_succ, List.map_append]
  rfl

theorem deadlinesOf_succ (options : GrpcClientOptions) (ticks : Int)
    (times : Nat -> Int) (count : Nat) :
    deadlinesOf options ticks times (count + 1) =
      deadlinesOf options ticks times count ++ [times count + options.timeout * ticks] := by
  unfold deadlinesOf
  rw [List.range_succ, List.map_append]
  rfl

theorem min_double (hmaximum : 0 <= options.maximumBackoff) (count : Nat) :
    min options.maximumBackoff
        (min options.maximumBackoff (options.initialBackoff * 2 ^ count) * 2) =
      min options.maximumBackoff (options.initialBackoff * 2 ^ (count + 1)) := by
  rw [pow_succ, ← mul_assoc]
  lia

theorem lastAttempt_of_ends {count : Nat} (hcount : count + 1 <= options.maxAttempts)
    (hearlier : forall i, i < count -> ¬ Final (replies i))
    (hends : Final (replies count) ∨ count + 1 = options.maxAttempts) :
    LastAttempt options replies (count + 1) := by
  constructor
  · rcases hends with hfinal | hlast
    · exact Or.inr ⟨count, rfl, hfinal⟩
    · exact Or.inl hlast
  · rintro _ (rfl | ⟨i, rfl, hfinal⟩)
    · exact hcount
    · have hlate : ¬ i < count := fun hi => hearlier i hi hfinal
      lia

section Round

variable {left count attempt : Nat} {backoff : Int} {pauses : List Int}
  {post : Except Fault (InvocationResult response) -> Tally -> Prop}

theorem ensures_timed_replay {post : Except Fault (Reply response) -> Tally -> Prop} :
    Ensures (Sized.timed (attemptClock ticks times) options (replay replies))
        ⟨count, deadlinesOf options ticks times count, pauses⟩ post <->
      post (.ok (replies count))
        ⟨count + 1, deadlinesOf options ticks times (count + 1), pauses⟩ := by
  unfold Sized.timed replay
  rw [ensures_bind, ensures_get, continues_ok, ensures_modifyGet, deadlinesOf_succ]
  rfl

theorem ensures_attemptFrom_ends
    (hends : Final (replies count) ∨ attempt = options.maxAttempts)
    (hpost : post (.ok ⟨(replies count).status, attempt, (replies count).response⟩)
      ⟨count + 1, deadlinesOf options ticks times (count + 1), pauses⟩) :
    Ensures (attemptFrom options recordPause
        (Sized.timed (attemptClock ticks times) options (replay replies)) (left + 1)
        attempt backoff)
      ⟨count, deadlinesOf options ticks times count, pauses⟩ post := by
  unfold attemptFrom
  rw [ensures_bind, ensures_timed_replay, continues_ok, if_pos (or_assoc.mp hends),
    ensures_pure]
  exact hpost

theorem ensures_attemptFrom_retries (hfinal : ¬ Final (replies count))
    (hbefore : attempt ≠ options.maxAttempts)
    (hrest : Ensures (attemptFrom options recordPause
        (Sized.timed (attemptClock ticks times) options (replay replies)) left
        (attempt + 1) (min options.maximumBackoff (backoff * 2)))
      ⟨count + 1, deadlinesOf options ticks times (count + 1), pauses ++ [backoff]⟩
      post) :
    Ensures (attemptFrom options recordPause
        (Sized.timed (attemptClock ticks times) options (replay replies)) (left + 1)
        attempt backoff)
      ⟨count, deadlinesOf options ticks times count, pauses⟩ post := by
  have hends : ¬ (Final (replies count) ∨ attempt = options.maxAttempts) :=
    not_or.mpr ⟨hfinal, hbefore⟩
  rw [attemptFrom, ensures_bind, ensures_timed_replay, continues_ok,
    if_neg (fun h => hends (or_assoc.mpr h)), ensures_bind, recordPause, ensures_modify,
    continues_ok]
  exact hrest

end Round

/--
The loop after some attempts that failed and may be retried.  The induction is on the
number of attempts that are left after the next one.
-/
theorem ensures_attemptFrom_law (hmaximum : 0 <= options.maximumBackoff) (left : Nat)
    {count : Nat} (hleft : count + 1 + left = options.maxAttempts)
    (hearlier : forall i, i < count -> ¬ Final (replies i)) :
    exists k, LastAttempt options replies k ∧
      Ensures (attemptFrom options recordPause
          (Sized.timed (attemptClock ticks times) options (replay replies)) (left + 1)
          (count + 1) (min options.maximumBackoff (options.initialBackoff * 2 ^ count)))
        ⟨count, deadlinesOf options ticks times count, pausesAfter options count⟩
        (fun r tally => exists result, r = .ok result ∧
          Reported options ticks times replies k result tally) := by
  have hcount : count + 1 <= options.maxAttempts := by lia
  induction left generalizing count with
  | zero =>
      refine ⟨count + 1, lastAttempt_of_ends hcount hearlier (Or.inr hleft), ?_⟩
      apply ensures_attemptFrom_ends (Or.inr hleft)
      exact ⟨_, rfl, rfl, rfl⟩
  | succ left ih =>
      by_cases hfinal : Final (replies count)
      · refine ⟨count + 1, lastAttempt_of_ends hcount hearlier (Or.inl hfinal), ?_⟩
        apply ensures_attemptFrom_ends (Or.inl hfinal)
        exact ⟨_, rfl, rfl, rfl⟩
      · have hearlier' : forall i, i < count + 1 -> ¬ Final (replies i) := by
          intro i hi
          rcases Nat.lt_succ_iff_lt_or_eq.mp hi with hi | rfl
          · exact hearlier i hi
          · exact hfinal
        rcases ih (by lia) hearlier' (by lia) with ⟨k, hlast, hrest⟩
        refine ⟨k, hlast, ?_⟩
        apply ensures_attemptFrom_retries hfinal (by lia)
        rw [min_double hmaximum, ← pausesAfter_succ]
        exact hrest

/--
With options that the client accepts and whose doubled maximum backoff fits, and as
long as the time plus the timeout fits the clock, the operation is called k times,
where k is the smaller of the allowed attempts and the position of the first status
that is ok or not retryable.  The loop returns the k-th status and has paused between
the attempts, each time twice as long up to the maximum.
-/
theorem retry_law (hvalid : validateOptions options = .ok ())
    (hattempts : options.maxAttempts < 2 ^ 64)
    (hdoubled : Sized.Fits (options.maximumBackoff * 2))
    (htimeout : Sized.Fits (options.timeout * ticks))
    (hdeadlines : forall i, Sized.Fits (times i + options.timeout * ticks))
    (replies : Nat -> Reply response) :
    exists k, LastAttempt options replies k ∧
      Ensures (Sized.invokeWithRetry (attemptClock ticks times) options recordPause
          (replay replies)) {}
        (fun r tally => exists result, r = .ok result ∧
          Reported options ticks times replies k result tally) := by
  have haccepted := accepted_of_validate hvalid
  have hrange : Sized.InRange (attemptClock ticks times) options :=
    ⟨hattempts, hdoubled, haccepted.maximum, fun tally => ⟨htimeout, hdeadlines _⟩⟩
  rcases Nat.exists_eq_succ_of_ne_zero haccepted.attempts with ⟨left, hleft⟩
  have hfirst : 0 + 1 + left = options.maxAttempts := by lia
  rcases ensures_attemptFrom_law haccepted.maximum left hfirst nofun with
    ⟨k, hlast, hloop⟩
  refine ⟨k, hlast, ?_⟩
  rw [Sized.invokeWithRetry_eq hrange haccepted.attempts haccepted.initial
    haccepted.order, ensures_raising]
  unfold invokeWithRetry
  rw [hleft]
  rw [pow_zero, mul_one, min_eq_right haccepted.order] at hloop
  apply ensures_mono hloop
  rintro _ tally ⟨result, rfl, hreported⟩
  exact ⟨result, rfl, hreported⟩

end Law

def secondSucceeds (i : Nat) : Reply Unit :=
  if i = 0 then ⟨⟨.unavailable, "down"⟩, ()⟩ else ⟨⟨.ok, ""⟩, ()⟩

def attemptTimes (i : Nat) : Int :=
  1700000000000000000 + 500000000 * (i % 2 : Nat)

/-- A second attempt succeeds, with a counter that may reach the end of its range. -/
theorem retry_law_largest :
    exists k, LastAttempt { maxAttempts := 2 ^ 64 - 1 } secondSucceeds k ∧
      Ensures (Sized.invokeWithRetry (attemptClock 1000000 attemptTimes)
          { maxAttempts := 2 ^ 64 - 1 } recordPause (replay secondSucceeds)) {}
        (fun r tally => exists result, r = .ok result ∧
          Reported { maxAttempts := 2 ^ 64 - 1 } 1000000 attemptTimes secondSucceeds k
            result tally) := by
  apply retry_law rfl (by decide) (by decide) (by decide)
  intro i
  unfold Sized.Fits attemptTimes
  lia

/--
The largest timeout is accepted, and the doubled maximum backoff fits.  With a clock
of nanoseconds the first deadline overflows: the operation is never called.
-/
theorem deadline_overflows :
    validateOptions { timeout := 2 ^ 63 - 1 } = .ok () ∧
      Sized.Fits (({ timeout := 2 ^ 63 - 1 } : GrpcClientOptions).maximumBackoff * 2) ∧
      forall replies : Nat -> Reply Unit,
        outcome (Sized.invokeWithRetry (attemptClock 1000000 attemptTimes)
          { timeout := 2 ^ 63 - 1 } recordPause (replay replies)) {} =
            (.error .overflow, {}) := by
  refine ⟨rfl, by decide, ?_⟩
  intro replies
  unfold Sized.invokeWithRetry
  rw [Sized.attemptFrom, dif_pos (by decide)]
  rfl

end Rpc
end FTKV
