import Agamemnon.Plan.ImplRef

/-!
# Retries of the GitHub client

`with_retry` calls an operation until it has a response that is not transient, at most
`kMaxRetries` times, and sleeps between two calls: as long as the response asks for in its
`Retry-After` header, or else for a delay that doubles each time.

The seconds of the header are multiplied by 1000 as an `int`.  From 2147484 seconds on, about 25
days, the product does not fit, and the sleeps are what they should be exactly when no header that
is followed asks for more (`disciplined_iff`).
-/

namespace Agamemnon

namespace CurlGitHubClient

/-! ### The client -/

def kMaxRetries : ℕ := 3

def kBaseRetryMs : ℤ := 1000

/-- `Response`; `retryAfter` is the text of the header, if there is one. -/
structure Response where
  status : ℤ := 0
  body : String := ""
  retryAfter : String := ""

/-- How a call of the operation ends. -/
inductive Outcome where
  | response (resp : Response)
  | exception (what : String)

/-- `is_transient_status`. -/
def isTransientStatus (status : ℤ) : Bool :=
  status = 429 || (500 ≤ status && status < 600)

/-- The time to sleep after a transient response. -/
def sleepMs (resp : Response) (delayMs : ℤ) : ℤ :=
  if resp.retryAfter = "" then delayMs
  else
    match stoi resp.retryAfter.toList with
    | .ok secs => if 0 < secs then Json.wrapInt (secs * 1000) else delayMs
    | .error _ => delayMs

/-- What `with_retry` does: it calls the operation, and sleeps. -/
inductive RetryEvent where
  | called
  | slept (ms : ℤ)
deriving DecidableEq

/-- What `with_retry` has done, and the response that it returns or the text that it throws. -/
structure Retried where
  events : List RetryEvent
  result : Except String Response

/-- Call again after a sleep. -/
def Retried.again (ms : ℤ) (rest : Retried) : Retried where
  events := .called :: .slept ms :: rest.events
  result := rest.result

/-- The loop of `with_retry` when there have been `k` calls, and another one may be followed by
`left` more.  The outcome of each call is that of `op`. -/
def retryFrom (op : ℕ → Outcome) : (left k : ℕ) → (delayMs : ℤ) → Retried
  | 0, k, _ =>
      match op k with
      | .exception what => ⟨[.called], .error what⟩
      | .response resp => ⟨[.called], .ok resp⟩
  | left + 1, k, delayMs =>
      match op k with
      | .exception _ => (retryFrom op left (k + 1) (Json.wrapInt (delayMs * 2))).again delayMs
      | .response resp =>
          if isTransientStatus resp.status = true then
            (retryFrom op left (k + 1) (Json.wrapInt (delayMs * 2))).again (sleepMs resp delayMs)
          else ⟨[.called], .ok resp⟩

/-- `with_retry`. -/
def withRetry (op : ℕ → Outcome) : Retried :=
  retryFrom op (kMaxRetries - 1) 0 kBaseRetryMs

/-! ### What the sleeps should be -/

/-- The operation is called again after such an outcome. -/
def Outcome.isTransient : Outcome → Bool
  | response resp => isTransientStatus resp.status
  | exception _ => true

/-- The delay after `k` sleeps. -/
def backoff (k : ℕ) : ℤ :=
  kBaseRetryMs * 2 ^ k

/-- The sleep that is due after an outcome: as many seconds as the header says, or the delay. -/
def Outcome.due (delay : ℤ) : Outcome → ℤ
  | exception _ => delay
  | response resp =>
      match stoi resp.retryAfter.toList with
      | .ok secs => if 0 < secs then 1000 * secs else delay
      | .error _ => delay

/-- The calls from the one after `k` others, `n` of them after a sleep that is due. -/
def paced (op : ℕ → Outcome) : (n k : ℕ) → List RetryEvent
  | 0, _ => [.called]
  | n + 1, k => .called :: .slept ((op k).due (backoff k)) :: paced op n (k + 1)

/-- The operation is called `kMaxRetries` times at most, with the sleeps that are due, all of them
positive, and its first response that is not transient is returned. -/
structure Disciplined (op : ℕ → Outcome) (r : Retried) : Prop where
  paced : ∃ n < kMaxRetries, r.events = paced op n 0
  positive : ∀ ms, .slept ms ∈ r.events → 0 < ms
  returns : ∀ k < kMaxRetries, (∀ j < k, (op j).isTransient = true) → ∀ resp,
    op k = .response resp → isTransientStatus resp.status = false → r.result = .ok resp

/-- The header of a response does not ask for more than 2147483 seconds. -/
def Outcome.Fits : Outcome → Prop
  | exception _ => True
  | response resp => ∀ secs, stoi resp.retryAfter.toList = .ok secs → secs ≤ 2147483

/-- The headers fit that are followed from the call after `k` others on, when it may be followed by
`left` more. -/
def FitsFrom (op : ℕ → Outcome) (left k : ℕ) : Prop :=
  ∀ j < left, (∀ i ≤ j, (op (k + i)).isTransient = true) → (op (k + j)).Fits

section Retries

variable {op : ℕ → Outcome} {left k : ℕ} {delay : ℤ} {o : Outcome} {resp : Response}

/-! ### One sleep -/

/-- The sleep after an outcome, as the loop computes it. -/
def Outcome.slept (delayMs : ℤ) : Outcome → ℤ
  | exception _ => delayMs
  | response resp => sleepMs resp delayMs

/-- An `int` holds a number in its range. -/
theorem wrapInt_of_bounds {n : ℤ} (h : -2 ^ 31 ≤ n ∧ n < 2 ^ 31) :
  Json.wrapInt n = n
  := by
  rw [Json.wrapInt]
  omega

/-- The product with 1000 is exact up to 2147483. -/
theorem wrapInt_mul_iff {secs : ℤ} (hpos : 0 < secs) (h : secs < 2 ^ 31) :
  Json.wrapInt (secs * 1000) = 1000 * secs ↔ secs ≤ 2147483
  := by
  rw [Json.wrapInt]
  omega

/-- The loop sleeps as long as is due exactly if the header fits. -/
theorem Outcome.slept_eq_due_iff (o : Outcome) (delay : ℤ) :
  o.slept delay = o.due delay ↔ o.Fits
  := by
  cases o with
  | exception what => exact iff_of_true rfl trivial
  | response resp =>
    rw [slept, due, sleepMs, Fits]
    split_ifs with hempty
    · rw [hempty]
      exact iff_of_true rfl nofun
    · cases hstoi : stoi resp.retryAfter.toList with
      | error exn => exact iff_of_true rfl nofun
      | ok secs =>
        simp only [Except.ok.injEq, forall_eq']
        split_ifs with hpos
        · exact wrapInt_mul_iff hpos (Numerals.stoi_bounds hstoi).2
        · simp only [true_iff]
          omega

theorem Outcome.due_pos (h : 0 < delay) :
  0 < o.due delay
  := by
  cases o with
  | exception what => exact h
  | response resp =>
    rw [due]
    split
    · split_ifs with hpos
      · omega
      · exact h
    · exact h

/-! ### The loop -/

theorem backoff_pos (k : ℕ) :
  0 < backoff k
  := by
  have hpow : (0 : ℤ) < 2 ^ k := Int.pow_pos (by decide)
  rw [backoff, kBaseRetryMs]
  omega

/-- The delay is an `int` as long as it is doubled less than 21 times. -/
theorem wrapInt_backoff (h : k < 20) :
  Json.wrapInt (backoff k * 2) = backoff (k + 1)
  := by
  have hpow : (2 : ℤ) ^ (k + 1) ≤ 2 ^ 20 := pow_le_pow_right₀ (by decide) h
  have hpos : (0 : ℤ) < 2 ^ (k + 1) := Int.pow_pos (by decide)
  have hnext : backoff k * 2 = backoff (k + 1) := by rw [backoff, backoff, pow_succ, mul_assoc]
  rw [hnext]
  apply wrapInt_of_bounds
  rw [backoff, kBaseRetryMs]
  omega

theorem retryFrom_succ_of_transient (h : (op k).isTransient = true) :
  retryFrom op (left + 1) k delay
    = (retryFrom op left (k + 1) (Json.wrapInt (delay * 2))).again ((op k).slept delay)
  := by
  rw [retryFrom]
  cases hop : op k with
  | exception what => rfl
  | response resp =>
    rw [hop] at h
    exact if_pos h

theorem retryFrom_of_response (hop : op k = .response resp)
    (h : isTransientStatus resp.status = false) :
  retryFrom op left k delay = ⟨[.called], .ok resp⟩
  := by
  cases left with
  | zero => rw [retryFrom, hop]
  | succ left =>
    rw [retryFrom, hop]
    exact if_neg (Bool.eq_false_iff.mp h)

/-- An outcome after which the operation is not called again is a response. -/
theorem Outcome.response_of_not_transient (h : o.isTransient = false) :
  ∃ resp, o = .response resp ∧ isTransientStatus resp.status = false
  := by
  cases o with
  | exception what => cases h
  | response resp => exact ⟨resp, rfl, h⟩

theorem add_succ_shift (k i : ℕ) :
  k + (i + 1) = k + 1 + i
  := by omega

theorem fitsFrom_succ_of_transient (h : (op k).isTransient = true) :
  FitsFrom op (left + 1) k ↔ (op k).Fits ∧ FitsFrom op left (k + 1)
  := by
  constructor
  · intro hfits
    constructor
    · refine hfits 0 (Nat.succ_pos left) fun i hi => ?_
      rw [Nat.le_zero.mp hi]
      exact h
    · intro j hj htransient
      rw [← add_succ_shift]
      refine hfits (j + 1) (Nat.succ_lt_succ hj) fun i hi => ?_
      cases i with
      | zero => exact h
      | succ i =>
        rw [add_succ_shift]
        exact htransient i (Nat.le_of_succ_le_succ hi)
  · rintro ⟨hfirst, hrest⟩ j hj htransient
    cases j with
    | zero => exact hfirst
    | succ j =>
      rw [add_succ_shift]
      refine hrest j (Nat.lt_of_succ_lt_succ hj) fun i hi => ?_
      rw [← add_succ_shift]
      exact htransient (i + 1) (Nat.succ_le_succ hi)

/-- The loop calls and sleeps as is due exactly if the headers that it follows fit. -/
theorem events_retryFrom_iff (hk : k + left < 20) :
  (∃ n ≤ left, (retryFrom op left k (backoff k)).events = paced op n k) ↔ FitsFrom op left k
  := by
  induction left generalizing k with
  | zero =>
    refine iff_of_true ⟨0, le_rfl, ?_⟩ nofun
    rw [retryFrom]
    cases op k <;> rfl
  | succ left ih =>
    by_cases htransient : (op k).isTransient = true
    · rw [retryFrom_succ_of_transient htransient, wrapInt_backoff (by omega),
        fitsFrom_succ_of_transient htransient, ← ih (by omega),
        ← Outcome.slept_eq_due_iff (op k) (backoff k)]
      constructor
      · rintro ⟨n, hn, hevents⟩
        cases n with
        | zero => cases hevents
        | succ n =>
          simp only [Retried.again, paced, List.cons.injEq, RetryEvent.slept.injEq, true_and]
            at hevents
          exact ⟨hevents.1, n, Nat.le_of_succ_le_succ hn, hevents.2⟩
      · rintro ⟨hslept, n, hn, hevents⟩
        refine ⟨n + 1, Nat.succ_le_succ hn, ?_⟩
        rw [Retried.again, paced, hslept, hevents]
    · obtain ⟨resp, hop, hstatus⟩ :=
        Outcome.response_of_not_transient (Bool.eq_false_iff.mpr htransient)
      rw [retryFrom_of_response hop hstatus]
      refine iff_of_true ⟨0, Nat.zero_le _, rfl⟩ fun j _ hi => ?_
      exact absurd (hi 0 (Nat.zero_le j)) htransient

/-- A sleep that is due is positive. -/
theorem pos_of_slept_mem_paced {n : ℕ} {ms : ℤ} (h : .slept ms ∈ paced op n k) :
  0 < ms
  := by
  induction n generalizing k with
  | zero => simp [paced] at h
  | succ n ih =>
    simp only [paced, List.mem_cons, reduceCtorEq, RetryEvent.slept.injEq, false_or] at h
    rcases h with rfl | h
    · exact Outcome.due_pos (backoff_pos k)
    · exact ih h

/-- The first response that is not transient is returned. -/
theorem result_retryFrom {j : ℕ} (hj : j ≤ left)
    (hbefore : ∀ i < j, (op (k + i)).isTransient = true) (hop : op (k + j) = .response resp)
    (hstatus : isTransientStatus resp.status = false) :
  (retryFrom op left k delay).result = .ok resp
  := by
  induction j generalizing left k delay with
  | zero =>
    rw [Nat.add_zero] at hop
    rw [retryFrom_of_response hop hstatus]
  | succ j ih =>
    cases left with
    | zero => cases hj
    | succ left =>
      have hfirst : (op k).isTransient = true := hbefore 0 (Nat.succ_pos j)
      rw [retryFrom_succ_of_transient hfirst, Retried.again]
      apply ih (Nat.le_of_succ_le_succ hj)
      · intro i hi
        rw [← add_succ_shift]
        exact hbefore (i + 1) (Nat.succ_lt_succ hi)
      · rw [← add_succ_shift]
        exact hop

end Retries

/-! ### The discipline -/

/-- The calls, the sleeps and the result are as they should be exactly if no header that is followed
asks for more than 2147483 seconds. -/
theorem disciplined_iff (op : ℕ → Outcome) :
  Disciplined op (withRetry op)
    ↔ ∀ k, k + 1 < kMaxRetries → (∀ j ≤ k, (op j).isTransient = true) → (op k).Fits
  := by
  have hevents : (∃ n ≤ kMaxRetries - 1, (withRetry op).events = paced op n 0)
      ↔ FitsFrom op (kMaxRetries - 1) 0 := events_retryFrom_iff (by decide)
  have hfits : FitsFrom op (kMaxRetries - 1) 0
      ↔ ∀ k, k + 1 < kMaxRetries → (∀ j ≤ k, (op j).isTransient = true) → (op k).Fits := by
    simp only [FitsFrom, Nat.zero_add, Nat.lt_sub_iff_add_lt]
  rw [← hfits, ← hevents]
  constructor
  · intro h
    obtain ⟨n, hn, hpaced⟩ := h.paced
    exact ⟨n, Nat.le_sub_one_of_lt hn, hpaced⟩
  · rintro ⟨n, hn, hpaced⟩
    constructor
    · exact ⟨n, Nat.lt_of_le_sub_one (by decide) hn, hpaced⟩
    · intro ms hms
      rw [hpaced] at hms
      exact pos_of_slept_mem_paced hms
    · intro k hk hbefore resp hop hstatus
      refine result_retryFrom (Nat.le_sub_one_of_lt hk) ?_ ?_ hstatus
      · simpa using hbefore
      · simpa using hop

/-- A header that asks for 2147484 seconds makes the product negative. -/
theorem not_disciplined_longWait :
  let op : ℕ → Outcome := fun
    | 0 => .response { status := 429, retryAfter := "2147484" }
    | _ => .response { status := 200 }
  (withRetry op).events = [.called, .slept (-2147483296), .called] ∧ ¬ Disciplined op (withRetry op)
  := by
  intro op
  have hevents : (withRetry op).events = [.called, .slept (-2147483296), .called] := by decide
  refine ⟨hevents, fun h => ?_⟩
  have hpos := h.positive (-2147483296) (by simp [hevents])
  omega

end CurlGitHubClient

end Agamemnon
