import Agamemnon.Json.Value
import Agamemnon.Lib.History
import Agamemnon.Nats.CircuitBreaker

/-!
# The breaker in sequential use

One caller asks for an attempt, and records the outcome of an attempt that is granted before it asks
again.  What the breaker does then depends on the outcomes since the last success and on the time of
the last one, and `TraceSpec` says how.  The failures are counted on while the breaker is open, and
the counter may wrap, but it is read only while the breaker is closed (`after_wrapped`).
-/

namespace Agamemnon

namespace Nats

/-- An attempt: when it is requested, and, where it is granted, when its outcome is recorded and
what it is. -/
structure Attempted where
  requestAt : ℤ
  recordAt : ℤ
  succeeded : Bool

namespace CircuitBreaker

variable (cfg : BreakerConfig)

/-- The attempt is granted. -/
def grants (b : CircuitBreaker) (a : Attempted) : Bool :=
  (b.allowAttempt cfg a.requestAt).1

/-- A request and, where it is granted, the record of its outcome. -/
def attempt (b : CircuitBreaker) (a : Attempted) : CircuitBreaker :=
  match b.allowAttempt cfg a.requestAt with
  | (false, b) => b
  | (true, b) => if a.succeeded = true then b.recordSuccess else b.recordFailure cfg a.recordAt

/-- The breaker after some attempts, the last of which comes first. -/
def after (attempts : List Attempted) : CircuitBreaker :=
  History.after (attempt cfg) {} attempts

/-- The outcomes that were recorded, the last of which comes first. -/
def outcomes : List Attempted → List Bool
  | [] => []
  | a :: earlier =>
      if (after cfg earlier).grants cfg a = true then a.succeeded :: outcomes earlier
      else outcomes earlier

/-- The number of failures that were recorded since the last success. -/
def failuresInRow (attempts : List Attempted) : ℕ :=
  ((outcomes cfg attempts).takeWhile (!·)).length

/-- The attempt `a` opens the breaker, or opens it again. -/
structure Opens (attempts : List Attempted) (a : Attempted) : Prop where
  granted : (after cfg attempts).grants cfg a = true
  failed : a.succeeded = false
  isOpen : (after cfg (a :: attempts)).state = .opened

/-- What the breaker does after some attempts.  It is closed exactly when fewer failures than the
threshold were recorded since the last success. -/
structure TraceSpec (attempts : List Attempted) : Prop where
  closed_iff : (after cfg attempts).state = .closed
    ↔ (failuresInRow cfg attempts : ℤ) < cfg.failureThreshold
  /-- The same holds while an attempt is in progress. -/
  asked : ∀ now, ((after cfg attempts).allowAttempt cfg now).2.state = .closed
    ↔ (after cfg attempts).state = .closed
  /-- Any success closes it, with the count at zero. -/
  closes : ∀ a, (after cfg attempts).grants cfg a = true → a.succeeded = true →
    (after cfg (a :: attempts)).state = .closed ∧ (after cfg (a :: attempts)).failureCount = 0
  /-- A probe that fails opens it again. -/
  reopens : ∀ a, (after cfg attempts).state ≠ .closed → (after cfg attempts).grants cfg a = true →
    a.succeeded = false → Opens cfg attempts a
  /-- Once it opens, every request before the interval has passed is refused. -/
  refuses : ∀ a later, Opens cfg attempts a →
    (∀ c ∈ later, c.requestAt < a.recordAt + cfg.probeInterval) →
    ∀ c, c.requestAt < a.recordAt + cfg.probeInterval →
      (after cfg (later ++ a :: attempts)).grants cfg c = false
  /-- The first request after that is granted. -/
  probes : ∀ a later, Opens cfg attempts a →
    (∀ c ∈ later, c.requestAt < a.recordAt + cfg.probeInterval) →
    ∀ c, a.recordAt + cfg.probeInterval ≤ c.requestAt →
      (after cfg (later ++ a :: attempts)).grants cfg c = true

variable {cfg} {b : CircuitBreaker} {a : Attempted} {attempts : List Attempted}

/-! ### One attempt -/

theorem grants_of_opened (h : b.state = .opened) :
  b.grants cfg a = true ↔ b.openSinceMs + cfg.probeInterval ≤ a.requestAt
  := by
  rw [grants, allowAttempt, h]
  simp only
  split_ifs with hinterval
  · exact iff_of_true rfl (by omega)
  · exact iff_of_false nofun (by omega)

theorem attempt_of_refused (h : b.grants cfg a = false) :
  b.attempt cfg a = b
  := by
  have hallow : b.allowAttempt cfg a.requestAt = (false, b) := by
    rw [grants, allowAttempt] at h
    rw [allowAttempt]
    cases hstate : b.state with
    | opened =>
      rw [hstate] at h
      simp only at h ⊢
      split_ifs at h ⊢
      rfl
    | _ =>
      rw [hstate] at h
      cases h
  rw [attempt, hallow]

/-- A success closes the breaker. -/
theorem attempt_of_success (h : b.grants cfg a = true) (hsucceeded : a.succeeded = true) :
  b.attempt cfg a = { state := .closed, failureCount := 0, openSinceMs := b.openSinceMs }
  := by
  have hsince : (b.allowAttempt cfg a.requestAt).2.openSinceMs = b.openSinceMs := by
    rw [allowAttempt]
    split
    · rfl
    · split_ifs <;> rfl
    · rfl
  have hallow : b.allowAttempt cfg a.requestAt = (true, (b.allowAttempt cfg a.requestAt).2)
    := Prod.ext h rfl
  rw [attempt, hallow]
  simp only [hsucceeded, ↓reduceIte, recordSuccess, hsince]

/-- A failure of a closed breaker is counted, and opens the breaker at the threshold. -/
theorem attempt_of_closed (h : b.state = .closed) (hfailed : a.succeeded = false) :
  b.attempt cfg a
    = if cfg.failureThreshold ≤ b.failureCount + 1 then
        { state := .opened, failureCount := b.failureCount + 1, openSinceMs := a.recordAt }
      else { b with failureCount := b.failureCount + 1 }
  := by
  rw [attempt, allowAttempt, h]
  simp [hfailed, recordFailure, opens, h, transitionToOpen]

/-- A probe that fails opens the breaker. -/
theorem attempt_of_opened (h : b.state = .opened) (hgranted : b.grants cfg a = true)
    (hfailed : a.succeeded = false) :
  b.attempt cfg a
    = { state := .opened, failureCount := b.failureCount + 1, openSinceMs := a.recordAt }
  := by
  rw [grants_of_opened h] at hgranted
  have hallow : b.allowAttempt cfg a.requestAt = (true, { b with state := .halfOpen }) := by
    rw [allowAttempt, h]
    exact if_pos (by omega)
  rw [attempt, hallow]
  simp [hfailed, recordFailure, opens, transitionToOpen]

/-! ### Runs -/

theorem failuresInRow_of_refused (h : (after cfg attempts).grants cfg a = false) :
  failuresInRow cfg (a :: attempts) = failuresInRow cfg attempts
  := by
  simp [failuresInRow, outcomes, h]

theorem failuresInRow_of_success (h : (after cfg attempts).grants cfg a = true)
    (hsucceeded : a.succeeded = true) :
  failuresInRow cfg (a :: attempts) = 0
  := by
  simp [failuresInRow, outcomes, h, hsucceeded]

theorem failuresInRow_of_failure (h : (after cfg attempts).grants cfg a = true)
    (hfailed : a.succeeded = false) :
  failuresInRow cfg (a :: attempts) = failuresInRow cfg attempts + 1
  := by
  simp [failuresInRow, outcomes, h, hfailed]

/-- Between two attempts the breaker is closed below the threshold and open from there on, and has
counted the failures. -/
structure Resting (cfg : BreakerConfig) (attempts : List Attempted) : Prop where
  count : (after cfg attempts).failureCount = failuresInRow cfg attempts
  state : (after cfg attempts).state
    = if (failuresInRow cfg attempts : ℤ) < cfg.failureThreshold then .closed else .opened

theorem resting (hthreshold : 1 ≤ cfg.failureThreshold) (attempts : List Attempted) :
  Resting cfg attempts
  := by
  induction attempts with
  | nil =>
    refine ⟨rfl, ?_⟩
    rw [if_pos]
    · rfl
    · change (0 : ℤ) < cfg.failureThreshold
      omega
  | cons a attempts ih =>
    obtain ⟨hcount, hstate⟩ := ih
    have hafter : after cfg (a :: attempts) = (after cfg attempts).attempt cfg a := rfl
    cases hgranted : (after cfg attempts).grants cfg a with
    | false =>
      constructor
      · rw [hafter, attempt_of_refused hgranted, failuresInRow_of_refused hgranted, hcount]
      · rw [hafter, attempt_of_refused hgranted, failuresInRow_of_refused hgranted, hstate]
    | true =>
      cases hsucceeded : a.succeeded with
      | true =>
        have hfailures := failuresInRow_of_success hgranted hsucceeded
        rw [attempt_of_success hgranted hsucceeded] at hafter
        constructor
        · rw [hafter, hfailures]
          rfl
        · rw [hafter, hfailures, if_pos]
          exact hthreshold
      | false =>
        have hfailures := failuresInRow_of_failure hgranted hsucceeded
        split_ifs at hstate with hlow
        · rw [attempt_of_closed hstate hsucceeded, hcount] at hafter
          split_ifs at hafter with hreached
          · refine ⟨?_, ?_⟩
            · rw [hafter, hfailures]
              rfl
            · rw [hafter, hfailures, if_neg]
              push_cast
              omega
          · refine ⟨?_, ?_⟩
            · rw [hafter, hfailures]
              rfl
            · rw [hafter, hfailures, if_pos]
              · exact hstate
              · push_cast
                omega
        · rw [attempt_of_opened hstate hgranted hsucceeded, hcount] at hafter
          refine ⟨?_, ?_⟩
          · rw [hafter, hfailures]
            rfl
          · rw [hafter, hfailures, if_neg]
            push_cast
            omega

theorem Resting.closed_iff (h : Resting cfg attempts) :
  (after cfg attempts).state = .closed ↔ (failuresInRow cfg attempts : ℤ) < cfg.failureThreshold
  := by
  rw [h.state]
  split_ifs with hlow
  · exact iff_of_true rfl hlow
  · exact iff_of_false nofun hlow

theorem Resting.opened (h : Resting cfg attempts) (hopen : (after cfg attempts).state ≠ .closed) :
  (after cfg attempts).state = .opened
  := by
  rw [h.state, if_neg fun hlow => hopen (h.closed_iff.mpr hlow)]

/-- A failure that leaves the breaker open has opened it at its time. -/
theorem Resting.openSinceMs (h : Resting cfg attempts) (hopens : Opens cfg attempts a) :
  (after cfg (a :: attempts)).openSinceMs = a.recordAt
  := by
  have hafter : after cfg (a :: attempts) = (after cfg attempts).attempt cfg a := rfl
  by_cases hclosed : (after cfg attempts).state = .closed
  · rw [attempt_of_closed hclosed hopens.failed] at hafter
    split_ifs at hafter
    · rw [hafter]
    · have hopen := hopens.isOpen
      rw [hafter, show (after cfg attempts).state = _ from hclosed] at hopen
      cases hopen
  · rw [hafter, attempt_of_opened (h.opened hclosed) hopens.granted hopens.failed]

/-- While the interval has not passed the breaker stays as it was opened. -/
theorem after_waiting (hopens : Opens cfg attempts a)
    (hsince : (after cfg (a :: attempts)).openSinceMs = a.recordAt) {later : List Attempted}
    (hlater : ∀ c ∈ later, c.requestAt < a.recordAt + cfg.probeInterval) :
  after cfg (later ++ a :: attempts) = after cfg (a :: attempts)
  := by
  induction later with
  | nil => rfl
  | cons c later ih =>
    have hrest := ih fun c' hc' => hlater c' (List.mem_cons_of_mem c hc')
    have hrefused : (after cfg (a :: attempts)).grants cfg c = false := by
      rw [Bool.eq_false_iff, ne_eq, grants_of_opened hopens.isOpen, hsince, not_le]
      exact hlater c List.mem_cons_self
    have hafter : after cfg (c :: later ++ a :: attempts)
        = (after cfg (later ++ a :: attempts)).attempt cfg c := rfl
    rw [hafter, hrest, attempt_of_refused hrefused]

/-- The breaker meets its specification after every sequence of attempts. -/
theorem traceSpec (cfg : BreakerConfig) (hthreshold : 1 ≤ cfg.failureThreshold)
    (attempts : List Attempted) :
  TraceSpec cfg attempts
  where
  closed_iff := (resting hthreshold attempts).closed_iff
  asked := by
    intro now
    rw [allowAttempt]
    split
    · rfl
    · rename_i hstate
      split_ifs
      · exact iff_of_false nofun (by rw [hstate]; nofun)
      · rfl
    · rfl
  closes := by
    intro a hgranted hsucceeded
    have hafter : after cfg (a :: attempts) = _ := attempt_of_success hgranted hsucceeded
    rw [hafter]
    exact ⟨rfl, rfl⟩
  reopens := by
    intro a hopen hgranted hfailed
    have hstate := (resting hthreshold attempts).opened hopen
    refine ⟨hgranted, hfailed, ?_⟩
    exact congrArg state (attempt_of_opened hstate hgranted hfailed)
  refuses := by
    intro a later hopens hlater c hc
    have hsince := (resting hthreshold attempts).openSinceMs hopens
    rw [after_waiting hopens hsince hlater, Bool.eq_false_iff, ne_eq,
      grants_of_opened hopens.isOpen, hsince, not_le]
    exact hc
  probes := by
    intro a later hopens hlater c hc
    have hsince := (resting hthreshold attempts).openSinceMs hopens
    rw [after_waiting hopens hsince hlater, grants_of_opened hopens.isOpen, hsince]
    exact hc

/-- Three failures open a breaker, which is asked too early and then in time. -/
theorem traceSpec_outage :
  TraceSpec { failureThreshold := 3, probeInterval := 10 }
    [⟨12, 13, false⟩, ⟨7, 7, true⟩, ⟨2, 2, false⟩, ⟨1, 1, false⟩, ⟨0, 0, false⟩]
  := traceSpec _ (by decide) _

/-! ### The counter -/

/-- The breaker with the counter in 32 bits. -/
def wrapped (b : CircuitBreaker) : CircuitBreaker :=
  { b with failureCount := Json.wrapInt b.failureCount }

theorem grants_wrapped :
  b.wrapped.grants cfg a = b.grants cfg a
  := by
  rw [grants, grants, allowAttempt, allowAttempt]
  obtain ⟨state, count, since⟩ := b
  cases state with
  | opened =>
    by_cases hinterval : cfg.probeInterval ≤ a.requestAt - since
    · simp [wrapped, hinterval]
    · simp [wrapped, hinterval]
  | _ => rfl

theorem wrapInt_wrapInt_add (n k : ℤ) :
  Json.wrapInt (Json.wrapInt n + k) = Json.wrapInt (n + k)
  := by
  simp only [Json.wrapInt]
  omega

theorem wrapInt_of_range {n : ℤ} (h : 0 ≤ n) (hn : n < 2 ^ 31) :
  Json.wrapInt n = n
  := by
  simp only [Json.wrapInt]
  omega

/-- A breaker whose counter wraps goes through the same states, opens at the same times and grants
the same attempts. -/
theorem after_wrapped (hthreshold : 1 ≤ cfg.failureThreshold)
    (hint : cfg.failureThreshold < 2 ^ 31) (attempts : List Attempted) :
  History.after (fun b a => (b.attempt cfg a).wrapped) {} attempts = (after cfg attempts).wrapped
  := by
  induction attempts with
  | nil => rfl
  | cons a attempts ih =>
    have hrest := resting hthreshold attempts
    have hgrants := @grants_wrapped cfg (after cfg attempts) a
    change (attempt cfg (History.after _ _ attempts) a).wrapped
      = (attempt cfg (after cfg attempts) a).wrapped
    rw [ih]
    cases hgranted : (after cfg attempts).grants cfg a with
    | false =>
      rw [attempt_of_refused hgranted, attempt_of_refused (hgrants.trans hgranted), wrapped,
        wrapped]
      simpa using wrapInt_wrapInt_add (after cfg attempts).failureCount 0
    | true =>
      cases hsucceeded : a.succeeded with
      | true =>
        rw [attempt_of_success hgranted hsucceeded,
          attempt_of_success (hgrants.trans hgranted) hsucceeded]
        rfl
      | false =>
        by_cases hclosed : (after cfg attempts).state = .closed
        · -- below the threshold the counter has not wrapped
          have hlow := hrest.closed_iff.mp hclosed
          have hsame : (after cfg attempts).wrapped = after cfg attempts := by
            rw [wrapped, hrest.count, wrapInt_of_range (by omega) (by omega), ← hrest.count]
          rw [hsame]
        · have hopen := hrest.opened hclosed
          rw [attempt_of_opened hopen hgranted hsucceeded,
            @attempt_of_opened cfg (after cfg attempts).wrapped a hopen (hgrants.trans hgranted)
              hsucceeded]
          simp only [wrapped, wrapInt_wrapInt_add]

end CircuitBreaker

end Nats

end Agamemnon
