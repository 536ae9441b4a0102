import Mathlib.Algebra.Order.Field.Basic
import Mathlib.Tactic.Linarith
import Mathlib.Tactic.Ring

/-!
# Token buckets

A bucket holds at most `burst` tokens and is filled at the rate `rate`.  A request takes a token if
there is one, and is refused otherwise.  `log` is what a bucket answers to a list of requests,
given by their times.

The tokens of a bucket are a potential for the requests that it allows: in every window the number
of these requests is at most `burst` plus what flows into the bucket during the window
(`allowedBetween_log_le`).
-/

structure TokenBucket (K : Type*) where
  tokens : K
  lastSeen : K

namespace TokenBucket

/-! ### Requests in a window -/

section Window

variable {K : Type*} [LinearOrder K]

/-- The number of requests in the window from `u` to `v` that were allowed. -/
def allowedBetween (u v : K) (entries : List (K × Bool)) : ℕ :=
  entries.countP fun entry => entry.2 && decide (u ≤ entry.1) && decide (entry.1 ≤ v)

variable {u v now : K} {ok : Bool} {entries : List (K × Bool)}

@[simp]
theorem allowedBetween_nil : allowedBetween u v [] = 0 := rfl

theorem allowedBetween_append (entries' : List (K × Bool)) :
  allowedBetween u v (entries ++ entries')
    = allowedBetween u v entries + allowedBetween u v entries'
  := List.countP_append

theorem allowedBetween_cons :
  allowedBetween u v ((now, ok) :: entries)
    = allowedBetween u v entries + if ok = true ∧ u ≤ now ∧ now ≤ v then 1 else 0
  := by
  rw [allowedBetween, List.countP_cons]
  simp only [Bool.and_eq_true, decide_eq_true_eq, and_assoc]
  rfl

theorem allowedBetween_eq_zero (h : ∀ entry ∈ entries, v < entry.1) :
  allowedBetween u v entries = 0
  := by
  rw [allowedBetween, List.countP_eq_zero]
  intro entry hentry
  simp [not_le.mpr (h entry hentry)]

end Window

/-! ### Buckets -/

variable {K : Type*} [Field K] [LinearOrder K]

/-- The bucket after the tokens up to the time `now` have flown in. -/
def refill (rate burst : K) (b : TokenBucket K) (now : K) : TokenBucket K where
  tokens := min burst (b.tokens + (now - b.lastSeen) * rate)
  lastSeen := now

/-- Take a token if there is one. -/
def take (b : TokenBucket K) : Bool × TokenBucket K :=
  if 1 ≤ b.tokens then (true, { b with tokens := b.tokens - 1 }) else (false, b)

/-- The requests at the given times, each with whether it is allowed. -/
def log (rate burst : K) (b : TokenBucket K) : List K → List (K × Bool)
  | [] => []
  | now :: times =>
      (now, (b.refill rate burst now).take.1)
        :: log rate burst (b.refill rate burst now).take.2 times

/-- What a bucket answers that is full at its first request. -/
def logOfFull (rate burst : K) : List K → List (K × Bool)
  | [] => []
  | now :: times => log rate burst ⟨burst, now⟩ (now :: times)

variable {rate burst : K} {b : TokenBucket K} {times : List K} {u v now t : K}

theorem lastSeen_take (b : TokenBucket K) : b.take.2.lastSeen = b.lastSeen
  := by
  rw [take]
  split_ifs <;> rfl

theorem take_of_le (h : 1 ≤ b.tokens) : b.take = (true, { b with tokens := b.tokens - 1 })
  := if_pos h

theorem take_of_lt (h : b.tokens < 1) : b.take = (false, b)
  := if_neg (not_le.mpr h)

theorem map_fst_log (b : TokenBucket K) (times : List K) :
  (log rate burst b times).map Prod.fst = times
  := by
  induction times generalizing b with
  | nil => rfl
  | cons now times ih => rw [log, List.map_cons, ih]

theorem tokens_refill_le (b : TokenBucket K) (now : K) : (b.refill rate burst now).tokens ≤ burst
  := min_le_left _ _

theorem tokens_refill_le_add (b : TokenBucket K) (now : K) :
  (b.refill rate burst now).tokens ≤ b.tokens + (now - b.lastSeen) * rate
  := min_le_right _ _

variable [IsStrictOrderedRing K]

theorem tokens_take_nonneg (h : 0 ≤ b.tokens) : 0 ≤ b.take.2.tokens
  := by
  rw [take]
  split_ifs with htoken
  · exact sub_nonneg.mpr htoken
  · exact h

/-- Refilling in two steps is refilling in one. -/
theorem refill_refill (hrate : 0 ≤ rate) (h : now ≤ t) :
  (b.refill rate burst now).refill rate burst t = b.refill rate burst t
  := by
  have hflow : 0 ≤ (t - now) * rate := mul_nonneg (sub_nonneg.mpr h) hrate
  have hsplit : (t - b.lastSeen) * rate = (now - b.lastSeen) * rate + (t - now) * rate := by ring
  simp only [refill, mk.injEq, and_true]
  rw [min_add, ← min_assoc, min_eq_left (le_add_of_nonneg_right hflow), hsplit, add_assoc]

theorem tokens_refill_nonneg (hrate : 0 ≤ rate) (hburst : 0 ≤ burst) (htokens : 0 ≤ b.tokens)
    (h : b.lastSeen ≤ now) :
  0 ≤ (b.refill rate burst now).tokens
  := by
  apply le_min hburst
  have hflow : 0 ≤ (now - b.lastSeen) * rate := mul_nonneg (sub_nonneg.mpr h) hrate
  linarith

/-- Once as much as the bucket holds has flown in, the bucket is full. -/
theorem tokens_refill_eq_burst (htokens : 0 ≤ b.tokens) (h : burst ≤ (now - b.lastSeen) * rate) :
  (b.refill rate burst now).tokens = burst
  := min_eq_left (by linarith)

theorem refill_full (hrate : 0 ≤ rate) (h : t ≤ now) :
  refill rate burst ⟨burst, t⟩ now = ⟨burst, now⟩
  := by
  have hflow : 0 ≤ (now - t) * rate := mul_nonneg (sub_nonneg.mpr h) hrate
  simp only [refill, mk.injEq, and_true]
  exact min_eq_left (by linarith)

theorem log_full (hrate : 0 ≤ rate) (h : ∀ now ∈ times, t ≤ now) :
  log rate burst ⟨burst, t⟩ times = logOfFull rate burst times
  := by
  cases times with
  | nil => rfl
  | cons now times =>
    rw [logOfFull, log, log, refill_full hrate (h now List.mem_cons_self),
      refill_full hrate le_rfl]

/-! ### Windows -/

omit [IsStrictOrderedRing K] in
/-- Requests after the window do not count. -/
theorem allowedBetween_log_eq_zero (hle : ∀ t ∈ times, now ≤ t) (hwindow : v < now) :
  allowedBetween u v (log rate burst b (now :: times)) = 0
  := by
  apply allowedBetween_eq_zero
  intro entry hentry
  have hmem : entry.1 ∈ (log rate burst b (now :: times)).map Prod.fst := List.mem_map_of_mem hentry
  rw [map_fst_log, List.mem_cons] at hmem
  obtain heq | hmem := hmem
  · exact heq ▸ hwindow
  · exact hwindow.trans_le (hle _ hmem)

/-- Until the time `v` a bucket allows no more requests than it has tokens and get tokens. -/
theorem allowedBetween_log_le_of_lastSeen (hrate : 0 ≤ rate) (htokens : 0 ≤ b.tokens)
    (hsorted : times.Pairwise (· ≤ ·)) (hafter : ∀ now ∈ times, b.lastSeen ≤ now)
    (hburst : 0 ≤ burst) (hv : b.lastSeen ≤ v) :
  (allowedBetween u v (log rate burst b times) : K) ≤ b.tokens + (v - b.lastSeen) * rate
  := by
  induction times generalizing b with
  | nil =>
    have hflow : 0 ≤ (v - b.lastSeen) * rate := mul_nonneg (sub_nonneg.mpr hv) hrate
    simpa [log] using add_nonneg htokens hflow
  | cons now times ih =>
    obtain ⟨hle, hsorted⟩ := List.pairwise_cons.mp hsorted
    have hseen : b.lastSeen ≤ now := hafter now List.mem_cons_self
    obtain hwindow | hwindow := lt_or_ge v now
    · rw [allowedBetween_log_eq_zero hle hwindow, Nat.cast_zero]
      exact add_nonneg htokens (mul_nonneg (sub_nonneg.mpr hv) hrate)
    · have hlevel := tokens_refill_nonneg hrate hburst htokens hseen
      have hfill : (b.refill rate burst now).tokens ≤ b.tokens + (now - b.lastSeen) * rate
        := tokens_refill_le_add b now
      have hrest := ih (tokens_take_nonneg hlevel) hsorted
        (by rw [lastSeen_take]; exact hle) (by rw [lastSeen_take]; exact hwindow)
      rw [lastSeen_take] at hrest
      have hsplit : (v - b.lastSeen) * rate = (now - b.lastSeen) * rate + (v - now) * rate
        := by ring
      rw [log, allowedBetween_cons, Nat.cast_add]
      change _ ≤ _ + (v - now) * rate at hrest
      obtain htoken | htoken := le_or_gt 1 (b.refill rate burst now).tokens
      · rw [take_of_le htoken] at hrest ⊢
        have hone : ((if true = true ∧ u ≤ now ∧ now ≤ v then 1 else 0 : ℕ) : K) ≤ 1 := by
          split_ifs <;> simp
        simp only at hrest
        linarith
      · rw [take_of_lt htoken] at hrest ⊢
        simp only [Bool.false_eq_true, false_and, if_false, Nat.cast_zero, add_zero]
        linarith

/-- In every window a bucket allows at most `burst` requests and one for each token that flows in
during the window. -/
theorem allowedBetween_log_le (hrate : 0 ≤ rate) (hburst : 0 ≤ burst) (htokens : 0 ≤ b.tokens)
    (hsorted : times.Pairwise (· ≤ ·)) (hafter : ∀ now ∈ times, b.lastSeen ≤ now) (huv : u ≤ v) :
  (allowedBetween u v (log rate burst b times) : K) ≤ burst + rate * (v - u)
  := by
  have hbound : 0 ≤ rate * (v - u) := mul_nonneg hrate (sub_nonneg.mpr huv)
  induction times generalizing b with
  | nil => simpa [log] using add_nonneg hburst hbound
  | cons now times ih =>
    obtain ⟨hle, htail⟩ := List.pairwise_cons.mp hsorted
    have hlevel := tokens_refill_nonneg hrate hburst htokens (hafter now List.mem_cons_self)
    obtain hbefore | hbegun := lt_or_ge now u
    · -- the request is before the window
      rw [log, allowedBetween_cons, if_neg (fun h => absurd h.2.1 (not_le.mpr hbefore)), add_zero]
      apply ih (tokens_take_nonneg hlevel) htail
      rw [lastSeen_take]
      exact hle
    · obtain hover | hwindow := lt_or_ge v now
      · rw [allowedBetween_log_eq_zero hle hover, Nat.cast_zero]
        exact add_nonneg hburst hbound
      · -- from the first request of the window on, at most `burst` tokens are there
        have hfirst : log rate burst b (now :: times)
            = log rate burst (b.refill rate burst now) (now :: times) := by
          rw [log, log, refill_refill hrate le_rfl]
        calc (allowedBetween u v (log rate burst b (now :: times)) : K)
            ≤ (b.refill rate burst now).tokens + (v - now) * rate := by
              rw [hfirst]
              apply allowedBetween_log_le_of_lastSeen hrate hlevel hsorted _ hburst hwindow
              exact List.forall_mem_cons.mpr ⟨le_rfl, hle⟩
          _ ≤ burst + (v - u) * rate := by
              gcongr
              exact tokens_refill_le b now
          _ = burst + rate * (v - u) := by rw [mul_comm]

/-! ### Draining a bucket -/

variable {k : ℕ}

/-- As long as there are tokens, requests at one time are allowed. -/
theorem log_replicate_append {x : K} (hk : (k : K) ≤ x) (hx : x ≤ burst) (times : List K) :
  log rate burst ⟨x, t⟩ (List.replicate k t ++ times)
    = List.replicate k (t, true) ++ log rate burst ⟨x - k, t⟩ times
  := by
  induction k generalizing x with
  | zero => simp
  | succ k ih =>
    have hrefill : refill rate burst ⟨x, t⟩ t = ⟨x, t⟩ := by
      simp [refill, hx]
    rw [Nat.cast_succ] at hk
    have hk0 : (0 : K) ≤ k := Nat.cast_nonneg k
    have htoken : 1 ≤ (⟨x, t⟩ : TokenBucket K).tokens := by
      change 1 ≤ x
      linarith
    rw [List.replicate_succ, List.cons_append, log, hrefill, take_of_le htoken]
    change (t, true) :: log rate burst ⟨x - 1, t⟩ _ = _
    rw [ih (by linarith) (by linarith), List.replicate_succ, List.cons_append, Nat.cast_succ,
      sub_sub, add_comm (1 : K)]

/-- The times at which a bucket that is full at the time `t` has its first `k + 1` tokens. -/
def drain (rate burst : K) (k : ℕ) (t : K) : List K :=
  List.replicate k t ++ [t + (k + 1 - burst) / rate]

theorem le_drain (hrate : 0 < rate) (hk : burst ≤ k + 1) :
  t ≤ t + (k + 1 - burst) / rate
  := le_add_of_nonneg_right (div_nonneg (sub_nonneg.mpr hk) hrate.le)

theorem mem_drain (hrate : 0 < rate) (hk : burst ≤ k + 1) (h : now ∈ drain rate burst k t) :
  t ≤ now ∧ now ≤ t + (k + 1 - burst) / rate
  := by
  obtain h | h := List.mem_append.mp h
  · rw [List.eq_of_mem_replicate h]
    exact ⟨le_rfl, le_drain hrate hk⟩
  · rw [List.mem_singleton.mp h]
    exact ⟨le_drain hrate hk, le_rfl⟩

theorem pairwise_drain (hrate : 0 < rate) (hk : burst ≤ k + 1) :
  (drain rate burst k t).Pairwise (· ≤ ·)
  := by
  rw [drain, List.pairwise_append]
  refine ⟨List.pairwise_replicate.mpr (.inr le_rfl), List.pairwise_singleton _ _, ?_⟩
  intro first hfirst last hlast
  rw [List.eq_of_mem_replicate hfirst, List.mem_singleton.mp hlast]
  exact le_drain hrate hk

/-- A full bucket allows all these requests. -/
theorem log_drain (hrate : 0 < rate) (hburst : 1 ≤ burst) (hk : (k : K) ≤ burst) :
  log rate burst ⟨burst, t⟩ (drain rate burst k t)
    = List.replicate k (t, true) ++ [(t + (k + 1 - burst) / rate, true)]
  := by
  rw [drain, log_replicate_append hk le_rfl]
  congr 1
  have hrefill : (refill rate burst ⟨burst - k, t⟩ (t + (k + 1 - burst) / rate)).tokens = 1 := by
    have hflow : (k + 1 - burst) / rate * rate = k + 1 - burst := div_mul_cancel₀ _ hrate.ne'
    simp only [refill, add_sub_cancel_left, hflow]
    rw [min_eq_right] <;> linarith
  rw [log, take_of_le hrefill.ge, log]

theorem allowedBetween_log_drain (hrate : 0 < rate) (hburst : 1 ≤ burst) (hk : (k : K) ≤ burst)
    (hk' : burst ≤ k + 1) (hu : u ≤ t) (hv : t + (k + 1 - burst) / rate ≤ v) :
  allowedBetween u v (log rate burst ⟨burst, t⟩ (drain rate burst k t)) = k + 1
  := by
  have hlast : t ≤ t + (k + 1 - burst) / rate := le_drain hrate hk'
  rw [log_drain hrate hburst hk, allowedBetween, List.countP_eq_length.mpr]
  · simp
  · intro entry hentry
    simp only [Bool.and_eq_true, decide_eq_true_eq, and_assoc]
    obtain hentry | hentry := List.mem_append.mp hentry
    · rw [List.eq_of_mem_replicate hentry]
      exact ⟨rfl, hu, hlast.trans hv⟩
    · rw [List.mem_singleton.mp hentry]
      exact ⟨rfl, hu.trans hlast, hv⟩

end TokenBucket
