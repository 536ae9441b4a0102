import Agamemnon.Server.RateLimiter

/-!
# The time that a client is told to wait

A request that is refused is answered with a `Retry-After` header: the whole part of
`retry_after_seconds` plus one.  Other clients may send requests at any time, also between the
refusal and the computation of the header, and cause the removal of the bucket.

After the seconds of the header the next request of the client is allowed (`allow_of_retryAfter`).
The header is computed as an `int`, though, and the sum overflows if a token takes 2147483647
seconds or more, so that the header is right exactly if tokens come faster (`waitIsEnough_iff`).
-/

namespace Agamemnon

namespace Server

namespace RateLimiter

/-! ### The header -/

/-- An `int`, if the number is one. -/
def fitInt (n : ℤ) : Option ℤ :=
  if -2 ^ 31 ≤ n ∧ n < 2 ^ 31 then some n else none

/-- `static_cast<int>(retry) + 1`, if this is defined. -/
def retryInt (retry : ℚ) : Option ℤ := do
  let whole ← fitInt (if 0 ≤ retry then ⌊retry⌋ else ⌈retry⌉)
  fitInt (whole + 1)

/-- The seconds in the `Retry-After` header. -/
def retryAfter (rl : RateLimiter) (clientIp : String) (now : ℚ) : Option ℤ :=
  retryInt (rl.retryAfterSeconds clientIp now)

/-- The requests are those of other clients. -/
def Others (clientIp : String) (requests : List Request) : Prop :=
  ∀ r ∈ requests, r.clientIp ≠ clientIp

/-- For every history: a client whose request is refused at the time `refused`, which is told at the
time `computed` how long to wait and does so, is allowed its next request. -/
def WaitIsEnough (rate burst : ℚ) : Prop :=
  ∀ (history between meanwhile : List Request) (clientIp : String) (refused computed t : ℚ),
    let rl := after { tokensPerSecond := rate, burstCapacity := burst } history
    let told := (rl.allow clientIp refused).2.after between
    (history.map Request.now ++ refused :: between.map Request.now
      ++ computed :: meanwhile.map Request.now ++ [t]).Pairwise (· ≤ ·) →
    Others clientIp between → Others clientIp meanwhile →
    (rl.allow clientIp refused).1 = false →
    ∃ seconds : ℤ, told.retryAfter clientIp computed = some seconds
      ∧ seconds = ⌊told.retryAfterSeconds clientIp computed⌋ + 1
      ∧ (computed + seconds ≤ t → ((told.after meanwhile).allow clientIp t).1 = true)

variable {rl : RateLimiter} {clientIp : String} {now t : ℚ} {requests : List Request}

theorem retryInt_of_lt {retry : ℚ} (hnonneg : 0 ≤ retry) (h : retry < 2147483647) :
  retryInt retry = some (⌊retry⌋ + 1)
  := by
  have hfloor : ⌊retry⌋ < 2147483647 := by
    rw [Int.floor_lt]
    exact_mod_cast h
  have hpos : 0 ≤ ⌊retry⌋ := Int.floor_nonneg.mpr hnonneg
  rw [retryInt, if_pos hnonneg, fitInt, if_pos (by omega)]
  change fitInt (⌊retry⌋ + 1) = _
  rw [fitInt, if_pos (by omega)]

theorem retryInt_of_le {retry : ℚ} (h : 2147483647 ≤ retry) :
  retryInt retry = none
  := by
  have hfloor : 2147483647 ≤ ⌊retry⌋ := by
    rw [Int.le_floor]
    exact_mod_cast h
  rw [retryInt, if_pos (by linarith), fitInt]
  split_ifs
  · change fitInt (⌊retry⌋ + 1) = _
    rw [fitInt, if_neg (by omega)]
  · rfl

/-! ### Waiting -/

/-- Requests of other clients leave the bucket of a client as it is, or remove it. -/
theorem buckets_after_of_others (h : Others clientIp requests) :
  (rl.after requests).buckets clientIp = rl.buckets clientIp
    ∨ (rl.after requests).buckets clientIp = none
  := by
  cases hbucket : (rl.after requests).buckets clientIp with
  | none => exact .inr rfl
  | some bucket =>
    left
    symm
    induction requests generalizing rl with
    | nil => apply hbucket
    | cons r requests ih =>
      obtain ⟨hr, hothers⟩ := List.forall_mem_cons.mp h
      apply buckets_of_buckets_allow (Ne.symm hr)
      apply ih hothers hbucket

theorem retryAfterSeconds_of_none (h : rl.buckets clientIp = none) (now : ℚ) :
  rl.retryAfterSeconds clientIp now = 0
  := by
  rw [retryAfterSeconds, h]

theorem retryAfterSeconds_of_some {bucket : Bucket} (h : rl.buckets clientIp = some bucket)
    (now : ℚ) :
  rl.retryAfterSeconds clientIp now
    = if 1 ≤ (rl.refill bucket now).tokens then 0
      else (1 - (rl.refill bucket now).tokens) / rl.tokensPerSecond
  := by
  rw [retryAfterSeconds, h]

theorem retryAfterSeconds_nonneg (hrate : 0 < rl.tokensPerSecond) (clientIp : String) (now : ℚ) :
  0 ≤ rl.retryAfterSeconds clientIp now
  := by
  cases hbucket : rl.buckets clientIp with
  | none => rw [retryAfterSeconds_of_none hbucket]
  | some bucket =>
    rw [retryAfterSeconds_of_some hbucket]
    split_ifs with htokens
    · rfl
    · apply div_nonneg _ hrate.le
      linarith

/-- Requests of other clients do not make the waiting time longer. -/
theorem retryAfterSeconds_after_le (hrate : 0 < rl.tokensPerSecond)
    (h : Others clientIp requests) (now : ℚ) :
  (rl.after requests).retryAfterSeconds clientIp now ≤ rl.retryAfterSeconds clientIp now
  := by
  obtain hsame | hnone := @buckets_after_of_others rl clientIp requests h
  · cases hbucket : rl.buckets clientIp with
    | none =>
      rw [retryAfterSeconds_of_none hbucket, retryAfterSeconds_of_none (hsame.trans hbucket)]
    | some bucket =>
      have hrefill : (rl.after requests).refill bucket now = rl.refill bucket now := by
        rw [refill, refill, tokensPerSecond_after, burstCapacity_after]
      rw [retryAfterSeconds_of_some hbucket, retryAfterSeconds_of_some (hsame.trans hbucket),
        hrefill, tokensPerSecond_after]
  · rw [retryAfterSeconds_of_none hnone]
    apply retryAfterSeconds_nonneg hrate

/-- A client that waits as long as it is told is allowed its next request, whatever the others do
meanwhile. -/
theorem allow_of_retryAfter (hrate : 0 < rl.tokensPerSecond) (hburst : 1 ≤ rl.burstCapacity)
    (h : Others clientIp requests) (ht : now + rl.retryAfterSeconds clientIp now ≤ t) :
  ((rl.after requests).allow clientIp t).1 = true
  := by
  have hrate' : 0 < (rl.after requests).tokensPerSecond := by rwa [tokensPerSecond_after]
  have hburst' : 1 ≤ (rl.after requests).burstCapacity := by rwa [burstCapacity_after]
  have hle := retryAfterSeconds_after_le hrate h now
  have ht' : now + (rl.after requests).retryAfterSeconds clientIp now ≤ t := by linarith
  apply allow_of_retryAfterSeconds hrate' hburst' clientIp ht'

/-- After ordered requests the tokens are no debts. -/
theorem Sound.after {s : ℚ} (hrate : 0 ≤ rl.tokensPerSecond) (hburst : 0 ≤ rl.burstCapacity)
    (h : rl.Sound s) (hs : s ≤ now)
    (hordered : (s :: requests.map Request.now ++ [now]).Pairwise (· ≤ ·)) :
  (rl.after requests).Sound now
  := by
  induction requests generalizing rl s with
  | nil =>
    intro ip bucket hbucket
    obtain ⟨htokens, hlast⟩ := h ip bucket hbucket
    exact ⟨htokens, hlast.trans hs⟩
  | cons r requests ih =>
    rw [List.map_cons, List.cons_append, List.cons_append, List.pairwise_cons] at hordered
    obtain ⟨hfirst, hordered⟩ := hordered
    rw [RateLimiter.after]
    apply ih (by simpa using hrate) (by simpa using hburst) _ _ hordered
    · apply h.allow hrate hburst
      apply hfirst _ List.mem_cons_self
    · rw [List.pairwise_cons] at hordered
      apply hordered.1
      simp

theorem sound_after (hrate : 0 ≤ rl.tokensPerSecond) (hburst : 0 ≤ rl.burstCapacity)
    (h : ∀ ip, rl.buckets ip = none)
    (hordered : (requests.map Request.now ++ [now]).Pairwise (· ≤ ·)) :
  (rl.after requests).Sound now
  := by
  have hsound (s : ℚ) : rl.Sound s := by
    intro ip bucket hbucket
    rw [h ip] at hbucket
    cases hbucket
  cases requests with
  | nil => apply hsound
  | cons r requests =>
    rw [List.map_cons, List.cons_append] at hordered
    have hfirst := (List.pairwise_cons.mp hordered).1
    apply (hsound r.now).after hrate hburst
    · apply hfirst
      simp
    · rw [List.map_cons, List.cons_append, List.cons_append, List.pairwise_cons]
      refine ⟨?_, hordered⟩
      rw [List.forall_mem_cons]
      exact ⟨le_rfl, hfirst⟩

/-- A token is never missing for longer than it takes to flow in. -/
theorem retryAfterSeconds_le (hrate : 0 < rl.tokensPerSecond) (hburst : 0 ≤ rl.burstCapacity)
    (h : rl.Sound now) (clientIp : String) :
  rl.retryAfterSeconds clientIp now ≤ 1 / rl.tokensPerSecond
  := by
  have htoken : 0 ≤ 1 / rl.tokensPerSecond := by positivity
  cases hbucket : rl.buckets clientIp with
  | none => rwa [retryAfterSeconds_of_none hbucket]
  | some bucket =>
    obtain ⟨htokens, hlast⟩ := h clientIp bucket hbucket
    have hrefill : 0 ≤ (rl.refill bucket now).tokens
      := TokenBucket.tokens_refill_nonneg hrate.le hburst htokens hlast
    rw [retryAfterSeconds_of_some hbucket]
    split_ifs
    · apply htoken
    · gcongr
      linarith

/-- The header is the whole part plus one, if tokens come fast enough. -/
theorem retryAfter_eq (hrate : 0 < rl.tokensPerSecond) (hburst : 0 ≤ rl.burstCapacity)
    (hfast : 1 < 2147483647 * rl.tokensPerSecond) (h : rl.Sound now) (clientIp : String) :
  rl.retryAfter clientIp now = some (⌊rl.retryAfterSeconds clientIp now⌋ + 1)
  := by
  apply retryInt_of_lt (retryAfterSeconds_nonneg hrate clientIp now)
  apply (retryAfterSeconds_le hrate hburst h clientIp).trans_lt
  rw [div_lt_iff₀ hrate]
  apply hfast

/-! ### Tokens that come too slowly -/

/-- As long as there are tokens, requests at one time take one each. -/
theorem Agrees.after_replicate {x : ℚ} {k : ℕ} (h : rl.Agrees clientIp t ⟨x, t⟩) (hk : (k : ℚ) ≤ x)
    (hx : x ≤ rl.burstCapacity) :
  (rl.after (requestsOf clientIp (List.replicate k t))).Agrees clientIp t ⟨x - k, t⟩
  := by
  induction k generalizing rl x with
  | zero =>
    rw [Nat.cast_zero, sub_zero]
    apply h
  | succ k ih =>
    have hrefill : rl.refill ⟨x, t⟩ t = ⟨x, t⟩ := by simp [refill, TokenBucket.refill, hx]
    rw [Nat.cast_succ] at hk
    have hk0 : (0 : ℚ) ≤ k := Nat.cast_nonneg k
    have htoken : 1 ≤ (⟨x, t⟩ : Bucket).tokens := by
      change 1 ≤ x
      linarith
    have hstep := h.allow_self le_rfl
    rw [hrefill, TokenBucket.take_of_le htoken] at hstep
    have hrest := ih (x := x - 1) hstep (by linarith) (by rw [burstCapacity_allow]; linarith)
    rw [List.replicate_succ, requestsOf, List.map_cons, RateLimiter.after, Nat.cast_succ,
      add_comm (k : ℚ), ← sub_sub]
    apply hrest

/-- A client can have its bucket emptied. -/
theorem exists_agrees_empty {rate burst : ℚ} (hrate : 0 < rate) (hburst : 1 ≤ burst) :
  ∃ times : List ℚ, ∃ t, (times ++ [t]).Pairwise (· ≤ ·)
    ∧ (after { tokensPerSecond := rate, burstCapacity := burst }
        (requestsOf clientIp times)).Agrees clientIp t ⟨0, t⟩
  := by
  obtain ⟨k, hk, hk'⟩ : ∃ k : ℕ, (k : ℚ) ≤ burst ∧ burst ≤ k + 1
    := ⟨⌊burst⌋₊, Nat.floor_le (by linarith), (Nat.lt_floor_add_one burst).le⟩
  let rl : RateLimiter := { tokensPerSecond := rate, burstCapacity := burst }
  have hfull : rl.Agrees clientIp 0 ⟨burst, 0⟩ := agrees_full hrate.le rfl
  have hdrained := hfull.after_replicate hk le_rfl
  let last := 0 + (k + 1 - burst) / rate
  have hle : 0 ≤ last := TokenBucket.le_drain hrate hk'
  use TokenBucket.drain rate burst k 0, last
  constructor
  · rw [List.pairwise_append]
    refine ⟨TokenBucket.pairwise_drain hrate hk', List.pairwise_singleton _ _, ?_⟩
    intro now hnow t ht
    rw [List.mem_singleton.mp ht]
    apply (TokenBucket.mem_drain hrate hk' hnow).2
  · -- at the time of the last request there is one token
    have hrefill : (rl.after (requestsOf clientIp (List.replicate k 0))).refill ⟨burst - k, 0⟩ last
        = ⟨1, last⟩ := by
      have hflow : (last - 0) * rate = k + 1 - burst := by
        simp only [last, zero_add, sub_zero]
        apply div_mul_cancel₀ _ hrate.ne'
      have htokens : burst - k + (k + 1 - burst) = 1 := by ring
      simp only [refill, tokensPerSecond_after, burstCapacity_after, TokenBucket.refill, rl, hflow,
        htokens, min_eq_right hburst]
    have hlast := hdrained.allow_self hle
    rw [hrefill, TokenBucket.take_of_le le_rfl] at hlast
    simp only [sub_self] at hlast
    rw [TokenBucket.drain, requestsOf, List.map_append, after_append]
    apply hlast

/-- If a token takes too long, then an empty bucket makes the header overflow. -/
theorem retryAfter_of_agrees_empty (h : rl.Agrees clientIp t ⟨0, t⟩) (hburst : 1 ≤ rl.burstCapacity)
    (hrate : 0 < rl.tokensPerSecond) (hslow : 2147483647 * rl.tokensPerSecond ≤ 1) :
  (rl.allow clientIp t).1 = false ∧ (rl.allow clientIp t).2.retryAfter clientIp t = none
  := by
  have hrefill : rl.refill ⟨0, t⟩ t = ⟨0, t⟩ := by
    simp only [refill, TokenBucket.refill, sub_self, zero_mul, add_zero]
    rw [min_eq_right]
    linarith
  have htake : (⟨0, t⟩ : Bucket).take = (false, ⟨0, t⟩) := TokenBucket.take_of_lt one_pos
  constructor
  · rw [h.allow_fst le_rfl, hrefill, htake]
  · have hbucket : (rl.allow clientIp t).2.buckets clientIp = some ⟨0, t⟩ := by
      rw [buckets_allow_self, h t le_rfl, hrefill, htake]
    have hrefill' : (rl.allow clientIp t).2.refill ⟨0, t⟩ t = ⟨0, t⟩ := by
      rw [refill, tokensPerSecond_allow, burstCapacity_allow]
      apply hrefill
    apply retryInt_of_le
    rw [retryAfterSeconds_of_some hbucket, hrefill', if_neg (not_le.mpr one_pos), sub_zero,
      tokensPerSecond_allow, le_div_iff₀ hrate]
    apply hslow

/-- The time that a client is told to wait is enough exactly if a token takes less than 2147483647
seconds. -/
theorem waitIsEnough_iff (rate burst : ℚ) (hrate : 0 < rate) (hburst : 1 ≤ burst) :
  WaitIsEnough rate burst ↔ 1 < 2147483647 * rate
  := by
  constructor
  · intro h
    by_contra hslow
    obtain ⟨times, t, hordered, hagrees⟩ := @exists_agrees_empty "a" rate burst hrate hburst
    obtain ⟨hrefused, hnone⟩ := retryAfter_of_agrees_empty hagrees (by simpa using hburst)
      (by simpa using hrate) (by simpa using hslow)
    have htimes : (requestsOf "a" times).map Request.now = times := by
      simp [requestsOf, Function.comp_def]
    have hall : (times ++ t :: [] ++ t :: [] ++ [t]).Pairwise (· ≤ ·) := by
      simpa [List.pairwise_append] using hordered
    rw [← htimes] at hall
    obtain ⟨seconds, hseconds, -⟩ := h (requestsOf "a" times) [] [] "a" t t t hall
      (by simp [Others]) (by simp [Others]) hrefused
    cases hnone.symm.trans hseconds
  · intro hfast history between meanwhile clientIp refused computed t rl told hordered hbetween
      hmeanwhile hrefused
    have hrate' : told.tokensPerSecond = rate := by simp [told, rl]
    have hburst' : told.burstCapacity = burst := by simp [told, rl]
    have hsound : told.Sound computed := by
      have htold : told = after { tokensPerSecond := rate, burstCapacity := burst }
          (history ++ ⟨clientIp, refused⟩ :: between) := by
        rw [after_append, after]
      rw [htold]
      apply sound_after hrate.le (by change 0 ≤ burst; linarith) fun _ => rfl
      apply List.Pairwise.sublist _ hordered
      apply List.IsPrefix.sublist
      use meanwhile.map Request.now ++ [t]
      simp
    have hheader := retryAfter_eq (by rwa [hrate']) (by rw [hburst']; linarith)
      (by rwa [hrate']) hsound clientIp
    use ⌊told.retryAfterSeconds clientIp computed⌋ + 1, hheader, rfl
    intro ht
    have hfloor := Int.lt_floor_add_one (told.retryAfterSeconds clientIp computed)
    push_cast at ht
    have hwaited : computed + told.retryAfterSeconds clientIp computed ≤ t := by linarith
    apply allow_of_retryAfter (by rwa [hrate']) (by rwa [hburst']) hmeanwhile hwaited

/-- The defaults of the server. -/
theorem waitIsEnough_iff_defaults :
  (0 : ℚ) < 60 ∧ (1 : ℚ) ≤ 120 ∧ (WaitIsEnough 60 120 ↔ (1 : ℚ) < 2147483647 * 60)
  := ⟨by norm_num, by norm_num, waitIsEnough_iff 60 120 (by norm_num) (by norm_num)⟩

/-- One token in 2147483647 seconds: the second request is refused, and the header that should say
2147483648 is not defined. -/
theorem not_waitIsEnough_slow :
  let rl := after { tokensPerSecond := 1 / 2147483647, burstCapacity := 1 } [⟨"a", 0⟩]
  (rl.allow "a" 0).1 = false
    ∧ (rl.allow "a" 0).2.retryAfterSeconds "a" 0 = 2147483647
    ∧ (rl.allow "a" 0).2.retryAfter "a" 0 = none
    ∧ ¬ WaitIsEnough (1 / 2147483647) 1
  := by
  intro rl
  have hrefused : (rl.allow "a" 0).1 = false := by decide +kernel
  have hnone : (rl.allow "a" 0).2.retryAfter "a" 0 = none := by decide +kernel
  refine ⟨hrefused, by decide +kernel, hnone, ?_⟩
  intro h
  obtain ⟨seconds, hseconds, -⟩ := h [⟨"a", 0⟩] [] [] "a" 0 0 0 (by simp)
    (by simp [Others]) (by simp [Others]) hrefused
  cases hnone.symm.trans hseconds

end RateLimiter

end Server

end Agamemnon
