import Agamemnon.Lib.TokenBucket
import Mathlib.Algebra.Order.Floor.Semiring
import Mathlib.Data.Rat.Floor
import Mathlib.Logic.Function.Basic
import Mathlib.Tactic.FieldSimp

/-!
# The rate limiter

Each client has a bucket, which is created full at the client's first request.  Every hundred
requests the buckets that have not been seen for five minutes are removed, and the next request of
their clients creates them anew, full.

For the client of a bucket this is not visible exactly if a bucket is full after five minutes
without requests.  Then each client is answered as by a bucket of its own that is never removed, and
the bound of such a bucket holds.
-/

namespace Agamemnon

open TokenBucket

namespace Server

/-- `RateLimiter::Bucket`; the times are in seconds. -/
abbrev Bucket := TokenBucket ℚ

/-- `buckets_` has a bucket for some of the clients. -/
structure RateLimiter where
  tokensPerSecond : ℚ
  burstCapacity : ℚ
  buckets : String → Option Bucket := fun _ => none
  requestCountSinceEvict : ℕ := 0

/-- A call of `allow` at the time `now`. -/
structure Request where
  clientIp : String
  now : ℚ

namespace RateLimiter

def kEvictAfter : ℚ := 300

def kEvictCheckInterval : ℕ := 100

variable (rl : RateLimiter)

def refill (bucket : Bucket) (now : ℚ) : Bucket :=
  bucket.refill rl.tokensPerSecond rl.burstCapacity now

def evictStale (now : ℚ) : RateLimiter :=
  { rl with
    buckets := fun ip =>
      (rl.buckets ip).filter fun bucket => !decide (kEvictAfter < now - bucket.lastSeen) }

/-- The bucket of a client at a request: a new one is full and is not refilled. -/
def seen (clientIp : String) (now : ℚ) : Bucket :=
  match rl.buckets clientIp with
  | none => ⟨rl.burstCapacity, now⟩
  | some bucket => rl.refill bucket now

/-- Store the bucket of a client. -/
def put (clientIp : String) (bucket : Bucket) : RateLimiter :=
  { rl with buckets := Function.update rl.buckets clientIp (some bucket) }

/-- Count a request, and remove the stale buckets when it is time for that. -/
def countRequest (now : ℚ) : RateLimiter :=
  if kEvictCheckInterval ≤ rl.requestCountSinceEvict + 1 then
    { rl with requestCountSinceEvict := 0 }.evictStale now
  else { rl with requestCountSinceEvict := rl.requestCountSinceEvict + 1 }

/-- Whether the request is allowed, and the limiter afterwards.  The token is taken from the bucket
in the map, which has not been removed (`buckets_countRequest_put`). -/
def allow (clientIp : String) (now : ℚ) : Bool × RateLimiter :=
  let bucket := rl.seen clientIp now
  let rl := (rl.put clientIp bucket).countRequest now
  (bucket.take.1, rl.put clientIp bucket.take.2)

def retryAfterSeconds (clientIp : String) (now : ℚ) : ℚ :=
  match rl.buckets clientIp with
  | none => 0
  | some bucket =>
      let bucket := rl.refill bucket now
      if 1 ≤ bucket.tokens then 0 else (1 - bucket.tokens) / rl.tokensPerSecond

/-- The limiter after some requests. -/
def after (rl : RateLimiter) : List Request → RateLimiter
  | [] => rl
  | r :: requests => (rl.allow r.clientIp r.now).2.after requests

/-- The requests of a client, each with its time and whether it is allowed. -/
def logOf (clientIp : String) (rl : RateLimiter) : List Request → List (ℚ × Bool)
  | [] => []
  | r :: requests =>
      if r.clientIp = clientIp then
        (r.now, (rl.allow r.clientIp r.now).1)
          :: logOf clientIp (rl.allow r.clientIp r.now).2 requests
      else logOf clientIp (rl.allow r.clientIp r.now).2 requests

/-- The times of the requests of a client. -/
def timesOf (clientIp : String) (requests : List Request) : List ℚ :=
  (requests.filter fun r => r.clientIp = clientIp).map Request.now

/-- The requests are ordered by time. -/
def Ordered (requests : List Request) : Prop :=
  requests.Pairwise fun r r' => r.now ≤ r'.now

variable {rl' : RateLimiter} {clientIp ip : String} {now t : ℚ} {bucket : Bucket}
  {requests : List Request}

/-! ### One request -/

theorem buckets_countRequest (now : ℚ) :
  (rl.countRequest now).buckets = rl.buckets
    ∨ (rl.countRequest now).buckets = (rl.evictStale now).buckets
  := by
  rw [countRequest]
  split_ifs
  · exact .inr rfl
  · exact .inl rfl

theorem config_countRequest (now : ℚ) :
  (rl.countRequest now).tokensPerSecond = rl.tokensPerSecond
    ∧ (rl.countRequest now).burstCapacity = rl.burstCapacity
  := by
  rw [countRequest]
  split_ifs <;> exact ⟨rfl, rfl⟩

@[simp]
theorem tokensPerSecond_allow (clientIp : String) (now : ℚ) :
  (rl.allow clientIp now).2.tokensPerSecond = rl.tokensPerSecond
  := (config_countRequest _ _).1

@[simp]
theorem burstCapacity_allow (clientIp : String) (now : ℚ) :
  (rl.allow clientIp now).2.burstCapacity = rl.burstCapacity
  := (config_countRequest _ _).2

theorem buckets_allow_self (clientIp : String) (now : ℚ) :
  (rl.allow clientIp now).2.buckets clientIp = some (rl.seen clientIp now).take.2
  := Function.update_self ..

/-- The buckets of other clients are as before, or removed after five minutes. -/
theorem buckets_allow_of_ne (now : ℚ) (h : ip ≠ clientIp) :
  (rl.allow clientIp now).2.buckets ip = rl.buckets ip
    ∨ (rl.allow clientIp now).2.buckets ip = (rl.evictStale now).buckets ip
  := by
  have hother : (rl.put clientIp (rl.seen clientIp now)).buckets ip = rl.buckets ip
    := Function.update_of_ne h ..
  have hput : (rl.allow clientIp now).2.buckets ip
      = ((rl.put clientIp (rl.seen clientIp now)).countRequest now).buckets ip
    := Function.update_of_ne h ..
  rw [hput]
  obtain hcount | hcount := buckets_countRequest (rl.put clientIp (rl.seen clientIp now)) now
  · rw [hcount, hother]
    exact .inl rfl
  · rw [hcount, evictStale, evictStale]
    simp only [hother]
    exact .inr trivial

theorem lastSeen_seen (clientIp : String) (now : ℚ) :
  (rl.seen clientIp now).lastSeen = now
  := by
  rw [seen]
  split <;> rfl

variable {rl}

theorem buckets_evictStale_eq_some :
  (rl.evictStale now).buckets ip = some bucket
    ↔ rl.buckets ip = some bucket ∧ now - bucket.lastSeen ≤ kEvictAfter
  := by
  simp [evictStale, Option.filter_eq_some_iff]

theorem buckets_evictStale_of_none (h : rl.buckets ip = none) :
  (rl.evictStale now).buckets ip = none
  := by
  simp [evictStale, h]

theorem buckets_evictStale_of_stale (h : rl.buckets ip = some bucket)
    (hstale : kEvictAfter < now - bucket.lastSeen) :
  (rl.evictStale now).buckets ip = none
  := by
  rw [evictStale, Option.filter_eq_none_iff]
  intro kept hkept
  obtain rfl := Option.some.inj (h.symm.trans hkept)
  simp only [hstale, decide_true, Bool.not_true, Bool.false_eq_true, not_false_eq_true]

/-! ### The bucket of a client -/

/-- From the time `now` on, a request of the client finds what it would find in the bucket `b`. -/
def Agrees (rl : RateLimiter) (clientIp : String) (now : ℚ) (b : Bucket) : Prop :=
  ∀ t, now ≤ t → rl.seen clientIp t = rl.refill b t

theorem agrees_full (hrate : 0 ≤ rl.tokensPerSecond) (hnone : rl.buckets clientIp = none) :
  rl.Agrees clientIp now ⟨rl.burstCapacity, now⟩
  := by
  intro t ht
  rw [seen, hnone, refill, refill_full hrate ht]

variable {b : Bucket} {s : ℚ}

theorem Agrees.allow_fst (h : rl.Agrees clientIp s b) (hs : s ≤ now) :
  (rl.allow clientIp now).1 = (rl.refill b now).take.1
  := by
  rw [allow, h now hs]

/-- A request of the client is a request to its bucket. -/
theorem Agrees.allow_self (h : rl.Agrees clientIp s b) (hs : s ≤ now) :
  (rl.allow clientIp now).2.Agrees clientIp now (rl.refill b now).take.2
  := by
  intro t ht
  rw [seen, buckets_allow_self, h now hs]

/-- The tokens of all buckets are a number, and the buckets are not from the future. -/
def Sound (rl : RateLimiter) (now : ℚ) : Prop :=
  ∀ ip bucket, rl.buckets ip = some bucket → 0 ≤ bucket.tokens ∧ bucket.lastSeen ≤ now

theorem Sound.seen (hrate : 0 ≤ rl.tokensPerSecond) (hburst : 0 ≤ rl.burstCapacity) (h : rl.Sound s)
    (hs : s ≤ now) (clientIp : String) :
  0 ≤ (rl.seen clientIp now).tokens
  := by
  rw [RateLimiter.seen]
  split
  next => exact hburst
  next bucket hbucket =>
    obtain ⟨htokens, hlast⟩ := h clientIp bucket hbucket
    exact tokens_refill_nonneg hrate hburst htokens (hlast.trans hs)

theorem Sound.allow (hrate : 0 ≤ rl.tokensPerSecond) (hburst : 0 ≤ rl.burstCapacity)
    (h : rl.Sound s) (hs : s ≤ now) (clientIp : String) :
  (rl.allow clientIp now).2.Sound now
  := by
  intro ip bucket hbucket
  have hkept (hsame : rl.buckets ip = some bucket) : 0 ≤ bucket.tokens ∧ bucket.lastSeen ≤ now := by
    obtain ⟨htokens, hlast⟩ := h ip bucket hsame
    exact ⟨htokens, hlast.trans hs⟩
  obtain rfl | hne := eq_or_ne ip clientIp
  · rw [buckets_allow_self] at hbucket
    obtain rfl := Option.some.inj hbucket
    rw [lastSeen_take, lastSeen_seen]
    exact ⟨tokens_take_nonneg (h.seen hrate hburst hs ip), le_rfl⟩
  · obtain hsame | hevicted := buckets_allow_of_ne rl now hne
    · exact hkept (hsame ▸ hbucket)
    · rw [hevicted, buckets_evictStale_eq_some] at hbucket
      exact hkept hbucket.1

/-- If a bucket is full after five minutes, then its client does not see that it is removed. -/
theorem Agrees.allow_of_ne (hrate : 0 ≤ rl.tokensPerSecond)
    (hevict : rl.burstCapacity ≤ kEvictAfter * rl.tokensPerSecond) (hsound : rl.Sound s)
    (h : rl.Agrees clientIp s b) (hs : s ≤ now) (hne : clientIp ≠ ip) :
  (rl.allow ip now).2.Agrees clientIp now b
  := by
  intro t ht
  have hrefill : (rl.allow ip now).2.refill b t = rl.refill b t := by
    rw [refill, refill, tokensPerSecond_allow, burstCapacity_allow]
  have hseen (hsame : (rl.allow ip now).2.buckets clientIp = rl.buckets clientIp) :
      (rl.allow ip now).2.seen clientIp t = rl.seen clientIp t := by
    rw [RateLimiter.seen, RateLimiter.seen, hsame, burstCapacity_allow]
    simp only [refill, tokensPerSecond_allow, burstCapacity_allow]
  rw [hrefill, ← h t (hs.trans ht)]
  obtain hsame | hevicted := buckets_allow_of_ne rl now hne
  · exact hseen hsame
  · cases hbucket : rl.buckets clientIp with
    | none =>
      apply hseen
      rw [hevicted, hbucket, buckets_evictStale_of_none hbucket]
    | some bucket =>
      obtain hstale | hfresh := lt_or_ge kEvictAfter (now - bucket.lastSeen)
      · have hremoved : (rl.allow ip now).2.buckets clientIp = none
          := hevicted.trans (buckets_evictStale_of_stale hbucket hstale)
        have hflow : rl.burstCapacity ≤ (t - bucket.lastSeen) * rl.tokensPerSecond := by
          apply hevict.trans
          gcongr
          linarith
        have hfull : (rl.refill bucket t).tokens = rl.burstCapacity
          := tokens_refill_eq_burst (hsound clientIp bucket hbucket).1 hflow
        rw [RateLimiter.seen, RateLimiter.seen, hremoved, hbucket, burstCapacity_allow]
        simp only [← hfull]
        rfl
      · apply hseen
        rw [hevicted, hbucket, buckets_evictStale_eq_some]
        exact ⟨hbucket, hfresh⟩

/-- If a bucket is full after five minutes, then each client is answered as by a bucket that is
never removed. -/
theorem logOf_eq_log (hrate : 0 ≤ rl.tokensPerSecond) (hburst : 0 ≤ rl.burstCapacity)
    (hevict : rl.burstCapacity ≤ kEvictAfter * rl.tokensPerSecond) (hsound : rl.Sound s)
    (h : rl.Agrees clientIp s b) (hordered : Ordered requests) (hs : ∀ r ∈ requests, s ≤ r.now) :
  rl.logOf clientIp requests
    = b.log rl.tokensPerSecond rl.burstCapacity (timesOf clientIp requests)
  := by
  induction requests generalizing rl b s with
  | nil => rfl
  | cons r requests ih =>
    obtain ⟨hle, hordered⟩ := List.pairwise_cons.mp hordered
    have hnow : s ≤ r.now := hs r List.mem_cons_self
    have hsound' := hsound.allow hrate hburst hnow r.clientIp
    have hrest {b' : Bucket} (hagrees : (rl.allow r.clientIp r.now).2.Agrees clientIp r.now b')
      := ih (by simpa using hrate) (by simpa using hburst) (by simpa using hevict) hsound' hagrees
        hordered hle
    simp only [tokensPerSecond_allow, burstCapacity_allow] at hrest
    rw [logOf, timesOf]
    split_ifs with hclient
    · subst hclient
      rw [hrest (h.allow_self hnow), h.allow_fst hnow]
      simp [log, timesOf, refill]
    · rw [hrest (h.allow_of_ne hrate hevict hsound hnow (Ne.symm hclient))]
      simp [timesOf, hclient]

/-- After the time that a client is told to wait, its next request is allowed. -/
theorem allow_of_retryAfterSeconds (hrate : 0 < rl.tokensPerSecond) (hburst : 1 ≤ rl.burstCapacity)
    (clientIp : String) (h : now + rl.retryAfterSeconds clientIp now ≤ t) :
  (rl.allow clientIp t).1 = true
  := by
  have htoken : 1 ≤ (rl.seen clientIp t).tokens := by
    rw [retryAfterSeconds] at h
    rw [seen]
    cases hbucket : rl.buckets clientIp with
    | none => exact hburst
    | some bucket =>
      simp only [hbucket] at h
      -- what is missing now has flown in at the time `t`
      have hflow : 1 - (rl.refill bucket now).tokens ≤ (t - now) * rl.tokensPerSecond
          ∧ now ≤ t := by
        split_ifs at h with hnow
        · have hle : now ≤ t := by linarith
          have := mul_nonneg (sub_nonneg.mpr hle) hrate.le
          exact ⟨by linarith, hle⟩
        · have hmissing : 0 < (1 - (rl.refill bucket now).tokens) / rl.tokensPerSecond
            := div_pos (by linarith [not_le.mp hnow]) hrate
          exact ⟨(div_le_iff₀ hrate).mp (by linarith), by linarith⟩
      change 1 ≤ (rl.refill bucket t).tokens
      rw [refill, ← refill_refill hrate.le hflow.2]
      apply le_min hburst
      change 1 ≤ (rl.refill bucket now).tokens + (t - now) * rl.tokensPerSecond
      linarith [hflow.1]
  rw [allow, take_of_le htoken]

/-! ### Removing a bucket that is not full -/

/-- Requests of one client. -/
def requestsOf (clientIp : String) (times : List ℚ) : List Request :=
  times.map fun now => ⟨clientIp, now⟩

theorem after_append (rl : RateLimiter) (requests requests' : List Request) :
  rl.after (requests ++ requests') = (rl.after requests).after requests'
  := by
  induction requests generalizing rl with
  | nil => rfl
  | cons r requests ih => rw [List.cons_append, after, after, ih]

theorem logOf_append (rl : RateLimiter) (clientIp : String) (requests requests' : List Request) :
  rl.logOf clientIp (requests ++ requests')
    = rl.logOf clientIp requests ++ (rl.after requests).logOf clientIp requests'
  := by
  induction requests generalizing rl with
  | nil => rfl
  | cons r requests ih =>
    rw [List.cons_append, logOf, logOf, after, ih]
    split_ifs <;> rfl

@[simp]
theorem tokensPerSecond_after (rl : RateLimiter) (requests : List Request) :
  (rl.after requests).tokensPerSecond = rl.tokensPerSecond
  := by
  induction requests generalizing rl with
  | nil => rfl
  | cons r requests ih => rw [after, ih, tokensPerSecond_allow]

@[simp]
theorem burstCapacity_after (rl : RateLimiter) (requests : List Request) :
  (rl.after requests).burstCapacity = rl.burstCapacity
  := by
  induction requests generalizing rl with
  | nil => rfl
  | cons r requests ih => rw [after, ih, burstCapacity_allow]

/-- Without requests of other clients, a client is answered as by its bucket. -/
theorem logOf_requestsOf {times : List ℚ} (h : rl.Agrees clientIp s b)
    (hsorted : times.Pairwise (· ≤ ·)) (hs : ∀ t ∈ times, s ≤ t) :
  rl.logOf clientIp (requestsOf clientIp times)
    = b.log rl.tokensPerSecond rl.burstCapacity times
  := by
  induction times generalizing rl b s with
  | nil => rfl
  | cons now times ih =>
    obtain ⟨hle, hsorted⟩ := List.pairwise_cons.mp hsorted
    have hnow : s ≤ now := hs now List.mem_cons_self
    have hrest := ih (h.allow_self hnow) hsorted hle
    simp only [tokensPerSecond_allow, burstCapacity_allow] at hrest
    rw [requestsOf, List.map_cons, logOf, if_pos rfl, log]
    rw [requestsOf] at hrest
    rw [hrest, h.allow_fst hnow]
    rfl

/-- Other requests are not in the log of a client. -/
theorem logOf_requestsOf_of_ne (rl : RateLimiter) (hne : ip ≠ clientIp) (times : List ℚ) :
  rl.logOf clientIp (requestsOf ip times) = []
  := by
  induction times generalizing rl with
  | nil => rfl
  | cons now times ih =>
    rw [requestsOf, List.map_cons, logOf, if_neg hne]
    exact ih _

theorem requestCount_allow (rl : RateLimiter) (clientIp : String) (now : ℚ) :
  (rl.allow clientIp now).2.requestCountSinceEvict
    = if kEvictCheckInterval ≤ rl.requestCountSinceEvict + 1 then 0
      else rl.requestCountSinceEvict + 1
  := by
  change ((rl.put clientIp _).countRequest now).requestCountSinceEvict = _
  rw [countRequest]
  split_ifs <;> simp_all [put, evictStale]

theorem requestCount_lt_of_allow (rl : RateLimiter) (clientIp : String) (now : ℚ) :
  (rl.allow clientIp now).2.requestCountSinceEvict < kEvictCheckInterval
  := by
  rw [requestCount_allow]
  split_ifs with hcount
  · decide
  · exact not_le.mp hcount

theorem requestCount_after_lt (h : rl.requestCountSinceEvict < kEvictCheckInterval)
    (requests : List Request) :
  (rl.after requests).requestCountSinceEvict < kEvictCheckInterval
  := by
  induction requests generalizing rl with
  | nil => exact h
  | cons r requests ih => exact ih (requestCount_lt_of_allow rl r.clientIp r.now)

theorem buckets_allow_of_evict (hcount : kEvictCheckInterval ≤ rl.requestCountSinceEvict + 1)
    (hne : ip ≠ clientIp) :
  (rl.allow clientIp now).2.buckets ip = (rl.evictStale now).buckets ip
  := by
  rw [allow, put]
  simp only [Function.update_of_ne hne]
  have hput : (rl.put clientIp (rl.seen clientIp now)).requestCountSinceEvict
      = rl.requestCountSinceEvict := rfl
  rw [countRequest, hput, if_pos hcount]
  simp only [evictStale, put, Function.update_of_ne hne]

/-- A request of another client does not create a bucket. -/
theorem buckets_of_buckets_allow (hne : ip ≠ clientIp)
    (h : (rl.allow clientIp now).2.buckets ip = some bucket) :
  rl.buckets ip = some bucket
  := by
  obtain hsame | hevicted := buckets_allow_of_ne rl now hne
  · exact hsame ▸ h
  · rw [hevicted, buckets_evictStale_eq_some] at h
    exact h.1

theorem buckets_after_eq_none (hne : ip ≠ clientIp) (h : rl.buckets ip = none) (times : List ℚ) :
  (rl.after (requestsOf clientIp times)).buckets ip = none
  := by
  induction times generalizing rl with
  | nil => exact h
  | cons now times ih =>
    apply ih
    rw [Option.eq_none_iff_forall_ne_some] at h ⊢
    intro bucket hbucket
    exact h bucket (buckets_of_buckets_allow hne hbucket)

/-- Enough requests of another client remove a stale bucket. -/
theorem buckets_after_replicate (hne : ip ≠ clientIp) {m : ℕ}
    (hcount : rl.requestCountSinceEvict < kEvictCheckInterval)
    (hm : kEvictCheckInterval ≤ rl.requestCountSinceEvict + m)
    (hstale : ∀ bucket, rl.buckets ip = some bucket → kEvictAfter < now - bucket.lastSeen) :
  (rl.after (requestsOf clientIp (List.replicate m now))).buckets ip = none
  := by
  induction m generalizing rl with
  | zero => exact absurd hm (not_le.mpr hcount)
  | succ m ih =>
    rw [List.replicate_succ, requestsOf, List.map_cons, after]
    obtain hevict | hkeep := le_or_gt kEvictCheckInterval (rl.requestCountSinceEvict + 1)
    · apply buckets_after_eq_none hne
      rw [buckets_allow_of_evict hevict hne]
      cases hbucket : rl.buckets ip with
      | none => exact buckets_evictStale_of_none hbucket
      | some bucket => exact buckets_evictStale_of_stale hbucket (hstale bucket hbucket)
    · apply ih (requestCount_lt_of_allow rl clientIp now)
      · rw [requestCount_allow, if_neg (not_le.mpr hkeep)]
        omega
      · intro bucket hbucket
        exact hstale bucket (buckets_of_buckets_allow hne hbucket)

/-- Drain a bucket, have another client cause its removal, and drain it again. -/
def drainTwice (rate burst : ℚ) (k : ℕ) (clientIp other : String) (s t : ℚ) : List Request :=
  requestsOf clientIp (drain rate burst k s)
    ++ requestsOf other (List.replicate kEvictCheckInterval t)
    ++ requestsOf clientIp (drain rate burst k t)

section Overrun

variable {rate burst : ℚ} {k : ℕ} {other : String}

theorem ordered_drainTwice (hrate : 0 < rate) (hk : burst ≤ k + 1)
    (hst : s + (k + 1 - burst) / rate ≤ t) :
  Ordered (drainTwice rate burst k clientIp other s t)
  := by
  have hfirst {r : Request} (hr : r ∈ requestsOf clientIp (drain rate burst k s)) :
      r.now ≤ t := by
    obtain ⟨now, hnow, rfl⟩ := List.mem_map.mp hr
    exact (mem_drain hrate hk hnow).2.trans hst
  have hother {r : Request} (hr : r ∈ requestsOf other (List.replicate kEvictCheckInterval t)) :
      r.now = t := by
    obtain ⟨now, hnow, rfl⟩ := List.mem_map.mp hr
    exact List.eq_of_mem_replicate hnow
  have hsecond {r : Request} (hr : r ∈ requestsOf clientIp (drain rate burst k t)) :
      t ≤ r.now := by
    obtain ⟨now, hnow, rfl⟩ := List.mem_map.mp hr
    exact (mem_drain hrate hk hnow).1
  rw [Ordered, drainTwice, List.pairwise_append, List.pairwise_append]
  refine ⟨⟨?_, ?_, ?_⟩, ?_, ?_⟩
  · exact List.pairwise_map.mpr (pairwise_drain hrate hk)
  · exact List.pairwise_map.mpr (List.pairwise_replicate.mpr (.inr le_rfl))
  · intro r hr r' hr'
    rw [hother hr']
    exact hfirst hr
  · exact List.pairwise_map.mpr (pairwise_drain hrate hk)
  · intro r hr r' hr'
    obtain hr | hr := List.mem_append.mp hr
    · exact (hfirst hr).trans (hsecond hr')
    · exact (hother hr).le.trans (hsecond hr')

/-- A client without a bucket can drain a full one. -/
theorem allowedBetween_logOf_drain (hrl : rl.tokensPerSecond = rate)
    (hcapacity : rl.burstCapacity = burst) (hnone : rl.buckets clientIp = none) (hrate : 0 < rate)
    (hburst : 1 ≤ burst) (hk : k ≤ burst) (hk' : burst ≤ k + 1) {u v : ℚ} (hu : u ≤ t)
    (hv : t + (k + 1 - burst) / rate ≤ v) :
  allowedBetween u v
      (rl.logOf clientIp (requestsOf clientIp (drain rate burst k t)))
    = k + 1
  := by
  subst hrl hcapacity
  rw [logOf_requestsOf (agrees_full hrate.le hnone) (pairwise_drain hrate hk')
    (fun now hnow => (mem_drain hrate hk' hnow).1)]
  exact allowedBetween_log_drain hrate hburst hk hk' hu hv

/-- A client whose bucket is removed five minutes after it was drained can drain it twice. -/
theorem allowedBetween_drainTwice (hrate : 0 < rate) (hburst : 1 ≤ burst) (hk : k ≤ burst)
    (hk' : burst ≤ k + 1) (hne : clientIp ≠ other)
    (hst : kEvictAfter < t - (s + (k + 1 - burst) / rate)) :
  allowedBetween s (t + (k + 1 - burst) / rate)
      (logOf clientIp { tokensPerSecond := rate, burstCapacity := burst }
        (drainTwice rate burst k clientIp other s t))
    = 2 * (k + 1)
  := by
  let rl : RateLimiter := { tokensPerSecond := rate, burstCapacity := burst }
  let drained := rl.after (requestsOf clientIp (drain rate burst k s))
  have hcount : rl.requestCountSinceEvict < kEvictCheckInterval := Nat.zero_lt_succ 99
  have hpositive : (0 : ℚ) < kEvictAfter := by decide
  have hdrain : s ≤ s + (k + 1 - burst) / rate := le_drain hrate hk'
  have hstale : ∀ bucket, drained.buckets clientIp = some bucket →
      kEvictAfter < t - bucket.lastSeen := by
    intro bucket hbucket
    simp only [drained] at hbucket
    rw [drain, requestsOf, List.map_append, after_append, List.map_singleton, after,
      after, buckets_allow_self] at hbucket
    rw [← Option.some.inj hbucket, lastSeen_take, lastSeen_seen]
    exact hst
  have hremoved : (drained.after (requestsOf other
      (List.replicate kEvictCheckInterval t))).buckets clientIp = none := by
    apply buckets_after_replicate hne _ (Nat.le_add_left _ _) hstale
    exact requestCount_after_lt hcount _
  have hfirst : allowedBetween s (t + (k + 1 - burst) / rate)
      (rl.logOf clientIp (requestsOf clientIp (drain rate burst k s))) = k + 1
    := allowedBetween_logOf_drain rfl rfl rfl hrate hburst hk hk' le_rfl (by linarith)
  have hsecond : allowedBetween s (t + (k + 1 - burst) / rate)
      ((drained.after (requestsOf other (List.replicate kEvictCheckInterval t))).logOf clientIp
        (requestsOf clientIp (drain rate burst k t))) = k + 1
    := allowedBetween_logOf_drain (by simp [drained, rl]) (by simp [drained, rl]) hremoved hrate
      hburst hk hk' (by linarith) le_rfl
  rw [drainTwice, logOf_append, logOf_append, after_append,
    allowedBetween_append, allowedBetween_append,
    logOf_requestsOf_of_ne _ hne.symm, allowedBetween_nil, hfirst, hsecond]
  ring

/-- If a bucket is not full after five minutes, then the bound does not hold. -/
theorem exists_overrun (hrate : 0 < rate) (hburst : 1 ≤ burst)
    (hevict : kEvictAfter * rate < burst) :
  ∃ requests u v, Ordered requests ∧ u ≤ v
    ∧ burst + rate * (v - u) < allowedBetween u v
      (logOf "a" { tokensPerSecond := rate, burstCapacity := burst } requests)
  := by
  obtain ⟨k, hk, hk'⟩ : ∃ k : ℕ, (k : ℚ) ≤ burst ∧ burst ≤ k + 1
    := ⟨⌊burst⌋₊, Nat.floor_le (by linarith), (Nat.lt_floor_add_one burst).le⟩
  let d := (k + 1 - burst) / rate
  -- the bucket is created anew before it would be full
  let t := d + kEvictAfter + (burst - kEvictAfter * rate) / (2 * rate)
  have hd : 0 ≤ d := div_nonneg (sub_nonneg.mpr hk') hrate.le
  have hrest : 0 < (burst - kEvictAfter * rate) / (2 * rate)
    := div_pos (sub_pos.mpr hevict) (by linarith)
  have hpositive : (0 : ℚ) < kEvictAfter := by decide
  refine ⟨drainTwice rate burst k "a" "b" 0 t, 0, t + d, ?_, ?_, ?_⟩
  · apply ordered_drainTwice hrate hk'
    change 0 + d ≤ t
    simp only [t]
    linarith
  · simp only [t]
    linarith
  · rw [allowedBetween_drainTwice hrate hburst hk hk' (by decide)]
    · have hflow : rate * d = k + 1 - burst := mul_div_cancel₀ _ hrate.ne'
      have hgap : rate * ((burst - kEvictAfter * rate) / (2 * rate))
          = (burst - kEvictAfter * rate) / 2 := by
        field_simp
      have htotal : burst + rate * (t + d - 0) = 2 * (k + 1) - (burst - kEvictAfter * rate) / 2
        := by
        simp only [t, sub_zero, mul_add, hflow, hgap]
        ring
      rw [htotal]
      push_cast
      linarith
    · change kEvictAfter < t - (0 + d)
      simp only [t]
      linarith

end Overrun

/-! ### The bound -/

theorem pairwise_timesOf (clientIp : String) (h : Ordered requests) :
  (timesOf clientIp requests).Pairwise (· ≤ ·)
  := List.pairwise_map.mpr (h.sublist List.filter_sublist)

/-- For a client, the bound holds in every window, and the answers are those of a bucket that is
created full at the first request and never removed. -/
structure Faithful (rate burst : ℚ) (requests : List Request) (clientIp : String) : Prop where
  bound : ∀ u v, u ≤ v →
    (allowedBetween u v
      (logOf clientIp { tokensPerSecond := rate, burstCapacity := burst } requests) : ℚ)
        ≤ burst + rate * (v - u)
  unseen : logOf clientIp { tokensPerSecond := rate, burstCapacity := burst } requests
    = logOfFull rate burst (timesOf clientIp requests)

theorem faithful_of_le {rate burst : ℚ} (hrate : 0 ≤ rate) (hburst : 0 ≤ burst)
    (hevict : burst ≤ kEvictAfter * rate) (hordered : Ordered requests) (clientIp : String) :
  Faithful rate burst requests clientIp
  := by
  cases requests with
  | nil =>
    refine ⟨fun u v huv => ?_, rfl⟩
    rw [logOf, allowedBetween_nil, Nat.cast_zero]
    exact add_nonneg hburst (mul_nonneg hrate (sub_nonneg.mpr huv))
  | cons r requests =>
    have hfirst : ∀ r' ∈ r :: requests, r.now ≤ r'.now
      := List.forall_mem_cons.mpr ⟨le_rfl, (List.pairwise_cons.mp hordered).1⟩
    have hlog : logOf clientIp { tokensPerSecond := rate, burstCapacity := burst } (r :: requests)
        = log rate burst ⟨burst, r.now⟩ (timesOf clientIp (r :: requests)) := by
      have hsound : Sound { tokensPerSecond := rate, burstCapacity := burst } r.now := nofun
      exact logOf_eq_log hrate hburst hevict hsound (agrees_full hrate rfl) hordered hfirst
    have htimes : ∀ now ∈ timesOf clientIp (r :: requests), r.now ≤ now := by
      intro now hnow
      obtain ⟨r', hr', rfl⟩ := List.mem_map.mp hnow
      exact hfirst r' (List.mem_of_mem_filter hr')
    constructor
    · intro u v huv
      rw [hlog]
      exact allowedBetween_log_le hrate hburst hburst
        (pairwise_timesOf clientIp hordered) htimes huv
    · rw [hlog, log_full hrate htimes]

/-- For every rate and capacity, the bound holds for all clients, requests and windows, and removing
a bucket is never visible, exactly if a bucket is full after five minutes without requests. -/
theorem faithful_iff (rate burst : ℚ) (hrate : 0 < rate) (hburst : 1 ≤ burst) :
  (∀ requests, Ordered requests → ∀ clientIp, Faithful rate burst requests clientIp)
    ↔ burst ≤ kEvictAfter * rate
  := by
  constructor
  · intro h
    by_contra hevict
    obtain ⟨requests, u, v, hordered, huv, hover⟩ := exists_overrun hrate hburst (not_le.mp hevict)
    exact absurd ((h requests hordered "a").bound u v huv) (not_le.mpr hover)
  · intro hevict requests hordered clientIp
    exact faithful_of_le hrate.le (by linarith) hevict hordered clientIp

/-- The defaults of the server. -/
theorem faithful_iff_defaults :
  (∀ requests, Ordered requests → ∀ clientIp, Faithful 60 120 requests clientIp)
    ↔ (120 : ℚ) ≤ kEvictAfter * 60
  := faithful_iff 60 120 (by norm_num) (by norm_num)

/-- One token in ten minutes and a capacity of one: a client that comes back when its bucket has
been removed is allowed twice in about five minutes. -/
theorem not_faithful_removedBucket :
  Ordered (requestsOf "a" [0] ++ requestsOf "b" (List.replicate 100 301) ++ requestsOf "a" [301])
    ∧ ¬ Faithful (1 / 600) 1
      (requestsOf "a" [0] ++ requestsOf "b" (List.replicate 100 301) ++ requestsOf "a" [301]) "a"
  := by
  have hrequests : requestsOf "a" [0] ++ requestsOf "b" (List.replicate 100 301)
        ++ requestsOf "a" [301]
      = drainTwice (1 / 600) 1 0 "a" "b" 0 301 := by
    simp [drainTwice, drain, kEvictCheckInterval]
  rw [hrequests]
  constructor
  · apply ordered_drainTwice <;> norm_num
  · intro h
    have hbound := h.bound 0 301 (by norm_num)
    have hallowed : allowedBetween 0 (301 + ((0 : ℕ) + 1 - 1) / (1 / 600) : ℚ)
        (logOf "a" { tokensPerSecond := 1 / 600, burstCapacity := 1 }
          (drainTwice (1 / 600) 1 0 "a" "b" 0 301)) = 2 * (0 + 1)
      := allowedBetween_drainTwice (by norm_num) le_rfl (by norm_num) (by norm_num) (by decide)
        (by norm_num [kEvictAfter])
    norm_num at hallowed
    rw [hallowed] at hbound
    norm_num at hbound

end RateLimiter

end Server

end Agamemnon
