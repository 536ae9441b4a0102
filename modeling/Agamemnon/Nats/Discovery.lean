import Agamemnon.Json.Value
import Agamemnon.Lib.Machine
import Mathlib.Data.Fintype.Basic

/-!
# Peer discovery

`discover_nats_url` probes the peers whose hostname matches a pattern.  Its workers share an index
into these peers, a flag and the result, and the call waits for the flag or the deadline and then
for all workers.  An action is one atomic step of a worker or of the calling thread, with what it
reads from the clock and the outcome of a probe.

The fields `probed`, `succeeded` and `writers` of a search record what has happened.
-/

namespace Agamemnon

namespace Nats

/-! ### The peers -/

structure PeerCandidate where
  tailscaleIp : String
  hostname : String

/-- `DiscoveryOptions`; the times are in milliseconds. -/
structure DiscoveryOptions where
  totalBudget : ℤ := 2000
  perProbeTimeoutMs : ℤ := 500
  maxWorkers : ℕ := 8

/-- `matches_hostname_pattern`, where `regexMatch` is `std::regex_match`, or none if there is an
error in the expression. -/
def matchesHostnamePattern (regexMatch : String → String → Option Bool)
    (hostname pattern : String) : Bool :=
  if pattern = "" then true
  else if hostname = "" then false
  else
    let substring := decide (pattern.toList <:+: hostname.toList)
    if '^' ∈ pattern.toList ∨ ['.', '*'] <:+: pattern.toList then
      (regexMatch pattern hostname).getD substring
    else substring

/-- What a call of `discover_nats_url` works with.  The deadline is in nanoseconds. -/
structure Discovery where
  matched : List PeerCandidate
  natsPort : ℤ
  deadline : ℤ
  perProbeTimeoutMs : ℤ

namespace Discovery

/-- The peers that match are probed until the budget is used up. -/
def ofPeers (regexMatch : String → String → Option Bool) (peers : List PeerCandidate)
    (hostnamePattern : String) (natsPort : ℤ) (opts : DiscoveryOptions) (now : ℤ) : Discovery where
  matched := peers.filter fun p => matchesHostnamePattern regexMatch p.hostname hostnamePattern
  natsPort
  deadline := now + opts.totalBudget * 1000000
  perProbeTimeoutMs := opts.perProbeTimeoutMs

/-- The number of workers. -/
def workerCount (d : Discovery) (opts : DiscoveryOptions) : ℕ :=
  min d.matched.length (max 1 (min opts.maxWorkers 32))

/-- `remaining_ms`. -/
def remainingMs (d : Discovery) (now : ℤ) : ℤ :=
  let left := (d.deadline - now).tdiv 1000000
  if 0 < left then Json.wrapInt left else 0

/-- The result if the peer at a position wins. -/
def url (d : Discovery) (i : ℕ) : String :=
  match d.matched[i]? with
  | some peer => "nats://" ++ peer.tailscaleIp ++ ":" ++ toString d.natsPort
  | none => ""

end Discovery

/-! ### The threads -/

/-- Where a worker is. -/
inductive WorkerPlace where
  | unborn
  /-- at the condition of the loop -/
  | looping
  /-- before it takes an index -/
  | taking
  /-- with the index of a peer, before it reads the clock -/
  | taken (i : ℕ)
  | probing (i : ℕ) (timeout : ℤ)
  /-- after a probe that succeeded, before it sets the flag -/
  | claiming (i : ℕ)
  /-- having set the flag, before it locks the mutex -/
  | locking (i : ℕ)
  | writing (i : ℕ)
  | unlocking
  | notifying
  | returned
  deriving DecidableEq

/-- Where the calling thread is. -/
inductive CallerPlace where
  /-- with so many workers started -/
  | starting (w : ℕ)
  | locking
  /-- with the mutex locked, at the condition for which it waits -/
  | checking (expired : Bool)
  | sleeping
  | joining (w : ℕ)
  /-- before it reads the result -/
  | collecting
  | returned (url : String)
  deriving DecidableEq

/-- A call in progress with `n` workers. -/
structure Search (n : ℕ) where
  caller : CallerPlace
  place : Fin n → WorkerPlace
  locked : Bool
  found : Bool
  winningUrl : String
  nextIdx : ℕ
  /-- the positions of the peers whose probe has begun -/
  probed : List ℕ
  /-- the positions of the peers whose probe has succeeded -/
  succeeded : List ℕ
  /-- the workers that have written the result -/
  writers : List (Fin n)

/-- One step of a thread. -/
inductive SearchAction (n : ℕ) where
  | caller (now : ℤ)
  | worker (w : Fin n) (now : ℤ) (succeeds : Bool)

namespace Search

variable {n : ℕ} (d : Discovery)

/-- The search when the peers have been filtered.  Without any the call returns. -/
def initial : Search n where
  caller := if d.matched = [] then .returned "" else .starting 0
  place := fun _ => .unborn
  locked := false
  found := false
  winningUrl := ""
  nextIdx := 0
  probed := []
  succeeded := []
  writers := []

def goto (s : Search n) (w : Fin n) (place : WorkerPlace) : Search n :=
  { s with place := Function.update s.place w place }

/-- A step of a worker. -/
def stepWorker (s : Search n) (w : Fin n) (now : ℤ) (succeeds : Bool) : Option (Search n) :=
  match s.place w with
  | .unborn => none
  | .looping => some (s.goto w (if s.found = true then .returned else .taking))
  | .taking =>
      some { s.goto w (if s.nextIdx < d.matched.length then .taken s.nextIdx else .returned) with
        nextIdx := s.nextIdx + 1 }
  | .taken i =>
      if d.remainingMs now = 0 then some (s.goto w .returned)
      else
        some { s.goto w (.probing i (min d.perProbeTimeoutMs (d.remainingMs now))) with
          probed := i :: s.probed }
  | .probing i _ =>
      if succeeds = true then some { s.goto w (.claiming i) with succeeded := i :: s.succeeded }
      else some (s.goto w .looping)
  | .claiming i =>
      if s.found = true then some (s.goto w .returned)
      else some { s.goto w (.locking i) with found := true }
  | .locking i =>
      if s.locked = true then none else some { s.goto w (.writing i) with locked := true }
  | .writing i => some { s.goto w .unlocking with winningUrl := d.url i, writers := w :: s.writers }
  | .unlocking => some { s.goto w .notifying with locked := false }
  | .notifying => some (s.goto w .returned)
  | .returned => none

/-- A step of the calling thread.  A thread that sleeps may wake up at any time, and sees whether
the deadline has passed. -/
def stepCaller (s : Search n) (now : ℤ) : Option (Search n) :=
  match s.caller with
  | .starting w =>
      if h : w < n then some { s.goto ⟨w, h⟩ .looping with caller := .starting (w + 1) }
      else some { s with caller := .locking }
  | .locking =>
      if s.locked = true then none else some { s with caller := .checking false, locked := true }
  | .checking expired =>
      some { s with
        caller := if s.found = true ∨ expired = true then .joining 0 else .sleeping
        locked := false }
  | .sleeping =>
      if s.locked = true then none
      else some { s with caller := .checking (d.deadline ≤ now), locked := true }
  | .joining w =>
      if h : w < n then
        if s.place ⟨w, h⟩ = .returned then some { s with caller := .joining (w + 1) } else none
      else some { s with caller := .collecting }
  | .collecting =>
      if s.locked = true then none else some { s with caller := .returned s.winningUrl }
  | .returned _ => none

def act (s : Search n) : SearchAction n → Option (Search n)
  | .caller now => s.stepCaller d now
  | .worker w now succeeds => s.stepWorker d w now succeeds

end Search

/-! ### What a step can do -/

namespace WorkerPlace

/-- A worker that goes on, or is done. -/
def isIdle : WorkerPlace → Bool
  | looping | taking | returned => true
  | _ => false

/-- A worker that has not been started, or is done. -/
def isGone : WorkerPlace → Bool
  | unborn | returned => true
  | _ => false

/-- A worker that has locked the mutex. -/
def holds : WorkerPlace → Bool
  | writing _ | unlocking => true
  | _ => false

/-- The position of the peer whose worker has set the flag and has not written the result. -/
def won : WorkerPlace → Option ℕ
  | locking i => some i
  | writing i => some i
  | _ => none

end WorkerPlace

open WorkerPlace

namespace CallerPlace

/-- The worker has not been started yet. -/
def awaits (w : ℕ) : CallerPlace → Bool
  | starting k => k ≤ w
  | _ => false

/-- The worker has been joined. -/
def joined (w : ℕ) : CallerPlace → Bool
  | joining k => w < k
  | collecting | returned _ => true
  | _ => false

end CallerPlace

namespace Search

variable {n : ℕ} {d : Discovery} {s s' : Search n} {a : SearchAction n} {v w : Fin n}

/-- What a step of the worker `w` can do. -/
inductive WorkerStep (d : Discovery) (s : Search n) (w : Fin n) : Search n → Prop
  | drop {p : WorkerPlace} (idle : p.isIdle = true) (free : (s.place w).won = none)
      (released : (s.place w).holds = false)
      (lost : ∀ i, s.place w = .claiming i → s.found = true) : WorkerStep d s w (s.goto w p)
  | take (place : s.place w = .taking) (below : s.nextIdx < d.matched.length) :
      WorkerStep d s w { s.goto w (.taken s.nextIdx) with nextIdx := s.nextIdx + 1 }
  | pass (place : s.place w = .taking) :
      WorkerStep d s w { s.goto w .returned with nextIdx := s.nextIdx + 1 }
  | probe {i : ℕ} {timeout : ℤ} (place : s.place w = .taken i) :
      WorkerStep d s w { s.goto w (.probing i timeout) with probed := i :: s.probed }
  | succeed {i : ℕ} {timeout : ℤ} (place : s.place w = .probing i timeout) :
      WorkerStep d s w { s.goto w (.claiming i) with succeeded := i :: s.succeeded }
  | win {i : ℕ} (place : s.place w = .claiming i) (open' : s.found = false) :
      WorkerStep d s w { s.goto w (.locking i) with found := true }
  | lock {i : ℕ} (place : s.place w = .locking i) (free : s.locked = false) :
      WorkerStep d s w { s.goto w (.writing i) with locked := true }
  | write {i : ℕ} (place : s.place w = .writing i) :
      WorkerStep d s w
        { s.goto w .unlocking with winningUrl := d.url i, writers := w :: s.writers }
  | unlock (place : s.place w = .unlocking) :
      WorkerStep d s w { s.goto w .notifying with locked := false }

variable {succeeds : Bool} {now : ℤ}

theorem workerStep_of_stepWorker (h : s.stepWorker d w now succeeds = some s') :
  WorkerStep d s w s'
  := by
  cases hplace : s.place w with
  | unborn | returned => simp [stepWorker, hplace] at h
  | looping =>
    rw [stepWorker, hplace] at h
    cases h
    apply WorkerStep.drop
    · split_ifs <;> rfl
    · simp [hplace, won]
    · simp [hplace, holds]
    · simp [hplace]
  | taking =>
    rw [stepWorker, hplace] at h
    cases h
    split_ifs with hbelow
    · exact .take hplace hbelow
    · exact .pass hplace
  | taken i =>
    simp only [stepWorker, hplace] at h
    split_ifs at h
    · cases h
      apply WorkerStep.drop <;>
        simp [hplace, isIdle, won, holds]
    · cases h
      exact .probe hplace
  | probing i timeout =>
    simp only [stepWorker, hplace] at h
    split_ifs at h
    · cases h
      exact .succeed hplace
    · cases h
      apply WorkerStep.drop <;>
        simp [hplace, isIdle, won, holds]
  | claiming i =>
    simp only [stepWorker, hplace] at h
    split_ifs at h with hfound
    · cases h
      apply WorkerStep.drop <;>
        simp [hplace, hfound, isIdle, won, holds]
    · cases h
      exact .win hplace (Bool.eq_false_iff.mpr hfound)
  | locking i =>
    simp only [stepWorker, hplace] at h
    split_ifs at h with hlocked
    cases h
    exact .lock hplace (Bool.eq_false_iff.mpr hlocked)
  | writing i =>
    rw [stepWorker, hplace] at h
    cases h
    exact .write hplace
  | unlocking =>
    rw [stepWorker, hplace] at h
    cases h
    exact .unlock hplace
  | notifying =>
    rw [stepWorker, hplace] at h
    cases h
    apply WorkerStep.drop <;>
      simp [hplace, isIdle, won, holds]

variable {p q : WorkerPlace}

theorem place_goto_eq :
  (s.goto w p).place v = q ↔ v = w ∧ p = q ∨ v ≠ w ∧ s.place v = q
  := by
  by_cases h : v = w
  · simp [goto, h]
  · simp [goto, h]

theorem WorkerStep.place_of_ne (h : WorkerStep d s w s') (hv : v ≠ w) :
  s'.place v = s.place v
  := by
  cases h <;> simp [goto, hv]

theorem WorkerStep.caller (h : WorkerStep d s w s') :
  s'.caller = s.caller
  := by
  cases h <;> rfl

/-- A worker that moves has been started and is not done. -/
theorem stepWorker_of_isGone (h : (s.place w).isGone = true) :
  s.stepWorker d w now succeeds = none
  := by
  rw [stepWorker]
  cases hplace : s.place w with
  | unborn => rfl
  | returned => rfl
  | _ =>
    rw [hplace] at h
    cases h

/-- What a step of the calling thread can do to the workers and the result. -/
inductive CallerStep (d : Discovery) (s : Search n) : Search n → Prop
  | start {k : ℕ} (caller : s.caller = .starting k) (below : k < n) :
      CallerStep d s { s.goto ⟨k, below⟩ .looping with caller := .starting (k + 1) }
  | wait {c : CallerPlace} {locked : Bool} : CallerStep d s { s with caller := c, locked }

theorem callerStep_of_stepCaller (h : s.stepCaller d now = some s') :
  CallerStep d s s'
  := by
  cases hcaller : s.caller with
  | starting k =>
    simp only [stepCaller, hcaller] at h
    split_ifs at h with hbelow
    · cases h
      exact .start hcaller hbelow
    · cases h
      exact .wait
  | checking expired =>
    rw [stepCaller, hcaller] at h
    cases h
    exact .wait
  | returned url => simp [stepCaller, hcaller] at h
  | _ =>
    simp only [stepCaller, hcaller] at h
    split_ifs at h <;> cases h <;> exact .wait

/-! ### The calling thread -/

/-- A worker is started when its turn comes, and done when it is joined, and the call returns what
has been written. -/
structure Staged (s : Search n) : Prop where
  awaits : ∀ w : Fin n, s.caller.awaits w = true → s.place w = .unborn
  joined : ∀ w : Fin n, s.caller.joined w = true → (s.place w).isGone = true
  result : ∀ url, s.caller = .returned url → url = s.winningUrl

theorem Staged.stepWorker (h : s.Staged) (hstep : s.stepWorker d w now succeeds = some s') :
  s'.Staged
  := by
  have hgone : (s.place w).isGone = false := by
    rw [Bool.eq_false_iff]
    intro hgone
    cases (stepWorker_of_isGone hgone).symm.trans hstep
  have hchange := workerStep_of_stepWorker hstep
  constructor
  · intro v hv
    rw [hchange.caller] at hv
    have hunborn := h.awaits v hv
    rw [hchange.place_of_ne, hunborn]
    rintro rfl
    rw [hunborn] at hgone
    cases hgone
  · intro v hv
    rw [hchange.caller] at hv
    have hdone := h.joined v hv
    rw [hchange.place_of_ne, hdone]
    rintro rfl
    cases hgone.symm.trans hdone
  · intro url hurl
    rw [hchange.caller] at hurl
    have hdone := h.joined w (by rw [hurl]; rfl)
    cases hgone.symm.trans hdone

/-- Between the start of the last worker and the first join nothing is asked of the workers. -/
theorem staged_of_idle (hawaits : ∀ w, s.caller.awaits w = false)
    (hjoined : ∀ w, s.caller.joined w = false) :
  s.Staged
  where
  awaits := by
    intro w hw
    cases (hawaits w).symm.trans hw
  joined := by
    intro w hw
    cases (hjoined w).symm.trans hw
  result := by
    intro url hurl
    have := hjoined 0
    rw [hurl] at this
    cases this

theorem Staged.stepCaller (h : s.Staged) (hstep : s.stepCaller d now = some s') :
  s'.Staged
  := by
  cases hcaller : s.caller with
  | starting k =>
    simp only [Search.stepCaller, hcaller] at hstep
    split_ifs at hstep with hbelow
    · cases hstep
      constructor
      · intro w hw
        have hkw : k + 1 ≤ w := of_decide_eq_true hw
        have hne : w ≠ ⟨k, hbelow⟩ := by
          rintro rfl
          exact absurd hkw (Nat.not_succ_le_self k)
        rw [place_goto_eq]
        refine .inr ⟨hne, h.awaits w ?_⟩
        rw [hcaller]
        exact decide_eq_true (Nat.le_of_succ_le hkw)
      · nofun
      · nofun
    · cases hstep
      exact staged_of_idle (fun _ => rfl) (fun _ => rfl)
  | locking | sleeping =>
    simp only [Search.stepCaller, hcaller] at hstep
    split_ifs at hstep
    cases hstep
    exact staged_of_idle (fun _ => rfl) (fun _ => rfl)
  | checking expired =>
    rw [Search.stepCaller, hcaller] at hstep
    cases hstep
    apply staged_of_idle
    · intro w
      simp only
      split_ifs <;> rfl
    · intro w
      simp only
      split_ifs
      · exact decide_eq_false (Nat.not_lt_zero w)
      · rfl
  | joining k =>
    have hjoined : ∀ w : Fin n, w < k → (s.place w).isGone = true := by
      intro w hw
      apply h.joined
      rw [hcaller]
      exact decide_eq_true hw
    simp only [Search.stepCaller, hcaller] at hstep
    split_ifs at hstep with hbelow hreturned
    · cases hstep
      refine ⟨nofun, ?_, nofun⟩
      intro w hw
      rcases Nat.lt_succ_iff_lt_or_eq.mp (of_decide_eq_true hw) with hlt | heq
      · exact hjoined w hlt
      · have hw' : w = ⟨k, hbelow⟩ := Fin.ext heq
        rw [hw']
        change (s.place _).isGone = true
        rw [hreturned]
        rfl
    · cases hstep
      refine ⟨nofun, ?_, nofun⟩
      intro w _
      exact hjoined w (w.isLt.trans_le (not_lt.mp hbelow))
  | collecting =>
    simp only [Search.stepCaller, hcaller] at hstep
    split_ifs at hstep
    cases hstep
    refine ⟨nofun, ?_, ?_⟩
    · intro w _
      apply h.joined
      rw [hcaller]
      rfl
    · intro url hurl
      cases hurl
      rfl
  | returned url => simp [Search.stepCaller, hcaller] at hstep

theorem Staged.act (h : s.Staged) (hact : s.act d a = some s') :
  s'.Staged
  := by
  cases a with
  | worker w now succeeds => exact h.stepWorker hact
  | caller now => exact h.stepCaller hact

theorem Staged.place_of_starting (h : s.Staged) {k : ℕ} (hcaller : s.caller = .starting k)
    (hbelow : k < n) :
  s.place ⟨k, hbelow⟩ = .unborn
  := by
  apply h.awaits
  rw [hcaller]
  exact decide_eq_true le_rfl

/-! ### Every peer is probed at most once -/

/-- The positions are taken one after the other, and a position that has been taken is probed by
the worker that took it. -/
structure Indexed (d : Discovery) (s : Search n) : Prop where
  once : s.probed.Nodup
  below : ∀ i ∈ s.probed, i < s.nextIdx ∧ i < d.matched.length
  taken : ∀ w i, s.place w = .taken i → i ∉ s.probed ∧ i < s.nextIdx ∧ i < d.matched.length
  apart : ∀ v w i, s.place v = .taken i → s.place w = .taken i → v = w

/-- Steps that take no position and begin no probe. -/
theorem Indexed.of_move (h : s.Indexed d) (s' : Search n) (hprobed : s'.probed = s.probed)
    (hnext : s.nextIdx ≤ s'.nextIdx)
    (hplace : ∀ v i, s'.place v = .taken i → s.place v = .taken i) :
  s'.Indexed d
  where
  once := hprobed ▸ h.once
  below := by
    intro i hi
    have := h.below i (hprobed ▸ hi)
    omega
  taken := by
    intro w i hi
    obtain ⟨hnew, hbelow⟩ := h.taken w i (hplace w i hi)
    rw [hprobed]
    exact ⟨hnew, by omega⟩
  apart := fun v w i hv hw => h.apart v w i (hplace v i hv) (hplace w i hw)

variable {i : ℕ}

theorem taken_of_goto (hp : ∀ i, p ≠ .taken i) (h : (s.goto w p).place v = .taken i) :
  s.place v = .taken i
  := by
  rcases place_goto_eq.mp h with ⟨-, hpi⟩ | ⟨-, hplace⟩
  · cases hp i hpi
  · exact hplace

theorem Indexed.workerStep (h : s.Indexed d) (hstep : WorkerStep d s w s') :
  s'.Indexed d
  := by
  cases hstep with
  | @drop p idle free released lost =>
    apply h.of_move (s.goto w p) rfl le_rfl
    intro v i
    apply taken_of_goto
    rintro i rfl
    cases idle
  | take place hlt =>
    -- nobody has taken or probed a position that is not below the index
    constructor
    · exact h.once
    · intro i hi
      obtain ⟨hindex, hbelow⟩ := h.below i hi
      exact ⟨Nat.lt_succ_of_lt hindex, hbelow⟩
    · intro v i hv
      rcases place_goto_eq.mp hv with ⟨-, hi⟩ | ⟨-, hv'⟩
      · cases hi
        refine ⟨fun hmem => ?_, Nat.lt_succ_self _, hlt⟩
        exact absurd (h.below _ hmem).1 (lt_irrefl _)
      · obtain ⟨hnew, hindex, hbelow⟩ := h.taken v i hv'
        exact ⟨hnew, Nat.lt_succ_of_lt hindex, hbelow⟩
    · intro u v i hu hv
      rcases place_goto_eq.mp hu with ⟨hu', hi⟩ | ⟨-, hu'⟩
      · cases hi
        rcases place_goto_eq.mp hv with ⟨hv', -⟩ | ⟨-, hv'⟩
        · exact hu'.trans hv'.symm
        · exact absurd (h.taken v _ hv').2.1 (lt_irrefl _)
      · rcases place_goto_eq.mp hv with ⟨-, hi⟩ | ⟨-, hv'⟩
        · cases hi
          exact absurd (h.taken u _ hu').2.1 (lt_irrefl _)
        · exact h.apart u v i hu' hv'
  | @probe i timeout place =>
    obtain ⟨hnew, hindex, hbelow⟩ := h.taken w i place
    constructor
    · exact List.nodup_cons.mpr ⟨hnew, h.once⟩
    · intro j hj
      rcases List.mem_cons.mp hj with rfl | hj
      · exact ⟨hindex, hbelow⟩
      · exact h.below j hj
    · intro v j hv
      rcases place_goto_eq.mp hv with ⟨-, hj⟩ | ⟨hne, hv'⟩
      · cases hj
      · obtain ⟨hold, hrest⟩ := h.taken v j hv'
        refine ⟨fun hmem => ?_, hrest⟩
        rcases List.mem_cons.mp hmem with rfl | hmem
        · exact hne (h.apart v w _ hv' place)
        · exact hold hmem
    · intro u v j hu hv
      exact h.apart u v j (taken_of_goto (by simp) hu) (taken_of_goto (by simp) hv)
  | pass place =>
    exact h.of_move _ rfl (Nat.le_succ _) fun v i hv => taken_of_goto (by simp) hv
  | succeed place | win place | lock place | write place | unlock place =>
    exact h.of_move _ rfl le_rfl fun v i hv => taken_of_goto (by simp) hv

theorem Indexed.act (h : s.Indexed d) (hact : s.act d a = some s') :
  s'.Indexed d
  := by
  cases a with
  | worker w now succeeds => exact h.workerStep (workerStep_of_stepWorker hact)
  | caller now =>
    cases callerStep_of_stepCaller hact with
    | start caller below =>
      exact h.of_move _ rfl le_rfl fun v i hv => taken_of_goto (by simp) hv
    | wait => exact h.of_move _ rfl le_rfl fun v i hv => hv

/-! ### A probe that succeeds is claimed -/

/-- A peer whose worker sets the flag has been probed, and while some probe has succeeded, the flag
is set or about to be. -/
structure Proven (s : Search n) : Prop where
  probing : ∀ w i timeout, s.place w = .probing i timeout → i ∈ s.probed
  claiming : ∀ w i, s.place w = .claiming i → i ∈ s.succeeded
  probed : ∀ i ∈ s.succeeded, i ∈ s.probed
  claimed : s.succeeded ≠ [] → s.found = true ∨ ∃ w i, s.place w = .claiming i

/-- A worker moves, but not to a claim. -/
theorem Proven.goto (h : s.Proven) (s' : Search n) (hplace : s'.place = (s.goto w p).place)
    (hprobed : s.probed ⊆ s'.probed) (hsucceeded : s'.succeeded = s.succeeded)
    (hfound : s.found = true → s'.found = true)
    (hprobing : ∀ i timeout, p = .probing i timeout → i ∈ s'.probed)
    (hclaiming : ∀ i, p ≠ .claiming i) (hclaimed : ∀ i, s.place w = .claiming i → s'.found = true) :
  s'.Proven
  where
  probing := by
    intro v i timeout hv
    rw [hplace] at hv
    rcases place_goto_eq.mp hv with ⟨-, hp⟩ | ⟨-, hv'⟩
    · exact hprobing i timeout hp
    · exact hprobed (h.probing v i timeout hv')
  claiming := by
    intro v i hv
    rw [hplace] at hv
    rcases place_goto_eq.mp hv with ⟨-, hp⟩ | ⟨-, hv'⟩
    · cases hclaiming i hp
    · exact hsucceeded ▸ h.claiming v i hv'
  probed := by
    intro i hi
    rw [hsucceeded] at hi
    exact hprobed (h.probed i hi)
  claimed := by
    intro hne
    rw [hsucceeded] at hne
    rcases h.claimed hne with hset | ⟨v, i, hv⟩
    · exact .inl (hfound hset)
    · by_cases hvw : v = w
      · exact .inl (hclaimed i (hvw ▸ hv))
      · exact .inr ⟨v, i, hplace ▸ place_goto_eq.mpr (.inr ⟨hvw, hv⟩)⟩

theorem Proven.workerStep (h : s.Proven) (hstep : WorkerStep d s w s') :
  s'.Proven
  := by
  cases hstep with
  | @drop p idle free released lost =>
    apply h.goto (s.goto w p) rfl (List.Subset.refl _) rfl id
    · rintro i timeout rfl
      cases idle
    · rintro i rfl
      cases idle
    · exact lost
  | take place below | pass place | lock place free | write place | unlock place =>
    refine h.goto _ rfl (List.Subset.refl _) rfl id ?_ ?_ ?_ <;> simp [place]
  | probe place =>
    refine h.goto _ rfl (List.subset_cons_self _ _) rfl id ?_ ?_ ?_ <;> simp [place]
  | @succeed i timeout place =>
    constructor
    · intro v j timeout' hv
      rcases place_goto_eq.mp hv with ⟨-, hp⟩ | ⟨-, hv'⟩
      · cases hp
      · exact h.probing v j timeout' hv'
    · intro v j hv
      rcases place_goto_eq.mp hv with ⟨-, hp⟩ | ⟨-, hv'⟩
      · cases hp
        exact List.mem_cons_self
      · exact List.mem_cons_of_mem i (h.claiming v j hv')
    · intro j hj
      rcases List.mem_cons.mp hj with rfl | hj
      · exact h.probing w _ timeout place
      · exact h.probed j hj
    · intro _
      exact .inr ⟨w, i, place_goto_eq.mpr (.inl ⟨rfl, rfl⟩)⟩
  | win place free =>
    refine h.goto _ rfl (List.Subset.refl _) rfl (fun _ => rfl) ?_ ?_ ?_ <;> simp

theorem Proven.act (h : s.Proven) (hstaged : s.Staged) (hact : s.act d a = some s') :
  s'.Proven
  := by
  cases a with
  | worker w now succeeds => exact h.workerStep (workerStep_of_stepWorker hact)
  | caller now =>
    cases callerStep_of_stepCaller hact with
    | start caller below =>
      have hunborn := hstaged.place_of_starting caller below
      refine h.goto _ rfl (List.Subset.refl _) rfl id ?_ ?_ ?_ <;> simp [hunborn]
    | wait => exact ⟨h.probing, h.claiming, h.probed, h.claimed⟩

/-! ### One worker writes the result -/

/-- How far the contest for the result is: the flag is not set; a worker has set it and has not
written the result; the result has been written. -/
inductive Contest (d : Discovery) (s : Search n) : Prop
  | undecided (found : s.found = false) (won : ∀ v, (s.place v).won = none)
      (writers : s.writers = []) (url : s.winningUrl = "")
  | decided {w : Fin n} {i : ℕ} (found : s.found = true) (winner : (s.place w).won = some i)
      (others : ∀ v, v ≠ w → (s.place v).won = none) (writers : s.writers = [])
      (url : s.winningUrl = "") (proven : i ∈ s.succeeded)
  | written {w : Fin n} {i : ℕ} (found : s.found = true) (won : ∀ v, (s.place v).won = none)
      (writers : s.writers = [w]) (url : s.winningUrl = d.url i) (proven : i ∈ s.succeeded)

/-- Steps that leave the flag, the result and the winner. -/
theorem Contest.of_move (h : s.Contest d) (s' : Search n) (hfound : s'.found = s.found)
    (hwon : ∀ v, (s'.place v).won = (s.place v).won) (hwriters : s'.writers = s.writers)
    (hurl : s'.winningUrl = s.winningUrl) (hsucceeded : s.succeeded ⊆ s'.succeeded) :
  s'.Contest d
  := by
  cases h with
  | undecided found won writers url =>
    refine .undecided (hfound.trans found) ?_ (hwriters.trans writers) (hurl.trans url)
    exact fun v => (hwon v).trans (won v)
  | @decided w i found winner others writers url proven =>
    refine .decided (hfound.trans found) ((hwon w).trans winner) ?_ (hwriters.trans writers)
      (hurl.trans url) (hsucceeded proven)
    exact fun v hv => (hwon v).trans (others v hv)
  | written found won writers url proven =>
    refine .written (hfound.trans found) ?_ (hwriters.trans writers) (hurl.trans url)
      (hsucceeded proven)
    exact fun v => (hwon v).trans (won v)

/-- A worker that does not win by its move. -/
theorem won_goto (hplace : s.place w = q) (h : p.won = q.won) (v : Fin n) :
  ((s.goto w p).place v).won = (s.place v).won
  := by
  by_cases hv : v = w
  · subst hv
    simpa [Search.goto, hplace] using h
  · simp [Search.goto, hv]

theorem Contest.workerStep (h : s.Contest d) (hproven : s.Proven) (hstep : WorkerStep d s w s') :
  s'.Contest d
  := by
  cases hstep with
  | @drop p idle free released lost =>
    refine h.of_move _ rfl (won_goto rfl ?_) rfl rfl (List.Subset.refl _)
    rw [free]
    revert idle
    cases p <;> simp [WorkerPlace.isIdle, WorkerPlace.won]
  | take place below | pass place | probe place | lock place free | unlock place =>
    exact h.of_move _ rfl (won_goto place rfl) rfl rfl (List.Subset.refl _)
  | succeed place =>
    exact h.of_move _ rfl (won_goto place rfl) rfl rfl (List.subset_cons_self _ _)
  | @win i place free =>
    -- the flag was not set, so this worker is the first
    cases h with
    | undecided found won writers url =>
      refine .decided (w := w) (i := i) rfl ?_ ?_ writers url (hproven.claiming w i place)
      · simp [Search.goto, WorkerPlace.won]
      · intro v hv
        simpa [Search.goto, hv] using won v
    | decided found | written found =>
      cases free.symm.trans found
  | @write i place =>
    have hwon : (s.place w).won = some i := by rw [place]; rfl
    cases h with
    | undecided found won | written found won =>
      cases (won w).symm.trans hwon
    | @decided v j found winner others writers url proven =>
      obtain rfl : w = v := by
        by_contra hne
        cases (others w hne).symm.trans hwon
      obtain rfl : i = j := Option.some.inj (hwon.symm.trans winner)
      refine .written (w := w) (i := i) found ?_ (congrArg (w :: ·) writers) rfl proven
      intro v
      by_cases hv : v = w
      · simp [Search.goto, hv, WorkerPlace.won]
      · simpa [Search.goto, hv] using others v hv

theorem Contest.act (h : s.Contest d) (hproven : s.Proven) (hstaged : s.Staged)
    (hact : s.act d a = some s') :
  s'.Contest d
  := by
  cases a with
  | worker w now succeeds => exact h.workerStep hproven (workerStep_of_stepWorker hact)
  | caller now =>
    cases callerStep_of_stepCaller hact with
    | start caller below =>
      have hunborn := hstaged.place_of_starting caller below
      exact h.of_move _ rfl (won_goto hunborn rfl) rfl rfl (List.Subset.refl _)
    | wait => exact h.of_move _ rfl (fun _ => rfl) rfl rfl (List.Subset.refl _)

/-! ### Every interleaving -/

/-- What holds in every state of a search. -/
structure Sound (d : Discovery) (s : Search n) : Prop where
  staged : s.Staged
  indexed : s.Indexed d
  proven : s.Proven
  contest : s.Contest d

theorem sound_initial (d : Discovery) :
  (initial d : Search n).Sound d
  where
  staged := by
    refine ⟨fun _ _ => rfl, fun _ _ => rfl, ?_⟩
    intro url hurl
    rw [initial] at hurl
    split_ifs at hurl
    cases hurl
    rfl
  indexed := ⟨List.nodup_nil, nofun, nofun, nofun⟩
  proven := ⟨nofun, nofun, nofun, fun h => absurd rfl h⟩
  contest := .undecided rfl (fun _ => rfl) rfl rfl

theorem Sound.act (h : s.Sound d) (hact : s.act d a = some s') :
  s'.Sound d
  where
  staged := h.staged.act hact
  indexed := h.indexed.act hact
  proven := h.proven.act h.staged hact
  contest := h.contest.act h.proven h.staged hact

theorem sound_of_run {actions : List (SearchAction n)}
    (hrun : Machine.run (act d) (initial d) actions = some s) :
  s.Sound d
  := Machine.run_invariant Sound.act (sound_initial d) hrun

theorem url_ne_empty (h : i < d.matched.length) :
  d.url i ≠ ""
  := by
  rw [Discovery.url, List.getElem?_eq_getElem h]
  intro hempty
  have hlength := congrArg String.length hempty
  simp only [String.length_append] at hlength
  have hscheme : "nats://".length = 7 := rfl
  have hnone : "".length = 0 := rfl
  omega

/-- When the call has returned, the result is empty or the address of a peer whose probe has
succeeded, and not empty if there is such a peer. -/
theorem Sound.result (h : s.Sound d) {url : String} (hcaller : s.caller = .returned url) :
  (url = "" ∨ ∃ i ∈ s.succeeded, i < d.matched.length ∧ url = d.url i)
    ∧ (url ≠ "" ↔ s.succeeded ≠ [])
  := by
  have hgone : ∀ w, (s.place w).isGone = true := by
    intro w
    apply h.staged.joined
    rw [hcaller]
    rfl
  have hbelow : ∀ i ∈ s.succeeded, i < d.matched.length
    := fun i hi => (h.indexed.below i (h.proven.probed i hi)).2
  obtain rfl := h.staged.result url hcaller
  cases h.contest with
  | undecided found won writers url =>
    -- a probe that has succeeded would be about to be claimed, by a worker that is not done
    refine ⟨.inl url, iff_of_false (not_not.mpr url) ?_⟩
    intro hne
    rcases h.proven.claimed hne with hfound | ⟨w, i, hw⟩
    · cases found.symm.trans hfound
    · have hw' := hgone w
      rw [hw] at hw'
      cases hw'
  | @decided w i found winner =>
    have hw := hgone w
    revert winner hw
    cases s.place w <;> simp [won, isGone]
  | @written w i found won writers url proven =>
    rw [url]
    refine ⟨.inr ⟨i, proven, hbelow i proven, rfl⟩, ?_⟩
    exact iff_of_true (url_ne_empty (hbelow i proven)) (List.ne_nil_of_mem proven)

theorem Contest.length_writers (h : s.Contest d) :
  s.writers.length ≤ 1
  := by
  cases h with
  | undecided found won writers => simp [writers]
  | decided found winner others writers => simp [writers]
  | written found won writers => simp [writers]

end Search

end Nats

end Agamemnon
