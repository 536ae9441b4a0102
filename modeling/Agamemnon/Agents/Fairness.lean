import Agamemnon.Agents.Inbox
import Mathlib.Data.List.Chain

/-!
# Fairness of the inbox

When messages of high priority keep coming, a message of lower priority should be returned within
the fairness interval.  The time of the last check is set at every message, though, also at those of
high priority, so the interval starts anew each time, and only a pause that is as long as the
interval lets a message of lower priority through.

The messages of lower priority are served in time, whatever arrives, exactly if among the calls
between any two that are an interval apart there is such a pause (`noStarvation_iff`).
-/

namespace Agamemnon

namespace Agents

variable {β : Type}

/-- The times of the calls of `getMessage`. -/
def getTimes : List (Call β) → List ℤ
  | [] => []
  | .receive _ :: calls => getTimes calls
  | .get now :: calls => now :: getTimes calls

/-- All calls of `getMessage` return messages of high priority. -/
def OnlyHigh : Inbox β → List (Call β) → Prop
  | _, [] => True
  | b, .receive msg :: calls => OnlyHigh (b.receiveMessage msg).2 calls
  | b, .get now :: calls =>
      (∃ msg, (b.getMessage now).1 = some msg ∧ msg.priority = 0)
        ∧ OnlyHigh (b.getMessage now).2 calls

/-- No two calls of `getMessage` that are the interval apart return, with all calls between them,
only messages of high priority, if a message of lower priority is queued at the first of them,
which then stays queued. -/
def NoStarvation (d : ℤ) (calls : List (Call β)) : Prop :=
  ∀ earlier first between last later,
    calls = earlier ++ (.get first :: between ++ [.get last]) ++ later →
    d ≤ last - first → (Traced.run d earlier).inbox.HasLower →
    ¬ OnlyHigh (Traced.run d earlier).inbox (.get first :: between ++ [.get last])

/-- There is no pause between successive times. -/
def Gapless (d : ℤ) (times : List ℤ) : Prop :=
  times.IsChain fun t t' => t ≠ 0 → t' - t < d

/-- Between any two times that are the interval apart there is a pause. -/
def Spaced (d : ℤ) (times : List ℤ) : Prop :=
  ∀ first between last, first :: between ++ [last] <:+: times → d ≤ last - first →
    ¬ Gapless d (first :: between ++ [last])

theorem getTimes_append (calls calls' : List (Call β)) :
  getTimes (calls ++ calls') = getTimes calls ++ getTimes calls'
  := by
  induction calls with
  | nil => rfl
  | cons c calls ih =>
    cases c with
    | receive msg => apply ih
    | get now =>
      rw [List.cons_append, getTimes, getTimes, ih, List.cons_append]

theorem getTimes_gets (times : List ℤ) :
  getTimes (times.map Call.get : List (Call β)) = times
  := by
  induction times with
  | nil => rfl
  | cons t times ih => rw [List.map_cons, getTimes, ih]

/-! ### Pauses let a message through -/

section Pauses

variable {b : Inbox β} {now : ℤ}

theorem intervalElapsed_iff :
  b.intervalElapsed now = true ↔ b.lastLowPriorityCheckNs ≠ 0
    ∧ b.lowPriorityCheckIntervalNs ≤ now - b.lastLowPriorityCheckNs
  := by
  rw [Inbox.intervalElapsed, Bool.and_eq_true, decide_eq_true_eq, decide_eq_true_eq]

/-- What is left alone while messages of high priority are received and returned. -/
structure Waits (d last : ℤ) (b : Inbox β) : Prop where
  lanes : b.Pure
  lower : b.HasLower
  interval : b.lowPriorityCheckIntervalNs = d
  check : b.lastLowPriorityCheckNs = last

/-- A message of high priority is returned only if the interval has not passed, or no other message
is queued. -/
theorem Waits.of_high {d last : ℤ} (h : Waits d last b) {result : Option (Message β) × Inbox β}
    (hgets : b.Gets now result) {msg : Message β} (hmsg : result.1 = some msg)
    (hhigh : msg.priority = 0) :
  (last ≠ 0 → now - last < d) ∧ Waits d now result.2
  := by
  have hlane : lane msg.priority = .high := by
    rw [hhigh]
    rfl
  have hpure : result.2.Pure := by
    intro l other hother
    apply h.lanes l other (hgets.queue_subset l hother)
  cases hgets with
  | nothing => cases hmsg
  | first l other rest hqueue hturns hempty =>
    cases hmsg
    have hl : l = .high := (h.lanes.lane_of_queue hqueue).symm.trans hlane
    subst hl
    have hne : b.highPriorityInbox ≠ [] := by
      change b.queue .high ≠ []
      rw [hqueue]
      apply List.cons_ne_nil
    constructor
    · intro hlast
      by_contra hlong
      apply hturns
      refine ⟨hne, ?_, h.lower⟩
      rw [intervalElapsed_iff, h.check, h.interval]
      exact ⟨hlast, Int.not_lt.mp hlong⟩
    · exact ⟨hpure, h.lower, h.interval, rfl⟩
  | lower l other rest hlow hqueue =>
    cases hmsg
    exfalso
    apply hlow
    apply (h.lanes.lane_of_queue hqueue).symm.trans hlane

/-- A message that is received changes nothing about the times. -/
theorem receiveMessage_times (b : Inbox β) (msg : Message β) :
  (b.receiveMessage msg).2.lastLowPriorityCheckNs = b.lastLowPriorityCheckNs
    ∧ (b.receiveMessage msg).2.lowPriorityCheckIntervalNs = b.lowPriorityCheckIntervalNs
  := by
  rcases Nat.lt_or_ge b.totalDepth Inbox.agentMaxQueueSize with hroom | hfull
  · rw [Inbox.receiveMessage_of_room hroom, Inbox.enqueue, Inbox.clearBackpressure]
    split_ifs <;> cases lane msg.priority <;> exact ⟨rfl, rfl⟩
  · rw [Inbox.receiveMessage_of_full hfull]
    exact ⟨rfl, rfl⟩

/-- The queues keep their messages when another one is received. -/
theorem queue_subset_receiveMessage (b : Inbox β) (msg : Message β) (l : Lane) :
  b.queue l ⊆ (b.receiveMessage msg).2.queue l
  := by
  rcases Nat.lt_or_ge b.totalDepth Inbox.agentMaxQueueSize with hroom | hfull
  · rw [Inbox.receiveMessage_of_room hroom, Inbox.enqueue_eq, ← b.queue_clearBackpressure l]
    by_cases hl : l = lane msg.priority
    · subst hl
      rw [Inbox.queue_setQueue_self]
      apply List.subset_append_left
    · rw [Inbox.queue_setQueue_of_ne _ _ hl]
      apply List.Subset.refl
  · rw [Inbox.receiveMessage_of_full hfull, Inbox.queue_applied]
    apply List.Subset.refl

theorem interval_getMessage (b : Inbox β) (now : ℤ) :
  (b.getMessage now).2.lowPriorityCheckIntervalNs = b.lowPriorityCheckIntervalNs
  := by
  apply Inbox.getMessage_keeps (·.lowPriorityCheckIntervalNs)
  · intro b messages l
    cases l <;> rfl
  · intro b now
    rfl

/-- In every run the messages are in their queues, and the interval stays the same. -/
theorem sound_run (d : ℤ) (calls : List (Call β)) :
  (Traced.run d calls).inbox.Pure ∧ (Traced.run d calls).inbox.lowPriorityCheckIntervalNs = d
  := by
  apply Traced.run_induction (P := fun t => t.inbox.Pure ∧ t.inbox.lowPriorityCheckIntervalNs = d)
  · exact ⟨Traced.pure_start d, rfl⟩
  · rintro earlier c later - ⟨hpure, hinterval⟩
    cases c with
    | receive msg =>
      exact ⟨hpure.receiveMessage msg, (receiveMessage_times _ msg).2.trans hinterval⟩
    | get now => exact ⟨hpure.getMessage now, (interval_getMessage _ now).trans hinterval⟩

theorem Waits.receiveMessage {d last : ℤ} (h : Waits d last b) (msg : Message β) :
  Waits d last (b.receiveMessage msg).2
  := by
  obtain ⟨hcheck, hinterval⟩ := receiveMessage_times b msg
  have hkept {l : Lane} (hl : b.queue l ≠ []) : (b.receiveMessage msg).2.queue l ≠ [] := by
    intro hnil
    apply hl
    apply List.eq_nil_of_subset_nil
    rw [← hnil]
    apply queue_subset_receiveMessage
  refine ⟨h.lanes.receiveMessage msg, ?_, hinterval.trans h.interval, hcheck.trans h.check⟩
  rcases h.lower with hnormal | hlow
  · exact .inl (hkept (l := .normal) hnormal)
  · exact .inr (hkept (l := .low) hlow)

/-- While only messages of high priority are returned there is no pause. -/
theorem isChain_of_onlyHigh {d last : ℤ} {calls : List (Call β)} (h : Waits d last b)
    (hhigh : OnlyHigh b calls) :
  (last :: getTimes calls).IsChain fun t t' => t ≠ 0 → t' - t < d
  := by
  induction calls generalizing b last with
  | nil => apply List.isChain_singleton
  | cons c calls ih =>
    cases c with
    | receive msg => apply ih (h.receiveMessage msg) hhigh
    | get now =>
      obtain ⟨⟨msg, hmsg, hpriority⟩, hhigh⟩ := hhigh
      obtain ⟨hshort, hwaits⟩ := h.of_high (b.gets_getMessage now) hmsg hpriority
      rw [getTimes, List.isChain_cons_cons]
      exact ⟨hshort, ih hwaits hhigh⟩

end Pauses

/-! ### Without a pause a message may wait -/

section Busy

variable [Inhabited β] {d : ℤ}

/-- A message of high priority arrives before each time. -/
def busy (times : List ℤ) : List (Call β) :=
  times.flatMap fun t => [.receive ⟨0, default⟩, .get t]

/-- A message of high priority and one of low priority are queued. -/
def twoQueued (d last : ℤ) : Inbox β where
  highPriorityInbox := [⟨0, default⟩]
  lowPriorityInbox := [⟨2, default⟩]
  lastLowPriorityCheckNs := last
  lowPriorityCheckIntervalNs := d

theorem getTimes_busy (times : List ℤ) :
  getTimes (busy times : List (Call β)) = times
  := by
  induction times with
  | nil => rfl
  | cons t times ih =>
    change t :: getTimes (busy times) = _
    rw [ih]

theorem getMessage_twoQueued {last now : ℤ} (h : last ≠ 0 → now - last < d) :
  (twoQueued d last : Inbox β).getMessage now
    = (some ⟨0, default⟩, { twoQueued d now with highPriorityInbox := [] })
  := by
  have helapsed : (twoQueued d last : Inbox β).intervalElapsed now = false := by
    apply Bool.eq_false_iff.mpr
    rw [ne_eq, intervalElapsed_iff]
    rintro ⟨hlast, hlong⟩
    apply Int.not_lt.mpr hlong
    apply h hlast
  rw [Inbox.getMessage]
  simp only [helapsed]
  rfl

theorem onlyHigh_busy {last first : ℤ} {times : List ℤ}
    (h : (last :: first :: times).IsChain fun t t' => t ≠ 0 → t' - t < d) :
  OnlyHigh (twoQueued d last : Inbox β) (.get first :: busy times)
  := by
  induction times generalizing last first with
  | nil =>
    rw [List.isChain_cons_cons] at h
    constructor
    · rw [getMessage_twoQueued h.1]
      exact ⟨_, rfl, rfl⟩
    · trivial
  | cons t times ih =>
    rw [List.isChain_cons_cons] at h
    constructor
    · rw [getMessage_twoQueued h.1]
      exact ⟨_, rfl, rfl⟩
    · rw [getMessage_twoQueued h.1]
      apply ih h.2

end Busy

/-- Nothing is returned before the first message arrives. -/
theorem run_gets (d : ℤ) (times : List ℤ) :
  Traced.run d (times.map Call.get : List (Call β)) = Traced.start d
  := by
  induction times with
  | nil => rfl
  | cons t times ih => apply ih

/-- Whatever arrives, messages of lower priority are served in time exactly if between any two calls
of `getMessage` that are the interval apart there is a pause of that length. -/
theorem noStarvation_iff [Inhabited β] (d : ℤ) (times : List ℤ) :
  (∀ calls : List (Call β), getTimes calls = times → NoStarvation d calls) ↔ Spaced d times
  := by
  constructor
  · rintro h first between last ⟨before, rest, rfl⟩ hapart hgapless
    -- the calls in between find a message of high priority each
    let earlier : List (Call β) := before.map .get ++ [.receive ⟨2, default⟩, .receive ⟨0, default⟩]
    let middle : List (Call β) := busy between ++ [.receive ⟨0, default⟩]
    have hwindow : .get first :: middle ++ [.get last] = .get first :: busy (between ++ [last])
      := by simp [middle, busy]
    have hearlier : (Traced.run d earlier).inbox = twoQueued d 0 := by
      rw [Traced.run, List.foldl_append, ← Traced.run, run_gets]
      rfl
    have htimes : getTimes (earlier ++ (.get first :: middle ++ [.get last]) ++ rest.map .get)
        = before ++ (first :: between ++ [last]) ++ rest := by
      rw [hwindow]
      simp [earlier, getTimes, getTimes_append, getTimes_gets, getTimes_busy]
    apply h _ htimes earlier first middle last (rest.map .get) rfl hapart
    · rw [hearlier]
      exact .inr (List.cons_ne_nil _ _)
    · rw [hearlier, hwindow]
      apply onlyHigh_busy
      rw [List.isChain_cons_cons]
      exact ⟨absurd rfl, hgapless⟩
  · intro h calls htimes earlier first between last later hcalls hapart hlower hhigh
    have hwaits : Waits d (Traced.run d earlier).inbox.lastLowPriorityCheckNs
        (Traced.run d earlier).inbox
      := ⟨(sound_run d earlier).1, hlower, (sound_run d earlier).2, rfl⟩
    have hchain := isChain_of_onlyHigh hwaits hhigh
    have hwindow : getTimes (Call.get first :: between ++ [.get last])
        = first :: getTimes between ++ [last] := by
      rw [getTimes_append]
      rfl
    rw [hwindow] at hchain
    apply h first (getTimes between) last _ hapart hchain.tail
    rw [← htimes, hcalls, getTimes_append, getTimes_append, hwindow]
    apply List.infix_append

/-- A message of high priority every 60 nanoseconds, for an interval of 100. -/
def steadyTraffic : List (Call ℕ) :=
  [.receive ⟨2, 0⟩, .receive ⟨0, 1⟩, .get 1, .receive ⟨0, 2⟩, .get 61, .receive ⟨0, 3⟩, .get 121]

/-- The message of low priority has been waiting for 120 nanoseconds. -/
theorem starvation_steadyTraffic :
  (Traced.run 100 steadyTraffic).returned = [⟨0, 1⟩, ⟨0, 2⟩, ⟨0, 3⟩]
    ∧ (Traced.run 100 steadyTraffic).inbox.queued = [⟨2, 0⟩]
    ∧ ¬ NoStarvation 100 steadyTraffic
  := by
  refine ⟨by decide, by decide, ?_⟩
  intro h
  apply h [.receive ⟨2, 0⟩, .receive ⟨0, 1⟩] 1
    [.receive ⟨0, 2⟩, .get 61, .receive ⟨0, 3⟩] 121 [] rfl (by decide)
  · exact .inr (List.cons_ne_nil _ _)
  · exact ⟨⟨⟨0, 1⟩, rfl, rfl⟩, ⟨⟨0, 2⟩, rfl, rfl⟩, ⟨⟨0, 3⟩, rfl, rfl⟩, trivial⟩

end Agents

end Agamemnon
