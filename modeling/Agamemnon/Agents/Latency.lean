import Agamemnon.Agents.Messages
import Mathlib.Data.List.Nodup

/-!
# The latency bookkeeping

`Metrics` keeps the time at which each message was sent until it is processed.  When there are
too many of these times, first those that have expired go, then the oldest.  `run_tidy` says what
is kept after every call.
-/

namespace Agamemnon.Agents

/-- An entry of `message_timestamps_`: a message and the time it was sent, in nanoseconds. -/
abbrev Timestamp : Type :=
  String × ℤ

/-- `Config::METRICS_MAX_TIMESTAMP_ENTRIES`. -/
def maxTimestampEntries : ℕ := 10000

/-- `Config::METRICS_TIMESTAMP_EXPIRY`. -/
def timestampExpiry : ℤ := 60000000000

/-- `std::sort` by time, which may order entries with the same time in any way. -/
structure TimeSort where
  sort : List Timestamp → List Timestamp
  perm : ∀ ts, (sort ts).Perm ts
  sorted : ∀ ts, (sort ts).Pairwise fun x y => x.2 ≤ y.2

/-- One that keeps their order. -/
def TimeSort.stable : TimeSort where
  sort := fun ts => ts.mergeSort fun x y => x.2 ≤ y.2
  perm := fun ts => List.mergeSort_perm ts _
  sorted := by
    intro ts
    apply (List.pairwise_mergeSort _ _ ts).imp of_decide_eq_true
    · intro x y z hxy hyz
      rw [decide_eq_true_eq] at hxy hyz ⊢
      exact hxy.trans hyz
    · intro x y
      rw [Bool.or_eq_true, decide_eq_true_eq, decide_eq_true_eq]
      exact le_total x.2 y.2

structure Metrics where
  messagesSent : ℕ := 0
  messagesProcessed : ℕ := 0
  highPriorityCount : ℕ := 0
  normalPriorityCount : ℕ := 0
  lowPriorityCount : ℕ := 0
  totalLatencyUs : ℕ := 0
  latencySampleCount : ℕ := 0
  timestamps : List Timestamp := []

/-- `message_timestamps_.erase(msg_id)`. -/
def eraseTimestamp (msgId : String) (ts : List Timestamp) : List Timestamp :=
  ts.filter fun e => e.1 ≠ msgId

/-- `message_timestamps_[msg_id] = {now}`. -/
def setTimestamp (msgId : String) (now : ℤ) (ts : List Timestamp) : List Timestamp :=
  (msgId, now) :: eraseTimestamp msgId ts

def cleanupOldTimestamps (now : ℤ) (ts : List Timestamp) : List Timestamp :=
  ts.filter fun e => ¬ now - e.2 > timestampExpiry

/-- The `n` oldest entries are erased. -/
def removeOldest (order : TimeSort) (n : ℕ) (ts : List Timestamp) : List Timestamp :=
  ((order.sort ts).take n).foldl (fun ts e => eraseTimestamp e.1 ts) ts

/-- If there are still too many entries, the oldest ones go. -/
def forceLimit (order : TimeSort) (ts : List Timestamp) : List Timestamp :=
  if ts.length > maxTimestampEntries then removeOldest order (ts.length - maxTimestampEntries) ts
  else ts

/-- If there are too many entries, the expired ones go first. -/
def limitTimestamps (order : TimeSort) (now : ℤ) (ts : List Timestamp) : List Timestamp :=
  if ts.length > maxTimestampEntries then forceLimit order (cleanupOldTimestamps now ts) else ts

namespace Metrics

variable (order : TimeSort) (now : ℤ) (msgId : String)

def recordMessageSent (priority : Priority) (m : Metrics) : Metrics :=
  { m with
    messagesSent := m.messagesSent + 1
    highPriorityCount := m.highPriorityCount + if priority = .high then 1 else 0
    normalPriorityCount := m.normalPriorityCount + if priority = .normal then 1 else 0
    lowPriorityCount := m.lowPriorityCount + if priority = .low then 1 else 0
    timestamps := limitTimestamps order now (setTimestamp msgId now m.timestamps) }

def recordMessageProcessed (m : Metrics) : Metrics :=
  match m.timestamps.lookup msgId with
  | none => { m with messagesProcessed := m.messagesProcessed + 1 }
  | some sendTime =>
      { m with
        messagesProcessed := m.messagesProcessed + 1
        totalLatencyUs := m.totalLatencyUs + ((now - sendTime) / 1000).toNat
        latencySampleCount := m.latencySampleCount + 1
        timestamps := eraseTimestamp msgId m.timestamps }

end Metrics

/-! ### The oldest entries -/

section Oldest

variable {order : TimeSort} {ts : List Timestamp} {n : ℕ} {e : Timestamp}

theorem foldl_eraseTimestamp (es : List Timestamp) :
  es.foldl (fun ts e => eraseTimestamp e.1 ts) ts = ts.filter fun x => x.1 ∉ es.map (·.1)
  := by
  induction es generalizing ts with
  | nil => simp
  | cons e es ih =>
    rw [List.foldl_cons, ih, eraseTimestamp, List.filter_filter]
    apply List.filter_congr
    intro x _
    rw [List.map_cons, Bool.eq_iff_iff]
    simp [and_comm]

theorem removeOldest_sublist :
  (removeOldest order n ts).Sublist ts
  := by
  rw [removeOldest, foldl_eraseTimestamp]
  apply List.filter_sublist

/-- What is left are the last entries in the order of time. -/
theorem removeOldest_perm (hnodup : (ts.map (·.1)).Nodup) :
  (removeOldest order n ts).Perm ((order.sort ts).drop n)
  := by
  have hsplit := List.take_append_drop n (order.sort ts)
  have hkeys := ((order.perm ts).map (·.1)).nodup_iff.mpr hnodup
  rw [removeOldest, foldl_eraseTimestamp]
  generalize (order.sort ts).take n = old at hsplit
  generalize (order.sort ts).drop n = rest at hsplit
  rw [← hsplit, List.map_append] at hkeys
  apply ((order.perm ts).symm.filter _).trans
  rw [← hsplit, List.filter_append, List.filter_eq_nil_iff.mpr, List.filter_eq_self.mpr,
    List.nil_append]
  · intro x hx
    rw [decide_eq_true_eq]
    exact fun hmem => List.disjoint_of_nodup_append hkeys hmem (List.mem_map_of_mem hx)
  · intro x hx
    rw [decide_eq_true_eq, not_not]
    exact List.mem_map_of_mem hx

/-- What goes is no newer than what stays. -/
theorem le_of_not_mem_removeOldest (hnodup : (ts.map (·.1)).Nodup) (he : e ∈ ts)
    (hgone : e ∉ removeOldest order n ts) :
  ∀ x ∈ removeOldest order n ts, e.2 ≤ x.2
  := by
  intro x hx
  have hsorted := order.sorted ts
  have hmem := (order.perm ts).mem_iff.mpr he
  rw [← List.take_append_drop n (order.sort ts)] at hsorted hmem
  rw [(removeOldest_perm hnodup).mem_iff] at hgone hx
  rw [List.mem_append, or_iff_left hgone] at hmem
  exact (List.pairwise_append.mp hsorted).2.2 e hmem x hx

end Oldest

/-! ### One call -/

/-- What `recordMessageSent` leaves: not too many entries, the new one or one with its time, and
of the other ones all but expired ones and old ones. -/
structure Tidy (now : ℤ) (msgId : String) (before after : List Timestamp) : Prop where
  bounded : after.length ≤ maxTimestampEntries
  recent : (msgId, now) ∈ after ∨ ∃ e ∈ after, e.2 = now
  removed : ∀ e ∈ before, e.1 ≠ msgId → e ∉ after →
    now - e.2 > timestampExpiry ∨ ∀ x ∈ after, e.2 ≤ x.2

/-- What holds of the entries between two calls. -/
structure Sound (clock : ℤ) (ts : List Timestamp) : Prop where
  nodup : (ts.map (·.1)).Nodup
  past : ∀ e ∈ ts, e.2 ≤ clock
  bounded : ts.length ≤ maxTimestampEntries

section Sent

variable {order : TimeSort} {now clock : ℤ} {msgId : String} {ts ts' : List Timestamp}

theorem forceLimit_sublist :
  (forceLimit order ts).Sublist ts
  := by
  rw [forceLimit]
  split_ifs
  · exact removeOldest_sublist
  · exact List.Sublist.refl ts

theorem limitTimestamps_sublist :
  (limitTimestamps order now ts).Sublist ts
  := by
  rw [limitTimestamps]
  split_ifs
  · exact forceLimit_sublist.trans List.filter_sublist
  · exact List.Sublist.refl ts

theorem length_forceLimit (hnodup : (ts.map (·.1)).Nodup) :
  (forceLimit order ts).length = min ts.length maxTimestampEntries
  := by
  rw [forceLimit]
  split_ifs with hlength
  · rw [(removeOldest_perm hnodup).length_eq, List.length_drop, (order.perm ts).length_eq]
    omega
  · omega

theorem le_of_not_mem_forceLimit {e : Timestamp} (hnodup : (ts.map (·.1)).Nodup) (he : e ∈ ts)
    (hgone : e ∉ forceLimit order ts) :
  ∀ x ∈ forceLimit order ts, e.2 ≤ x.2
  := by
  rw [forceLimit] at hgone ⊢
  split_ifs at hgone ⊢
  · exact le_of_not_mem_removeOldest hnodup he hgone
  · contradiction

theorem nodup_setTimestamp (h : (ts.map (·.1)).Nodup) :
  ((setTimestamp msgId now ts).map (·.1)).Nodup
  := by
  rw [setTimestamp, List.map_cons, List.nodup_cons]
  constructor
  · simp [eraseTimestamp]
  · exact h.sublist (List.filter_sublist.map _)

theorem past_setTimestamp (h : ∀ e ∈ ts, e.2 ≤ now) :
  ∀ e ∈ setTimestamp msgId now ts, e.2 ≤ now
  := by
  intro e he
  rcases List.mem_cons.mp he with rfl | he
  · exact le_refl _
  · exact h e (List.mem_of_mem_filter he)

/-- The clean-up after an entry with the latest time. -/
theorem tidy_limitTimestamps (h : (ts.map (·.1)).Nodup) (hpast : ∀ e ∈ ts, e.2 ≤ now) :
  Tidy now msgId ts (limitTimestamps order now (setTimestamp msgId now ts))
  := by
  have hkept : ∀ e ∈ ts, e.1 ≠ msgId → e ∈ setTimestamp msgId now ts := by
    intro e he hne
    simpa [setTimestamp, eraseTimestamp, hne] using Or.inr he
  rw [limitTimestamps]
  split_ifs with hfull
  · generalize hts : cleanupOldTimestamps now (setTimestamp msgId now ts) = fresh
    have hsublist : fresh.Sublist (setTimestamp msgId now ts) := hts ▸ List.filter_sublist
    have hnodup := (nodup_setTimestamp h).sublist (hsublist.map _)
    have hlength := @length_forceLimit order _ hnodup
    have hnew : (msgId, now) ∈ fresh := by
      simp [← hts, cleanupOldTimestamps, setTimestamp, timestampExpiry]
    refine ⟨hlength.trans_le (min_le_right _ _), ?_, ?_⟩
    · by_contra hnone
      rw [not_or] at hnone
      have hpos : 0 < (forceLimit order fresh).length := by
        rw [hlength]
        exact lt_min (List.length_pos_of_mem hnew) (by decide)
      obtain ⟨x, hx⟩ := List.exists_mem_of_length_pos hpos
      have hle := le_of_not_mem_forceLimit hnodup hnew hnone.1 x hx
      have hge := past_setTimestamp hpast x (hsublist.subset (forceLimit_sublist.subset hx))
      exact hnone.2 ⟨x, hx, le_antisymm hge hle⟩
    · intro e he hne hgone
      by_cases hexpired : now - e.2 > timestampExpiry
      · exact Or.inl hexpired
      · right
        apply le_of_not_mem_forceLimit hnodup _ hgone
        rw [← hts]
        exact List.mem_filter.mpr ⟨hkept e he hne, decide_eq_true hexpired⟩
  · exact ⟨not_lt.mp hfull, Or.inl List.mem_cons_self,
      fun e he hne hgone => absurd (hkept e he hne) hgone⟩

end Sent

/-! ### Runs -/

inductive MetricsCall
  | recordMessageSent (msgId : String) (priority : Priority)
  | recordMessageProcessed (msgId : String)

/-- A call, `elapsed` nanoseconds after the one before it; the clock stands still within it. -/
def callMetrics (order : TimeSort) (s : ℤ × Metrics) (call : ℕ × MetricsCall) : ℤ × Metrics :=
  let now := s.1 + call.1
  match call.2 with
  | .recordMessageSent msgId priority => (now, s.2.recordMessageSent order now msgId priority)
  | .recordMessageProcessed msgId => (now, s.2.recordMessageProcessed now msgId)

/-- The calls in turn, with the clock at `start` at first. -/
def runMetrics (order : TimeSort) (start : ℤ) (calls : List (ℕ × MetricsCall)) : ℤ × Metrics :=
  calls.foldl (callMetrics order) (start, {})

theorem Sound.call {s : ℤ × Metrics} (order : TimeSort) (h : Sound s.1 s.2.timestamps)
    (call : ℕ × MetricsCall) :
  Sound (callMetrics order s call).1 (callMetrics order s call).2.timestamps
  := by
  have hlater : ∀ e ∈ s.2.timestamps, e.2 ≤ s.1 + call.1
    := fun e he => (h.past e he).trans (Int.le_add_of_nonneg_right (Int.natCast_nonneg _))
  rcases call with ⟨elapsed, ⟨msgId, priority⟩ | msgId⟩
  · refine ⟨(nodup_setTimestamp h.nodup).sublist (limitTimestamps_sublist.map _), ?_,
      (tidy_limitTimestamps h.nodup hlater).bounded⟩
    exact fun e he => past_setTimestamp hlater e (limitTimestamps_sublist.subset he)
  · simp only [callMetrics, Metrics.recordMessageProcessed]
    split
    · exact ⟨h.nodup, hlater, h.bounded⟩
    · exact ⟨h.nodup.sublist (List.filter_sublist.map _),
        fun e he => hlater e (List.mem_of_mem_filter he),
        (List.length_filter_le _ _).trans h.bounded⟩

theorem sound_runMetrics (order : TimeSort) (start : ℤ) (calls : List (ℕ × MetricsCall)) :
  Sound (runMetrics order start calls).1 (runMetrics order start calls).2.timestamps
  := by
  apply List.foldlRecOn (motive := fun s : ℤ × Metrics => Sound s.1 s.2.timestamps)
  · exact ⟨List.nodup_nil, by simp, Nat.zero_le _⟩
  · intro s hs call _
    exact hs.call order call

/-- After every sequence of calls there are not too many entries, and a message sent next leaves
the newest. -/
theorem run_tidy (order : TimeSort) (start : ℤ) (calls : List (ℕ × MetricsCall)) :
  (runMetrics order start calls).2.timestamps.length ≤ maxTimestampEntries
    ∧ ∀ (elapsed : ℕ) msgId priority,
      Tidy ((runMetrics order start calls).1 + elapsed) msgId
        (runMetrics order start calls).2.timestamps
        (runMetrics order start
          (calls ++ [(elapsed, .recordMessageSent msgId priority)])).2.timestamps
  := by
  have hsound := sound_runMetrics order start calls
  refine ⟨hsound.bounded, ?_⟩
  intro elapsed msgId priority
  rw [runMetrics, runMetrics, List.foldl_append]
  apply tidy_limitTimestamps hsound.nodup
  exact fun e he => (hsound.past e he).trans (Int.le_add_of_nonneg_right (Int.natCast_nonneg _))

end Agamemnon.Agents
