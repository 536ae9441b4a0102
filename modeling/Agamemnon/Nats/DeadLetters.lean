import Agamemnon.Nats.Client
import Mathlib.Data.List.DropRight

/-!
# The dead-letter queue

The queue keeps the last entries that were pushed since it was last drained or cleared, as many as
its capacity.  The constructor accepts the capacity zero as well, and then a push removes the oldest
entry of an empty queue, which is undefined: the queue is a window of the pushed entries exactly if
its capacity is not zero or nothing is pushed (`isWindow_iff`).
-/

namespace Agamemnon

namespace Nats

namespace DeadLetters

/-! ### The queue -/

/-- A call of the queue.  An entry has the time at which it is pushed. -/
inductive Call where
  | push (entry : Entry)
  | drain
  | clear

/-- The queue, and what the calls of `drain` have returned. -/
structure State where
  queue : List Entry := []
  drained : List (List Entry) := []

/-- `std::deque::pop_front`, which is undefined for an empty queue. -/
def popFront : List Entry → Option (List Entry)
  | [] => none
  | _ :: queue => some queue

/-- `DeadLetterQueue::push`. -/
def push (capacity : ℕ) (queue : List Entry) (entry : Entry) : Option (List Entry) := do
  let queue ← if capacity ≤ queue.length then popFront queue else some queue
  some (queue ++ [entry])

/-- One call. -/
def step (capacity : ℕ) (s : State) : Call → Option State
  | .push entry => (push capacity s.queue entry).map fun queue => { s with queue }
  | .drain => some ⟨[], s.drained ++ [s.queue]⟩
  | .clear => some { s with queue := [] }

/-- A sequence of calls. -/
def run (capacity : ℕ) : State → List Call → Option State
  | s, [] => some s
  | s, c :: calls => (step capacity s c).bind fun s => run capacity s calls

/-! ### The window -/

/-- The entries pushed since the last call of `drain` or `clear`, after the entries `since`. -/
def pushedSince : (since : List Entry) → List Call → List Entry
  | since, [] => since
  | since, .push entry :: calls => pushedSince (since ++ [entry]) calls
  | _, .drain :: calls => pushedSince [] calls
  | _, .clear :: calls => pushedSince [] calls

/-- What the calls of `drain` should return. -/
def windows (capacity : ℕ) : (since : List Entry) → List Call → List (List Entry)
  | _, [] => []
  | since, .push entry :: calls => windows capacity (since ++ [entry]) calls
  | since, .drain :: calls => since.rtake capacity :: windows capacity [] calls
  | _, .clear :: calls => windows capacity [] calls

/-- The queue holds the last entries that were pushed, and `drain` returns them. -/
def IsWindow (capacity : ℕ) (calls : List Call) : Prop :=
  run capacity {} calls
    = some ⟨(pushedSince [] calls).rtake capacity, windows capacity [] calls⟩

/-- Nothing is pushed. -/
def NoPush (calls : List Call) : Prop :=
  ∀ entry, Call.push entry ∉ calls

/-- For a queue that has room for an entry this is the push of the client. -/
theorem push_eq (q : DeadLetterQueue) (entry : Entry) :
  push q.capacity q.queue entry = some (q.push entry).queue
  := by
  obtain ⟨capacity, queue, hpositive, hbounded⟩ := q
  rw [push, DeadLetterQueue.push]
  split_ifs with hfull
  · cases queue with
    | nil => cases hpositive.not_ge hfull
    | cons oldest queue => rfl
  · rfl

theorem length_rtake {α : Type} (xs : List α) (n : ℕ) :
  (xs.rtake n).length = min n xs.length
  := by
  rw [List.rtake, List.length_drop]
  omega

/-- A window of one entry less is the window without its first entry, if it is full. -/
theorem tail_rtake {α : Type} {xs : List α} {n : ℕ} (h : n + 1 ≤ xs.length) :
  (xs.rtake (n + 1)).tail = xs.rtake n
  := by
  rw [List.rtake, List.rtake, List.tail_drop]
  congr 1
  omega

theorem rtake_of_length_le {α : Type} {xs : List α} {n : ℕ} (h : xs.length ≤ n) :
  xs.rtake n = xs
  := by
  rw [List.rtake, Nat.sub_eq_zero_of_le h, List.drop_zero]

/-- A push moves the window. -/
theorem push_rtake {capacity : ℕ} (h : capacity ≠ 0) (since : List Entry) (entry : Entry) :
  push capacity (since.rtake capacity) entry = some ((since ++ [entry]).rtake capacity)
  := by
  obtain ⟨n, rfl⟩ := Nat.exists_eq_succ_of_ne_zero h
  rw [push, Nat.succ_eq_add_one, List.rtake_concat_succ, length_rtake]
  split_ifs with hfull
  · have hlong : n + 1 ≤ since.length := by omega
    have hlength := length_rtake since (n + 1)
    rw [← tail_rtake hlong]
    cases hqueue : since.rtake (n + 1) with
    | nil =>
      rw [hqueue, List.length_nil] at hlength
      omega
    | cons oldest queue => rfl
  · have hshort : since.length ≤ n := by omega
    rw [rtake_of_length_le hshort, rtake_of_length_le (Nat.le_succ_of_le hshort)]
    rfl

section Runs

variable {capacity : ℕ} {since : List Entry} {drained : List (List Entry)} {c : Call}
  {calls : List Call}

theorem NoPush.of_cons (h : NoPush (c :: calls)) :
  NoPush calls
  := by
  intro entry hentry
  apply h entry (List.mem_cons_of_mem c hentry)

/-- The calls move the window. -/
theorem run_eq (h : capacity ≠ 0 ∨ NoPush calls) :
  run capacity ⟨since.rtake capacity, drained⟩ calls
    = some ⟨(pushedSince since calls).rtake capacity, drained ++ windows capacity since calls⟩
  := by
  induction calls generalizing since drained with
  | nil => rw [run, pushedSince, windows, List.append_nil]
  | cons c calls ih =>
    have hcalls : capacity ≠ 0 ∨ NoPush calls := h.imp_right NoPush.of_cons
    -- `drain` and `clear` leave an empty queue
    have hempty (drained : List (List Entry)) : run capacity ⟨[], drained⟩ calls
        = some ⟨(pushedSince [] calls).rtake capacity, drained ++ windows capacity [] calls⟩ := by
      rw [← ih hcalls, List.rtake_nil]
    cases c with
    | push entry =>
      have hcapacity : capacity ≠ 0 := by
        rcases h with hcapacity | hnone
        · apply hcapacity
        · cases hnone entry List.mem_cons_self
      rw [run, step, push_rtake hcapacity]
      apply ih hcalls
    | drain =>
      rw [windows, List.append_cons]
      apply hempty
    | clear => apply hempty

/-- The first push to a queue of capacity zero is undefined. -/
theorem run_zero_of_push {entry : Entry} (h : Call.push entry ∈ calls) :
  run 0 ⟨[], drained⟩ calls = none
  := by
  induction calls generalizing drained with
  | nil => cases h
  | cons c calls ih =>
    cases c with
    | push entry => rfl
    | drain | clear =>
      apply ih
      simpa using h

end Runs

/-- The queue is a window of the pushed entries exactly if it has room for an entry or nothing is
pushed. -/
theorem isWindow_iff (capacity : ℕ) (calls : List Call) :
  IsWindow capacity calls ↔ capacity ≠ 0 ∨ NoPush calls
  := by
  constructor
  · intro h
    by_contra hcondition
    rw [not_or, not_not, NoPush] at hcondition
    push Not at hcondition
    obtain ⟨rfl, entry, hentry⟩ := hcondition
    rw [IsWindow, run_zero_of_push hentry] at h
    cases h
  · intro h
    have hrun := @run_eq capacity [] [] calls h
    rw [List.rtake_nil, List.nil_append] at hrun
    apply hrun

/-- One push to a queue of capacity zero. -/
theorem not_isWindow_zero :
  run 0 ⟨[], []⟩ [.push ⟨"s", "p", 3, 0, "", ""⟩] = none
    ∧ ¬ IsWindow 0 [.push ⟨"s", "p", 3, 0, "", ""⟩]
  := by
  use rfl
  intro h
  cases h

end DeadLetters

end Nats

end Agamemnon
