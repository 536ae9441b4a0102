import Agamemnon.Lib.Machine
import Mathlib.Logic.Function.Basic

/-!
# The work-stealing scheduler

Each worker has a queue.  It takes work from its own queue or from those of the others until it
sees that a shutdown has been requested; then it empties its own queue and exits.  The call of
`shutdown` waits for the workers one after the other.

An action is one atomic step of a worker, of a thread that submits work, or of `shutdown`.  The
fields `begun`, `submitted`, `refused`, `executed` and `skipped` of a system record what has
happened.
-/

namespace Agamemnon

namespace Scheduler

/-- A work item: a function or a coroutine, `none` if it is null, and the identifier that was
current when it was submitted.  The number tells the submissions apart. -/
structure WorkItem (ι : Type) where
  number : ℕ
  work : Option ι
  correlationId : String
  deriving DecidableEq

/-- Where a worker is. -/
inductive Control (ι : Type) where
  /-- at the condition of the main loop -/
  | loop
  /-- in `tryStealOnce`, at the queue with this distance from its own -/
  | seek (distance : ℕ)
  /-- after a round without success -/
  | check
  /-- with an item from a queue, in the main loop or while it drains its queue -/
  | taken (item : WorkItem ι) (draining : Bool)
  /-- in `execute`, with the identifier to be restored -/
  | running (item : WorkItem ι) (previousId : String) (draining : Bool)
  /-- at the condition of the loop that drains its queue -/
  | drain
  | exited

/-- Where the call of `shutdown` is. -/
inductive Shutdown where
  | idle
  | joining (worker : ℕ)
  | returned
  deriving DecidableEq

structure System (ι : Type) (n : ℕ) where
  queues : Fin n → List (WorkItem ι)
  control : Fin n → Control ι
  correlationId : Fin n → String
  shutdownRequested : Bool
  shutdown : Shutdown
  /-- the items whose submission has begun -/
  begun : List (WorkItem ι)
  /-- the items whose submission has returned -/
  submitted : List (WorkItem ι)
  /-- the items for a worker that does not exist -/
  refused : List (WorkItem ι)
  /-- the items whose execution has ended -/
  executed : List (WorkItem ι)
  /-- the items that were not valid -/
  skipped : List (WorkItem ι)

/-- One step of a thread. -/
inductive Action (ι : Type) (n : ℕ) where
  | worker (w : Fin n)
  /-- an item sets the identifier of the worker it runs on -/
  | correlate (w : Fin n) (id : String)
  /-- a thread whose current identifier is given submits work to a worker -/
  | submit (currentId : String) (index : ℕ) (work : Option ι)
  /-- an item that runs on a worker submits work -/
  | submitInside (w : Fin n) (index : ℕ) (work : Option ι)
  | submitReturns (item : WorkItem ι)
  | shutdown

variable {ι : Type} {n : ℕ}

def WorkItem.valid (item : WorkItem ι) : Bool :=
  item.work.isSome

namespace Control

def isExited : Control ι → Bool
  | exited => true
  | _ => false

def isRunning : Control ι → Bool
  | running _ _ _ => true
  | _ => false

/-- The item that a worker has in its hands. -/
def held : Control ι → List (WorkItem ι)
  | taken item _ => [item]
  | running item _ _ => [item]
  | _ => []

/-- Where a worker goes on after an item. -/
def resume : Bool → Control ι
  | true => .drain
  | false => .loop

@[simp]
theorem held_resume (draining : Bool) :
  (resume draining : Control ι).held = []
  := by
  cases draining <;> rfl

@[simp]
theorem isExited_resume (draining : Bool) :
  (resume draining : Control ι).isExited = false
  := by
  cases draining <;> rfl

end Control

namespace System

/-- The system when the workers have been started. -/
def initial : System ι n where
  queues := fun _ => []
  control := fun _ => .loop
  correlationId := fun _ => ""
  shutdownRequested := false
  shutdown := .idle
  begun := []
  submitted := []
  refused := []
  executed := []
  skipped := []

def goto (s : System ι n) (w : Fin n) (control : Control ι) : System ι n :=
  { s with control := Function.update s.control w control }

@[simp]
theorem control_goto_self (s : System ι n) (w : Fin n) (control : Control ι) :
  (s.goto w control).control w = control
  := by
  simp only [goto, Function.update_self]

theorem control_goto_of_ne (s : System ι n) {v w : Fin n} (control : Control ι) (h : v ≠ w) :
  (s.goto w control).control v = s.control v
  := by
  simp only [goto, Function.update_of_ne h]

/-- `LogContext::setCorrelationId` on a worker. -/
def setCorrelationId (s : System ι n) (w : Fin n) (id : String) : System ι n :=
  { s with correlationId := Function.update s.correlationId w id }

/-- The item of the next submission. -/
def nextItem (s : System ι n) (currentId : String) (work : Option ι) : WorkItem ι :=
  ⟨s.begun.length, work, currentId⟩

/-- `submitTo`; what `submit` does with the index of the next worker. -/
def submitTo (s : System ι n) (currentId : String) (index : ℕ) (work : Option ι) :
    System ι n :=
  let item := s.nextItem currentId work
  if h : index < n then
    let w : Fin n := ⟨index, h⟩
    { s with
      queues := Function.update s.queues w (s.queues w ++ [item])
      begun := s.begun ++ [item] }
  else
    { s with
      begun := s.begun ++ [item]
      refused := s.refused ++ [item] }

@[simp]
theorem begun_submitTo (s : System ι n) (currentId : String) (index : ℕ) (work : Option ι) :
  (s.submitTo currentId index work).begun = s.begun ++ [s.nextItem currentId work]
  := by
  unfold submitTo
  split_ifs <;> rfl

@[simp]
theorem control_submitTo (s : System ι n) (currentId : String) (index : ℕ) (work : Option ι) :
  (s.submitTo currentId index work).control = s.control
  := by
  unfold submitTo
  split_ifs <;> rfl

/-- Take the first item of a queue; `steal` also sets the identifier of the thief. -/
def take (s : System ι n) (w victim : Fin n) (item : WorkItem ι) (rest : List (WorkItem ι))
    (draining : Bool) : System ι n :=
  let s := { s.goto w (.taken item draining) with
    queues := Function.update s.queues victim rest }
  if victim = w ∨ item.correlationId = "" then s else s.setCorrelationId w item.correlationId

/-- A step of `workerLoop`.  The three phases of `tryStealWithBackoff` differ only in how they
wait between two rounds. -/
def workerStep (s : System ι n) (w : Fin n) : Option (System ι n) :=
  match s.control w with
  | .loop => some (s.goto w (if s.shutdownRequested then .drain else .seek 0))
  | .seek distance =>
      if distance < n then
        let victim : Fin n := ⟨(w + distance) % n, Nat.mod_lt _ w.pos⟩
        match s.queues victim with
        | [] => some (s.goto w (.seek (distance + 1)))
        | item :: rest => some (s.take w victim item rest false)
      else some (s.goto w .check)
  | .check => some (s.goto w (if s.shutdownRequested then .loop else .seek 0))
  | .taken item draining =>
      if item.valid then
        let s' := s.goto w (.running item (s.correlationId w) draining)
        some (if item.correlationId = "" then s' else s'.setCorrelationId w item.correlationId)
      else some { s.goto w (.resume draining) with skipped := s.skipped ++ [item] }
  | .running item previousId draining =>
      some { (s.goto w (.resume draining)).setCorrelationId w previousId with
        executed := s.executed ++ [item] }
  | .drain =>
      match s.queues w with
      | [] => some ((s.goto w .exited).setCorrelationId w "")
      | item :: rest => some (s.take w w item rest true)
  | .exited => none

/-- A step of `shutdown`: the request, a worker that is joined, the return. -/
def shutdownStep (s : System ι n) : Option (System ι n) :=
  match s.shutdown with
  | .idle => some { s with shutdownRequested := true, shutdown := .joining 0 }
  | .joining k =>
      if h : k < n then
        if (s.control ⟨k, h⟩).isExited then some { s with shutdown := .joining (k + 1) } else none
      else some { s with shutdown := .returned }
  | .returned => none

/-- What an action does; `none` if the thread cannot take it.  Nothing is submitted after the
return of `shutdown`. -/
def act [DecidableEq ι] (s : System ι n) : Action ι n → Option (System ι n)
  | .worker w => s.workerStep w
  | .correlate w id => if (s.control w).isRunning then some (s.setCorrelationId w id) else none
  | .submit currentId index work =>
      if s.shutdown = .returned then none else some (s.submitTo currentId index work)
  | .submitInside w index work =>
      if (s.control w).isRunning then some (s.submitTo (s.correlationId w) index work) else none
  | .submitReturns item =>
      if item ∈ s.begun ∧ item ∉ s.submitted ∧ s.shutdown ≠ .returned then
        some { s with submitted := s.submitted ++ [item] }
      else none
  | .shutdown => s.shutdownStep

/-! ### The steps of a worker -/

theorem victim_lt (w : Fin n) (distance : ℕ) :
  (w + distance) % n < n
  := Nat.mod_lt _ w.pos

/-- The item that a worker takes from the queue of another one in its next step. -/
def stolen (s : System ι n) (w : Fin n) : Option (WorkItem ι) :=
  match s.control w with
  | .seek distance =>
      if 0 < distance ∧ distance < n then
        (s.queues ⟨(w + distance) % n, victim_lt w distance⟩).head?
      else none
  | _ => none

/-- What a worker does in a step. -/
inductive Moves (s : System ι n) (w : Fin n) : System ι n → Prop where
  | look (control : Control ι) (hfree : (s.control w).held = []) (hfree' : control.held = [])
      (hstays : control.isExited = false) :
      Moves s w (s.goto w control)
  | take (victim : Fin n) (item : WorkItem ι) (rest : List (WorkItem ι)) (draining : Bool)
      (hfree : (s.control w).held = []) (hqueue : s.queues victim = item :: rest)
      (howner : victim = w ∨ s.stolen w = some item) :
      Moves s w (s.take w victim item rest draining)
  | start (item : WorkItem ι) (draining : Bool) (hcontrol : s.control w = .taken item draining)
      (hvalid : item.valid = true) (id : String)
      (hid : id = if item.correlationId = "" then s.correlationId w else item.correlationId) :
      Moves s w ((s.goto w (.running item (s.correlationId w) draining)).setCorrelationId w id)
  | skip (item : WorkItem ι) (draining : Bool) (hcontrol : s.control w = .taken item draining)
      (hvalid : item.valid = false) :
      Moves s w { s.goto w (.resume draining) with skipped := s.skipped ++ [item] }
  | finish (item : WorkItem ι) (previousId : String) (draining : Bool)
      (hcontrol : s.control w = .running item previousId draining) :
      Moves s w { (s.goto w (.resume draining)).setCorrelationId w previousId with
        executed := s.executed ++ [item] }
  | exit (hcontrol : s.control w = .drain) (hqueue : s.queues w = []) :
      Moves s w ((s.goto w .exited).setCorrelationId w "")

variable {s s' : System ι n} {w : Fin n}

@[simp]
theorem correlationId_setCorrelationId (s : System ι n) (w : Fin n) (id : String) :
  (s.setCorrelationId w id).correlationId w = id
  := Function.update_self ..

theorem setCorrelationId_self (s : System ι n) (w : Fin n) :
  s.setCorrelationId w (s.correlationId w) = s
  := by
  rw [setCorrelationId, Function.update_eq_self]

theorem moves_workerStep (h : s.workerStep w = some s') :
  Moves s w s'
  := by
  rw [workerStep] at h
  cases hcontrol : s.control w with
  | loop | check =>
    rw [hcontrol] at h
    cases h
    apply Moves.look
    · rw [hcontrol]
      rfl
    · split_ifs <;> rfl
    · split_ifs <;> rfl
  | seek distance =>
    have hfree : (s.control w).held = [] := by
      rw [hcontrol]
      rfl
    simp only [hcontrol] at h
    split_ifs at h with hdistance
    · cases hqueue : s.queues ⟨(w + distance) % n, Nat.mod_lt _ w.pos⟩ with
      | nil =>
        rw [hqueue] at h
        cases h
        exact Moves.look _ hfree rfl rfl
      | cons item rest =>
        rw [hqueue] at h
        cases h
        refine Moves.take _ _ _ _ hfree hqueue ?_
        rcases Nat.eq_zero_or_pos distance with rfl | hpos
        · left
          apply Fin.ext
          apply Nat.mod_eq_of_lt w.isLt
        · right
          rw [stolen, hcontrol]
          simp only [hpos, hdistance, and_self, if_true, hqueue, List.head?_cons]
    · cases h
      exact Moves.look _ hfree rfl rfl
  | taken item draining =>
    simp only [hcontrol] at h
    split_ifs at h with hvalid hid
    · cases h
      have hstart := Moves.start item draining hcontrol hvalid _ rfl
      have hself : (s.goto w (.running item (s.correlationId w) draining)).setCorrelationId w
          (s.correlationId w) = s.goto w (.running item (s.correlationId w) draining)
        := setCorrelationId_self _ w
      rwa [if_pos hid, hself] at hstart
    · cases h
      have hstart := Moves.start item draining hcontrol hvalid _ rfl
      rw [if_neg hid] at hstart
      apply hstart
    · cases h
      apply Moves.skip item draining hcontrol (Bool.eq_false_iff.mpr hvalid)
  | running item previousId draining =>
    rw [hcontrol] at h
    cases h
    apply Moves.finish item previousId draining hcontrol
  | drain =>
    have hfree : (s.control w).held = [] := by
      rw [hcontrol]
      rfl
    simp only [hcontrol] at h
    cases hqueue : s.queues w with
    | nil =>
      rw [hqueue] at h
      cases h
      apply Moves.exit hcontrol hqueue
    | cons item rest =>
      rw [hqueue] at h
      cases h
      apply Moves.take _ _ _ _ hfree hqueue (.inl rfl)
  | exited =>
    rw [hcontrol] at h
    cases h

/-- A step of a worker leaves the submissions, what it does not take from the queues, and the other
workers as they are. -/
structure Frame (s : System ι n) (w : Fin n) (s' : System ι n) : Prop where
  begun : s'.begun = s.begun
  queues : ∀ v, s'.queues v ⊆ s.queues v
  control : ∀ v, v ≠ w → s'.control v = s.control v
  correlationId : ∀ v, v ≠ w → s'.correlationId v = s.correlationId v

theorem frame_refl (s : System ι n) (w : Fin n) :
  Frame s w s
  where
  begun := rfl
  queues := fun _ => List.Subset.refl _
  control := fun _ _ => rfl
  correlationId := fun _ _ => rfl

theorem frame_goto (s : System ι n) (w : Fin n) (control : Control ι) :
  Frame s w (s.goto w control)
  where
  begun := rfl
  queues := fun _ => List.Subset.refl _
  control := fun _ hv => control_goto_of_ne s control hv
  correlationId := fun _ _ => rfl

theorem Frame.setCorrelationId (h : Frame s w s') (id : String) :
  Frame s w (s'.setCorrelationId w id)
  where
  begun := h.begun
  queues := h.queues
  control := h.control
  correlationId := by
    intro v hv
    rw [System.setCorrelationId]
    simp only [Function.update_of_ne hv]
    apply h.correlationId v hv

variable {victim : Fin n} {rest : List (WorkItem ι)} {item : WorkItem ι}

/-- Taking an item sets the identifier only of a worker that steals one with an identifier. -/
theorem take_eq {draining : Bool} (h : victim = w ∨ item.correlationId = "") :
  s.take w victim item rest draining
    = { s.goto w (.taken item draining) with queues := Function.update s.queues victim rest }
  := if_pos h

theorem frame_take (hqueue : s.queues victim = item :: rest) (draining : Bool) :
  Frame s w (s.take w victim item rest draining)
  := by
  have htaken : Frame s w { s.goto w (.taken item draining) with
      queues := Function.update s.queues victim rest } := by
    obtain ⟨hbegun, -, hcontrol, hid⟩ := frame_goto s w (.taken item draining)
    refine ⟨hbegun, ?_, hcontrol, hid⟩
    intro v
    obtain rfl | hv := eq_or_ne v victim
    · simp only [Function.update_self, hqueue]
      apply List.subset_cons_self
    · simp only [Function.update_of_ne hv]
      apply List.Subset.refl
  rw [take]
  split_ifs
  · apply htaken
  · apply htaken.setCorrelationId

theorem Moves.frame (h : Moves s w s') :
  Frame s w s'
  := by
  cases h with
  | look control => apply frame_goto
  | take victim item rest draining hfree hqueue => apply frame_take hqueue
  | start | exit => apply (frame_goto s w _).setCorrelationId
  | skip item draining =>
    obtain ⟨hbegun, hqueues, hcontrol, hid⟩ := frame_goto s w (.resume draining)
    exact ⟨hbegun, hqueues, hcontrol, hid⟩
  | finish item previousId draining =>
    obtain ⟨hbegun, hqueues, hcontrol, hid⟩
      := (frame_goto s w (.resume draining)).setCorrelationId previousId
    exact ⟨hbegun, hqueues, hcontrol, hid⟩

end System

end Scheduler

end Agamemnon
