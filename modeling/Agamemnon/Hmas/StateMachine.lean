import Agamemnon.Hmas.Types

/-!
# The state machine of tasks

The transition table and the walks the handlers make through it.  A handler does not
know in which state it finds a task, so it tries one event after the other; what a walk
amounts to is given by `startedWalk_eq`, `completionWalk_eq` and `failedWalk_eq`.
-/

namespace Agamemnon

/-- `TaskEvent`. -/
inductive TaskEvent where
  | submit
  | delegate
  | start
  | escalate
  | retry
  | complete
  | fail
deriving DecidableEq, Repr

/-- `Transition`; the action receives the current time stamp. -/
structure Transition where
  target : TaskState
  guard : HmasTask → Bool := fun _ => true
  action : String → HmasTask → HmasTask := fun _ t => t

/-- The action of the transitions into a final state. -/
def stampCompletedAt (now : String) (t : HmasTask) : HmasTask :=
  { t with completedAt := now }

/-- The transitions registered for a state and an event. -/
def transitionTable : TaskState → TaskEvent → List Transition
  | .pending, .submit => [{ target := .decomposing }]
  | .decomposing, .delegate => [{ target := .delegated }]
  | .pending, .delegate => [{ target := .delegated, guard := fun t => t.layer = .l3TaskAgent }]
  | .delegated, .start => [{ target := .inProgress }]
  | .inProgress, .escalate => [{ target := .escalated }]
  | .escalated, .retry => [{ target := .delegated }]
  | .inProgress, .complete => [{ target := .completed, action := stampCompletedAt }]
  | .inProgress, .fail => [{ target := .failed, action := stampCompletedAt }]
  | .escalated, .fail => [{ target := .failed, action := stampCompletedAt }]
  | _, _ => []

/-- `TaskStateMachine::try_transition`: whether a transition was made, and the task
afterwards. -/
def tryTransition (now : String) (t : HmasTask) (event : TaskEvent) : Bool × HmasTask :=
  match (transitionTable t.state event).find? fun tr => tr.guard t with
  | none => (false, t)
  | some tr => (true, tr.action now { t with state := tr.target })

/-- The task after an event that may be rejected. -/
def advance (now : String) (event : TaskEvent) (t : HmasTask) : HmasTask :=
  (tryTransition now t event).2

/-! ### The walks of the handlers -/

/-- Leave `Pending`: the leaves are delegated, the other tasks are submitted. -/
def leavePending (now : String) (t : HmasTask) : HmasTask :=
  if t.state = .pending then
    let (ok, t') := tryTransition now t .delegate
    if ok then t' else advance now .submit t'
  else t

/-- Try an event in one state only. -/
def advanceFrom (now : String) (state : TaskState) (event : TaskEvent) (t : HmasTask) :
    HmasTask :=
  if t.state = state then advance now event t else t

/-- The walk of `on_myrmidon_completion`. -/
def completionWalk (now : String) (t : HmasTask) : HmasTask :=
  let t := advanceFrom now .escalated .retry t
  let t := leavePending now t
  let t := advanceFrom now .decomposing .delegate t
  let t := advanceFrom now .delegated .start t
  advance now .complete t

/-- The walk of `on_myrmidon_started`. -/
def startedWalk (now : String) (t : HmasTask) : HmasTask :=
  let t := advanceFrom now .escalated .retry t
  let t := leavePending now t
  let t := advanceFrom now .decomposing .delegate t
  advance now .start t

/-- The walk of `on_myrmidon_failed`. -/
def failedWalk (now : String) (t : HmasTask) : HmasTask :=
  let t := leavePending now t
  let t := advanceFrom now .decomposing .delegate t
  let t := advanceFrom now .delegated .start t
  advance now .fail t

/-- The walk of `delegate`: whether the task was delegated, and the task afterwards. -/
def delegateWalk (now : String) (t : HmasTask) : Bool × HmasTask :=
  let (ok, t) := tryTransition now t .delegate
  if !ok && t.state = .pending then
    let (submitted, t) := tryTransition now t .submit
    if submitted then tryTransition now t .delegate else (false, t)
  else (ok, t)

/-! ### What the walks amount to -/

/-- The task in the given state. -/
def HmasTask.withState (t : HmasTask) (state : TaskState) : HmasTask :=
  { t with state }

/-- The task in a final state, reached at the time `now`. -/
def HmasTask.finished (t : HmasTask) (state : TaskState) (now : String) : HmasTask :=
  { t with state, completedAt := now }

/-- A start takes a task to `InProgress`, unless it is in a final state. -/
theorem startedWalk_eq (now : String) (t : HmasTask) :
  startedWalk now t = if t.state.terminal then t else t.withState .inProgress
  := by
  obtain ⟨_, _, _, layer, state⟩ := t
  cases state <;> cases layer <;> rfl

/-- A completion takes a task to `Completed`, unless it is in a final state. -/
theorem completionWalk_eq (now : String) (t : HmasTask) :
  completionWalk now t = if t.state.terminal then t else t.finished .completed now
  := by
  obtain ⟨_, _, _, layer, state⟩ := t
  cases state <;> cases layer <;> rfl

/-- A failure takes a task to `Failed`, unless it is in a final state. -/
theorem failedWalk_eq (now : String) (t : HmasTask) :
  failedWalk now t = if t.state.terminal then t else t.finished .failed now
  := by
  obtain ⟨_, _, _, layer, state⟩ := t
  cases state <;> cases layer <;> rfl

/-- A pending task can be delegated. -/
theorem delegateWalk_of_pending (now : String) {t : HmasTask} (h : t.state = .pending) :
  delegateWalk now t = (true, t.withState .delegated)
  := by
  obtain ⟨_, _, _, layer, state⟩ := t
  subst h
  cases layer <;> rfl

/-- A task can be escalated when it is in progress. -/
theorem tryTransition_escalate (now : String) (t : HmasTask) :
  tryTransition now t .escalate
    = if t.state = .inProgress then (true, t.withState .escalated) else (false, t)
  := by
  obtain ⟨_, _, _, layer, state⟩ := t
  cases state <;> rfl

/-- A pending task that is submitted is decomposed next. -/
theorem advance_submit (now : String) {t : HmasTask} (h : t.state = .pending) :
  advance now .submit t = t.withState .decomposing
  := by
  obtain ⟨_, _, _, layer, state⟩ := t
  subst h
  rfl

/-- A pending task that is submitted and delegated is delegated. -/
theorem advance_submit_delegate (now : String) {t : HmasTask} (h : t.state = .pending) :
  advance now .delegate (advance now .submit t) = t.withState .delegated
  := by
  obtain ⟨_, _, _, layer, state⟩ := t
  subst h
  rfl

/-! A walk changes the state and the time of completion only. -/

@[simp]
theorem advance_id (now : String) (event : TaskEvent) (t : HmasTask) :
  (advance now event t).id = t.id
  := by
  obtain ⟨_, _, _, layer, state⟩ := t
  cases state <;> cases event <;> cases layer <;> rfl

@[simp]
theorem startedWalk_id (now : String) (t : HmasTask) :
  (startedWalk now t).id = t.id
  := by
  rw [startedWalk_eq]
  split <;> rfl

@[simp]
theorem completionWalk_id (now : String) (t : HmasTask) :
  (completionWalk now t).id = t.id
  := by
  rw [completionWalk_eq]
  split <;> rfl

@[simp]
theorem completionWalk_childTaskIds (now : String) (t : HmasTask) :
  (completionWalk now t).childTaskIds = t.childTaskIds
  := by
  rw [completionWalk_eq]
  split <;> rfl

@[simp]
theorem failedWalk_id (now : String) (t : HmasTask) :
  (failedWalk now t).id = t.id
  := by
  rw [failedWalk_eq]
  split <;> rfl

end Agamemnon
