import Agamemnon.Hmas.Types

/-!
# The collections in memory

The maps of the store and what its operations on tasks and briefs do to them when no
GitHub client is configured.
-/

namespace Agamemnon

/-- The collections of the store. -/
structure Memory where
  agents : StringMap Json
  teams : StringMap Json
  tasks : StringMap Json
  faults : StringMap Json
  hmasTasks : StringMap HmasTask
  hmasTasksByBrief : StringMap (List String)
  taskBriefs : StringMap TaskBrief

namespace Memory

/-- No entity at all. -/
def empty : Memory where
  agents := ∅
  teams := ∅
  tasks := ∅
  faults := ∅
  hmasTasks := ∅
  hmasTasksByBrief := ∅
  taskBriefs := ∅

/-- `hmas_tasks_by_brief_[brief_id].push_back(id)`, unless the brief is empty. -/
def pushToBrief (index : StringMap (List String)) (briefId id : String) :
    StringMap (List String) :=
  if briefId = "" then index
  else index.insert briefId ((index.lookup briefId).getD [] ++ [id])

/-- Remove a task from the tasks of a brief, and the brief with its last task. -/
def removeFromBrief (index : StringMap (List String)) (briefId id : String) :
    StringMap (List String) :=
  if briefId = "" then index
  else
    match ((index.lookup briefId).getD []).filter (· ≠ id) with
    | [] => index.erase briefId
    | rest => index.insert briefId rest

/-- `create_hmas_task`. -/
def createHmasTask (m : Memory) (t : HmasTask) : Memory :=
  { m with
    hmasTasks := m.hmasTasks.insert t.id t
    hmasTasksByBrief := pushToBrief m.hmasTasksByBrief t.briefId t.id }

/-- `get_hmas_task`. -/
def getHmasTask (m : Memory) (id : String) : Option HmasTask :=
  m.hmasTasks.lookup id

/-- `update_hmas_task`: whether the task is stored, and the collections afterwards. -/
def updateHmasTask (m : Memory) (t : HmasTask) : Bool × Memory :=
  match m.hmasTasks.lookup t.id with
  | none => (false, m)
  | some old =>
      (true,
        { m with
          hmasTasks := m.hmasTasks.insert t.id t
          hmasTasksByBrief :=
            if old.briefId = t.briefId then m.hmasTasksByBrief
            else pushToBrief (removeFromBrief m.hmasTasksByBrief old.briefId t.id)
              t.briefId t.id })

/-- `create_task_brief`. -/
def createTaskBrief (m : Memory) (b : TaskBrief) : Memory :=
  { m with taskBriefs := m.taskBriefs.insert b.id b }

/-- Complete a plain task at the time `now`; reading its old status may throw. -/
def markCompleted (now id : String) (tasks : StringMap Json) : Except Exn (StringMap Json) :=
  match tasks.lookup id with
  | none => .ok tasks
  | some task => do
      let _ ← task.valueString "status" "pending"
      let task := (task.set "status" (.string "completed")).set "completedAt" (.string now)
      return tasks.insert id task

/-- `mark_task_completed` at the time `now`. -/
def markTaskCompleted (m : Memory) (now id : String) : Except Exn Memory := do
  let tasks ← markCompleted now id m.tasks
  return { m with tasks }

end Memory

end Agamemnon
