import Agamemnon.Lib.Attempt
import Agamemnon.Store.Effects
import Agamemnon.Store.Loading
import Agamemnon.Store.Restart

/-!
# Operations with a client that throws

The operations of the store as they are carried out, step by step: the collection is loaded,
the entity is found, the map is written, the issue is written and a metric is recorded, each in
its place.  The client may throw in any of its calls.  Where it does not, an operation does
what it does to a deployment (`exec_perform`).
-/

namespace Agamemnon

open StoreOp

/-! ### The client and the store -/

/-- What an operation throws: an exception of its own, or one of the client. -/
inductive Failure where
  | own (e : Exn)
  | client (what : String)

/-- What the client answers during an operation.  An entity is printed and sent in one call, as
either may throw. -/
structure Client where
  listIssues : (label : String) → Option (List Json)
  createIssue : (title entityType : String) → (entity : Json) → (label : String) →
    Except Failure String
  updateIssueBody : (number entityType : String) → (entity : Json) → Except Failure Unit
  closeIssue : (number : String) → Except Failure Unit

/-- The collections that are loaded on their own. -/
inductive Shelf where
  | entities (c : Collection)
  | hmasTasks
  | briefs
deriving DecidableEq

/-- The store in memory: its collections, and which of them have been loaded. -/
structure LiveStore where
  memory : Memory
  hmasTaskIssueNumbers : StringMap String
  briefIssueNumbers : StringMap String
  loaded : Shelf → Bool

namespace LiveStore

/-- All collections in memory. -/
def collections (s : LiveStore) : Memory × StringMap String × StringMap String :=
  (s.memory, s.hmasTaskIssueNumbers, s.briefIssueNumbers)

/-- The stored entity with an identifier. -/
def stored (s : LiveStore) (c : Collection) (id : String) : Option Json :=
  (s.memory.entities c).lookup id

/-- Put an entity into a collection. -/
def put (c : Collection) (id : String) (entity : Json) (s : LiveStore) : LiveStore :=
  { s with memory := s.memory.setEntities c ((s.memory.entities c).insert id entity) }

/-- Erase an entity from a collection. -/
def erase (c : Collection) (id : String) (s : LiveStore) : LiveStore :=
  { s with memory := s.memory.setEntities c ((s.memory.entities c).erase id) }

/-- Replace a task that is stored. -/
def putHmasTask (id : String) (t : HmasTask) (s : LiveStore) : LiveStore :=
  { s with memory := { s.memory with hmasTasks := s.memory.hmasTasks.insert id t } }

/-- Mark a collection as loaded. -/
def markLoaded (shelf : Shelf) (s : LiveStore) : LiveStore :=
  { s with loaded := Function.update s.loaded shelf true }

end LiveStore

/-- An operation on the store. -/
abbrev Operation : Type → Type :=
  Attempt Failure LiveStore

namespace Operation

/-- A computation on JSON values. -/
def reading {α : Type} (r : Except Exn α) : Except Failure α :=
  r.mapError .own

variable (parse : String → Option Json) (gh : Option Client) (metrics : Bool) (env : StoreEnv)

/-- The functions `ensure_*_loaded_`. -/
def load : Shelf → Operation Unit
  | .entities c => .ofExec fun s =>
      let cache : Cache := { loaded := s.loaded (.entities c), entities := s.memory.entities c }
      let (outcome, cache) := ensureLoaded parse c (gh.map (·.listIssues)) cache
      (reading outcome,
        { s with
          memory := s.memory.setEntities c cache.entities
          loaded := Function.update s.loaded (.entities c) cache.loaded })
  | .hmasTasks => .ofExec fun s =>
      if s.loaded .hmasTasks = true then (.ok (), s)
      else
        match gh.bind (·.listIssues "agamemnon-hmas-task") with
        | none => (.ok (), s.markLoaded .hmasTasks)
        | some issues =>
            let (memory, hmasTaskIssueNumbers) :=
              hydrateHmasTasks parse issues s.memory s.hmasTaskIssueNumbers
            (.ok (), { s.markLoaded .hmasTasks with memory, hmasTaskIssueNumbers })
  | .briefs => .ofExec fun s =>
      if s.loaded .briefs = true then (.ok (), s)
      else
        match gh.bind (·.listIssues "agamemnon-brief") with
        | none => (.ok (), s.markLoaded .briefs)
        | some issues =>
            let (memory, briefIssueNumbers) :=
              hydrateBriefs parse issues s.memory s.briefIssueNumbers
            (.ok (), { s.markLoaded .briefs with memory, briefIssueNumbers })

/-! ### One issue -/

/-- Make an issue, if there is a client; the number of the issue, or nothing. -/
def makeIssue (title entityType : String) (entity : Json) (label : String) :
    Except Failure String :=
  match gh with
  | none => .ok ""
  | some client => client.createIssue title entityType entity label

/-- Write an entity to its issue, if it has one. -/
def rewriteIssue (c : Collection) (id : String) (entity : Json) : Except Failure Unit :=
  match gh, entity.get? "_github_issue" with
  | some client, some v => do
      let number ← reading v.getString
      client.updateIssueBody number (c.entityType id) entity
  | _, _ => .ok ()

/-- Close the issue of an entity, if it has one. -/
def closeIssueOf (entity : Json) : Except Failure Unit :=
  match gh, entity.get? "_github_issue" with
  | some client, some v => do
      let number ← reading v.getString
      client.closeIssue number
  | _, _ => .ok ()

/-- Write a task to its issue, if the number of the issue is known. -/
def rewriteHmasTaskIssue (numbers : StringMap String) (id : String) (t : HmasTask) :
    Except Failure Unit :=
  match gh, numbers.lookup id with
  | some client, some number =>
      client.updateIssueBody number ("hmas-tasks/" ++ id) (hmasTaskToJson t)
  | _, _ => .ok ()

/-- The metric of `update_task` reads the new status, if there is one. -/
def recordStatus (body : Json) : Except Failure Unit :=
  match metrics, body.get? "status" with
  | true, some status => do
      let _ ← reading status.getString
  | _, _ => .ok ()

/-! ### Families of operations -/

/-- Make an issue for a new entity, and store the entity with the number of the issue. -/
def createEntity (c : Collection) (new : Except Exn (String × Json)) : Operation Unit := do
  load parse gh (.entities c)
  let (title, entity) ← .lift (reading new)
  let number ← .lift (makeIssue gh title (c.entityType env.uuid) entity c.label)
  modify (·.put c env.uuid
    (if number = "" then entity else entity.set "_github_issue" (.string number)))

/-- Change an entity that is stored, and write it to its issue. -/
def updateEntity (c : Collection) (id : String) (f : Json → Json) : Operation Unit := do
  load parse gh (.entities c)
  match (← get).stored c id with
  | none => pure ()
  | some entity => do
      modify (·.put c id (f entity))
      .lift (rewriteIssue gh c id (f entity))

/-- Close the issue of an entity, and erase the entity. -/
def removeEntity (c : Collection) (id : String) : Operation Unit := do
  load parse gh (.entities c)
  match (← get).stored c id with
  | none => pure ()
  | some entity => do
      .lift (closeIssueOf gh entity)
      modify (·.erase c id)

/-- Change a task that is stored, and write it to its issue. -/
def rewriteHmasTask (id : String) (f : HmasTask → HmasTask) : Operation Unit := do
  load parse gh .hmasTasks
  match (← get).memory.hmasTasks.lookup id with
  | none => pure ()
  | some t => do
      modify (·.putHmasTask id (f t))
      .lift (rewriteHmasTaskIssue gh (← get).hmasTaskIssueNumbers id (f t))

/-! ### Operations -/

/-- `update_task`. -/
def updateTask (teamId taskId : String) (body : Json) : Operation Unit :=
  if body.isObject = false ∨ teamId = "" then pure ()
  else do
    load parse gh (.entities .tasks)
    match (← get).stored .tasks taskId with
    | none => pure ()
    | some task => do
        let owner ← .lift (reading (task.valueString "teamId" ""))
        if owner ≠ teamId then pure ()
        else do
          modify (·.put .tasks taskId (changedTask env body task))
          .lift (rewriteIssue gh .tasks taskId (changedTask env body task))
          .lift (recordStatus metrics body)

/-- `mark_task_completed`. -/
def markTaskCompleted (taskId : String) : Operation Unit := do
  load parse gh (.entities .tasks)
  match (← get).stored .tasks taskId with
  | none => pure ()
  | some task => do
      let _ ← .lift (reading (task.valueString "status" "pending"))
      modify (·.put .tasks taskId (completedTask env task))
      .lift (rewriteIssue gh .tasks taskId (completedTask env task))

/-- `create_hmas_task`. -/
def createHmasTask (t : HmasTask) : Operation Unit := do
  load parse gh .hmasTasks
  let number ← .lift (makeIssue gh ("hmas-task: " ++ t.id) ("hmas-tasks/" ++ t.id)
    (hmasTaskToJson t) "agamemnon-hmas-task")
  modify fun s => { s with
    memory := s.memory.createHmasTask t
    hmasTaskIssueNumbers :=
      if number = "" then s.hmasTaskIssueNumbers else s.hmasTaskIssueNumbers.insert t.id number }

/-- `update_hmas_task`. -/
def updateHmasTask (t : HmasTask) : Operation Unit := do
  load parse gh .hmasTasks
  match (← get).memory.hmasTasks.lookup t.id with
  | none => pure ()
  | some _ => do
      modify fun s => { s with memory := (s.memory.updateHmasTask t).2 }
      .lift (rewriteHmasTaskIssue gh (← get).hmasTaskIssueNumbers t.id t)

/-- `create_task_brief`. -/
def createTaskBrief (b : TaskBrief) : Operation Unit := do
  load parse gh .briefs
  let number ← .lift (makeIssue gh ("brief: " ++ Deployment.truncatedTitle b.title)
    ("briefs/" ++ b.id) (taskBriefToJson b) "agamemnon-brief")
  modify fun s => { s with
    memory := s.memory.createTaskBrief b
    briefIssueNumbers :=
      if number = "" then s.briefIssueNumbers else s.briefIssueNumbers.insert b.id number }

/-- Carry out an operation. -/
def perform : StoreOp → Operation Unit
  | .createAgent body => createEntity parse gh env .agents (newAgent env body)
  | .updateAgent id fields =>
      if fields.isObject = false then pure ()
      else updateEntity parse gh .agents id (changedAgent env fields)
  | .startAgent id => updateEntity parse gh .agents id (·.set "status" (.string "online"))
  | .stopAgent id => updateEntity parse gh .agents id (·.set "status" (.string "offline"))
  | .deleteAgent id => removeEntity parse gh .agents id
  | .createTeam body => createEntity parse gh env .teams (newTeam env body)
  | .updateTeam id body => updateEntity parse gh .teams id (changedTeam env body)
  | .deleteTeam id => removeEntity parse gh .teams id
  | .createTask teamId body => createEntity parse gh env .tasks (newTask env teamId body)
  | .updateTask teamId taskId body => updateTask parse gh metrics env teamId taskId body
  | .markTaskCompleted taskId => markTaskCompleted parse gh env taskId
  | .createFault type => createEntity parse gh env .faults (.ok (newFault env type))
  | .removeFault id => removeEntity parse gh .faults id
  | .createHmasTask t => createHmasTask parse gh t
  | .updateHmasTask t => updateHmasTask parse gh t
  | .updateHmasTaskState id state => rewriteHmasTask parse gh id fun t => { t with state }
  | .updateHmasTaskStateAndRecordEscalation id newState escalation =>
      rewriteHmasTask parse gh id fun t =>
        { t with state := newState, escalations := t.escalations ++ [escalation] }
  | .createTaskBrief b => createTaskBrief parse gh b

end Operation

/-! ### A client that does not throw -/

/-- A client that answers every call, and gives a new issue the number of the environment. -/
def Client.answering (env : StoreEnv) : Client where
  listIssues := fun _ => none
  createIssue := fun _ _ _ _ => .ok (toString env.number)
  updateIssueBody := fun _ _ _ => .ok ()
  closeIssue := fun _ => .ok ()

/-- The store of a deployment, with all collections loaded. -/
def Deployment.live (d : Deployment) : LiveStore where
  memory := d.memory
  hmasTaskIssueNumbers := d.hmasTaskIssueNumbers
  briefIssueNumbers := d.briefIssueNumbers
  loaded := fun _ => true

namespace Operation

open Attempt

variable {parse : String → Option Json} {gh : Option Client} {metrics : Bool} {env : StoreEnv}
  {dump : Json → String} {d : Deployment} {c : Collection} {id : String}

theorem setEntities_entities (m : Memory) (c : Collection) :
  m.setEntities c (m.entities c) = m
  := by cases c <;> rfl

/-- A collection that has been loaded is not loaded again. -/
theorem exec_load_of_loaded {s : LiveStore} {shelf : Shelf} (h : s.loaded shelf = true) :
  exec (load parse gh shelf) s = (.ok (), s)
  := by
  cases shelf with
  | entities c =>
    rw [load, exec_ofExec]
    simp only [ensureLoaded, h, ↓reduceIte, setEntities_entities]
    rw [← h, Function.update_eq_self]
    rfl
  | hmasTasks | briefs => rw [load, exec_ofExec, if_pos h]

/-- What has been loaded is at hand. -/
theorem exec_load_bind {α : Type} {shelf : Shelf} (f : Unit → Operation α) :
  exec (load parse gh shelf >>= f) d.live = exec (f ()) d.live
  := by
  rw [exec_bind, exec_load_of_loaded rfl]

theorem live_writeEntity {entity : Json} :
  (d.writeEntity dump c id entity).2.live = d.live.put c id entity
  := by
  rw [Deployment.writeEntity]
  split
  · rfl
  · split <;> rfl

theorem live_createEntity (d : Deployment) (c : Collection) (new : Except Exn (String × Json)) :
  (exec (createEntity parse (some (.answering env)) env c new) d.live).2
    = match new with
      | .error _ => d.live
      | .ok (title, entity) => (d.createEntity dump env c title entity).2.live
  := by
  rw [createEntity, exec_load_bind]
  cases new with
  | error e | ok r => rfl

theorem live_updateEntity (c : Collection) (id : String) (f reply : Json → Json) :
  (exec (updateEntity parse (some (.answering env)) c id f) d.live).2
    = (d.updateEntity dump c id f reply).2.live
  := by
  rw [updateEntity, exec_load_bind, exec_get_bind, Deployment.updateEntity,
    show d.live.stored c id = (d.memory.entities c).lookup id from rfl]
  cases (d.memory.entities c).lookup id with
  | none => rfl
  | some entity => simp only [exec_bind, exec_modify, exec_lift, live_writeEntity]

theorem live_removeEntity (c : Collection) (id : String) :
  (exec (removeEntity parse (some (.answering env)) c id) d.live).2
    = (d.removeEntity c id).2.live
  := by
  rw [removeEntity, exec_load_bind, exec_get_bind, Deployment.removeEntity,
    show d.live.stored c id = (d.memory.entities c).lookup id from rfl]
  cases (d.memory.entities c).lookup id with
  | none => rfl
  | some entity =>
    simp only [exec_bind, exec_lift, closeIssueOf]
    cases entity.get? "_github_issue" with
    | none => rfl
    | some v => cases v <;> rfl

theorem live_rewriteHmasTask (id : String) (f : HmasTask → HmasTask) :
  (exec (rewriteHmasTask parse (some (.answering env)) id f) d.live).2
    = (d.rewriteHmasTask dump id f).2.live
  := by
  rw [rewriteHmasTask, exec_load_bind, exec_get_bind, Deployment.rewriteHmasTask,
    show d.live.memory.hmasTasks.lookup id = d.memory.hmasTasks.lookup id from rfl]
  cases d.memory.hmasTasks.lookup id with
  | none => rfl
  | some t =>
    simp only [exec_bind, exec_modify, exec_get, exec_lift]
    cases d.hmasTaskIssueNumbers.lookup id <;> rfl

/-- With a client that answers, an operation does to the store what it does to the
deployment. -/
theorem live_perform (op : StoreOp) :
  (exec (perform parse (some (.answering env)) metrics env op) d.live).2
    = (op.apply dump env d).live
  := by
  cases op with
  | createAgent body =>
    rw [perform, @live_createEntity parse env dump d, apply, Deployment.createAgent]
    cases newAgent env body <;> rfl
  | updateAgent id fields =>
    rw [perform, apply, Deployment.updateAgent]
    split
    · rfl
    · apply live_updateEntity
  | startAgent id | stopAgent id | updateTeam id body => apply live_updateEntity
  | deleteAgent id | deleteTeam id | removeFault id => apply live_removeEntity
  | createTeam body =>
    rw [perform, @live_createEntity parse env dump d, apply, Deployment.createTeam]
    cases newTeam env body <;> rfl
  | createTask teamId body =>
    rw [perform, @live_createEntity parse env dump d, apply, Deployment.createTask]
    cases newTask env teamId body <;> rfl
  | updateTask teamId taskId body =>
    rw [perform, updateTask, apply, Deployment.updateTask]
    split
    · rfl
    · rw [exec_load_bind, exec_get_bind,
        show d.live.stored .tasks taskId = d.memory.tasks.lookup taskId from rfl]
      cases htask : d.memory.tasks.lookup taskId with
      | none => rfl
      | some task =>
        simp only [exec_bind, exec_lift]
        cases task.valueString "teamId" "" with
        | error e => rfl
        | ok owner =>
          simp only [reading, Except.mapError]
          split
          · rfl
          · rw [Deployment.updateEntity,
              show (d.memory.entities .tasks).lookup taskId = some task from htask]
            simp only [live_writeEntity, exec_bind, exec_modify, exec_lift]
            cases rewriteIssue (some (.answering env)) .tasks taskId (changedTask env body task)
              <;> rfl
  | markTaskCompleted taskId =>
    rw [perform, markTaskCompleted, exec_load_bind, exec_get_bind, apply,
      Deployment.markTaskCompleted,
      show d.live.stored .tasks taskId = d.memory.tasks.lookup taskId from rfl]
    cases d.memory.tasks.lookup taskId with
    | none => rfl
    | some task =>
      simp only [exec_bind, exec_lift]
      cases task.valueString "status" "pending" with
      | error e => rfl
      | ok status => simp only [reading, Except.mapError, live_writeEntity, exec_modify]
  | createFault type =>
    rw [perform, @live_createEntity parse env dump d, apply, Deployment.createFault]
  | createHmasTask t =>
    rw [perform, createHmasTask, exec_load_bind]
    rfl
  | updateHmasTask t =>
    rw [perform, updateHmasTask, exec_load_bind, exec_get_bind, apply, Deployment.updateHmasTask,
      Memory.updateHmasTask,
      show d.live.memory.hmasTasks.lookup t.id = d.memory.hmasTasks.lookup t.id from rfl]
    cases htask : d.memory.hmasTasks.lookup t.id with
    | none => rfl
    | some old =>
      simp only [exec_bind, exec_modify, exec_get, exec_lift, Bool.true_eq_false, ↓reduceIte]
      rw [show d.live.memory.updateHmasTask t = d.memory.updateHmasTask t from rfl,
        Memory.updateHmasTask, htask]
      cases d.hmasTaskIssueNumbers.lookup t.id <;> rfl
  | updateHmasTaskState id state | updateHmasTaskStateAndRecordEscalation id newState escalation =>
    apply live_rewriteHmasTask
  | createTaskBrief b =>
    rw [perform, createTaskBrief, exec_load_bind]
    rfl

end Operation

end Agamemnon
