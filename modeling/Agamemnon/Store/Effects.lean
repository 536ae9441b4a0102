import Agamemnon.Store.Runs
import Agamemnon.Store.Stamps

/-!
# What an operation does to one entity

An operation leaves an entity, creates it, changes it or removes it (`StoreOp.effect_apply`).
Only three of the operations that change an entity give it their own time stamp
(`StoreOp.stamp_change`).
-/

namespace Agamemnon

open Deployment Json

/-! ### Effects -/

namespace StoreOp

/-- The collection that the operation creates an entity in. -/
def creates : StoreOp → Option Collection
  | createAgent _ => some .agents
  | createTeam _ => some .teams
  | createTask _ _ => some .tasks
  | createFault _ => some .faults
  | _ => none

/-- The entity that the operation removes. -/
def removes : StoreOp → Option (Collection × String)
  | deleteAgent id => some (.agents, id)
  | deleteTeam id => some (.teams, id)
  | removeFault id => some (.faults, id)
  | _ => none

/-- The entity that the operation changes, and the change. -/
def change (env : StoreEnv) : StoreOp → Option (Collection × String × (Json → Json))
  | updateAgent id fields => some (.agents, id, changedAgent env fields)
  | startAgent id => some (.agents, id, (·.set "status" (.string "online")))
  | stopAgent id => some (.agents, id, (·.set "status" (.string "offline")))
  | updateTeam id body => some (.teams, id, changedTeam env body)
  | updateTask _ taskId body => some (.tasks, taskId, changedTask env body)
  | markTaskCompleted taskId => some (.tasks, taskId, completedTask env)
  | _ => none

/-- The entity that the operation creates, with the title of its issue, if it can be made. -/
def creation (env : StoreEnv) : StoreOp → Option (Collection × Except Exn (String × Json))
  | createAgent body => some (.agents, newAgent env body)
  | createTeam body => some (.teams, newTeam env body)
  | createTask teamId body => some (.tasks, newTask env teamId body)
  | createFault type => some (.faults, .ok (newFault env type))
  | _ => none

/-- The operation changes the state of an HMAS task. -/
def changesState : StoreOp → Bool
  | updateHmasTaskState _ _ | updateHmasTaskStateAndRecordEscalation _ _ _ => true
  | _ => false

/-- What the operation leaves. -/
inductive Does (dump : Json → String) (env : StoreEnv) (d : Deployment) (op : StoreOp) :
    Deployment → Prop
  | nothing : Does dump env d op d
  | create {c : Collection} {title : String} {entity : Json} (creates : op.creates = some c)
      (creation : op.creation env = some (c, .ok (title, entity))) :
      Does dump env d op (d.createEntity dump env c title entity).2
  | write {c : Collection} {id : String} {f : Json → Json} {entity : Json}
      (change : op.change env = some (c, id, f))
      (stored : (d.memory.entities c).lookup id = some entity) :
      Does dump env d op (d.writeEntity dump c id (f entity)).2
  | remove {c : Collection} {id : String} (removes : op.removes = some (c, id)) :
      Does dump env d op (d.removeEntity c id).2
  | createTask {t : HmasTask} (create : op = createHmasTask t) :
      Does dump env d op (d.createHmasTask dump env t)
  | updateTask {t : HmasTask} (update : op = updateHmasTask t) :
      Does dump env d op (d.updateHmasTask dump t).2
  | rewriteTask {id : String} {f : HmasTask → HmasTask} (changes : op.changesState = true)
      (keeps : ∀ t, (f t).id = t.id ∧ (f t).createdAt = t.createdAt) :
      Does dump env d op (d.rewriteHmasTask dump id f).2
  | createBrief {b : TaskBrief} : Does dump env d op (d.createTaskBrief dump env b)

theorem does_updateEntity {dump : Json → String} {env : StoreEnv} {d : Deployment} {op : StoreOp}
    {c : Collection} {id : String} {f : Json → Json} (hchange : op.change env = some (c, id, f))
    (reply : Json → Json) :
  op.Does dump env d (d.updateEntity dump c id f reply).2
  := by
  rw [updateEntity]
  split
  · exact .nothing
  · rename_i entity hentity
    exact .write hchange hentity

theorem does_apply (dump : Json → String) (env : StoreEnv) (d : Deployment) (op : StoreOp) :
  op.Does dump env d (op.apply dump env d)
  := by
  cases op with
  | createAgent body | createTeam body | createTask teamId body =>
    simp only [apply, Deployment.createAgent, Deployment.createTeam, Deployment.createTask]
    split
    · exact .nothing
    · rename_i hnew
      exact .create rfl (by rw [creation, hnew])
  | createFault type => exact .create rfl rfl
  | updateAgent id fields =>
    rw [apply, Deployment.updateAgent]
    split
    · exact .nothing
    · exact does_updateEntity rfl _
  | startAgent id | stopAgent id | updateTeam id body => exact does_updateEntity rfl _
  | deleteAgent id | deleteTeam id | removeFault id => exact .remove rfl
  | updateTask teamId taskId body =>
    rw [apply, Deployment.updateTask]
    split
    · exact .nothing
    split
    · exact .nothing
    split
    · exact .nothing
    split
    · exact .nothing
    · exact does_updateEntity rfl _
  | markTaskCompleted taskId =>
    rw [apply, Deployment.markTaskCompleted]
    split
    · exact .nothing
    · rename_i task htask
      split
      · exact .nothing
      · exact .write (c := .tasks) rfl htask
  | createHmasTask t => exact .createTask rfl
  | updateHmasTask t => exact .updateTask rfl
  | updateHmasTaskState id state | updateHmasTaskStateAndRecordEscalation id newState escalation =>
    exact .rewriteTask rfl fun t => ⟨rfl, rfl⟩
  | createTaskBrief b => exact .createBrief

/-- What the operation can do to the entity with the identifier `id`. -/
inductive Effect (env : StoreEnv) (op : StoreOp) (c : Collection) (id : String) :
    Option Json → Option Json → Prop
  | same {stored : Option Json} : Effect env op c id stored stored
  | created {stored : Option Json} {entity : Json} (creates : op.creates = some c)
      (drawn : id = env.uuid) (identified : entity.get? "id" = some (.string env.uuid)) :
      Effect env op c id stored (some entity)
  | changed {f : Json → Json} {entity : Json} (change : op.change env = some (c, id, f)) :
      Effect env op c id (some entity) (some (f entity))
  | removed {stored : Option Json} (removes : op.removes = some (c, id)) :
      Effect env op c id stored none

end StoreOp

variable {dump : Json → String} {env : StoreEnv} {d : Deployment} {op : StoreOp}
  {c c' : Collection} {id id' : String} {entity : Json}

namespace Deployment

/-- The stored entity with an identifier. -/
def stored (d : Deployment) (c : Collection) (id : String) : Option Json :=
  (d.memory.entities c).lookup id

theorem stored_put_self :
  (d.put c id entity).stored c id = some entity
  := by
  rw [stored, put, Memory.entities_setEntities_self]
  apply Finmap.lookup_insert

theorem stored_put_of_ne (h : ¬ (c' = c ∧ id' = id)) :
  (d.put c id entity).stored c' id' = d.stored c' id'
  := by
  rw [stored, put]
  by_cases hc : c' = c
  · subst hc
    rw [Memory.entities_setEntities_self, Finmap.lookup_insert_of_ne, stored]
    rintro rfl
    exact h ⟨rfl, rfl⟩
  · rw [Memory.entities_setEntities_of_ne _ _ hc, stored]

theorem stored_erase_self :
  (d.erase c id).stored c id = none
  := by
  rw [stored, erase, Memory.entities_setEntities_self]
  apply Finmap.lookup_erase

theorem stored_erase_of_ne (h : ¬ (c' = c ∧ id' = id)) :
  (d.erase c id).stored c' id' = d.stored c' id'
  := by
  rw [stored, erase]
  by_cases hc : c' = c
  · subst hc
    rw [Memory.entities_setEntities_self, Finmap.lookup_erase_ne, stored]
    rintro rfl
    exact h ⟨rfl, rfl⟩
  · rw [Memory.entities_setEntities_of_ne _ _ hc, stored]

theorem stored_writeEntity :
  (d.writeEntity dump c id entity).2.stored c' id' = (d.put c id entity).stored c' id'
  := by
  rw [writeEntity]
  split
  · rfl
  · split <;> rfl

/-- A new entity is stored with its members and the number of its issue. -/
theorem stored_createEntity {k : String} {v : Json} (hk : k ≠ "_github_issue")
    (h : entity.get? k = some v) (title : String) :
  ∃ entity', entity'.get? k = some v
    ∧ ∀ c' id', (d.createEntity dump env c title entity).2.stored c' id'
      = (d.put c env.uuid entity').stored c' id'
  := by
  refine ⟨_, ?_, fun _ _ => rfl⟩
  split_ifs
  · exact h
  · rw [get?_set_of_ne (isObject_of_get? h) hk, h]

theorem effect_createEntity (hcreates : op.creates = some c) {title : String}
    (hid : entity.get? "id" = some (.string env.uuid)) :
  op.Effect env c' id (d.stored c' id) ((d.createEntity dump env c title entity).2.stored c' id)
  := by
  obtain ⟨entity', hid', hstored⟩ := @stored_createEntity dump env d c entity _ _ (by decide) hid
    title
  rw [hstored]
  by_cases h : c' = c ∧ id = env.uuid
  · obtain ⟨rfl, rfl⟩ := h
    rw [stored_put_self]
    apply StoreOp.Effect.created hcreates rfl hid'
  · rw [stored_put_of_ne h]
    apply StoreOp.Effect.same

theorem effect_writeEntity {f : Json → Json} (hchange : op.change env = some (c, id, f))
    (hstored : d.stored c id = some entity) :
  op.Effect env c' id' (d.stored c' id')
    ((d.writeEntity dump c id (f entity)).2.stored c' id')
  := by
  rw [stored_writeEntity]
  by_cases h : c' = c ∧ id' = id
  · obtain ⟨rfl, rfl⟩ := h
    rw [stored_put_self, hstored]
    apply StoreOp.Effect.changed hchange
  · rw [stored_put_of_ne h]
    apply StoreOp.Effect.same

theorem effect_removeEntity (hremoves : op.removes = some (c, id)) :
  op.Effect env c' id' (d.stored c' id') ((d.removeEntity c id).2.stored c' id')
  := by
  have herase : op.Effect env c' id' (d.stored c' id') ((d.erase c id).stored c' id') := by
    by_cases h : c' = c ∧ id' = id
    · obtain ⟨rfl, rfl⟩ := h
      rw [stored_erase_self]
      apply StoreOp.Effect.removed hremoves
    · rw [stored_erase_of_ne h]
      apply StoreOp.Effect.same
  rw [removeEntity]
  split
  · apply StoreOp.Effect.same
  · split
    · exact herase
    · split
      · apply StoreOp.Effect.same
      · exact herase

theorem entities_updateHmasTask (m : Memory) (t : HmasTask) :
  (m.updateHmasTask t).2.entities c = m.entities c
  := by
  rw [Memory.updateHmasTask]
  split <;> rfl

theorem stored_updateHmasTask {t : HmasTask} :
  (d.updateHmasTask dump t).2.stored c id = d.stored c id
  := by
  have hentities := @entities_updateHmasTask c d.memory t
  rw [updateHmasTask]
  simp only
  split
  · rfl
  · split
    · exact congrArg (Finmap.lookup id) hentities
    · exact congrArg (Finmap.lookup id) hentities

theorem stored_rewriteHmasTask {f : HmasTask → HmasTask} :
  (d.rewriteHmasTask dump id' f).2.stored c id = d.stored c id
  := by
  rw [rewriteHmasTask]
  split
  · rfl
  · simp only
    split <;> rfl

end Deployment

section Creation

variable {body : Json} {title : String}

theorem get?_id_newAgent (h : newAgent env body = .ok (title, entity)) :
  entity.get? "id" = some (.string env.uuid)
  := by
  iterate 10 obtain ⟨_, -, h⟩ := exists_of_bind_eq_ok h
  obtain ⟨-, rfl⟩ := Prod.mk.inj (Except.ok.inj h)
  exact get?_ofMembers (by simp) "id"

theorem get?_id_newTeam (h : newTeam env body = .ok (title, entity)) :
  entity.get? "id" = some (.string env.uuid)
  := by
  iterate 2 obtain ⟨_, -, h⟩ := exists_of_bind_eq_ok h
  obtain ⟨-, rfl⟩ := Prod.mk.inj (Except.ok.inj h)
  exact get?_ofMembers (by simp) "id"

theorem get?_newTask {teamId : String} (h : newTask env teamId body = .ok (title, entity)) :
  entity.get? "id" = some (.string env.uuid) ∧ entity.get? "teamId" = some (.string teamId)
  := by
  iterate 5 obtain ⟨_, -, h⟩ := exists_of_bind_eq_ok h
  obtain ⟨-, rfl⟩ := Prod.mk.inj (Except.ok.inj h)
  exact ⟨get?_ofMembers (by simp) "id", get?_ofMembers (by simp) "teamId"⟩

theorem get?_id_newFault (env : StoreEnv) (type : String) :
  (newFault env type).2.get? "id" = some (.string env.uuid)
  := get?_ofMembers (by simp) "id"

theorem StoreOp.get?_id_of_creation (h : op.creation env = some (c, .ok (title, entity))) :
  entity.get? "id" = some (.string env.uuid)
  := by
  cases op with
  | createAgent body => exact get?_id_newAgent (Prod.mk.inj (Option.some.inj h)).2
  | createTeam body => exact get?_id_newTeam (Prod.mk.inj (Option.some.inj h)).2
  | createTask teamId body => exact (get?_newTask (Prod.mk.inj (Option.some.inj h)).2).1
  | createFault type =>
    cases h
    exact get?_id_newFault env type
  | _ => cases h

end Creation

/-- What an operation does to an entity. -/
theorem StoreOp.effect_apply (dump : Json → String) (env : StoreEnv) (d : Deployment)
    (op : StoreOp) (c : Collection) (id : String) :
  op.Effect env c id (d.stored c id) ((op.apply dump env d).stored c id)
  := by
  have hdoes := op.does_apply dump env d
  generalize op.apply dump env d = d' at hdoes ⊢
  cases hdoes with
  | nothing | createTask _ | createBrief => exact .same
  | create creates creation =>
    exact effect_createEntity creates (get?_id_of_creation creation)
  | write change stored => exact effect_writeEntity change stored
  | remove removes => exact effect_removeEntity removes
  | updateTask _ =>
    rw [stored_updateHmasTask]
    exact .same
  | rewriteTask _ _ =>
    rw [stored_rewriteHmasTask]
    exact .same

/-! ### The time stamps of changes -/

theorem isObject_assignFields (hobject : entity.isObject = true) (kept : List String)
    (fields : Json) :
  (assignFields kept fields entity).isObject = true
  := by
  unfold assignFields
  split
  · rename_i ms
    induction ms generalizing entity with
    | nil => exact hobject
    | cons m ms ih =>
      rw [List.foldl_cons]
      apply ih
      split
      · exact hobject
      · apply isObject_set hobject
  · exact hobject

theorem isObject_changedAgentIds (hobject : entity.isObject = true) (body : Json) :
  (changedAgentIds body entity).isObject = true
  := by
  rw [changedAgentIds]
  split
  · apply isObject_set hobject
  · split
    · apply isObject_set hobject
    · exact hobject

/-- An assignment to another member leaves the time stamp. -/
theorem stamp_set_of_ne (hobject : entity.isObject = true) {k : String} (v : Json)
    (hk : "updatedAt" ≠ k) :
  stamp (some (entity.set k v)) = stamp (some entity)
  := by
  have hget := Json.get?_set_of_ne (v := v) hobject hk
  cases entity with
  | object ms =>
    rw [stamp, stamp, readStamp, readStamp, Json.valueString, Json.valueString]
    rw [Json.set, Json.get?, Json.get?] at hget
    rw [Json.set, Json.valueWith, Json.valueWith, hget]
  | _ => contradiction

namespace StoreOp

/-- The operation gives the entity that it changes its own time stamp. -/
def stamps : StoreOp → Bool
  | updateAgent _ _ | updateTeam _ _ | updateTask _ _ _ => true
  | _ => false

/-- The time of the operation, at its last reading of the clock. -/
def time (env : StoreEnv) : StoreOp → String
  | updateTask _ _ _ => env.ts 1
  | _ => env.ts 0

theorem exists_time_eq (env : StoreEnv) (op : StoreOp) :
  ∃ i, op.time env = env.ts i
  := by
  unfold time
  split
  · use 1
  · use 0

/-- A changed entity is an object, and has the time stamp of the operation or the one it had. -/
theorem stamp_change {f : Json → Json} (hchange : op.change env = some (c, id, f))
    (hobject : entity.isObject = true) :
  (f entity).isObject = true
    ∧ stamp (some (f entity)) = if op.stamps = true then op.time env else stamp (some entity)
  := by
  cases op with
  | updateAgent id' fields =>
    cases hchange
    have hfields := isObject_assignFields hobject
      ["id", "createdAt", "_github_issue", "updatedAt"] fields
    exact ⟨isObject_set hfields, stamp_set hfields _⟩
  | startAgent id' | stopAgent id' =>
    cases hchange
    exact ⟨isObject_set hobject, stamp_set_of_ne hobject _ (by decide)⟩
  | updateTeam id' body =>
    cases hchange
    have hids := isObject_changedAgentIds hobject body
    rw [changedTeam]
    split
    · have hname := isObject_set (k := "name") (v := ‹Json›) hids
      exact ⟨isObject_set hname, stamp_set hname _⟩
    · exact ⟨isObject_set hids, stamp_set hids _⟩
  | updateTask teamId taskId body =>
    cases hchange
    have hfields := isObject_assignFields hobject
      ["id", "teamId", "createdAt", "_github_issue", "updatedAt"] body
    rw [changedTask]
    split
    · exact ⟨isObject_set (isObject_set hfields), stamp_set (isObject_set hfields) _⟩
    · exact ⟨isObject_set hfields, stamp_set hfields _⟩
  | markTaskCompleted taskId =>
    cases hchange
    have hstatus := isObject_set (k := "status") (v := .string "completed") hobject
    refine ⟨isObject_set hstatus, ?_⟩
    rw [completedTask, stamp_set_of_ne hstatus _ (by decide), stamp_set_of_ne hobject _ (by decide)]
    rfl
  | _ => contradiction

end StoreOp

/-! ### Accepted changes -/

namespace StoreOp

/-- The operation does not refuse to change the entity. -/
def Accepts (entity : Json) : StoreOp → Prop
  | updateAgent _ fields => fields.isObject = true
  | updateTask teamId _ body =>
      body.isObject = true ∧ teamId ≠ "" ∧ entity.valueString "teamId" "" = .ok teamId
  | markTaskCompleted _ => ∃ status, entity.valueString "status" "pending" = .ok status
  | _ => True

/-- The operation changes the stored entity with the identifier `id`. -/
def Mutates (env : StoreEnv) (d : Deployment) (c : Collection) (id : String) (op : StoreOp) :
    Prop :=
  ∃ f entity, op.change env = some (c, id, f) ∧ d.stored c id = some entity ∧ op.Accepts entity

variable {f : Json → Json}

theorem stored_updateEntity (hstored : d.stored c id = some entity) (reply : Json → Json) :
  (d.updateEntity dump c id f reply).2.stored c id = some (f entity)
  := by
  rw [updateEntity, show (d.memory.entities c).lookup id = _ from hstored]
  apply stored_writeEntity.trans stored_put_self

/-- The changed entity is stored. -/
theorem stored_apply (hchange : op.change env = some (c, id, f))
    (hstored : d.stored c id = some entity) (haccepts : op.Accepts entity) :
  (op.apply dump env d).stored c id = some (f entity)
  := by
  cases op with
  | updateAgent id' fields =>
    cases hchange
    rw [apply, Deployment.updateAgent, if_neg (by simp [show fields.isObject = true from haccepts])]
    apply stored_updateEntity hstored
  | startAgent id' | stopAgent id' | updateTeam id' body =>
    cases hchange
    apply stored_updateEntity hstored
  | updateTask teamId taskId body =>
    cases hchange
    obtain ⟨hbody, hteam, howner⟩ := haccepts
    have htask : d.memory.tasks.lookup id = some entity := hstored
    rw [apply, Deployment.updateTask, if_neg (by simp [hbody, hteam]), htask]
    simp only [howner]
    rw [if_neg (not_not.mpr rfl)]
    apply stored_updateEntity hstored
  | markTaskCompleted taskId =>
    cases hchange
    obtain ⟨status, hstatus⟩ := haccepts
    have htask : d.memory.tasks.lookup id = some entity := hstored
    rw [apply, Deployment.markTaskCompleted, htask]
    simp only [hstatus]
    apply Deployment.stored_writeEntity.trans Deployment.stored_put_self
  | _ => contradiction

end StoreOp

end Agamemnon
