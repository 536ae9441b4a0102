import Agamemnon.Lib.History
import Agamemnon.Store.Failures
import Agamemnon.Store.Identity

/-!
# Gauges

With a metrics registry attached, the store counts its agents and its tasks in two gauges.  A gauge
is adjusted where an entity is created and where an agent is deleted, but not where a collection is
loaded or an inbound event stores an entity.  So the gauges show what is stored as long as no load
and no event brings an identifier that is not stored (`gauges_match_iff`).
-/

namespace Agamemnon

open Attempt Operation LiveStore History

variable {parse : String → Option Json} {gh : Option Client} {env : StoreEnv} {s : LiveStore}
  {c c' : Collection} {id : String} {shelf : Shelf}

/-! ### Operations with a registry -/

/-- The gauges of the registry that count entities. -/
inductive Gauge where
  | agentsTotal
  | tasksTotal
deriving DecidableEq

/-- What a gauge counts. -/
def Gauge.collection : Gauge → Collection
  | agentsTotal => .agents
  | tasksTotal => .tasks

/-- A store, and the gauges of its registry. -/
structure MeteredStore where
  store : LiveStore
  gauges : Gauge → ℤ

/-- A store that has just been started, with a new registry. -/
def MeteredStore.fresh : MeteredStore where
  store := .fresh
  gauges := fun _ => 0

/-- An operation on a store with a registry. -/
abbrev MeteredOperation : Type → Type :=
  Attempt Failure MeteredStore

/-- `apply_github_event`, which loads the collection of the event. -/
def Operation.applyGithubEvent (parse : String → Option Json) (gh : Option Client)
    (e : NormalizedEvent) : Operation Bool :=
  match pickCollection e.entityLabel with
  | none => pure false
  | some c => do
      load parse gh (.entities c)
      let (applied, memory) ← .lift (reading ((← get).memory.applyGithubEvent parse e))
      modify fun s => { s with memory }
      return applied

namespace MeteredOperation

/-- An operation that leaves the gauges. -/
def onStore {α : Type} (x : Operation α) : MeteredOperation α :=
  focus MeteredStore.store (fun m store => { m with store }) x

/-- Add to a gauge. -/
def adjust (g : Gauge) (delta : ℤ) : MeteredOperation Unit :=
  modify fun m => { m with gauges := Function.update m.gauges g (m.gauges g + delta) }

/-- `adjust_agent_count`. -/
def adjustAgentCount (delta : ℤ) : MeteredOperation Unit :=
  adjust .agentsTotal delta

/-- `record_task_created`. -/
def recordTaskCreated : MeteredOperation Unit :=
  adjust .tasksTotal 1

variable (parse gh env)

/-- `create_agent`. -/
def createAgent (body : Json) : MeteredOperation Unit := do
  onStore (createEntity parse gh env .agents (newAgent env body))
  adjustAgentCount 1

/-- `delete_agent`. -/
def deleteAgent (id : String) : MeteredOperation Unit := do
  onStore (load parse gh (.entities .agents))
  match (← get).store.stored .agents id with
  | none => pure ()
  | some agent => do
      onStore (.lift (closeIssueOf gh agent))
      onStore (modify (·.erase .agents id))
      adjustAgentCount (-1)

/-- `create_task`. -/
def createTask (teamId : String) (body : Json) : MeteredOperation Unit := do
  onStore (createEntity parse gh env .tasks (newTask env teamId body))
  recordTaskCreated

/-- Carry out an operation.  The others record nothing in these gauges. -/
def perform : StoreOp → MeteredOperation Unit
  | .createAgent body => createAgent parse gh env body
  | .deleteAgent id => deleteAgent parse gh id
  | .createTask teamId body => createTask parse gh env teamId body
  | op => onStore (Operation.perform parse gh true env op)

end MeteredOperation

open MeteredOperation

/-- The registry changes nothing of what an operation does to the store. -/
theorem MeteredOperation.store_perform (parse : String → Option Json) (gh : Option Client)
    (env : StoreEnv) (op : StoreOp) (m : MeteredStore) :
  (exec (perform parse gh env op) m).2.store
    = (exec (Operation.perform parse gh true env op) m.store).2
  := by
  have hcreate : ∀ {c new} {g : Gauge}, (exec (do
        onStore (createEntity parse gh env c new)
        adjust g 1) m).2.store = (exec (createEntity parse gh env c new) m.store).2 := by
    intro c new g
    rw [exec_bind, onStore, exec_focus]
    cases (exec (createEntity parse gh env c new) m.store).1 <;> rfl
  cases op with
  | createAgent body => exact hcreate
  | createTask teamId body => exact hcreate
  | deleteAgent id =>
    rw [perform, deleteAgent, Operation.perform, removeEntity, exec_bind, exec_bind, onStore,
      exec_focus]
    rcases exec (load parse gh (.entities .agents)) m.store with ⟨r, s⟩
    cases r with
    | error e => rfl
    | ok a =>
      simp only [exec_get_bind]
      cases s.stored .agents id with
      | none => rfl
      | some agent =>
        simp only [exec_bind, onStore, exec_focus, exec_lift]
        cases closeIssueOf gh agent <;> rfl
  | _ => rfl

/-! ### Identifiers -/

namespace LiveStore

/-- The identifiers in a collection. -/
def ids (s : LiveStore) (c : Collection) : Finset String :=
  (s.memory.entities c).keys

variable {entity : Json}

theorem mem_ids :
  id ∈ s.ids c ↔ ∃ entity, s.stored c id = some entity
  := by
  rw [ids, Finmap.mem_keys, Finmap.mem_iff]
  rfl

theorem ids_put_self :
  (s.put c id entity).ids c = insert id (s.ids c)
  := by
  ext id'
  rw [ids, put, Memory.entities_setEntities_self, Finset.mem_insert, Finmap.mem_keys,
    Finmap.mem_insert, ids, Finmap.mem_keys]

theorem ids_put_of_ne (h : c' ≠ c) :
  (s.put c id entity).ids c' = s.ids c'
  := by
  rw [ids, put, Memory.entities_setEntities_of_ne _ _ h, ids]

/-- An entity that is stored is replaced. -/
theorem ids_put_of_mem (h : id ∈ s.ids c) :
  (s.put c id entity).ids c' = s.ids c'
  := by
  by_cases hc : c' = c
  · rw [hc, ids_put_self, Finset.insert_eq_of_mem h]
  · exact ids_put_of_ne hc

theorem ids_erase_self :
  (s.erase c id).ids c = (s.ids c).erase id
  := by
  ext id'
  rw [ids, erase, Memory.entities_setEntities_self, Finset.mem_erase, Finmap.mem_keys,
    Finmap.mem_erase, ids, Finmap.mem_keys]

theorem ids_erase_of_ne (h : c' ≠ c) :
  (s.erase c id).ids c' = s.ids c'
  := by
  rw [ids, erase, Memory.entities_setEntities_of_ne _ _ h, ids]

end LiveStore

/-! ### What a load brings -/

variable (parse gh)

/-- The identifiers that the loop over some issues stores, up to an issue that cannot be read. -/
def loadIds : List Json → List String
  | [] => []
  | issue :: issues =>
      match readEntity parse issue with
      | .error _ => []
      | .ok none => loadIds issues
      | .ok (some (id, _)) => id :: loadIds issues

/-- The issues that a load reads. -/
def pendingIssues (s : LiveStore) (c : Collection) : List Json :=
  s.pending gh (.entities c)

variable {parse gh}

theorem keys_loadEntities (issues : List Json) (es : StringMap Json) :
  (loadEntities parse issues es).2.keys = es.keys ∪ (loadIds parse issues).toFinset
  := by
  fun_induction loadEntities parse issues es with
  | case1 es => simp [loadIds]
  | case2 es issue issues exn hread => simp [loadIds, hread]
  | case3 es issue issues hread ih => rw [ih, loadIds, hread]
  | case4 es issue issues id entity hread ih =>
    rw [ih, loadIds, hread]
    ext id'
    simp only [Finset.mem_union, Finmap.mem_keys, Finmap.mem_insert, List.mem_toFinset,
      List.mem_cons]
    tauto

theorem loadEntities_ok_iff (issues : List Json) (es : StringMap Json) :
  (loadEntities parse issues es).1 = .ok () ↔ ∀ issue ∈ issues, ∃ r, readEntity parse issue = .ok r
  := by
  fun_induction loadEntities parse issues es with
  | case1 es => simp
  | case2 es issue issues exn hread => simp [hread]
  | case3 es issue issues hread ih => simp [ih, hread]
  | case4 es issue issues id entity hread ih => simp [ih, hread]

/-- The store after a load, whether it returns or throws. -/
def loadedStore (parse : String → Option Json) (gh : Option Client) (shelf : Shelf)
    (s : LiveStore) : LiveStore :=
  (exec (load parse gh shelf) s).2

theorem ids_loadedStore_self :
  (loadedStore parse gh (.entities c) s).ids c
    = s.ids c ∪ (loadIds parse (pendingIssues gh s c)).toFinset
  := by
  rw [loadedStore, load, exec_ofExec, ids, ids, ← keys_loadEntities]
  simp only [ensureLoaded_pending]
  exact congrArg Finmap.keys (Memory.entities_setEntities_self ..)

theorem ids_loadedStore_of_ne (h : shelf ≠ .entities c) :
  (loadedStore parse gh shelf s).ids c = s.ids c
  := by
  cases shelf with
  | entities c' =>
    rw [loadedStore, load, exec_ofExec, ids, ids]
    have hc : c ≠ c' := fun hc => h (congrArg Shelf.entities hc.symm)
    exact congrArg Finmap.keys (Memory.entities_setEntities_of_ne _ _ hc)
  | hmasTasks =>
    rw [loadedStore, load, exec_ofExec]
    split
    · rfl
    · split
      · rfl
      · exact congrArg Finmap.keys (Deployment.entities_hydrateHmasTasks _ s.memory _ c)
  | briefs =>
    rw [loadedStore, load, exec_ofExec]
    split
    · rfl
    · split
      · rfl
      · exact congrArg Finmap.keys ((Deployment.hydrateBriefs_frame _ s.memory _).1 c)

/-- A load throws when an issue that it reads cannot be read. -/
theorem load_ok_iff :
  (exec (load parse gh (.entities c)) s).1 = .ok ()
    ↔ ∀ issue ∈ pendingIssues gh s c, ∃ r, readEntity parse issue = .ok r
  := by
  rw [← loadEntities_ok_iff _ (s.memory.entities c), load, exec_ofExec]
  simp only [ensureLoaded_pending, reading_eq_ok]
  rfl

/-- An operation that loads first, and leaves the identifiers after that. -/
theorem ids_load_bind {α : Type} {f : Unit → Operation α}
    (h : ∀ s, Ends (fun _ s' => s'.ids c = s.ids c) (f ()) s) :
  (exec (load parse gh shelf >>= f) s).2.ids c = (loadedStore parse gh shelf s).ids c
  := by
  change Ends (fun _ s' => s'.ids c = (loadedStore parse gh shelf s).ids c) _ s
  rw [ends_bind]
  exact ⟨fun _ _ => rfl, fun _ _ => h _⟩

/-! ### What an operation does to the identifiers -/

/-- A new entity has the identifier that was drawn. -/
theorem ends_createEntity {new : Except Exn (String × Json)} :
  Ends (fun r s' => (∀ e, r = .error e → s'.ids c = (loadedStore parse gh (.entities c') s).ids c)
      ∧ ∀ a, r = .ok a → s'.ids c
        = if c = c' then insert env.uuid ((loadedStore parse gh (.entities c') s).ids c)
          else (loadedStore parse gh (.entities c') s).ids c)
    (createEntity parse gh env c' new) s
  := by
  rw [createEntity, ends_bind]
  refine ⟨fun _ _ => ⟨fun _ _ => rfl, by simp⟩, ?_⟩
  intro _ _
  rw [ends_lift_bind]
  refine ⟨fun _ _ => ⟨fun _ _ => rfl, by simp⟩, ?_⟩
  rintro ⟨title, entity⟩ -
  rw [ends_lift_bind]
  refine ⟨fun _ _ => ⟨fun _ _ => rfl, by simp⟩, ?_⟩
  intro number _
  refine ⟨by simp, ?_⟩
  intro _ _
  by_cases hc : c = c'
  · subst hc
    rw [if_pos rfl]
    exact ids_put_self
  · rw [if_neg hc]
    exact ids_put_of_ne hc

theorem ids_updateEntity {f : Json → Json} :
  (exec (updateEntity parse gh c' id f) s).2.ids c
    = (loadedStore parse gh (.entities c') s).ids c
  := by
  apply ids_load_bind
  intro s
  rw [ends_get_bind]
  cases hstored : s.stored c' id with
  | none => rfl
  | some entity => exact ids_put_of_mem (mem_ids.mpr ⟨entity, hstored⟩)

theorem ids_removeEntity_of_ne (h : c ≠ c') :
  (exec (removeEntity parse gh c' id) s).2.ids c
    = (loadedStore parse gh (.entities c') s).ids c
  := by
  apply ids_load_bind
  intro s
  rw [ends_get_bind]
  cases s.stored c' id with
  | none => rfl
  | some entity =>
    rw [ends_lift_bind]
    exact ⟨fun _ _ => rfl, fun _ _ => ids_erase_of_ne h⟩

theorem ids_updateTask {metrics : Bool} {teamId : String} {body : Json}
    (h : ¬ (body.isObject = false ∨ teamId = "")) :
  (exec (updateTask parse gh metrics env teamId id body) s).2.ids c
    = (loadedStore parse gh (.entities .tasks) s).ids c
  := by
  rw [updateTask, if_neg h]
  apply ids_load_bind
  intro s
  rw [ends_get_bind]
  cases hstored : s.stored .tasks id with
  | none => rfl
  | some task =>
    have hput : ∀ entity, (s.put .tasks id entity).ids c = s.ids c
      := fun _ => ids_put_of_mem (mem_ids.mpr ⟨task, hstored⟩)
    simp only
    rw [ends_lift_bind]
    refine ⟨fun _ _ => rfl, ?_⟩
    intro owner _
    split_ifs
    · rfl
    · rw [ends_modify_bind, ends_lift_bind]
      exact ⟨fun _ _ => hput _, fun _ _ => hput _⟩

theorem ids_markTaskCompleted :
  (exec (markTaskCompleted parse gh env id) s).2.ids c
    = (loadedStore parse gh (.entities .tasks) s).ids c
  := by
  apply ids_load_bind
  intro s
  rw [ends_get_bind]
  cases hstored : s.stored .tasks id with
  | none => rfl
  | some task =>
    simp only
    rw [ends_lift_bind]
    refine ⟨fun _ _ => rfl, ?_⟩
    intro status _
    exact ids_put_of_mem (mem_ids.mpr ⟨task, hstored⟩)

theorem ids_rewriteHmasTask {f : HmasTask → HmasTask} :
  (exec (rewriteHmasTask parse gh id f) s).2.ids c = (loadedStore parse gh .hmasTasks s).ids c
  := by
  apply ids_load_bind
  intro s
  rw [ends_get_bind]
  cases s.memory.hmasTasks.lookup id with
  | none => rfl
  | some t => cases c <;> rfl

theorem ids_createHmasTask (t : HmasTask) :
  (exec (createHmasTask parse gh t) s).2.ids c = (loadedStore parse gh .hmasTasks s).ids c
  := by
  apply ids_load_bind
  intro s
  rw [ends_lift_bind]
  refine ⟨fun _ _ => rfl, ?_⟩
  intro number _
  cases c <;> rfl

theorem ids_updateHmasTask (t : HmasTask) :
  (exec (updateHmasTask parse gh t) s).2.ids c = (loadedStore parse gh .hmasTasks s).ids c
  := by
  apply ids_load_bind
  intro s
  rw [ends_get_bind]
  cases hlookup : s.memory.hmasTasks.lookup t.id with
  | none => rfl
  | some old =>
    exact congrArg Finmap.keys (Deployment.entities_updateHmasTask s.memory t)

theorem ids_createTaskBrief (b : TaskBrief) :
  (exec (createTaskBrief parse gh b) s).2.ids c = (loadedStore parse gh .briefs s).ids c
  := by
  apply ids_load_bind
  intro s
  rw [ends_lift_bind]
  refine ⟨fun _ _ => rfl, ?_⟩
  intro number _
  cases c <;> rfl

/-- An operation loads its collection, and then leaves the identifiers that a gauge counts, unless
it is one of those that adjust the gauge. -/
theorem ids_perform {metrics : Bool} {op : StoreOp} (hop : ¬ op.Refuses)
    (hcreates : op.creates ≠ some c) (hremoves : ∀ id, op.removes ≠ some (c, id)) :
  (exec (Operation.perform parse gh metrics env op) s).2.ids c
    = (loadedStore parse gh op.shelf s).ids c
  := by
  have hcreate : ∀ {c'} {new : Except Exn (String × Json)}, c' ≠ c →
      (exec (createEntity parse gh env c' new) s).2.ids c
        = (loadedStore parse gh (.entities c') s).ids c := by
    intro c' new hc
    obtain ⟨herror, hok⟩ := @ends_createEntity parse gh env s c c' new
    cases houtcome : (exec (createEntity parse gh env c' new) s).1 with
    | error e => exact herror e houtcome
    | ok a =>
      rw [hok a houtcome, if_neg hc.symm]
  cases op with
  | createAgent body | createTeam body | createTask teamId body | createFault type =>
    exact hcreate fun h => hcreates (congrArg some h)
  | updateAgent id fields =>
    rw [Operation.perform, if_neg (show ¬ fields.isObject = false from hop)]
    exact ids_updateEntity
  | startAgent id | stopAgent id | updateTeam id body => exact ids_updateEntity
  | deleteAgent id | deleteTeam id | removeFault id =>
    exact ids_removeEntity_of_ne fun h => hremoves id (h ▸ rfl)
  | updateTask teamId taskId body => exact ids_updateTask hop
  | markTaskCompleted taskId => exact ids_markTaskCompleted
  | createHmasTask t => exact ids_createHmasTask t
  | updateHmasTask t => exact ids_updateHmasTask t
  | updateHmasTaskState id state | updateHmasTaskStateAndRecordEscalation id newState escalation =>
    exact ids_rewriteHmasTask
  | createTaskBrief b => exact ids_createTaskBrief b

/-! ### What an event does to the identifiers -/

section Events

variable {m : Memory} {e : NormalizedEvent}

/-- The event stores an entity with the identifier where there is none. -/
def NormalizedEvent.Adds (parse : String → Option Json) (c : Collection) (id : String)
    (e : NormalizedEvent) : Prop :=
  e.action ≠ .closed ∧ ∃ entity, e.Brings parse c id entity

theorem isSome_merged {action : IssueAction} {updatedAt : String} {entity : Json}
    {stored : Option Json} :
  (merged action updatedAt entity stored).isSome = true
    ↔ stored.isSome = true ∨ action ≠ .closed
  := by
  cases stored with
  | some j =>
    obtain ⟨j', hj'⟩ := @exists_merged action updatedAt entity j
    simp [hj']
  | none =>
    cases action with
    | closed | reopened => simp [merged, mergeEntity]
    | _ => simp [merged, mergeEntity, isStale, pure, Except.pure, bind, Except.bind]

theorem mem_keys_deliver :
  id ∈ ((m.deliver parse e).entities c).keys ↔ id ∈ (m.entities c).keys ∨ e.Adds parse c id
  := by
  rw [Finmap.mem_keys, Finmap.mem_keys, ← Finmap.lookup_isSome, ← Finmap.lookup_isSome]
  by_cases hbrings : ∃ entity, e.Brings parse c id entity
  · have hadds := and_iff_left (a := e.action ≠ .closed) hbrings
    obtain ⟨entity, hentity⟩ := hbrings
    rw [Memory.lookup_deliver hentity, isSome_merged, NormalizedEvent.Adds, hadds]
  · rw [Memory.lookup_deliver_of_not (not_exists.mp hbrings), NormalizedEvent.Adds]
    simp [hbrings]

/-- An event is delivered once its collection is loaded. -/
theorem mem_ids_applyGithubEvent (hpick : pickCollection e.entityLabel = some c') :
  id ∈ (exec (applyGithubEvent parse gh e) s).2.ids c
    ↔ id ∈ (loadedStore parse gh (.entities c') s).ids c
      ∨ (exec (load parse gh (.entities c')) s).1 = .ok () ∧ e.Adds parse c id
  := by
  rw [applyGithubEvent, hpick]
  simp only
  rw [exec_bind, loadedStore]
  rcases exec (load parse gh (.entities c')) s with ⟨r, s'⟩
  cases r with
  | error x => simp
  | ok a =>
    have hdeliver := @mem_keys_deliver parse c id s'.memory e
    rw [Memory.deliver] at hdeliver
    rw [and_iff_right rfl]
    simp only [exec_bind, exec_get, exec_lift]
    cases hevent : s'.memory.applyGithubEvent parse e with
    | error x | ok outcome =>
      rw [hevent] at hdeliver
      exact hdeliver

end Events

/-! ### What is counted -/

namespace MeteredStore

/-- How many entities are stored beyond those a gauge shows. -/
def uncounted (m : MeteredStore) (g : Gauge) : ℤ :=
  (m.store.ids g.collection).card - m.gauges g

/-- The gauges show how many agents and how many tasks are stored. -/
def Counted (m : MeteredStore) : Prop :=
  ∀ g, m.gauges g = (m.store.ids g.collection).card

end MeteredStore

open MeteredStore

/-- What happens to a store with a registry, with the answers of the client meanwhile: a
collection is read, which loads it; an event arrives, by a webhook or in a reconcile pass; an
operation is carried out. -/
inductive MeteredStep where
  | load (gh : Option Client) (shelf : Shelf)
  | event (gh : Option Client) (e : NormalizedEvent)
  | perform (gh : Option Client) (env : StoreEnv) (op : StoreOp)

/-- What a step leaves, whether it returns or throws. -/
def MeteredStore.step (parse : String → Option Json) (m : MeteredStore) :
    MeteredStep → MeteredStore
  | .load gh shelf => (exec (onStore (load parse gh shelf)) m).2
  | .event gh e => (exec (onStore (applyGithubEvent parse gh e)) m).2
  | .perform gh env op => (exec (perform parse gh env op) m).2

/-- A load brings no identifier that is not stored. -/
def BringsNothing (parse : String → Option Json) (gh : Option Client) (c : Collection)
    (s : LiveStore) : Prop :=
  ∀ id ∈ loadIds parse (pendingIssues gh s c), id ∈ s.ids c

namespace MeteredStep

/-- The identifier that is drawn for a new entity is not used in its collection. -/
def Draws (parse : String → Option Json) (m : MeteredStore) : MeteredStep → Prop
  | perform gh env op =>
      ∀ c, op.creates = some c → env.uuid ∉ (loadedStore parse gh (.entities c) m.store).ids c
  | _ => True

/-- Nothing is stored without being counted: no load brings an agent or a task that is not stored,
and no event does. -/
def Counts (parse : String → Option Json) (m : MeteredStore) : MeteredStep → Prop
  | load gh shelf => ∀ g : Gauge, shelf = .entities g.collection →
      BringsNothing parse gh g.collection m.store
  | event gh e => ∀ g : Gauge, pickCollection e.entityLabel = some g.collection →
      BringsNothing parse gh g.collection m.store
        ∧ ((∀ issue ∈ pendingIssues gh m.store g.collection, ∃ r, readEntity parse issue = .ok r) →
          ∀ id, e.Adds parse g.collection id → id ∈ m.store.ids g.collection)
  | perform gh _ op => ¬ op.Refuses → ∀ g : Gauge, op.shelf = .entities g.collection →
      BringsNothing parse gh g.collection m.store

end MeteredStep

variable {m : MeteredStore}

/-- Without a client there is nothing to load. -/
theorem bringsNothing_none :
  BringsNothing parse none c s
  := by
  intro id hid
  rw [pendingIssues, pending, Option.bind_none, Option.getD_none, ite_self] at hid
  cases hid

theorem ids_subset_loadedStore :
  s.ids c ⊆ (loadedStore parse gh shelf s).ids c
  := by
  by_cases h : shelf = .entities c
  · rw [h, ids_loadedStore_self]
    exact Finset.subset_union_left
  · rw [ids_loadedStore_of_ne h]

theorem ids_loadedStore_iff :
  (loadedStore parse gh shelf s).ids c = s.ids c
    ↔ (shelf = .entities c → BringsNothing parse gh c s)
  := by
  by_cases h : shelf = .entities c
  · rw [h, ids_loadedStore_self, Finset.union_eq_left]
    simp [BringsNothing, Finset.subset_iff]
  · simp [h, ids_loadedStore_of_ne h]

/-- Where all are counted, and entities are stored without adjusting a gauge, all are counted only
if no new ones are stored. -/
theorem counted_iff_of_subset (hm : m.Counted) (m' : MeteredStore) (hgauges : m'.gauges = m.gauges)
    (hsubset : ∀ g : Gauge, m.store.ids g.collection ⊆ m'.store.ids g.collection) :
  m'.Counted ↔ ∀ g : Gauge, m'.store.ids g.collection = m.store.ids g.collection
  := by
  apply forall_congr'
  intro g
  rw [hgauges, hm g, Nat.cast_inj]
  constructor
  · intro hcard
    exact (Finset.eq_of_subset_of_card_le (hsubset g) hcard.ge).symm
  · intro h
    rw [h]

/-- The store after a load, with the gauges as they were. -/
def MeteredStore.loaded (parse : String → Option Json) (gh : Option Client) (shelf : Shelf)
    (m : MeteredStore) : MeteredStore :=
  { m with store := loadedStore parse gh shelf m.store }

theorem counted_iff_uncounted :
  m.Counted ↔ ∀ g, m.uncounted g = 0
  := by
  apply forall_congr'
  intro g
  rw [uncounted, sub_eq_zero, eq_comm]

theorem counted_loaded_iff (hm : m.Counted) :
  (m.loaded parse gh shelf).Counted
    ↔ ∀ g : Gauge, shelf = .entities g.collection → BringsNothing parse gh g.collection m.store
  := by
  rw [counted_iff_of_subset hm (m.loaded parse gh shelf) rfl fun g => ids_subset_loadedStore]
  exact forall_congr' fun g => ids_loadedStore_iff

/-- A new entity is counted when it is stored. -/
theorem uncounted_create {counter : Gauge} {new : Except Exn (String × Json)}
    (hfresh : env.uuid ∉ (loadedStore parse gh (.entities counter.collection) m.store).ids
      counter.collection) (g : Gauge) :
  (exec (do
      onStore (createEntity parse gh env counter.collection new)
      adjust counter 1) m).2.uncounted g
    = (m.loaded parse gh (.entities counter.collection)).uncounted g
  := by
  obtain ⟨herror, hok⟩ :=
    @ends_createEntity parse gh env m.store g.collection counter.collection new
  rw [exec_bind, onStore, exec_focus]
  cases houtcome : (exec (createEntity parse gh env counter.collection new) m.store).1 with
  | error e =>
    simp only [MeteredStore.uncounted, herror e houtcome]
    rfl
  | ok a =>
    have hids := hok a houtcome
    simp only [adjust, exec_modify, MeteredStore.uncounted, hids]
    by_cases hg : g = counter
    · subst hg
      rw [if_pos rfl, Function.update_self, Finset.card_insert_of_notMem hfresh]
      push_cast
      rw [MeteredStore.loaded]
      ring
    · have hcollection : g.collection ≠ counter.collection := by
        revert hg
        cases g <;> cases counter <;> simp [Gauge.collection]
      rw [if_neg hcollection, Function.update_of_ne hg]
      rfl

theorem uncounted_deleteAgent (id : String) (g : Gauge) :
  (exec (deleteAgent parse gh id) m).2.uncounted g
    = (m.loaded parse gh (.entities .agents)).uncounted g
  := by
  change Ends (fun _ m' => m'.uncounted g = (m.loaded parse gh (.entities .agents)).uncounted g) _ m
  rw [deleteAgent, ends_bind]
  refine ⟨fun _ _ => rfl, ?_⟩
  intro _ _
  change Ends _ _ (m.loaded parse gh (.entities .agents))
  generalize m.loaded parse gh (.entities .agents) = m
  rw [ends_get_bind]
  cases hstored : m.store.stored .agents id with
  | none => rfl
  | some agent =>
    simp only
    rw [ends_bind]
    refine ⟨fun _ _ => rfl, ?_⟩
    intro _ _
    change uncounted ⟨m.store.erase .agents id,
      Function.update m.gauges .agentsTotal (m.gauges .agentsTotal + -1)⟩ g = m.uncounted g
    rw [uncounted, uncounted]
    cases g with
    | agentsTotal =>
      have hmem := mem_ids.mpr ⟨agent, hstored⟩
      have hcard := Finset.card_erase_add_one hmem
      simp only [Gauge.collection, ids_erase_self, Function.update_self]
      rw [← hcard]
      push_cast
      ring
    | tasksTotal =>
      rfl

/-- An operation leaves as many uncounted as it finds once it has loaded its collection. -/
theorem uncounted_perform {op : StoreOp} (hop : ¬ op.Refuses)
    (hdraws : (MeteredStep.perform gh env op).Draws parse m) (g : Gauge) :
  (exec (perform parse gh env op) m).2.uncounted g
    = (m.loaded parse gh op.shelf).uncounted g
  := by
  have hother : op.creates ≠ some g.collection → (∀ id, op.removes ≠ some (g.collection, id)) →
      (exec (onStore (Operation.perform parse gh true env op)) m).2.uncounted g
        = (m.loaded parse gh op.shelf).uncounted g := by
    intro hcreates hremoves
    have hids := @ids_perform parse gh env m.store g.collection true op hop hcreates hremoves
    rw [onStore, exec_focus, uncounted, uncounted]
    simp only [hids]
    rfl
  cases op with
  | createAgent body => exact @uncounted_create parse gh env m .agentsTotal _ (hdraws _ rfl) g
  | createTask teamId body => exact @uncounted_create parse gh env m .tasksTotal _ (hdraws _ rfl) g
  | deleteAgent id => exact uncounted_deleteAgent id g
  | _ =>
    apply hother
    · cases g <;> nofun
    · cases g <;> nofun

theorem step_of_refuses {op : StoreOp} (hop : op.Refuses) :
  m.step parse (.perform gh env op) = m
  := by
  cases op with
  | updateAgent id fields =>
    have hperform : Operation.perform parse gh true env (.updateAgent id fields) = pure ()
      := if_pos hop
    rw [step, MeteredOperation.perform, hperform]
    · rfl
    all_goals nofun
  | updateTask teamId taskId body =>
    have hperform : Operation.perform parse gh true env (.updateTask teamId taskId body) = pure ()
      := if_pos hop
    rw [step, MeteredOperation.perform, hperform]
    · rfl
    all_goals nofun
  | _ => cases hop

/-- An event leaves the identifiers of a collection if it brings none that is not stored. -/
theorem ids_event_iff {e : NormalizedEvent} (hpick : pickCollection e.entityLabel = some c') :
  (exec (applyGithubEvent parse gh e) s).2.ids c = s.ids c
    ↔ (pickCollection e.entityLabel = some c → BringsNothing parse gh c s
      ∧ ((∀ issue ∈ pendingIssues gh s c, ∃ r, readEntity parse issue = .ok r) →
        ∀ id, e.Adds parse c id → id ∈ s.ids c))
  := by
  rw [Finset.ext_iff]
  simp only [mem_ids_applyGithubEvent hpick, ← load_ok_iff]
  rw [hpick, Option.some.injEq]
  by_cases hc : c' = c
  · subst hc
    have hload : (loadedStore parse gh (.entities c') s).ids c' = s.ids c'
        ↔ BringsNothing parse gh c' s := ids_loadedStore_iff.trans (forall_prop_of_true rfl)
    rw [forall_prop_of_true rfl, ← hload]
    constructor
    · intro h
      constructor
      · apply Finset.Subset.antisymm _ ids_subset_loadedStore
        exact fun id hid => (h id).mp (.inl hid)
      · exact fun hok id hadds => (h id).mp (.inr ⟨hok, hadds⟩)
    · rintro ⟨hids, hadds⟩ id
      rw [hids, or_iff_left_iff_imp]
      exact fun h => hadds h.1 id h.2
  · have hnone : ∀ id, ¬ e.Adds parse c id := by
      rintro id ⟨-, entity, hbrings, -⟩
      exact hc (Option.some.inj (hpick.symm.trans hbrings))
    have hshelf : Shelf.entities c' ≠ .entities c := fun h => hc (Shelf.entities.inj h)
    simp [hc, hnone, ids_loadedStore_of_ne hshelf]

/-- A step keeps the gauges right if and only if it stores nothing without counting it. -/
theorem counted_step_iff (hm : m.Counted) {step : MeteredStep} (hdraws : step.Draws parse m) :
  (m.step parse step).Counted ↔ step.Counts parse m
  := by
  cases step with
  | load gh shelf => exact counted_loaded_iff hm
  | perform gh env op =>
    rw [MeteredStep.Counts]
    by_cases hop : op.Refuses
    · rw [step_of_refuses hop]
      exact iff_of_true hm fun h => absurd hop h
    · rw [← counted_loaded_iff hm, counted_iff_uncounted, counted_iff_uncounted]
      simp only [step, uncounted_perform hop hdraws, hop, not_false_eq_true,
        true_implies]
  | event gh e =>
    cases hpick : pickCollection e.entityLabel with
    | none =>
      have hsame : m.step parse (.event gh e) = m := by
        rw [step, applyGithubEvent, hpick]
        rfl
      rw [hsame, MeteredStep.Counts, hpick]
      exact iff_of_true hm nofun
    | some c =>
      have hsubset : ∀ g : Gauge,
          m.store.ids g.collection ⊆ (m.step parse (.event gh e)).store.ids g.collection
        := fun g id hid => (mem_ids_applyGithubEvent hpick).mpr (.inl (ids_subset_loadedStore hid))
      rw [counted_iff_of_subset hm (m.step parse (.event gh e)) rfl hsubset]
      exact forall_congr' fun g => ids_event_iff hpick

/-! ### Runs -/

/-- The gauges are right in every state that a history of a new store visits, if and only if no
step of it stores an agent or a task without counting it.  The identifiers that are drawn are
unused. -/
theorem gauges_match_iff (parse : String → Option Json) {steps : List MeteredStep}
    (hdraws : ∀ step earlier, step :: earlier <:+ steps →
      step.Draws parse (after (MeteredStore.step parse) .fresh earlier)) :
  (∀ l, l <:+ steps → (after (MeteredStore.step parse) .fresh l).Counted)
    ↔ ∀ step earlier, step :: earlier <:+ steps →
      step.Counts parse (after (MeteredStore.step parse) .fresh earlier)
  := by
  have hfresh : MeteredStore.fresh.Counted := by
    intro g
    cases g <;> rfl
  rw [always_iff (MeteredStore.step parse) .fresh hdraws
    fun m step hm hstep => counted_step_iff hm hstep, and_iff_right hfresh]

/-- An agent and a task are created without a client, and the agent is deleted. -/
def localSteps : List MeteredStep :=
  [.perform none firstEnv (.deleteAgent "a"),
    .perform none firstEnv (.createTask "A" (.object [])),
    .perform none firstEnv (.createAgent (.ofMembers [("name", .string "x")]))]

theorem gauges_match_localSteps :
  (∀ step earlier, step :: earlier <:+ localSteps →
      step.Draws (fun _ => none) (after (MeteredStore.step fun _ => none) .fresh earlier))
    ∧ ∀ l, l <:+ localSteps → (after (MeteredStore.step fun _ => none) .fresh l).Counted
  := by
  have hdraws : ∀ step earlier, step :: earlier <:+ localSteps →
      step.Draws (fun _ => none) (after (MeteredStore.step fun _ => none) .fresh earlier)
    := by
    intro step earlier hl
    simp only [localSteps, List.suffix_cons_iff, List.suffix_nil, List.cons.injEq, reduceCtorEq,
      or_false] at hl
    rcases hl with ⟨rfl, rfl⟩ | ⟨rfl, rfl⟩ | ⟨rfl, rfl⟩
    · nofun
    · rintro _ ⟨⟩
      decide +kernel
    · rintro _ ⟨⟩
      decide +kernel
  refine ⟨hdraws, (gauges_match_iff _ hdraws).mpr ?_⟩
  intro step earlier hl
  simp only [localSteps, List.suffix_cons_iff, List.suffix_nil, List.cons.injEq, reduceCtorEq,
    or_false] at hl
  rcases hl with ⟨rfl, rfl⟩ | ⟨rfl, rfl⟩ | ⟨rfl, rfl⟩
  all_goals exact fun _ _ _ => bringsNothing_none

/-- A client that lists one issue, with the agent `a`. -/
def oneIssueClient : Client :=
  { Client.answering firstEnv with
    listIssues := fun _ => some [(fencedIssue 1 (identified (.string "a"))).toJson] }

/-- The agents are read after a restart, and the agent is deleted. -/
def restartedSteps : List MeteredStep :=
  [.perform (some oneIssueClient) firstEnv (.deleteAgent "a"),
    .load (some oneIssueClient) (.entities .agents)]

/-- The gauge shows no agent where one is stored, and then less than none. -/
theorem gauges_restartedSteps :
  (∀ step earlier, step :: earlier <:+ restartedSteps →
      step.Draws Json.read
        (after (MeteredStore.step Json.read) .fresh earlier))
    ∧ (¬ ∀ l, l <:+ restartedSteps →
      (after (MeteredStore.step Json.read) .fresh l).Counted)
    ∧ (after (MeteredStore.step Json.read) .fresh restartedSteps).gauges .agentsTotal
      = -1
  := by
  refine ⟨?_, ?_, ?_⟩
  · intro step earlier hl
    simp only [restartedSteps, List.suffix_cons_iff, List.suffix_nil, List.cons.injEq,
      reduceCtorEq, or_false] at hl
    rcases hl with ⟨rfl, rfl⟩ | ⟨rfl, rfl⟩
    · nofun
    · trivial
  · intro h
    have hread := h _ (List.suffix_cons _ _) .agentsTotal
    revert hread
    decide +kernel
  · decide +kernel

end Agamemnon
