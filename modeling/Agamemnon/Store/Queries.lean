import Agamemnon.Store.Index
import Agamemnon.Store.Mirrored

/-!
# Queries

The operations that read the store.  Each of them is given the order in which the map it loops
over is iterated, of which nothing is known but that it visits every key once.  The listings
that are sorted do not depend on the order; the others depend on it up to a permutation, and
`getAgentByName` does not when the name is carried once.
-/

namespace Agamemnon

open StringMap

/-! ### Iteration -/

namespace StringMap

variable {α : Type}

/-- The order visits every key of the map once. -/
structure Visits (m : StringMap α) (order : List String) : Prop where
  nodup : order.Nodup
  mem : ∀ k, k ∈ order ↔ k ∈ m

/-- The entries of a map, iterated in an order. -/
def iterate (m : StringMap α) (order : List String) : List (String × α) :=
  order.filterMap fun k => (m.lookup k).map fun a => (k, a)

variable {m : StringMap α} {order : List String}

theorem Visits.perm_entries (h : m.Visits order) :
  (m.iterate order).Perm m.entries
  := by
  apply List.Perm.filterMap
  apply (List.perm_ext_iff_of_nodup h.nodup (Finset.sort_nodup _ _)).mpr
  intro k
  rw [h.mem, Finset.mem_sort, Finmap.mem_keys]

/-- Sort entries by key. -/
def sortEntries (es : List (String × α)) : List (String × α) :=
  es.mergeSort fun x y => x.1 ≤ y.1

/-- Entries with different keys are sorted in one way. -/
theorem sortEntries_eq {es es' : List (String × α)} (hperm : es.Perm es')
    (hsorted : es'.Pairwise fun x y => x.1 < y.1) :
  sortEntries es = es'
  := by
  apply ((List.mergeSort_perm es _).trans hperm).eq_of_pairwise _
    (List.pairwise_mergeSort' (fun x y : String × α => x.1 ≤ y.1) es)
    (hsorted.imp fun hlt => hlt.le)
  intro x y hx hy hle hge
  have hkeys : (es'.map (·.1)).Nodup := List.pairwise_map.mpr (hsorted.imp fun hlt => hlt.ne)
  rw [List.mem_mergeSort, hperm.mem_iff] at hx
  apply List.inj_on_of_nodup_map hkeys hx hy (le_antisymm hle hge)

end StringMap

/-! ### The owner of a task -/

/-- The team that owns a task; a task that names no team has no owner. -/
def owner (task : Json) : String :=
  match task.get? "teamId" with
  | some (.string teamId) => teamId
  | _ => ""

/-- The task is an object, and its team is a string. -/
structure Json.IsTask (task : Json) : Prop where
  isObject : task.isObject = true
  teamId : ∀ v, task.get? "teamId" = some v → ∃ teamId, v = .string teamId

/-- All tasks of a collection are of this form. -/
def AllTasks (tasks : StringMap Json) : Prop :=
  ∀ id task, tasks.lookup id = some task → task.IsTask

theorem Json.IsTask.valueString {task : Json} (h : task.IsTask) :
  task.valueString "teamId" "" = .ok (owner task)
  := by
  rw [owner]
  cases hteam : task.get? "teamId" with
  | none =>
    cases task with
    | object ms =>
      rw [Json.get?] at hteam
      rw [Json.valueString, Json.valueWith, hteam]
    | _ => cases h.isObject
  | some v =>
    obtain ⟨teamId, rfl⟩ := h.teamId v hteam
    exact Json.valueString_of_get? hteam

theorem Json.IsTask.of_get? {task : Json} {teamId : String} (hobject : task.isObject = true)
    (hteam : task.get? "teamId" = some (.string teamId)) :
  task.IsTask ∧ owner task = teamId
  := by
  refine ⟨⟨hobject, ?_⟩, ?_⟩
  · intro v hv
    exact ⟨teamId, Option.some.inj (hv.symm.trans hteam)⟩
  · rw [owner, hteam]

/-! ### The queries -/

/-- `limit` values, from the one at `offset` on. -/
def page (limit offset : ℕ) (es : List (String × Json)) : Json :=
  .array (((es.drop offset).take limit).map (·.2))

/-- A page of a listing. -/
def listing (key : String) (limit offset : ℕ) (es : List (String × Json)) : Json :=
  .ofMembers [(key, page limit offset es), ("total", .integer es.length),
    ("limit", .integer limit), ("offset", .integer offset)]

namespace Memory

variable (m : Memory) (order : List String)

/-! ### Entities -/

/-- An entity by its identifier, `null` if there is none. -/
def getEntity (c : Collection) (id : String) : Json :=
  ((m.entities c).lookup id).getD .null

/-- `get_agent`. -/
def getAgent (id : String) : Json :=
  m.getEntity .agents id

/-- The loop of `get_agent_by_name`. -/
def findByName (name : String) : List (String × Json) → Except Exn Json
  | [] => .ok .null
  | (_, agent) :: rest => do
      if (← agent.valueString "name" "") = name then return agent
      else findByName name rest

/-- `get_agent_by_name`. -/
def getAgentByName (name : String) : Except Exn Json :=
  findByName name (iterate m.agents order)

/-- The entities of a collection in key order, a page of them. -/
def listEntities (c : Collection) (key : String) (limit offset : ℕ) : Json :=
  listing key limit offset (sortEntries (iterate (m.entities c) order))

/-- `list_agents`. -/
def listAgents (limit offset : ℕ) : Json :=
  m.listEntities order .agents "agents" limit offset

/-- `get_team`. -/
def getTeam (id : String) : Json :=
  m.getEntity .teams id

/-- `list_teams`. -/
def listTeams (limit offset : ℕ) : Json :=
  m.listEntities order .teams "teams" limit offset

/-- `get_task`. -/
def getTask (teamId taskId : String) : Except Exn Json :=
  if teamId = "" then .ok .null
  else
    match m.tasks.lookup taskId with
    | none => .ok .null
    | some task => do
        if (← task.valueString "teamId" "") ≠ teamId then return .null
        else return task

/-- The tasks of a team. -/
def teamTasks (teamId : String) : List (String × Json) → Except Exn (List (String × Json))
  | [] => .ok []
  | (id, task) :: rest => do
      let owner ← task.valueString "teamId" ""
      let tasks ← teamTasks teamId rest
      return if owner = teamId then (id, task) :: tasks else tasks

/-- `list_tasks_for_team`. -/
def listTasksForTeam (teamId : String) (limit offset : ℕ) : Except Exn Json := do
  let tasks ← teamTasks teamId (iterate m.tasks order)
  return listing "tasks" limit offset (sortEntries tasks)

/-- `list_all_tasks`. -/
def listAllTasks (limit offset : ℕ) : Json :=
  m.listEntities order .tasks "tasks" limit offset

/-- `list_faults`. -/
def listFaults (limit offset : ℕ) : Json :=
  m.listEntities order .faults "faults" limit offset

/-! ### Tasks and briefs -/

/-- `list_hmas_tasks_by_layer`. -/
def listHmasTasksByLayer (layer : HmasLayer) : List HmasTask :=
  ((iterate m.hmasTasks order).map (·.2)).filter (·.layer = layer)

/-- `list_hmas_tasks_by_parent`. -/
def listHmasTasksByParent (parentId : String) : List HmasTask :=
  ((iterate m.hmasTasks order).map (·.2)).filter (·.parentTaskId = parentId)

/-- `list_hmas_tasks_by_brief`. -/
def listHmasTasksByBrief (briefId : String) : List HmasTask :=
  ((m.hmasTasksByBrief.lookup briefId).getD []).filterMap m.hmasTasks.lookup

/-- `get_task_brief`. -/
def getTaskBrief (id : String) : Option TaskBrief :=
  m.taskBriefs.lookup id

/-- `list_task_briefs`. -/
def listTaskBriefs : List TaskBrief :=
  (iterate m.taskBriefs order).map (·.2)

/-! ### Answers that do not depend on the order -/

section Orders

variable {m : Memory} {order : List String}

theorem listEntities_eq {c : Collection} (h : (m.entities c).Visits order) (key : String)
    (limit offset : ℕ) :
  m.listEntities order c key limit offset
    = listing key limit offset (entries (m.entities c))
  := by
  rw [listEntities, sortEntries_eq h.perm_entries (pairwise_entries _)]

/-- Every agent has a readable name, and one of them at most has the name `name`. -/
structure NamedOnce (m : Memory) (name : String) : Prop where
  readable : ∀ {id agent}, m.agents.lookup id = some agent →
    ∃ s, agent.valueString "name" "" = .ok s
  unique : ∀ {id id' agent agent'}, m.agents.lookup id = some agent →
    m.agents.lookup id' = some agent' → agent.valueString "name" "" = .ok name →
    agent'.valueString "name" "" = .ok name → agent = agent'

/-- The loop finds an agent with the name, or there is none. -/
theorem findByName_spec (name : String) :
  ∀ es : List (String × Json), (∀ e ∈ es, ∃ s, e.2.valueString "name" "" = .ok s) →
    (∃ e ∈ es, e.2.valueString "name" "" = .ok name ∧ findByName name es = .ok e.2)
    ∨ (∀ e ∈ es, e.2.valueString "name" "" ≠ .ok name) ∧ findByName name es = .ok .null
  | [], _ => by
      right
      constructor
      · intro e he
        contradiction
      · rfl
  | e :: es, hread => by
      obtain ⟨s, hs⟩ := hread e List.mem_cons_self
      have hstep : findByName name (e :: es) = if s = name then .ok e.2 else findByName name es
        := by
        rw [findByName, hs]
        rfl
      by_cases hname : s = name
      · left
        use e, List.mem_cons_self
        rw [hstep, if_pos hname, hs, hname]
        exact ⟨rfl, rfl⟩
      · rw [hstep, if_neg hname]
        rcases findByName_spec name es fun x hx => hread x (List.mem_cons_of_mem e hx)
          with ⟨x, hx, hfound⟩ | ⟨hnone, hnull⟩
        · left
          exact ⟨x, List.mem_cons_of_mem e hx, hfound⟩
        · right
          refine ⟨?_, hnull⟩
          intro x hx
          rcases List.mem_cons.mp hx with rfl | hx
          · rw [hs]
            exact fun heq => hname (Except.ok.inj heq)
          · apply hnone x hx

theorem lookup_of_mem_iterate {α : Type} {m : StringMap α} {e : String × α}
    (he : e ∈ m.iterate order) :
  m.lookup e.1 = some e.2
  := by
  obtain ⟨k, -, hk⟩ := List.mem_filterMap.mp he
  obtain ⟨a, ha, rfl⟩ := Option.map_eq_some_iff.mp hk
  exact ha

theorem mem_iterate_of_visits {α : Type} {m : StringMap α} {order order' : List String}
    (h : m.Visits order) (h' : m.Visits order') {e : String × α} (he : e ∈ m.iterate order) :
  e ∈ m.iterate order'
  := (h.perm_entries.trans h'.perm_entries.symm).mem_iff.mp he

/-- An agent whose name is carried once is found in every order. -/
theorem getAgentByName_eq {order' : List String} {name : String} (h : m.agents.Visits order)
    (h' : m.agents.Visits order') (hname : m.NamedOnce name) :
  m.getAgentByName order name = m.getAgentByName order' name
  := by
  have hread : ∀ order, ∀ e ∈ iterate m.agents order,
      ∃ s, e.2.valueString "name" "" = .ok s
    := fun _ e he => hname.readable (lookup_of_mem_iterate he)
  rw [getAgentByName, getAgentByName]
  rcases findByName_spec name _ (hread order) with ⟨e, he, hs, hfound⟩ | ⟨hnone, hnull⟩
  · rcases findByName_spec name _ (hread order') with
      ⟨e', he', hs', hfound'⟩ | ⟨hnone', hnull'⟩
    · rw [hfound, hfound', hname.unique (lookup_of_mem_iterate he) (lookup_of_mem_iterate he') hs
        hs']
    · exact absurd hs (hnone' e (mem_iterate_of_visits h h' he))
  · rcases findByName_spec name _ (hread order') with
      ⟨e', he', hs', hfound'⟩ | ⟨hnone', hnull'⟩
    · exact absurd hs' (hnone e' (mem_iterate_of_visits h' h he'))
    · rw [hnull, hnull']

theorem teamTasks_eq {teamId : String} {es : List (String × Json)} (hes : ∀ e ∈ es, e.2.IsTask) :
  teamTasks teamId es = .ok (es.filter fun e => owner e.2 = teamId)
  := by
  induction es with
  | nil => rfl
  | cons e es ih =>
    rw [List.forall_mem_cons] at hes
    rw [teamTasks, hes.1.valueString, ih hes.2, List.filter_cons]
    simp only [decide_eq_true_eq]
    rfl

theorem listTasksForTeam_eq (htasks : AllTasks m.tasks) (horder : m.tasks.Visits order)
    (teamId : String) (limit offset : ℕ) :
  m.listTasksForTeam order teamId limit offset
    = .ok (listing "tasks" limit offset
        ((entries m.tasks).filter fun e => owner e.2 = teamId))
  := by
  have hes : ∀ e ∈ iterate m.tasks order, e.2.IsTask
    := fun e he => htasks e.1 e.2 (lookup_of_mem_iterate he)
  rw [listTasksForTeam, teamTasks_eq hes]
  apply congrArg Except.ok
  rw [sortEntries_eq (horder.perm_entries.filter _)
    ((pairwise_entries m.tasks).filter _)]

end Orders

/-! ### Equal answers -/

/-- Two stores give the same answers, whatever the orders in which they iterate their maps: the
same values where a single one is asked for or the listing is sorted, and the same up to their
order where it is not. -/
structure SameAnswers (m m' : Memory) : Prop where
  getAgent : ∀ id, m.getAgent id = m'.getAgent id
  getAgentByName : ∀ {order order'}, m.agents.Visits order → m'.agents.Visits order' →
    ∀ name, m.NamedOnce name → m.getAgentByName order name = m'.getAgentByName order' name
  listAgents : ∀ {order order'}, m.agents.Visits order → m'.agents.Visits order' →
    ∀ limit offset, m.listAgents order limit offset = m'.listAgents order' limit offset
  getTeam : ∀ id, m.getTeam id = m'.getTeam id
  listTeams : ∀ {order order'}, m.teams.Visits order → m'.teams.Visits order' →
    ∀ limit offset, m.listTeams order limit offset = m'.listTeams order' limit offset
  getTask : ∀ teamId taskId, m.getTask teamId taskId = m'.getTask teamId taskId
  listTasksForTeam : ∀ {order order'}, m.tasks.Visits order → m'.tasks.Visits order' →
    ∀ teamId limit offset,
      m.listTasksForTeam order teamId limit offset = m'.listTasksForTeam order' teamId limit offset
  listAllTasks : ∀ {order order'}, m.tasks.Visits order → m'.tasks.Visits order' →
    ∀ limit offset, m.listAllTasks order limit offset = m'.listAllTasks order' limit offset
  listFaults : ∀ {order order'}, m.faults.Visits order → m'.faults.Visits order' →
    ∀ limit offset, m.listFaults order limit offset = m'.listFaults order' limit offset
  getHmasTask : ∀ id, m.getHmasTask id = m'.getHmasTask id
  listHmasTasksByLayer : ∀ {order order'}, m.hmasTasks.Visits order →
    m'.hmasTasks.Visits order' →
    ∀ layer, (m.listHmasTasksByLayer order layer).Perm (m'.listHmasTasksByLayer order' layer)
  listHmasTasksByParent : ∀ {order order'}, m.hmasTasks.Visits order →
    m'.hmasTasks.Visits order' → ∀ parentId,
    (m.listHmasTasksByParent order parentId).Perm (m'.listHmasTasksByParent order' parentId)
  listHmasTasksByBrief : ∀ briefId,
    (m.listHmasTasksByBrief briefId).Perm (m'.listHmasTasksByBrief briefId)
  getTaskBrief : ∀ id, m.getTaskBrief id = m'.getTaskBrief id
  listTaskBriefs : ∀ {order order'}, m.taskBriefs.Visits order → m'.taskBriefs.Visits order' →
    (m.listTaskBriefs order).Perm (m'.listTaskBriefs order')

/-- The index of a store is determined by its tasks, up to the order. -/
theorem Indexed.perm_listed {m : Memory} {index : StringMap (List String)} (h : m.Indexed)
    (h' : Indexed { m with hmasTasksByBrief := index }) (briefId : String) :
  (m.listed briefId).Perm (Memory.listed { m with hmasTasksByBrief := index } briefId)
  := by
  apply (List.perm_ext_iff_of_nodup (h.nodup briefId) (h'.nodup briefId)).mpr
  intro id
  rw [h.mem_listed, h'.mem_listed]

/-- Stores that only differ in the index give the same answers. -/
theorem Indexed.sameAnswers {m : Memory} {index : StringMap (List String)} (h : m.Indexed)
    (h' : Indexed { m with hmasTasksByBrief := index })
    (hteam : ∀ {id task}, m.tasks.lookup id = some task →
      ∃ owner, task.get? "teamId" = some (.string owner)) :
  m.SameAnswers { m with hmasTasksByBrief := index }
  := by
  have hentities : ∀ {order order'} (c : Collection), (m.entities c).Visits order →
      (m.entities c).Visits order' → ∀ key limit offset,
      m.listEntities order c key limit offset = m.listEntities order' c key limit offset := by
    intro order order' c hv hv' key limit offset
    rw [listEntities_eq hv, listEntities_eq hv']
  have hperm : ∀ {α : Type} {map : StringMap α} {order order'}, map.Visits order →
      map.Visits order' → ((map.iterate order).map (·.2)).Perm ((map.iterate order').map (·.2))
    := by
    intro α map order order' hv hv'
    apply (hv.perm_entries.trans hv'.perm_entries.symm).map
  have htasks : AllTasks m.tasks := by
    intro id task hlookup
    obtain ⟨owner, howner⟩ := hteam hlookup
    exact (Json.IsTask.of_get? (Json.isObject_of_get? howner) howner).1
  constructor
  case getAgentByName =>
    intro order order' hv hv' name hname
    exact getAgentByName_eq hv hv' hname
  case listAgents => exact fun hv hv' => hentities .agents hv hv' "agents"
  case listTeams => exact fun hv hv' => hentities .teams hv hv' "teams"
  case listAllTasks => exact fun hv hv' => hentities .tasks hv hv' "tasks"
  case listFaults => exact fun hv hv' => hentities .faults hv hv' "faults"
  case listTasksForTeam =>
    intro order order' hv hv' teamId limit offset
    rw [listTasksForTeam_eq htasks hv]
    symm
    apply listTasksForTeam_eq htasks hv'
  case listHmasTasksByLayer => exact fun hv hv' layer => (hperm hv hv').filter _
  case listHmasTasksByParent => exact fun hv hv' parentId => (hperm hv hv').filter _
  case listHmasTasksByBrief => exact fun briefId => (h.perm_listed h' briefId).filterMap _
  case listTaskBriefs => exact fun hv hv' => hperm hv hv'
  all_goals
    intros
    rfl

end Memory

end Agamemnon
