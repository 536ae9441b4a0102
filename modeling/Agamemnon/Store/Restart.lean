import Agamemnon.Store.Queries
import Agamemnon.Store.Runs

/-!
# Restart

A new store is hydrated from the issues that a run has left.  It holds the same entities, tasks
and briefs as the store that ran, and gives the same answers.
-/

namespace Agamemnon

/-! ### Hydration -/

variable {parse : String → Option Json}

section Hydration

variable (parse)

/-- The loop of `ensure_hmas_tasks_loaded_`: the store, and the numbers of the issues. -/
def hydrateHmasTasks (issues : List Json) (m : Memory) (numbers : StringMap String) :
    Memory × StringMap String :=
  issues.foldl (fun s issue =>
    match readRecord parse hmasTaskFromJson issue with
    | none => s
    | some (t, number) =>
        (s.1.createHmasTask t,
          match number with
          | none => s.2
          | some n => s.2.insert t.id n)) (m, numbers)

/-- The loop of `ensure_briefs_loaded_`: the store, and the numbers of the issues. -/
def hydrateBriefs (issues : List Json) (m : Memory) (numbers : StringMap String) :
    Memory × StringMap String :=
  issues.foldl (fun s issue =>
    match readRecord parse taskBriefFromJson issue with
    | none => s
    | some (b, number) =>
        (s.1.createTaskBrief b,
          match number with
          | none => s.2
          | some n => s.2.insert b.id n)) (m, numbers)

/-- Every collection of a new store is hydrated from the backend, which lists the issues with a
label in an order of its own. -/
def Deployment.restart (g : Github) (order : String → List String) : Except Exn Deployment := do
  let load (label : String) : List Json := g.listIssues (order label) label
  let agents ← hydrateEntities parse (load "agamemnon-agent") ∅
  let teams ← hydrateEntities parse (load "agamemnon-team") ∅
  let tasks ← hydrateEntities parse (load "agamemnon-task") ∅
  let faults ← hydrateEntities parse (load "agamemnon-fault") ∅
  let m := { Memory.empty with agents, teams, tasks, faults }
  let (m, hmasTaskIssueNumbers) := hydrateHmasTasks parse (load "agamemnon-hmas-task") m ∅
  let (memory, briefIssueNumbers) := hydrateBriefs parse (load "agamemnon-brief") m ∅
  return { memory, hmasTaskIssueNumbers, briefIssueNumbers, github := g }

end Hydration

/-- The backend lists every issue once. -/
structure Github.Lists (g : Github) (order : List String) : Prop where
  nodup : order.Nodup
  mem : ∀ {n i}, g.lookup n = some i → n ∈ order

variable {g : Github} {order : List String}

/-- An issue that holds something is listed. -/
theorem Github.Lists.mem_of_held {β : Type} {f : Issue → Option β} (h : g.Lists order) (n : String)
    (hn : g.held f n ≠ none) :
  n ∈ order
  := by
  obtain ⟨b, hb⟩ := Option.ne_none_iff_exists'.mp hn
  obtain ⟨i, hi, -⟩ := Option.bind_eq_some_iff.mp hb
  apply h.mem hi

section Loops

variable {label : String}

/-- The open issues with a label. -/
def Github.issues (g : Github) (order : List String) (label : String) : List Issue :=
  order.filterMap fun number => (g.lookup number).bind fun i =>
    if i.isOpen = true ∧ i.label = label then some i else none

theorem listIssues_eq :
  g.listIssues order label = (g.issues order label).map Issue.toJson
  := by
  rw [Github.listIssues, Github.issues, List.map_filterMap]
  congr 1
  funext number
  cases g.lookup number with
  | none => rfl
  | some i =>
    rw [Option.bind_some, Option.bind_some, apply_ite (Option.map Issue.toJson)]
    rfl

theorem mem_issues {i : Issue} (h : i ∈ g.issues order label) :
  ∃ n, g.lookup n = some i ∧ i.isOpen = true ∧ i.label = label
  := by
  obtain ⟨n, -, hn⟩ := List.mem_filterMap.mp h
  obtain ⟨j, hj, hlisted⟩ := Option.bind_eq_some_iff.mp hn
  obtain ⟨hopen, heq⟩ := Option.ite_none_right_eq_some.mp hlisted
  obtain rfl := Option.some.inj heq
  exact ⟨n, hj, hopen⟩

/-- What the issues hold is what is read from those that are listed. -/
theorem filterMap_held {β : Type} (f : Issue → Option β) :
  order.filterMap (g.held fun i => if i.isOpen = true ∧ i.label = label then f i else none)
    = (g.issues order label).filterMap f
  := by
  rw [Github.issues, List.filterMap_filterMap]
  congr 1
  funext number
  rw [Github.held]
  cases g.lookup number with
  | none => rfl
  | some i =>
    rw [Option.bind_some, Option.bind_some]
    split
    · rfl
    · rfl

/-- The loop over the issues of a collection reads what they hold. -/
theorem foldlM_readEntity :
  ∀ {issues : List Issue} {es : StringMap Json},
    (∀ i ∈ issues, ∃ r, readEntity parse i.toJson = .ok r) →
    hydrateEntities parse (issues.map Issue.toJson) es
      = .ok (replay (issues.filterMap fun i =>
          match readEntity parse i.toJson with
          | .ok r => r
          | .error _ => none) es)
  | [], _, _ => rfl
  | i :: issues, es, hread => by
      obtain ⟨r, hr⟩ := hread i List.mem_cons_self
      have hrest := fun es => @foldlM_readEntity issues es
        fun j hj => hread j (List.mem_cons_of_mem i hj)
      rw [hydrateEntities, List.map_cons, List.foldlM_cons, hr, List.filterMap_cons]
      simp only [hr]
      cases r with
      | none => apply hrest
      | some r => apply hrest

theorem hydrateEntities_eq (hread : ∀ {n i}, g.lookup n = some i → i.isOpen = true →
      i.label = label → ∃ r, readEntity parse i.toJson = .ok r) :
  hydrateEntities parse (g.listIssues order label) ∅
    = .ok (replay (order.filterMap (g.held (entityOf parse label))) ∅)
  := by
  rw [listIssues_eq]
  unfold entityOf
  rw [filterMap_held]
  apply foldlM_readEntity
  intro i hi
  obtain ⟨n, hn, hopen, hlabel⟩ := mem_issues hi
  apply hread hn hopen hlabel

/-- A collection is hydrated as it was. -/
theorem EntitiesMirrored.hydrate {c : Collection} {es : StringMap Json}
    (h : EntitiesMirrored parse c es g) (hlists : g.Lists order) :
  hydrateEntities parse (g.listIssues order c.label) ∅ = .ok es
  := by
  rw [hydrateEntities_eq h.readable, h.mirror.replay_eq hlists.nodup hlists.mem_of_held]

end Loops

/-! ### Tasks and briefs -/

/-- The loop creates the tasks that are read. -/
theorem hydrateHmasTasks_fst :
  ∀ (issues : List Json) (m : Memory) (numbers : StringMap String),
    (hydrateHmasTasks parse issues m numbers).1
      = (issues.filterMap fun issue => (readRecord parse hmasTaskFromJson issue).map (·.1)).foldl
          Memory.createHmasTask m
  | [], _, _ => rfl
  | issue :: issues, m, numbers => by
      rw [hydrateHmasTasks, List.foldl_cons, List.filterMap_cons]
      cases readRecord parse hmasTaskFromJson issue with
      | none => apply hydrateHmasTasks_fst issues m numbers
      | some r => apply hydrateHmasTasks_fst issues

/-- The loop creates the briefs that are read. -/
theorem hydrateBriefs_fst :
  ∀ (issues : List Json) (m : Memory) (numbers : StringMap String),
    (hydrateBriefs parse issues m numbers).1
      = (issues.filterMap fun issue => (readRecord parse taskBriefFromJson issue).map (·.1)).foldl
          Memory.createTaskBrief m
  | [], _, _ => rfl
  | issue :: issues, m, numbers => by
      rw [hydrateBriefs, List.foldl_cons, List.filterMap_cons]
      cases readRecord parse taskBriefFromJson issue with
      | none => apply hydrateBriefs_fst issues m numbers
      | some r => apply hydrateBriefs_fst issues

namespace Memory

theorem foldl_createHmasTask :
  ∀ (ts : List HmasTask) (m : Memory), ∃ index, ts.foldl createHmasTask m
    = { m with
        hmasTasks := replay (ts.map fun t => (t.id, t)) m.hmasTasks
        hmasTasksByBrief := index }
  | [], m => ⟨m.hmasTasksByBrief, rfl⟩
  | t :: ts, m => foldl_createHmasTask ts (m.createHmasTask t)

theorem foldl_createTaskBrief :
  ∀ (bs : List TaskBrief) (m : Memory), bs.foldl createTaskBrief m
    = { m with taskBriefs := replay (bs.map fun b => (b.id, b)) m.taskBriefs }
  | [], _ => rfl
  | b :: bs, m => foldl_createTaskBrief bs (m.createTaskBrief b)

theorem Indexed.foldl_createHmasTask {ts : List HmasTask} {m : Memory} (h : m.Indexed)
    (hnodup : (ts.map (·.id)).Nodup) (hunused : ∀ t ∈ ts, m.hmasTasks.lookup t.id = none) :
  (ts.foldl Memory.createHmasTask m).Indexed
  := by
  apply h.foldl_createHmasTask_of_noneReplaced
  · apply (List.pairwise_map.mp hnodup).imp
    intro t u hne heq
    exact absurd heq hne
  · intro t ht old hold
    rw [hunused t ht] at hold
    contradiction

end Memory

/-- The records that are read from the issues of a label, under their keys. -/
theorem filterMap_recordOf {α : Type} (parse : String → Option Json) (read : Json → Except Exn α)
    (key : α → String) (g : Github) (order : List String) (label : String) :
  order.filterMap (g.held (recordOf parse read key label))
    = ((g.listIssues order label).filterMap
        fun issue => (readRecord parse read issue).map (·.1)).map fun a => (key a, a)
  := by
  unfold recordOf
  rw [filterMap_held, listIssues_eq, List.filterMap_map, List.map_filterMap]
  congr 1
  funext i
  simp only [Function.comp_apply, Option.map_map]
  rfl

variable {m : Memory}

/-- The tasks are hydrated as they were, and the index lists them. -/
theorem TasksMirrored.hydrate {ts : StringMap HmasTask} {numbers : StringMap String}
    (h : TasksMirrored parse ts numbers g) (hlists : g.Lists order) (hm : m.Indexed)
    (hempty : m.hmasTasks = ∅) (numbers' : StringMap String) :
  ∃ index, (hydrateHmasTasks parse (g.listIssues order "agamemnon-hmas-task") m numbers').1
      = { m with hmasTasks := ts, hmasTasksByBrief := index }
    ∧ Memory.Indexed { m with hmasTasks := ts, hmasTasksByBrief := index }
  := by
  have hrecords := filterMap_recordOf parse hmasTaskFromJson (·.id) g order
    "agamemnon-hmas-task"
  have hreplay := h.mirror.replay_eq hlists.nodup hlists.mem_of_held
  have hnodup := h.mirror.nodup_keys hlists.nodup
  rw [hmasTaskOf, hrecords] at hreplay hnodup
  rw [List.map_map] at hnodup
  rw [hydrateHmasTasks_fst]
  obtain ⟨index, hfold⟩ := Memory.foldl_createHmasTask _ m
  have hindexed := hm.foldl_createHmasTask hnodup ?_
  · rw [hempty, hreplay] at hfold
    use index
    rw [hfold] at hindexed
    exact ⟨hfold, hindexed⟩
  · intro t _
    rw [hempty]
    rfl

/-- The briefs are hydrated as they were. -/
theorem hydrateBriefs_eq {bs : StringMap TaskBrief} (h : Mirror bs (g.held (briefOf parse)))
    (hlists : g.Lists order) (hempty : m.taskBriefs = ∅) (numbers : StringMap String) :
  (hydrateBriefs parse (g.listIssues order "agamemnon-brief") m numbers).1
    = { m with taskBriefs := bs }
  := by
  have hreplay := h.replay_eq hlists.nodup hlists.mem_of_held
  rw [briefOf, filterMap_recordOf] at hreplay
  rw [hydrateBriefs_fst, Memory.foldl_createTaskBrief, hempty, hreplay]

namespace Deployment

variable {dump : Json → String} {d : Deployment}

/-- A store whose issues mirror it is hydrated as it was, but for the order of the index. -/
theorem Mirrored.restart (h : d.Mirrored parse) {order : String → List String}
    (horder : ∀ label, d.github.Lists (order label)) :
  ∃ d' index, restart parse d.github order = .ok d'
    ∧ d'.memory = { d.memory with hmasTasksByBrief := index }
    ∧ Memory.Indexed { d.memory with hmasTasksByBrief := index }
  := by
  have hentities := fun c : Collection => (h.entities c).hydrate (horder c.label)
  have hagents := hentities .agents
  have hteams := hentities .teams
  have htasks := hentities .tasks
  have hfaults := hentities .faults
  simp only [Collection.label] at hagents hteams htasks hfaults
  -- the four collections of entities
  let m : Memory := { Memory.empty with
    agents := d.memory.agents, teams := d.memory.teams, tasks := d.memory.tasks,
    faults := d.memory.faults }
  have hm : m.Indexed := ⟨Memory.indexed_empty.nodup, Memory.indexed_empty.mem_listed⟩
  let loadedTasks := hydrateHmasTasks parse
    (d.github.listIssues (order "agamemnon-hmas-task") "agamemnon-hmas-task") m ∅
  let loaded := hydrateBriefs parse
    (d.github.listIssues (order "agamemnon-brief") "agamemnon-brief") loadedTasks.1 ∅
  obtain ⟨index, hloadedTasks, hindexed⟩ :=
    h.tasks.hydrate (horder "agamemnon-hmas-task") hm rfl ∅
  have hloaded : loaded.1 = { loadedTasks.1 with taskBriefs := d.memory.taskBriefs } := by
    apply hydrateBriefs_eq h.briefs (horder "agamemnon-brief")
    rw [hloadedTasks]
    rfl
  refine ⟨⟨loaded.1, loadedTasks.2, loaded.2, d.github⟩, index, ?_, ?_,
    ⟨hindexed.nodup, hindexed.mem_listed⟩⟩
  · rw [Deployment.restart, hagents, hteams, htasks, hfaults]
    rfl
  · rw [hloaded, hloadedTasks]

/-- After every run, a new store that is hydrated from the issues holds the same entities, tasks
and briefs, and gives the same answers. -/
theorem restart_equivalent (hcodec : Codec dump parse) (hrun : d.Reachable dump)
    {order : String → List String} (horder : ∀ label, d.github.Lists (order label)) :
  ∃ d', restart parse d.github order = .ok d'
    ∧ (∀ c, d'.memory.entities c = d.memory.entities c)
    ∧ d'.memory.hmasTasks = d.memory.hmasTasks
    ∧ d'.memory.taskBriefs = d.memory.taskBriefs
    ∧ d.memory.SameAnswers d'.memory
  := by
  have hmirrored := hrun.mirrored hcodec
  obtain ⟨d', index, hrestart, hmemory, hindexed⟩ := hmirrored.restart horder
  refine ⟨d', hrestart, ?_⟩
  rw [hmemory]
  refine ⟨?_, rfl, rfl, ?_⟩
  · intro c
    cases c <;> rfl
  · apply hmirrored.indexed.sameAnswers hindexed
    intro id task htask
    exact ((hmirrored.entities .tasks).holds htask).teamId rfl

/-! ### Two agents with one name -/

/-- A call that draws the identifier `uuid`, and the number `n` for its issue. -/
def builderEnv (uuid : String) (n : ℕ) : StoreEnv where
  uuid
  number := n
  now := fun _ => ⟨2026, 1, 1, 0, 0, 0⟩

/-- The body of a request for an agent with the name `builder`. -/
def builderBody : Json :=
  .object [("name", .string "builder")]

/-- A store with one agent. -/
def oneBuilder : Deployment :=
  (StoreOp.createAgent builderBody).apply Json.print (builderEnv "a" 1) Deployment.empty

/-- A store with two agents that have the same name. -/
def twoBuilders : Deployment :=
  (StoreOp.createAgent builderBody).apply Json.print (builderEnv "b" 2) oneBuilder

/-- The agents and the issues of the two calls. -/
theorem exists_twoBuilders :
  ∃ a b i j, twoBuilders.memory.agents = ((∅ : StringMap Json).insert "a" a).insert "b" b
    ∧ twoBuilders.github = ((∅ : Github).insert "1" i).insert "2" j
  := ⟨_, _, _, _, rfl, rfl⟩

theorem builderBody_proper :
  builderBody.Proper
  := by
  apply Json.Proper.object (List.pairwise_singleton _ _)
  intro m hm
  obtain rfl := List.mem_singleton.mp hm
  apply Json.Proper.string

theorem reachable_twoBuilders :
  twoBuilders.Reachable Json.print
  := by
  apply Reachable.step
  · apply Reachable.step Reachable.empty
    refine ⟨⟨rfl, by decide, by decide, ?_, rfl⟩, builderBody_proper⟩
    intro c
    cases c <;> rfl
  · refine ⟨⟨rfl, by decide, by decide, ?_, rfl⟩, builderBody_proper⟩
    intro c
    cases c <;> rfl

theorem lists_twoBuilders :
  twoBuilders.github.Lists ["2", "1"]
  := by
  obtain ⟨_, _, i, j, -, hgithub⟩ := exists_twoBuilders
  refine ⟨by decide, ?_⟩
  intro n k hn
  have hmem := Finmap.mem_of_lookup_eq_some hn
  rw [hgithub, Finmap.mem_insert, Finmap.mem_insert] at hmem
  rcases hmem with rfl | rfl | hmem
  · decide
  · decide
  · exact absurd hmem (Finmap.notMem_empty)

/-- The store with two agents is rebuilt. -/
theorem restart_equivalent_twoBuilders :
  Codec Json.print Json.read ∧ twoBuilders.Reachable Json.print
    ∧ ∃ d', restart Json.read twoBuilders.github (fun _ => ["2", "1"]) = .ok d'
      ∧ d'.memory.agents = twoBuilders.memory.agents
      ∧ twoBuilders.memory.SameAnswers d'.memory
  := by
  obtain ⟨d', hrestart, hentities, -, -, hsame⟩ :=
    restart_equivalent Json.codec reachable_twoBuilders fun _ => lists_twoBuilders
  exact ⟨Json.codec, reachable_twoBuilders, d', hrestart, hentities .agents, hsame⟩

theorem visits_twoBuilders (horder : order.Perm ["a", "b"]) :
  twoBuilders.memory.agents.Visits order
  := by
  obtain ⟨_, _, _, _, hagents, -⟩ := exists_twoBuilders
  refine ⟨horder.nodup_iff.mpr (by decide), ?_⟩
  intro k
  rw [horder.mem_iff, hagents, Finmap.mem_insert, Finmap.mem_insert]
  simp [Finmap.notMem_empty, or_comm]

/-- Two agents have the same name.  The issues are listed from the newest, and both maps are
iterated from the entry inserted last: the store that ran finds the second agent, and the new
store finds the first. -/
theorem restart_other_builder :
  Codec Json.print Json.read ∧ twoBuilders.Reachable Json.print
    ∧ twoBuilders.github.Lists ["2", "1"]
    ∧ ∃ d', restart Json.read twoBuilders.github (fun _ => ["2", "1"]) = .ok d'
      ∧ twoBuilders.memory.agents.Visits ["b", "a"]
      ∧ d'.memory.agents.Visits ["a", "b"]
      ∧ twoBuilders.memory.getAgentByName ["b", "a"] "builder"
        ≠ d'.memory.getAgentByName ["a", "b"] "builder"
  := by
  obtain ⟨d', index, hrestart, hmemory, -⟩ :=
    (reachable_twoBuilders.mirrored Json.codec).restart fun _ => lists_twoBuilders
  have hagents : d'.memory.agents = twoBuilders.memory.agents := by rw [hmemory]
  refine ⟨Json.codec, reachable_twoBuilders, lists_twoBuilders, d', hrestart,
    visits_twoBuilders (List.Perm.swap _ _ _), ?_, ?_⟩
  · rw [hagents]
    apply visits_twoBuilders (List.Perm.refl _)
  · rw [show d'.memory.getAgentByName ["a", "b"] "builder"
        = twoBuilders.memory.getAgentByName ["a", "b"] "builder" by
      rw [Memory.getAgentByName, Memory.getAgentByName, hagents]]
    intro heq
    have hid : some (Json.string "b") = some (Json.string "a")
      := congrArg (fun agent => agent.toOption.bind (·.get? "id")) heq
    exact absurd (Json.string.inj (Option.some.inj hid)) (by decide)

end Deployment

end Agamemnon
