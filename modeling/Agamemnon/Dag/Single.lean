import Agamemnon.Dag.Clear
import Agamemnon.Dag.Cycle

/-!
# One scan

A call of `advance_dag` that is not disturbed, and whose client does not fail, assigns the first
ready tasks to the first available agents, as many as there are of both.  The loop changes the
tasks and agents that the lists were chosen from, but never one that it still has to come to, if the
identifiers are distinct.  A task with an unknown dependency stops the call before it assigns
anything.
-/

namespace Agamemnon.Dag

open Graph Walker Machine

/-! ### The search before the scan -/

variable {tasks : List Task}

theorem findCyclePath_of_acyclic (repr : String → String) {starts : List String}
    (hids : (tasks.map (·.id)).Nodup)
    (hknown : ∀ t ∈ tasks, ∀ dep ∈ t.dependencies, dep ∈ tasks.map (·.id))
    (hacyclic : Acyclic (DependsOn tasks)) (hstarts : starts.Perm (tasks.map (·.id))) :
  ∃ bound, ∀ limit, bound ≤ limit → findCyclePath repr starts limit tasks = some (.ok [])
  := by
  obtain ⟨path, ⟨bound, hbound⟩, hpath⟩ := searchAll_tasks hids hknown fun x => hstarts.mem_iff
  have hnil : path = [] := by
    obtain hwalk | ⟨hnil, -⟩ := hpath
    · apply absurd _ hwalk.not_acyclic
      apply hacyclic.of_path
      exact fun a b hab => Relation.TransGen.single ((mem_adj hids).mp hab)
    · exact hnil
  use bound
  intro limit hlimit
  rw [findCyclePath, (validate_eq_ok repr).mpr hknown]
  simp only
  rw [hbound limit hlimit, hnil]
  rfl

/-- Tasks of which each has a higher rank than its dependencies have no cycle. -/
theorem acyclic_of_rank (rank : String → ℕ)
    (h : ∀ t ∈ tasks, ∀ dep ∈ t.dependencies, rank dep < rank t.id) :
  Acyclic (DependsOn tasks)
  := by
  have hempty : Acyclic fun _ _ : String => False := by
    intro a hpath
    cases hpath with
    | single hfalse | tail _ hfalse => exact hfalse
  apply hempty.of_rank rank
  rintro _ dep ⟨t, ht, rfl, hdep⟩
  exact .inl (h t ht dep hdep)

namespace Walker

variable {w : Walker} {t a : ℕ} {assignments : List (ℕ × ℕ)}

def agentIds (w : Walker) : List String :=
  w.agents.map fun a => (w.agent a).id

/-- The tasks as the search for a cycle reads them. -/
def graph (w : Walker) : List Task :=
  w.tasks.map fun t => (w.task t).toTask

theorem map_id_graph (w : Walker) :
  w.graph.map (·.id) = w.taskIds
  := List.map_map

/-- The walker after its client has answered `get_agents`, if it has it. -/
def refreshed (w : Walker) : Client → AgentsReply → Walker
  | .refreshing, .fresh agents => { w with agents := agents }
  | _, _ => w

theorem taskIds_refreshed (client : Client) (reply : AgentsReply) :
  (w.refreshed client reply).taskIds = w.taskIds
  := by
  cases client with
  | absent | assigning => rfl
  | refreshing =>
    cases reply with
    | fresh | nothing | failed => rfl

/-! ### Several assignments -/

def assignAll (w : Walker) (assignments : List (ℕ × ℕ)) : Walker :=
  assignments.foldl (fun w p => w.assign p.1 p.2) w

theorem assignAll_cons :
  w.assignAll ((t, a) :: assignments) = (w.assign t a).assignAll assignments
  := rfl

theorem task_assign_of_ne {t' : ℕ} (h : t' ≠ t) :
  (w.assign t a).task t' = w.task t'
  := Function.update_of_ne h _ _

theorem agent_assign_of_ne {a' : ℕ} (h : a' ≠ a) :
  (w.assign t a).agent a' = w.agent a'
  := Function.update_of_ne h _ _

@[simp]
theorem tasks_assignAll :
  (w.assignAll assignments).tasks = w.tasks
  := by
  induction assignments generalizing w with
  | nil => rfl
  | cons p assignments ih => exact ih

@[simp]
theorem agents_assignAll :
  (w.assignAll assignments).agents = w.agents
  := by
  induction assignments generalizing w with
  | nil => rfl
  | cons p assignments ih => exact ih

/-- A task that is not assigned stays as it is. -/
theorem task_assignAll_of_not_mem (h : t ∉ assignments.map Prod.fst) :
  (w.assignAll assignments).task t = w.task t
  := by
  induction assignments generalizing w with
  | nil => rfl
  | cons p assignments ih =>
    rw [List.map_cons, List.mem_cons, not_or] at h
    rw [assignAll_cons, ih h.2, task_assign_of_ne h.1]

/-- An agent that gets no task stays as it is. -/
theorem agent_assignAll_of_not_mem (h : a ∉ assignments.map Prod.snd) :
  (w.assignAll assignments).agent a = w.agent a
  := by
  induction assignments generalizing w with
  | nil => rfl
  | cons p assignments ih =>
    rw [List.map_cons, List.mem_cons, not_or] at h
    rw [assignAll_cons, ih h.2, agent_assign_of_ne h.1]

/-- A task that is assigned once has its agent. -/
theorem task_assignAll (hnodup : (assignments.map Prod.fst).Nodup) (hmem : (t, a) ∈ assignments) :
  (w.assignAll assignments).task t = { w.task t with assignedAgentId := some (w.agent a).id }
  := by
  induction assignments generalizing w with
  | nil => contradiction
  | cons p assignments ih =>
    rw [List.map_cons, List.nodup_cons] at hnodup
    obtain rfl | hmem := List.mem_cons.mp hmem
    · rw [assignAll_cons, task_assignAll_of_not_mem hnodup.1]
      exact Function.update_self _ _ _
    · have hne : t ≠ p.1 := by
        rintro rfl
        exact hnodup.1 (List.mem_map.mpr ⟨_, hmem, rfl⟩)
      rw [assignAll_cons, ih hnodup.2 hmem, task_assign_of_ne hne, id_agent_assign]

/-- An agent that gets one task is busy with it. -/
theorem agent_assignAll (hnodup : (assignments.map Prod.snd).Nodup) (hmem : (t, a) ∈ assignments) :
  (w.assignAll assignments).agent a = { w.agent a with currentTaskId := some (w.task t).id }
  := by
  induction assignments generalizing w with
  | nil => contradiction
  | cons p assignments ih =>
    rw [List.map_cons, List.nodup_cons] at hnodup
    obtain rfl | hmem := List.mem_cons.mp hmem
    · rw [assignAll_cons, agent_assignAll_of_not_mem hnodup.1]
      exact Function.update_self _ _ _
    · have hne : a ≠ p.2 := by
        rintro rfl
        exact hnodup.1 (List.mem_map.mpr ⟨_, hmem, rfl⟩)
      rw [assignAll_cons, ih hnodup.2 hmem, agent_assign_of_ne hne, id_task_assign]

/-! ### The two lists -/

theorem mem_completedIds {id : String} :
  id ∈ w.completedIds ↔ ∃ t ∈ w.tasks, (w.task t).id = id ∧ (w.task t).status ∈ terminalStatuses
  := by
  rw [completedIds, List.mem_map]
  constructor
  · rintro ⟨t, ht, hid⟩
    obtain ⟨hmem, hstatus⟩ := List.mem_filter.mp ht
    exact ⟨t, hmem, hid, of_decide_eq_true hstatus⟩
  · rintro ⟨t, hmem, hid, hstatus⟩
    exact ⟨t, List.mem_filter.mpr ⟨hmem, decide_eq_true hstatus⟩, hid⟩

theorem mem_getReadyTasks :
  t ∈ w.getReadyTasks ↔ t ∈ w.tasks ∧ (w.task t).status = "pending"
    ∧ (w.task t).assignedAgentId = none
    ∧ ∀ dep ∈ (w.task t).dependencies, ∃ t' ∈ w.tasks,
      (w.task t').id = dep ∧ (w.task t').status ∈ terminalStatuses
  := by
  simp only [getReadyTasks, List.mem_filter, Bool.and_eq_true, decide_eq_true_eq, List.all_eq_true,
    Option.isNone_iff_eq_none, mem_completedIds, and_assoc]

/-- The assignments of a scan. -/
def matching (w : Walker) : List (ℕ × ℕ) :=
  w.getReadyTasks.zip w.getAvailableAgents

theorem map_fst_matching (w : Walker) :
  w.matching.map Prod.fst
    = w.getReadyTasks.take (min w.getReadyTasks.length w.getAvailableAgents.length)
  := by
  rw [matching, List.zip_eq_zip_take_min, List.map_fst_zip]
  simp

theorem map_snd_matching (w : Walker) :
  w.matching.map Prod.snd
    = w.getAvailableAgents.take (min w.getReadyTasks.length w.getAvailableAgents.length)
  := by
  rw [matching, List.zip_eq_zip_take_min, List.map_snd_zip]
  simp

/-- The tasks that a scan assigns are tasks of the walker, in their order. -/
theorem map_fst_matching_sublist (w : Walker) :
  (w.matching.map Prod.fst).Sublist w.tasks
  := by
  rw [map_fst_matching]
  exact (List.take_sublist _ _).trans List.filter_sublist

theorem map_snd_matching_sublist (w : Walker) :
  (w.matching.map Prod.snd).Sublist w.agents
  := by
  rw [map_snd_matching]
  exact (List.take_sublist _ _).trans List.filter_sublist

end Walker

namespace Scans

variable {settings : Settings} {client : Client} {s : Scans} {i : Fin 2}

/-! ### The loop without a failure -/

/-- The state in which a call has gone through its lists. -/
def finished (s : Scans) (client : Client) (i : Fin 2) (ready available : List ℕ)
    (assignments : List (ℕ × ℕ)) : Scans where
  walker := s.walker.assignAll (ready.zip available)
  call := Function.update s.call i (.returned (assignments ++ ready.zip available))
  log := s.log ++ pairs client s.walker ready available
  made := Function.update s.made i (s.made i ++ pairs client s.walker ready available)
  plan := s.plan

variable {ready available : List ℕ}

theorem pairs_of_zip_eq_nil (hzip : ready.zip available = []) (client : Client) (w : Walker) :
  pairs client w ready available = []
  := by
  rw [pairs, List.zipWith_eq_nil_iff.mpr (List.zip_eq_nil_iff.mp hzip), ite_self]

variable {assignments : List (ℕ × ℕ)}

/-- A loop that has nothing left to assign returns. -/
theorem proceed_of_zip_eq_nil (hzip : ready.zip available = []) :
  proceed client i ready available assignments s = s.finished client i ready available assignments
  := by
  have hreturned : s.finished client i ready available assignments
      = s.setCall i (.returned assignments) := by
    simp only [finished, hzip, pairs_of_zip_eq_nil hzip, List.append_nil, Function.update_eq_self]
    rfl
  rw [hreturned]
  obtain rfl | rfl := List.zip_eq_nil_iff.mp hzip
  · rw [proceed]
    simp
  · rw [proceed]
    simp

theorem length_pairs_cons (hclient : client ≠ .absent) (w : Walker) (t a : ℕ)
    (ready available : List ℕ) :
  (pairs client w (t :: ready) (a :: available)).length
    = (pairs client w ready available).length + 1
  := by
  simp only [pairs, if_neg hclient, List.zipWith_cons_cons, List.length_cons]

variable {t a : ℕ}

theorem pairs_asked :
  pairs client (s.asked i t a ready available assignments).walker ready available
    = pairs client s.walker ready available
  := by
  simp only [pairs, asked, arguments_assign]

/-- The call goes on after an assignment. -/
theorem act_asked :
  (s.asked i t a ready available assignments).act settings (.assigned i)
    = some (proceed settings.client i ready available (assignments ++ [(t, a)])
      (s.asked i t a ready available assignments))
  := by
  simp only [act, asked, Function.update_self]

theorem finished_asked (hclient : client ≠ .absent) :
  (s.asked i t a ready available assignments).finished client i ready available
      (assignments ++ [(t, a)])
    = s.finished client i (t :: ready) (a :: available) assignments
  := by
  simp only [finished, asked, pairs, if_neg hclient, Function.update_idem, Function.update_self,
    assignAll_cons, arguments_assign, List.zip_cons_cons, List.zipWith_cons_cons,
    List.append_assoc, List.singleton_append]

/-- When all its assignments have been answered, the call has gone through its lists. -/
theorem run_proceed (settings : Settings) (i : Fin 2) (ready available : List ℕ)
    (assignments : List (ℕ × ℕ)) (s : Scans) :
  run (act settings) (proceed settings.client i ready available assignments s)
      (List.replicate (pairs settings.client s.walker ready available).length (.assigned i))
    = some (s.finished settings.client i ready available assignments)
  := by
  induction hzip : ready.zip available generalizing ready available assignments s with
  | nil =>
    rw [proceed_of_zip_eq_nil hzip, pairs_of_zip_eq_nil hzip]
    rfl
  | cons p rest ih =>
    obtain ⟨t, a⟩ := p
    obtain ⟨ready, available, rfl, rfl, rfl⟩ := List.zip_eq_cons_iff.mp hzip
    by_cases hclient : settings.client = .absent
    · -- without a client the loop does not wait
      have hrest := ih ready available (assignments ++ [(t, a)])
        { s with walker := s.walker.assign t a } rfl
      rw [proceed, if_pos hclient]
      simpa only [pairs, if_pos hclient, finished, assignAll_cons, List.zip_cons_cons,
        List.append_assoc, List.singleton_append] using hrest
    · have hrest := ih ready available (assignments ++ [(t, a)])
        (s.asked i t a ready available assignments) rfl
      rw [finished_asked hclient, pairs_asked] at hrest
      rw [proceed, if_neg hclient, length_pairs_cons hclient, List.replicate_succ]
      apply run_cons.mpr
      exact ⟨_, act_asked, hrest⟩

/-! ### The whole call -/

/-- A call starts, gets the agents if the client has `get_agents`, and makes `n` assignments. -/
def callActions (client : Client) (i : Fin 2) (reply : AgentsReply) (n : ℕ) : List ScanAction :=
  .start i :: (if client = .refreshing then [.agents i reply] else [])
    ++ List.replicate n (.assigned i)

/-- What a scan is for: the first ready tasks of `w` have been assigned to the first available
agents, as many as there are of both, the client has been told each of these assignments once, and
nothing else has changed. -/
structure Advanced (client : Client) (w : Walker) (i : Fin 2) (s : Scans)
    (assignments : List (ℕ × ℕ)) : Prop where
  returned : s.call i = .returned assignments
  tasks : assignments.map Prod.fst
    = w.getReadyTasks.take (min w.getReadyTasks.length w.getAvailableAgents.length)
  agents : assignments.map Prod.snd
    = w.getAvailableAgents.take (min w.getReadyTasks.length w.getAvailableAgents.length)
  distinct : (assignments.map fun p => (w.agent p.2).id).Nodup
  ready : ∀ p ∈ assignments, (w.task p.1).status = "pending"
    ∧ (w.task p.1).assignedAgentId = none
    ∧ ∀ dep ∈ (w.task p.1).dependencies, ∃ t ∈ w.tasks,
      (w.task t).id = dep ∧ (w.task t).status ∈ terminalStatuses
  passed : client ≠ .absent → s.log = assignments.map (fun p => w.arguments p.1 p.2)
    ∧ ∀ p ∈ assignments, s.log.count (w.arguments p.1 p.2) = 1
  assigned : ∀ p ∈ assignments,
    s.walker.task p.1 = { w.task p.1 with assignedAgentId := some (w.agent p.2).id }
    ∧ s.walker.agent p.2 = { w.agent p.2 with currentTaskId := some (w.task p.1).id }
  otherTasks : ∀ t, t ∉ assignments.map Prod.fst → s.walker.task t = w.task t
  otherAgents : ∀ a, a ∉ assignments.map Prod.snd → s.walker.agent a = w.agent a
  lists : s.walker.tasks = w.tasks ∧ s.walker.agents = w.agents

theorem start_of_findCyclePath (h : findCyclePath settings.repr settings.starts settings.limit
      s.walker.graph = some (.ok [])) :
  s.start settings i = some (if settings.client = .refreshing then s.setCall i .fetching
    else s.scan settings.client i)
  := by
  rw [graph] at h
  rw [start, h]
  cases settings.client with
  | absent | assigning | refreshing => rfl

/-- The state in which a call that has started comes to its scan. -/
def prepared (client : Client) (i : Fin 2) (w : Walker) (reply : AgentsReply) : Scans :=
  { (if client = .refreshing then (initial w).setCall i .fetching else initial w) with
    walker := w.refreshed client reply }

theorem log_prepared (client : Client) (i : Fin 2) (w : Walker) (reply : AgentsReply) :
  (prepared client i w reply).log = []
  := by
  rw [prepared]
  split_ifs
  · rfl
  · rfl

/-- A call that finds no cycle comes to its scan with the agents that it has got. -/
theorem run_callActions (settings : Settings) (i : Fin 2) {w : Walker} (reply : AgentsReply) (n : ℕ)
    (h : findCyclePath settings.repr settings.starts settings.limit w.graph = some (.ok [])) :
  run (act settings) (initial w) (callActions settings.client i reply n)
    = run (act settings)
      (scan settings.client i (prepared settings.client i w reply))
      (List.replicate n (.assigned i))
  := by
  have hstart : (initial w).act settings (.start i)
      = some (if settings.client = .refreshing then (initial w).setCall i .fetching
        else (initial w).scan settings.client i) := start_of_findCyclePath h
  rw [callActions, List.cons_append, run, List.foldlM_cons, hstart]
  by_cases hclient : settings.client = .refreshing
  · have hfetching : ((initial w).setCall i .fetching).act settings (.agents i reply)
        = some (scan settings.client i (prepared settings.client i w reply)) := by
      simp only [act, setCall, Function.update_self, hclient, prepared, if_true]
      cases reply with
      | fresh | nothing | failed => rfl
    rw [if_pos hclient, if_pos hclient, List.singleton_append]
    simp only [Option.bind_eq_bind, Option.bind_some, List.foldlM_cons]
    rw [hfetching]
    rfl
  · have hprepared : prepared settings.client i w reply = initial w := by
      rw [prepared, if_neg hclient]
      cases hc : settings.client with
      | absent | assigning => rfl
      | refreshing => contradiction
    rw [if_neg hclient, if_neg hclient, hprepared]
    rfl

theorem told_eq_map (hclient : client ≠ .absent) :
  s.told client = s.walker.matching.map fun p => s.walker.arguments p.1 p.2
  := by
  rw [told, pairs, if_neg hclient, matching, List.map_zip_eq_zipWith]
  rfl

/-- No task is told twice. -/
theorem nodup_told (client : Client) (htasks : s.walker.taskIds.Nodup) :
  (s.told client).Nodup
  := by
  apply List.Nodup.of_map Prod.fst
  apply (map_fst_pairs client s.walker _ _).nodup
  exact (List.filter_sublist.map _).nodup htasks

/-- The state in which a scan has ended. -/
def scanned (s : Scans) (client : Client) (i : Fin 2) : Scans :=
  (s.planned client i).finished client i s.walker.getReadyTasks s.walker.getAvailableAgents []

theorem run_scan (settings : Settings) (i : Fin 2) (s : Scans) :
  run (act settings) (scan settings.client i s)
      (List.replicate (s.told settings.client).length (.assigned i))
    = some (s.scanned settings.client i)
  := run_proceed settings i s.walker.getReadyTasks s.walker.getAvailableAgents []
    (s.planned settings.client i)

theorem advanced_scanned (client : Client) (i : Fin 2) (hlog : s.log = [])
    (htasks : s.walker.taskIds.Nodup) (hagents : s.walker.agentIds.Nodup) :
  Advanced client s.walker i (s.scanned client i) s.walker.matching
  := by
  have hfst : (s.walker.matching.map Prod.fst).Nodup
    := s.walker.map_fst_matching_sublist.nodup htasks.of_map
  have hsnd : (s.walker.matching.map Prod.snd).Nodup
    := s.walker.map_snd_matching_sublist.nodup hagents.of_map
  constructor
  case returned =>
    simp only [scanned, finished, Function.update_self, List.nil_append, matching]
  case tasks => exact s.walker.map_fst_matching
  case agents => exact s.walker.map_snd_matching
  case distinct =>
    have hids := s.walker.map_snd_matching_sublist.map fun a => (s.walker.agent a).id
    replace hids := hids.nodup hagents
    rwa [List.map_map] at hids
  case ready =>
    rintro ⟨t, a⟩ hp
    exact (mem_getReadyTasks.mp (List.of_mem_zip hp).1).2
  case passed =>
    intro hclient
    have hpassed : (s.scanned client i).log = s.told client
      := by simp only [scanned, finished, planned, told, hlog, List.nil_append]
    rw [hpassed]
    use told_eq_map hclient
    intro p hp
    apply List.count_eq_one_of_mem (nodup_told client htasks)
    rw [told_eq_map hclient]
    exact List.mem_map_of_mem hp
  case assigned =>
    rintro ⟨t, a⟩ hp
    exact ⟨task_assignAll hfst hp, agent_assignAll hsnd hp⟩
  case otherTasks => exact fun t => task_assignAll_of_not_mem
  case otherAgents => exact fun a => agent_assignAll_of_not_mem
  case lists => exact ⟨tasks_assignAll, agents_assignAll⟩

/-- For tasks and agents with distinct identifiers, known dependencies and no cycle, a call whose
client does not fail ends, and has done what a scan is for. -/
theorem advanced_of_acyclic (client : Client) (repr : String → String) (starts : List String)
    (w : Walker) (i : Fin 2) (reply : AgentsReply) (htasks : w.taskIds.Nodup)
    (hagents : (w.refreshed client reply).agentIds.Nodup)
    (hknown : ∀ t ∈ w.graph, ∀ dep ∈ t.dependencies, dep ∈ w.taskIds)
    (hacyclic : Acyclic (DependsOn w.graph)) (hstarts : starts.Perm w.taskIds) :
  ∃ n s assignments bound,
    (∀ limit, bound ≤ limit →
      run (act ⟨client, repr, starts, limit⟩) (initial w) (callActions client i reply n)
        = some s)
    ∧ Advanced client (w.refreshed client reply) i s assignments
  := by
  rw [← w.map_id_graph] at hknown hstarts
  obtain ⟨bound, hbound⟩ := findCyclePath_of_acyclic repr
    (w.map_id_graph.symm ▸ htasks) hknown hacyclic hstarts
  rw [← taskIds_refreshed client reply] at htasks
  have hadvanced := advanced_scanned client i (log_prepared client i w reply) htasks hagents
  refine ⟨((prepared client i w reply).told client).length, _, _, bound, ?_, hadvanced⟩
  intro limit hlimit
  rw [run_callActions ⟨client, repr, starts, limit⟩ i reply _ (hbound limit hlimit)]
  exact run_scan ⟨client, repr, starts, limit⟩ i (prepared client i w reply)

/-- A walker like `twoPending` whose second task depends on the first one, which has failed; of the
agents that the client shows, one is busy. -/
def afterFailure : Walker where
  tasks := [0, 1]
  task := fun t =>
    { id := if t = 0 then "first" else "second"
      dependencies := if t = 0 then [] else ["first"]
      status := if t = 0 then "failed" else "pending"
      assignedAgentId := none }
  agents := []
  agent := fun a =>
    { id := if a = 0 then "ajax" else if a = 1 then "nestor" else "teucer"
      status := "active"
      sessionStatus := "online"
      currentTaskId := if a = 0 then some "other" else none }

/-- The first agent that is not busy gets the task. -/
theorem advanced_afterFailure :
  ∃ n s assignments bound,
    (∀ limit, bound ≤ limit →
      run (act ⟨.refreshing, id, ["second", "first"], limit⟩) (initial afterFailure)
        (callActions .refreshing 0 (.fresh [0, 1, 2]) n) = some s)
    ∧ s.call 0 = .returned assignments
    ∧ assignments.map Prod.fst = [1] ∧ assignments.map Prod.snd = [1]
  := by
  obtain ⟨n, s, assignments, bound, hrun, h⟩ := advanced_of_acyclic .refreshing id
    ["second", "first"] afterFailure 0 (.fresh [0, 1, 2]) (by decide) (by decide) (by decide)
    (acyclic_of_rank (fun id => if id = "first" then 0 else 1) (by decide)) (by decide)
  exact ⟨n, s, assignments, bound, hrun, h.returned, h.tasks, h.agents⟩

/-- A walker like `twoPending` whose first task depends on a task that is not there. -/
def ghostDependency : Walker :=
  { twoPending with
    task := fun t => { twoPending.task t with dependencies := if t = 0 then ["ghost"] else [] } }

/-- The call raises an error and does not assign the second task, although it is ready, there is
no cycle and agents are available. -/
theorem raised_ghostDependency :
  ghostDependency.taskIds.Nodup ∧ ghostDependency.agentIds.Nodup
    ∧ Acyclic (DependsOn ghostDependency.graph)
    ∧ ghostDependency.getReadyTasks = [1] ∧ ghostDependency.getAvailableAgents = [0, 1, 2]
    ∧ ∀ limit, ∃ s, run
        (act ⟨.assigning, fun id => "'" ++ id ++ "'", ["first", "second"], limit⟩)
        (initial ghostDependency) [.start 0] = some s
      ∧ s.call 0 = .raised "Unknown dependency 'ghost' referenced by task 'first'"
      ∧ s.log = []
  := by
  refine ⟨by decide, by decide, ?_, by decide, by decide, ?_⟩
  · apply acyclic_of_rank fun id => if id = "ghost" then 0 else 1
    decide
  · intro limit
    exact ⟨_, rfl, rfl, rfl⟩

end Scans

end Agamemnon.Dag
