import Agamemnon.Server.Answers
import Agamemnon.Store.Completion

/-!
# Full updates from the client

By default `update_task` of the client sends all fields of a `TaskUpdate`, those that are not set
as null.  The server refuses a subject, a description or blockers that are null, and cannot read a
status that is null.  A type or an assignee that is null replaces the one that is stored
(`accepted_iff`).
-/

namespace Agamemnon

open Attempt Operation Handling

/-- `TaskUpdate`, with the fields that it does not declare. -/
structure TaskUpdate where
  subject : Option String
  description : Option String
  assigneeAgentId : Option String
  blockedBy : Option (List String)
  type : Option String
  status : Option String
  extra : List (String × Json)
  undeclared : (["subject", "description", "assigneeAgentId", "blockedBy", "type", "status"]
    ++ extra.map Prod.fst).Nodup
  proper : ∀ m ∈ extra, m.2.Proper

namespace TaskUpdate

def declared (u : TaskUpdate) : List (String × Option Json) :=
  [("subject", u.subject.map .string), ("description", u.description.map .string),
    ("assigneeAgentId", u.assigneeAgentId.map .string),
    ("blockedBy", u.blockedBy.map .ofStrings), ("type", u.type.map .string),
    ("status", u.status.map .string)]

/-- `model_dump`, with null for what is not set. -/
def modelDump (u : TaskUpdate) : Json :=
  .ofMembers (u.declared.map (fun m => (m.1, m.2.getD .null)) ++ u.extra)

/-- The values that are set pass the checks of the server. -/
structure Valid (u : TaskUpdate) : Prop where
  subject : ∀ s ∈ u.subject, s.utf8ByteSize ≤ maxSubjectLen
  description : ∀ s ∈ u.description, s.utf8ByteSize ≤ maxDescriptionLen
  status : ∀ s ∈ u.status, s ∈ validTaskStatuses
  type : ∀ s ∈ u.type, s ∈ validTaskTypes

section Body

variable {u : TaskUpdate} {env : StoreEnv} {task : Json} {k : String} {v : Option Json}

theorem get?_modelDump (u : TaskUpdate) (k : String) :
  u.modelDump.get? k = (u.declared.map (fun m => (m.1, m.2.getD .null)) ++ u.extra).lookup k
  := by
  apply Json.get?_ofMembers
  rw [List.map_append]
  exact u.undeclared

theorem get?_of_declared (h : (k, v) ∈ u.declared) :
  u.modelDump.get? k = some (v.getD .null)
  := by
  rw [get?_modelDump]
  simp only [declared, List.mem_cons, Prod.mk.injEq, List.not_mem_nil, or_false] at h
  rcases h with ⟨rfl, rfl⟩ | ⟨rfl, rfl⟩ | ⟨rfl, rfl⟩ | ⟨rfl, rfl⟩ | ⟨rfl, rfl⟩ | ⟨rfl, rfl⟩ <;> rfl

theorem proper_getD {α : Type} {f : α → Json} (hf : ∀ a, (f a).Proper) (o : Option α) :
  ((o.map f).getD .null).Proper
  := by
  cases o with
  | none => exact .null
  | some a => exact hf a

theorem proper_modelDump (u : TaskUpdate) :
  u.modelDump.Proper
  := by
  have hdeclared : ∀ m ∈ u.declared, (m.2.getD .null).Proper := by
    simp only [declared, List.forall_mem_cons]
    exact ⟨proper_getD .string _, proper_getD .string _, proper_getD .string _,
      proper_getD .ofStrings _, proper_getD .string _, proper_getD .string _, by simp⟩
  apply Json.Proper.ofMembers
  intro m hm
  rcases List.mem_append.mp hm with hm | hm
  · obtain ⟨m', hm', rfl⟩ := List.mem_map.mp hm
    exact hdeclared m' hm'
  · exact u.proper m hm

/-- What is sent is stored, null included. -/
theorem get?_changedTask_of_declared (hobject : task.isObject = true) (h : (k, v) ∈ u.declared) :
  (changedTask env u.modelDump task).get? k = some (v.getD .null)
  := by
  have hnames : ∀ k ∈ u.declared.map Prod.fst,
      k ∉ ["completedAt", "id", "teamId", "createdAt", "_github_issue", "updatedAt"]
    := Lists.forall_of_all rfl
  rw [get?_changedTask_of_not_mem hobject u.proper_modelDump, get?_of_declared h]
  · rfl
  · exact hnames k (List.mem_map_of_mem h)

variable {j : Json} {o : Option String}

theorem textAt_iff (h : j.get? k = some ((o.map .string).getD .null)) :
  j.TextAt k ↔ o ≠ none
  := by
  rw [Json.TextAt, h]
  cases o <;> simp

theorem get?_eq_string_iff (h : j.get? k = some ((o.map .string).getD .null)) (s : String) :
  j.get? k = some (.string s) ↔ o = some s
  := by
  rw [h]
  cases o <;> simp

theorem passes_iff (u : TaskUpdate) :
  firstRefusal (taskChecks u.modelDump) = .ok none
    ↔ u.Valid ∧ u.subject ≠ none ∧ u.description ≠ none ∧ u.blockedBy ≠ none
  := by
  have hget : ∀ m ∈ u.declared, u.modelDump.get? m.1 = some (m.2.getD .null)
    := fun _ => get?_of_declared
  simp only [declared, List.forall_mem_cons] at hget
  obtain ⟨hsubject, hdescription, -, hblockedBy, htype, hstatus, -⟩ := hget
  have harray : requireStringArray u.modelDump "blockedBy" = .ok none ↔ u.blockedBy ≠ none := by
    rw [requireStringArray, hblockedBy]
    cases u.blockedBy <;> simp [Json.ofStrings, Json.isText]
  rw [taskChecks]
  simp only [firstRefusal_passes, requireStringIfPresent_passes, onMember_passes, onString_passes,
    checkFieldLength_passes, requireEnum_passes, textAt_iff hsubject, get?_eq_string_iff hsubject,
    textAt_iff hdescription, get?_eq_string_iff hdescription, get?_eq_string_iff hstatus,
    get?_eq_string_iff htype, harray]
  constructor
  · rintro ⟨hs, ⟨-, hslen⟩, hd, ⟨-, hdlen⟩, hstatus, htype, hblocked, -⟩
    exact ⟨⟨hslen, hdlen, hstatus, htype⟩, hs, hd, hblocked⟩
  · rintro ⟨hvalid, hs, hd, hblocked⟩
    exact ⟨hs, ⟨hs, hvalid.subject⟩, hd, ⟨hd, hvalid.description⟩, hvalid.status, hvalid.type,
      hblocked, rfl⟩

end Body

/-! ### The request -/

/-- The task is stored, once the tasks are loaded, and belongs to the team. -/
structure Exists (parse : String → Option Json) (gh : Option Client) (s : Server)
    (teamId taskId : String) (loaded : LiveStore) (task : Json) : Prop where
  team : teamId ≠ ""
  load : exec (load parse gh (.entities .tasks)) s.store = (.ok (), loaded)
  stored : loaded.stored .tasks taskId = some task
  owner : task.valueString "teamId" "" = .ok teamId

/-- The body passes the checks, the reply is 200, and what is not set is as it was. -/
structure Accepted (u : TaskUpdate) (request : Handling Response) (s : Server) (taskId : String)
    (task : Json) : Prop where
  passes : firstRefusal (taskChecks u.modelDump) = .ok none
  replied : ∃ response, (exec request s).1 = .ok response ∧ response.status = 200
  kept : ∀ k, (k, none) ∈ u.declared →
    ((exec request s).2.store.stored .tasks taskId).bind (·.get? k) = task.get? k

/-- All that has to be set is set, and nothing that is stored gets lost. -/
structure Sufficient (u : TaskUpdate) (gh : Option Client) (env : StoreEnv) (taskId : String)
    (task : Json) : Prop where
  valid : u.Valid
  subject : u.subject ≠ none
  description : u.description ≠ none
  blockedBy : u.blockedBy ≠ none
  status : u.status ≠ none
  completed : u.status = some "completed" → u.type ≠ none ∧ u.assigneeAgentId ≠ none
  kept : ∀ k, (k, none) ∈ u.declared → task.get? k = some .null
  issue : ∃ a, rewriteIssue gh .tasks taskId (changedTask env u.modelDump task) = .ok a

section Request

variable {parse : String → Option Json} {gh : Option Client} {metrics : Bool} {env : StoreEnv}
  {s : Server} {teamId taskId : String} {body task : Json} {loaded : LiveStore} {u : TaskUpdate}

/-- An answer that is sent has the status 200, and the store is left alone. -/
theorem ends_announceTask (changed : Json) :
  Ends (fun r t => t.store = s.store ∧ ∀ response, r = .ok response → response.status = 200)
    (announceTask teamId taskId changed) s
  := by
  rw [announceTask, ends_lift_bind]
  refine ⟨fun _ _ => ⟨rfl, by simp⟩, fun status _ => ?_⟩
  apply ends_modify_bind.mpr
  split_ifs
  · rw [ends_lift_bind]
    refine ⟨fun _ _ => ⟨rfl, by simp⟩, fun taskType _ => ?_⟩
    rw [ends_lift_bind]
    refine ⟨fun _ _ => ⟨rfl, by simp⟩, fun assignee _ => ⟨rfl, ?_⟩⟩
    rintro _ ⟨⟩
    rfl
  · refine ⟨rfl, ?_⟩
    rintro _ ⟨⟩
    rfl

/-- The change is stored, whether or not it is announced. -/
theorem ends_storeTask (hobject : task.isObject = true) :
  Ends (fun r t => t.store = s.store.put .tasks taskId (changedTask env body task)
      ∧ ∀ response, r = .ok response → response.status = 200)
    (onStore (storeTask gh metrics env taskId body task) >>= respondTask teamId taskId) s
  := by
  rw [ends_bind, onStore, storeTask, Ends]
  simp only [exec_focus, exec_bind, exec_modify, exec_lift]
  cases rewriteIssue gh .tasks taskId (changedTask env body task) with
  | error e => simp
  | ok _ =>
    cases recordStatus metrics body with
    | error e => simp
    | ok _ =>
      refine ⟨by simp, ?_⟩
      rintro _ ⟨⟩
      rw [respondTask_eq (isObject_changedTask env body hobject)]
      apply ends_announceTask

/-- A body that passes changes the stored task, after the tasks have been loaded. -/
theorem exec_updateTaskHandler (hexists : Exists parse gh s teamId taskId loaded task)
    (hpasses : firstRefusal (taskChecks u.modelDump) = .ok none) :
  exec (updateTaskHandler parse gh metrics env teamId taskId u.modelDump) s
    = exec (onStore (storeTask gh metrics env taskId u.modelDump task)
      >>= respondTask teamId taskId) { s with store := loaded }
  := by
  have hbody : u.modelDump.isObject = true := Json.isObject_ofMembers _
  have hupdate : exec (Handling.updateTask parse gh metrics env teamId taskId u.modelDump) s.store
      = exec (storeTask gh metrics env taskId u.modelDump task) loaded := by
    rw [Handling.updateTask, if_neg (by simp [hbody, hexists.team]), exec_bind, hexists.load]
    simp only [exec_get_bind, hexists.stored]
    rw [exec_bind, exec_lift, hexists.owner]
    simp [reading, Except.mapError]
  rw [updateTaskHandler, hpasses, afterCheck, exec_bind, exec_bind, onStore, onStore, exec_focus,
    exec_focus, hupdate]

/-- A body that passes is accepted if the request returns and what is not set was null. -/
theorem accepted_iff_of_passes (hexists : Exists parse gh s teamId taskId loaded task)
    (hobject : task.isObject = true) (hpasses : firstRefusal (taskChecks u.modelDump) = .ok none) :
  u.Accepted (updateTaskHandler parse gh metrics env teamId taskId u.modelDump) s taskId task
    ↔ (onStore (storeTask gh metrics env taskId u.modelDump task)
        >>= respondTask teamId taskId).Returns { s with store := loaded }
      ∧ ∀ k, (k, none) ∈ u.declared → task.get? k = some .null
  := by
  have hexec := @exec_updateTaskHandler parse gh metrics env s teamId taskId task loaded u hexists
    hpasses
  obtain ⟨hstore, hstatus⟩ := @ends_storeTask gh metrics env { s with store := loaded } teamId
    taskId u.modelDump task hobject
  have hkept : ∀ k, (k, none) ∈ u.declared →
      ((loaded.put .tasks taskId (changedTask env u.modelDump task)).stored .tasks taskId).bind
        (·.get? k) = some .null := by
    intro k hk
    rw [LiveStore.stored, LiveStore.put, Memory.entities_setEntities_self, Finmap.lookup_insert]
    exact get?_changedTask_of_declared hobject hk
  constructor
  · rintro ⟨-, ⟨response, hok, -⟩, hstored⟩
    rw [hexec] at hok hstored
    refine ⟨⟨response, _, Prod.ext hok rfl⟩, ?_⟩
    intro k hk
    rw [← hstored k hk, hstore, hkept k hk]
  · rintro ⟨⟨response, t, hreturns⟩, hnull⟩
    refine ⟨hpasses, ⟨response, ?_, ?_⟩, ?_⟩
    · rw [hexec, hreturns]
    · apply hstatus
      rw [hreturns]
    · intro k hk
      rw [hexec, hstore, hkept k hk, hnull k hk]

end Request

/-- A full update is accepted exactly if its text is not too long, and all that has to be set is
set. -/
theorem accepted_iff (read : String → Except Exn Json) (parse : String → Option Json)
    (gh : Option Client) (metrics : Bool) (what : Failure → String) (env : StoreEnv)
    (calls : Orchestrator.Env) (s : Server) (teamId taskId text : String) (loaded : LiveStore)
    (task : Json) (u : TaskUpdate) (hexists : Exists parse gh s teamId taskId loaded task)
    (htext : text ≠ "") (hread : read text = .ok u.modelDump) :
  u.Accepted ((Route.putTask teamId taskId).handle read parse gh metrics what env calls text) s
      taskId task
    ↔ text.utf8ByteSize ≤ maxBodyBytes ∧ u.Sufficient gh env taskId task
  := by
  have hobject := (Json.valueString_returns.mp ⟨_, hexists.owner⟩).1
  rw [Route.handle, parseBody]
  by_cases hsize : text.utf8ByteSize ≤ maxBodyBytes
  · rw [if_neg (not_lt.mpr hsize), if_neg htext, hread]
    simp only [Route.respond, hsize, true_and]
    by_cases hpasses : firstRefusal (taskChecks u.modelDump) = .ok none
    · rw [accepted_iff_of_passes hexists hobject hpasses, storeTask_returns_iff hobject]
      have hbody := @get?_of_declared u "status" (u.status.map .string) (by simp [declared])
      have hchanged : ∀ m ∈ u.declared, (changedTask env u.modelDump task).get? m.1
          = some (m.2.getD .null) := fun _ => get?_changedTask_of_declared hobject
      simp only [declared, List.forall_mem_cons] at hchanged
      obtain ⟨-, -, hassignee, -, htype, hstatus, -⟩ := hchanged
      obtain ⟨hvalid, hsubject, hdescription, hblockedBy⟩ := u.passes_iff.mp hpasses
      rw [textAt_iff hbody, textAt_iff hstatus, textAt_iff htype, textAt_iff hassignee,
        get?_eq_string_iff hstatus]
      constructor
      · rintro ⟨⟨hissue, -, hset, hcompleted⟩, hnull⟩
        exact ⟨hvalid, hsubject, hdescription, hblockedBy, hset, hcompleted, hnull, hissue⟩
      · intro h
        exact ⟨⟨h.issue, fun _ => h.status, h.status, h.completed⟩, h.kept⟩
    · constructor
      · intro h
        exact absurd h.passes hpasses
      · intro h
        exact absurd (u.passes_iff.mpr ⟨h.valid, h.subject, h.description, h.blockedBy⟩) hpasses
  · rw [if_pos (not_le.mp hsize)]
    constructor
    · rintro ⟨-, ⟨_, ⟨⟩, hstatus⟩, -⟩
      cases hstatus
    · intro h
      exact absurd h.1 hsize

/-- The stored task `a` of the team `b`. -/
def storedTask : Json :=
  .ofMembers [("teamId", .string "b"), ("assigneeAgentId", .null)]

/-- A server that has the task. -/
def taskServer : Server :=
  { Server.fresh with store := LiveStore.fresh.put .tasks "a" storedTask }

theorem exists_taskServer :
  ∃ loaded, Exists Json.read none taskServer "b" "a" loaded storedTask
  := ⟨_, by decide, rfl, rfl, rfl⟩

/-- A request of the client for an update of the task. -/
def send (text : String) : Handling Response :=
  (Route.putTask "b" "a").handle (Orchestrator.parsePayload Json.read) Json.read none false
    (fun _ => "") requestEnv requestCalls text

/-- An update that sets all fields but the assignee. -/
def described : TaskUpdate where
  subject := "c"
  description := "d"
  assigneeAgentId := none
  blockedBy := some []
  type := "general"
  status := "running"
  extra := []
  undeclared := by decide
  proper := by simp

/-- The text that the client sends for it. -/
def describedText : String :=
  "\x7b\"subject\":\"c\",\"description\":\"d\",\"assigneeAgentId\":null,\"blockedBy\":[],"
    ++ "\"type\":\"general\",\"status\":\"running\"\x7d"

/-- The update is accepted, as no agent was assigned. -/
theorem accepted_described :
  described.Accepted (send describedText) taskServer "a" storedTask
  := by
  obtain ⟨_, hexists⟩ := exists_taskServer
  apply (accepted_iff _ _ _ _ _ _ _ _ _ _ _ _ _ _ hexists (by decide) rfl).mpr
  have hvalid : described.Valid
    := by constructor <;> (rintro _ ⟨⟩; decide)
  refine ⟨by decide, hvalid, nofun, nofun, nofun, nofun, by decide, ?_, _, rfl⟩
  intro k hk
  obtain rfl : k = "assigneeAgentId" := by simpa [declared, described] using hk
  rfl

/-- An update that sets the status only. -/
def statusOnly : TaskUpdate where
  subject := none
  description := none
  assigneeAgentId := none
  blockedBy := none
  type := none
  status := "running"
  extra := []
  undeclared := by decide
  proper := by simp

/-- The text that the client sends for it. -/
def statusText : String :=
  "\x7b\"subject\":null,\"description\":null,\"assigneeAgentId\":null,\"blockedBy\":null,"
    ++ "\"type\":null,\"status\":\"running\"\x7d"

/-- The update is refused, as the subject is null. -/
theorem not_accepted_statusOnly :
  (∃ loaded, Exists Json.read none taskServer "b" "a" loaded storedTask)
    ∧ Json.read statusText = some statusOnly.modelDump
    ∧ (∃ response, (exec (send statusText) taskServer).1 = .ok response ∧ response.status = 400)
    ∧ ¬ statusOnly.Accepted (send statusText) taskServer "a" storedTask
  := by
  refine ⟨exists_taskServer, rfl, ⟨_, rfl, rfl⟩, ?_⟩
  rintro ⟨hpasses, -, -⟩
  exact (passes_iff _).mp hpasses |>.2.1 rfl

end TaskUpdate

end Agamemnon
