import Agamemnon.Server.Handlers
import Agamemnon.Store.Effects
import Agamemnon.Store.Failures

/-!
# Which requests are answered

With a client that does not fail, a handler throws only over the values it is given.  A new
agent has fields that are read without a test, so has a split, and a change of a task is stored
before its status is read.  `handle_returns_iff` says exactly which bodies are answered.
-/

namespace Agamemnon

open Attempt Operation Handling Json Orchestrator

/-- The client does not fail. -/
structure Client.Answers (client : Client) : Prop where
  createIssue : ∀ title entityType entity label,
    ∃ number, client.createIssue title entityType entity label = .ok number
  updateIssueBody : ∀ number entityType entity,
    client.updateIssueBody number entityType entity = .ok ()
  closeIssue : ∀ number, client.closeIssue number = .ok ()

/-! ### Members that can be read -/

namespace Json

/-- The member `k` is a string, if there is one. -/
def TextAt (j : Json) (k : String) : Prop :=
  ∀ v, j.get? k = some v → ∃ s, v = .string s

/-- The member `k` is converted to a number, if there is one. -/
def NumberAt (j : Json) (k : String) : Prop :=
  ∀ v, j.get? k = some v → ∃ n, v.getInt = .ok n

/-- If the member `k` is a string, it has at most `n` bytes. -/
def FitsAt (j : Json) (k : String) (n : ℕ) : Prop :=
  ∀ s, j.get? k = some (.string s) → s.utf8ByteSize ≤ n

variable {j v : Json} {k : String}

theorem getString_returns :
  (∃ s, v.getString = .ok s) ↔ ∃ s, v = .string s
  := by
  cases v <;> simp [getString]

theorem valueWith_returns {α : Type} {read : Json → Except Exn α} {d : α} :
  (∃ a, j.valueWith read k d = .ok a)
    ↔ j.isObject = true ∧ ∀ v, j.get? k = some v → ∃ a, read v = .ok a
  := by
  cases j with
  | object ms =>
    simp only [valueWith, isObject, get?, true_and]
    cases ms.lookup k with
    | none => simp
    | some v => simp
  | _ => simp [valueWith, isObject]

variable {d : String}

theorem valueString_returns :
  (∃ s, j.valueString k d = .ok s) ↔ j.isObject = true ∧ j.TextAt k
  := by
  rw [valueString, valueWith_returns]
  simp only [getString_returns, TextAt]

/-- A value other than the default stands in the member. -/
theorem get?_of_valueString {s : String} (h : j.valueString k d = .ok s) (hne : s ≠ d) :
  j.get? k = some (.string s)
  := by
  cases j with
  | object ms =>
    rw [get?]
    rw [valueString, valueWith] at h
    cases hlookup : ms.lookup k with
    | none =>
      rw [hlookup] at h
      exact absurd (Except.ok.inj h).symm hne
    | some v =>
      rw [hlookup] at h
      cases v with
      | string s' => rw [Except.ok.inj h]
      | _ => contradiction
  | _ => contradiction

theorem valueInt_returns {d : ℤ} :
  (∃ n, j.valueInt k d = .ok n) ↔ j.isObject = true ∧ j.NumberAt k
  := valueWith_returns

theorem valueJson_returns {d : Json} :
  (∃ v, j.valueJson k d = .ok v) ↔ j.isObject = true
  := by
  rw [valueJson, valueWith_returns]
  simp

end Json

theorem exists_reading {α : Type} {r : Except Exn α} :
  (∃ a, reading r = .ok a) ↔ ∃ a, r = .ok a
  := by
  simp only [reading_eq_ok]

/-! ### Operations of the store within a handler -/

section OnStore

variable {α β γ : Type} {f : β → Handling γ} {s : Server}

variable {x : Operation α}

theorem returns_onStore :
  (onStore x).Returns s ↔ x.Returns s.store
  := returns_focus

variable {g : α → Operation β}

/-- An operation of the store goes on after its first step. -/
theorem returns_onStore_bind :
  (onStore (x >>= g) >>= f).Returns s
    ↔ ∃ a t, exec x s.store = (.ok a, t) ∧ (onStore (g a) >>= f).Returns { s with store := t }
  := by
  simp only [onStore, returns_focus_bind, exec_bind]
  rcases exec x s.store with ⟨r, t⟩
  cases r with
  | error e => simp
  | ok a => simp [and_assoc]

theorem returns_onStore_pure {b : β} :
  (onStore (pure b) >>= f).Returns s ↔ (f b).Returns s
  := by
  simp [onStore, returns_focus_bind, and_assoc]

theorem returns_onStore_get {g : LiveStore → Operation β} :
  (onStore (get >>= g) >>= f).Returns s ↔ (onStore (g s.store) >>= f).Returns s
  := by
  simp [returns_onStore_bind, and_assoc]

theorem returns_onStore_modify {h : LiveStore → LiveStore} {g : Unit → Operation β} :
  (onStore (modify h >>= g) >>= f).Returns s
    ↔ (onStore (g ()) >>= f).Returns { s with store := h s.store }
  := by
  rw [returns_onStore_bind]
  constructor
  · rintro ⟨_, t, hexec, hreturns⟩
    cases hexec
    exact hreturns
  · intro hreturns
    exact ⟨(), h s.store, rfl, hreturns⟩

theorem returns_onStore_lift {r : Except Failure α} :
  (onStore (.lift r >>= g) >>= f).Returns s
    ↔ ∃ a, r = .ok a ∧ (onStore (g a) >>= f).Returns s
  := by
  simp [returns_onStore_bind, and_assoc]

end OnStore

/-! ### Checks -/

variable {parse : String → Option Json} {gh : Option Client} {metrics : Bool} {env : StoreEnv}
  {body : Json}

section Checks

variable {field : String} {check : String → Option Response}

theorem onMember_returns :
  (∃ r, onMember body field check = .ok r) ↔ body.TextAt field
  := by
  rw [onMember, Json.TextAt]
  cases body.get? field with
  | none => simp
  | some v => cases v <;> simp [getString, Except.map]

theorem onMember_passes :
  onMember body field check = .ok none
    ↔ body.TextAt field ∧ ∀ s, body.get? field = some (.string s) → check s = none
  := by
  rw [onMember, Json.TextAt]
  cases body.get? field with
  | none => simp
  | some v => cases v <;> simp [getString, Except.map]

theorem onString_returns :
  ∃ r, onString body field check = .ok r
  := by
  rw [onString]
  split <;> exact ⟨_, rfl⟩

theorem onString_passes :
  onString body field check = .ok none
    ↔ ∀ s, body.get? field = some (.string s) → check s = none
  := by
  rw [onString]
  cases body.get? field with
  | none => simp
  | some v => cases v <;> simp

theorem requireStringIfPresent_returns :
  ∃ r, requireStringIfPresent body field = .ok r
  := by
  rw [requireStringIfPresent]
  split <;> exact ⟨_, rfl⟩

theorem requireStringIfPresent_passes :
  requireStringIfPresent body field = .ok none ↔ body.TextAt field
  := by
  rw [requireStringIfPresent, Json.TextAt]
  cases body.get? field with
  | none => simp
  | some v => cases v <;> simp

variable {value : String}

theorem checkFieldLength_passes {n : ℕ} :
  checkFieldLength field n value = none ↔ value.utf8ByteSize ≤ n
  := by
  rw [checkFieldLength]
  split <;> simp <;> omega

theorem requireFieldPresent_passes :
  requireFieldPresent body field = .ok none ↔ body.contains field = true
  := by
  rw [requireFieldPresent]
  split <;> simp [*]

theorem requireNonemptyString_passes :
  requireNonemptyString field value = none ↔ value.toList.all Numerals.isSpace = false
  := by
  rw [requireNonemptyString]
  split <;> simp [*]

theorem requireEnum_passes {allowed : List String} :
  requireEnum field allowed value = none ↔ value ∈ allowed
  := by
  rw [requireEnum]
  split <;> simp [*]

variable {c : Check} {next : Handling Response} {cs : List Check} {s : Server}

/-- A first check that throws is the end; one that refuses ends the rest. -/
theorem afterCheck_cons :
  (afterCheck (firstRefusal (c :: cs)) next).Returns s
    ↔ (∃ r, c = .ok r) ∧ (c = .ok none → (afterCheck (firstRefusal cs) next).Returns s)
  := by
  cases c with
  | error e => simp [firstRefusal, afterCheck, returns_lift]
  | ok r =>
    cases r with
    | none => simp [firstRefusal]
    | some refusal => simp [firstRefusal, afterCheck]

theorem firstRefusal_returns :
  (∃ r, firstRefusal (c :: cs) = .ok r)
    ↔ (∃ r, c = .ok r) ∧ (c = .ok none → ∃ r, firstRefusal cs = .ok r)
  := by
  cases c with
  | error e => simp [firstRefusal]
  | ok r =>
    cases r with
    | none | some refusal => simp [firstRefusal]

theorem firstRefusal_passes :
  firstRefusal (c :: cs) = .ok none ↔ c = .ok none ∧ firstRefusal cs = .ok none
  := by
  rcases c with _ | _ | _ <;> simp [firstRefusal]

theorem afterCheck_returns :
  (afterCheck c next).Returns s ↔ (∃ r, c = .ok r) ∧ (c = .ok none → next.Returns s)
  := by
  cases c with
  | error e => simp [afterCheck, returns_lift]
  | ok r =>
    cases r with
    | none | some refusal => simp [afterCheck]

theorem afterCheck_nil :
  (afterCheck (firstRefusal []) next).Returns s ↔ next.Returns s
  := Iff.rfl

end Checks

/-! ### New agents -/

/-- The checks of the name let it pass. -/
def NameAccepted (body : Json) : Prop :=
  ∃ name, body.get? "name" = some (.string name) ∧ name.toList.all Numerals.isSpace = false
    ∧ name.utf8ByteSize ≤ maxNameLen

/-- The fields of a new agent that only the store reads. -/
def storeFields : List String :=
  ["workingDirectory", "owner", "role", "host"]

section Agents

variable (parse gh) (s : LiveStore)

/-- The fields that are read are strings, up to a check that refuses the body. -/
def AgentFine (body : Json) : Prop :=
  NameAccepted body →
    body.TextAt "label" ∧ (body.FitsAt "label" maxLabelLen →
    body.TextAt "program" ∧ (body.FitsAt "program" maxProgramLen →
    body.TextAt "taskDescription" ∧ (body.FitsAt "taskDescription" maxDescriptionLen →
    (∀ status, body.get? "status" = some (.string status) → status ∈ validAgentStatuses) →
    (load parse gh (.entities .agents)).Returns s ∧ ∀ k ∈ storeFields, body.TextAt k)))

end Agents

section PostAgent

variable {entity : Json} {title : String}

theorem exists_bind_eq_ok {α β : Type} {x : Except Exn α} {f : α → Except Exn β} :
  (∃ b, (x >>= f) = .ok b) ↔ ∃ a, x = .ok a ∧ ∃ b, f a = .ok b
  := by
  cases x with
  | error e | ok a => simp [bind, Except.bind]

theorem newAgent_returns :
  (∃ r, newAgent env body = .ok r)
    ↔ body.isObject = true ∧ body.TextAt "name" ∧ body.TextAt "label" ∧ body.TextAt "program"
      ∧ body.TextAt "taskDescription" ∧ ∀ k ∈ storeFields, body.TextAt k
  := by
  have hlast : ∀ r : String × Json, ∃ b, (pure r : Except Exn (String × Json)) = .ok b
    := fun r => ⟨r, rfl⟩
  simp only [newAgent, exists_bind_eq_ok, hlast, and_true, exists_and_right,
    valueString_returns, valueJson_returns]
  simp only [storeFields, List.forall_mem_cons, List.not_mem_nil, false_implies, implies_true,
    and_true]
  tauto

/-- What the handler reads of a new agent. -/
theorem get?_newAgent (h : newAgent env body = .ok (title, entity)) :
  (∃ host, entity.get? "host" = some (.string host))
    ∧ (∃ name, entity.get? "name" = some (.string name))
    ∧ entity.get? "id" = some (.string env.uuid) ∧ entity.get? "type" = none
  := by
  iterate 10 obtain ⟨_, -, h⟩ := exists_of_bind_eq_ok h
  obtain ⟨-, rfl⟩ := Prod.mk.inj (Except.ok.inj h)
  rw [get?_ofMembers (by simp), get?_ofMembers (by simp), get?_ofMembers (by simp),
    get?_ofMembers (by simp)]
  exact ⟨⟨_, rfl⟩, ⟨_, rfl⟩, rfl, rfl⟩

theorem makeIssue_returns (hgh : ∀ client ∈ gh, client.Answers) (title entityType : String)
    (entity : Json) (label : String) :
  ∃ number, makeIssue gh title entityType entity label = .ok number
  := by
  cases gh with
  | none => exact ⟨"", rfl⟩
  | some client => exact (hgh client rfl).createIssue title entityType entity label

variable {s : LiveStore}

/-- A new agent is stored as it was made, with the number of its issue if there is one. -/
theorem exec_createAgent (metrics : Bool) (hgh : ∀ client ∈ gh, client.Answers) {t : LiveStore}
    (hload : exec (load parse gh (.entities .agents)) s = (.ok (), t))
    (hnew : newAgent env body = .ok (title, entity)) :
  ∃ agent, (agent = entity ∨ ∃ number, agent = entity.set "_github_issue" (.string number))
    ∧ exec (createAgent parse gh metrics env body) s
      = (.ok (.ofMembers [("id", .string env.uuid), ("agent", agent)]),
          t.put .agents env.uuid agent)
  := by
  obtain ⟨number, hnumber⟩ := makeIssue_returns hgh title (Collection.agents.entityType env.uuid)
    entity Collection.agents.label
  let agent := if number = "" then entity else entity.set "_github_issue" (.string number)
  use agent
  constructor
  · dsimp only [agent]
    split
    · exact Or.inl rfl
    · exact Or.inr ⟨number, rfl⟩
  · have hcreate : exec (Operation.perform parse gh metrics env (.createAgent body)) s
        = (.ok (), t.put .agents env.uuid agent) := by
      rw [Operation.perform, createEntity, exec_bind, hload]
      simp only [exec_bind, exec_lift, hnew, reading, Except.mapError, hnumber, exec_modify, agent]
    have hstored : (t.put .agents env.uuid agent).stored .agents env.uuid = some agent
      := Finmap.lookup_insert _
    rw [createAgent, exec_bind, hcreate]
    simp only [exec_bind, exec_get, exec_pure]
    rw [hstored, Option.getD_some]

theorem createAgent_returns (hgh : ∀ client ∈ gh, client.Answers) :
  (createAgent parse gh metrics env body).Returns s
    ↔ (load parse gh (.entities .agents)).Returns s ∧ ∃ r, newAgent env body = .ok r
  := by
  constructor
  · intro h
    rw [createAgent, returns_bind] at h
    obtain ⟨_, _, hperform, -⟩ := h
    have hreturns : (createEntity parse gh env .agents (newAgent env body)).Returns s
      := ⟨_, _, hperform⟩
    rw [createEntity, returns_bind] at hreturns
    obtain ⟨_, t, hload, hrest⟩ := hreturns
    rw [returns_lift_bind] at hrest
    obtain ⟨r, hr, -⟩ := hrest
    exact ⟨⟨_, t, hload⟩, exists_reading.mp ⟨r, hr⟩⟩
  · rintro ⟨⟨_, t, hload⟩, ⟨title, entity⟩, hnew⟩
    obtain ⟨agent, -, hexec⟩ := exec_createAgent metrics hgh hload hnew
    exact ⟨_, _, hexec⟩

/-- A value whose fields for the announcement are strings is announced. -/
theorem announceAgent_returns {agent : Json} (hobject : agent.isObject = true)
    (htext : ∀ k ∈ ["host", "name", "id", "type"], agent.TextAt k) (s : Server) :
  (announceAgent (.ofMembers [("id", .string env.uuid), ("agent", agent)])).Returns s
  := by
  have hresult : (ofMembers [("id", .string env.uuid), ("agent", agent)]).get? "agent"
      = some agent := get?_ofMembers (by simp) "agent"
  have hread : ∀ k ∈ ["host", "name", "id", "type"], ∀ d,
      ∃ a, reading (agent.valueString k d) = .ok a
    := fun k hk d => exists_reading.mpr (valueString_returns.mpr ⟨hobject, htext k hk⟩)
  obtain ⟨host, hhost⟩ := hread "host" (by decide) "local"
  obtain ⟨name, hname⟩ := hread "name" (by decide) "unknown"
  obtain ⟨agentId, hid⟩ := hread "id" (by decide) "unknown"
  obtain ⟨agentType, htype⟩ := hread "type" (by decide) "unknown"
  rw [announceAgent, hresult, Option.getD_some]
  refine returns_lift_bind.mpr ⟨host, hhost, returns_lift_bind.mpr ⟨name, hname, ?_⟩⟩
  refine returns_lift_bind.mpr ⟨agentId, hid, returns_lift_bind.mpr ⟨agentType, htype, ?_⟩⟩
  exact returns_modify_bind.mpr (returns_modify_bind.mpr (returns_pure _))

/-- The handler can read what it has just stored. -/
theorem createAgent_announceAgent_returns (hgh : ∀ client ∈ gh, client.Answers) {s : Server} :
  (onStore (createAgent parse gh metrics env body) >>= announceAgent).Returns s
    ↔ (createAgent parse gh metrics env body).Returns s.store
  := by
  rw [onStore, returns_focus_bind]
  constructor
  · rintro ⟨result, t, hexec, -⟩
    exact ⟨result, t, hexec⟩
  · intro h
    obtain ⟨⟨_, t, hload⟩, ⟨title, entity⟩, hnew⟩ := (createAgent_returns hgh).mp h
    obtain ⟨agent, hagent, hexec⟩ := exec_createAgent metrics hgh hload hnew
    refine ⟨_, _, hexec, ?_⟩
    have hobject := isObject_of_get? (get?_id_newAgent hnew)
    obtain ⟨⟨host, hhost⟩, ⟨name, hname⟩, hid, htype⟩ := get?_newAgent hnew
    have hget : ∀ k, k ≠ "_github_issue" → agent.get? k = entity.get? k := by
      intro k hk
      rcases hagent with rfl | ⟨number, rfl⟩
      · rfl
      · exact get?_set_of_ne hobject hk
    apply announceAgent_returns
    · rcases hagent with rfl | ⟨number, rfl⟩
      · exact hobject
      · exact isObject_set hobject
    · intro k hk v hv
      simp only [List.mem_cons, List.not_mem_nil, or_false] at hk
      rcases hk with rfl | rfl | rfl | rfl
      all_goals
        rw [hget _ (by decide)] at hv
        simp_all

/-- The checks of the name. -/
theorem nameAccepted_iff :
  NameAccepted body
    ↔ body.contains "name" = true ∧ body.TextAt "name"
      ∧ (∀ s, body.get? "name" = some (.string s) → s.toList.all Numerals.isSpace = false)
      ∧ ∀ s, body.get? "name" = some (.string s) → s.utf8ByteSize ≤ maxNameLen
  := by
  rw [NameAccepted, contains, Json.TextAt]
  cases body.get? "name" with
  | none => simp
  | some v =>
    cases v with
    | string s =>
      simp only [Option.some.injEq, string.injEq, Option.isSome_some, exists_eq_left',
        forall_eq', exists_eq', true_and]
    | _ => simp

theorem postAgent_returns (hgh : ∀ client ∈ gh, client.Answers) {s : Server} :
  (postAgent parse gh metrics env body).Returns s ↔ AgentFine parse gh s.store body
  := by
  have hpresent : ∃ r, requireFieldPresent body "name" = .ok r := ⟨_, rfl⟩
  have hobject := @isObject_of_contains body "name"
  rw [postAgent, agentChecks]
  iterate 8 rw [afterCheck_cons]
  rw [afterCheck_nil, createAgent_announceAgent_returns hgh, createAgent_returns hgh,
    newAgent_returns]
  simp only [onMember_returns, onMember_passes, onString_returns, onString_passes,
    requireStringIfPresent_returns, requireStringIfPresent_passes, requireFieldPresent_passes,
    requireNonemptyString_passes, checkFieldLength_passes, requireEnum_passes, hpresent, true_and]
  simp only [AgentFine, nameAccepted_iff, Json.FitsAt]
  tauto

end PostAgent

/-! ### Changes of tasks -/

section Tasks

variable (parse gh metrics env) (s : LiveStore)

/-- What is read of a task that has been changed can be read. -/
structure ChangeFine (body changed : Json) : Prop where
  issue : gh.isSome = true → changed.TextAt "_github_issue"
  metric : metrics = true → body.TextAt "status"
  status : changed.TextAt "status"
  completed : changed.get? "status" = some (.string "completed") →
    changed.TextAt "type" ∧ changed.TextAt "assigneeAgentId"

/-- A change that is accepted meets a collection that can be loaded, and a task whose owner can be
read; if the task is changed, then all that is read of it can be read. -/
def TaskFine (teamId taskId : String) (body : Json) : Prop :=
  firstRefusal (taskChecks body) = .ok none → body.isObject = true → teamId ≠ "" →
    ∃ t, exec (load parse gh (.entities .tasks)) s = (.ok (), t)
      ∧ ∀ task, t.stored .tasks taskId = some task →
        ∃ owner, task.valueString "teamId" "" = .ok owner
          ∧ (owner = teamId → ChangeFine gh metrics body (changedTask env body task))

end Tasks

variable {teamId taskId : String}

section UpdateTask

/-- No check of a change throws: a field is tested before it is read. -/
theorem taskChecks_returns (body : Json) :
  ∃ r, firstRefusal (taskChecks body) = .ok r
  := by
  have harray : ∃ r, requireStringArray body "blockedBy" = .ok r := by
    rw [requireStringArray]
    split <;> exact ⟨_, rfl⟩
  rw [taskChecks]
  simp only [firstRefusal_returns, requireStringIfPresent_returns, requireStringIfPresent_passes,
    onString_returns, onMember_returns, harray, true_and]
  tauto

theorem rewriteIssue_returns (hgh : ∀ client ∈ gh, client.Answers) {c : Collection} {id : String}
    {entity : Json} :
  (∃ a, rewriteIssue gh c id entity = .ok a)
    ↔ (gh.isSome = true → entity.TextAt "_github_issue")
  := by
  unfold rewriteIssue Json.TextAt
  cases gh with
  | none => simp
  | some client =>
    cases entity.get? "_github_issue" with
    | none => simp
    | some v =>
      have hwrite := (hgh client rfl).updateIssueBody
      cases v <;> simp [getString, reading, Except.mapError, bind, Except.bind, hwrite]

theorem recordStatus_returns :
  (∃ a, recordStatus metrics body = .ok a) ↔ (metrics = true → body.TextAt "status")
  := by
  unfold recordStatus Json.TextAt
  cases metrics with
  | false => simp
  | true =>
    cases body.get? "status" with
    | none => simp
    | some v => cases v <;> simp [getString, reading, Except.mapError, bind, Except.bind,
        pure, Except.pure]

variable {s : Server}

theorem announceTask_returns {changed : Json} :
  (announceTask teamId taskId changed).Returns s
    ↔ changed.isObject = true ∧ changed.TextAt "status"
      ∧ (changed.get? "status" = some (.string "completed") →
        changed.TextAt "type" ∧ changed.TextAt "assigneeAgentId")
  := by
  have hread : ∀ k d, (∃ a, reading (changed.valueString k d) = .ok a)
      ↔ changed.isObject = true ∧ changed.TextAt k
    := fun k d => exists_reading.trans valueString_returns
  rw [announceTask, returns_lift_bind, ← and_assoc, ← hread "status" ""]
  cases hstatus : reading (changed.valueString "status" "") with
  | error e => simp
  | ok status =>
    obtain ⟨hobject, -⟩ := (hread "status" "").mp ⟨status, hstatus⟩
    simp only [Except.ok.injEq, exists_eq_left', exists_eq', true_and]
    apply returns_modify_bind.trans
    by_cases hcompleted : status = "completed"
    · subst hcompleted
      have hget := get?_of_valueString (reading_eq_ok.mp hstatus) (by decide)
      have htype := hread "type" "unknown"
      have hassignee := hread "assigneeAgentId" ""
      simp only [hobject, true_and] at htype hassignee
      rw [if_pos rfl, returns_lift_bind, ← htype, ← hassignee, forall_prop_of_true hget]
      constructor
      · rintro ⟨taskType, htype, hrest⟩
        obtain ⟨assignee, hassignee, -⟩ := returns_lift_bind.mp hrest
        exact ⟨⟨taskType, htype⟩, assignee, hassignee⟩
      · rintro ⟨⟨taskType, htype⟩, assignee, hassignee⟩
        refine ⟨taskType, htype, returns_lift_bind.mpr ⟨assignee, hassignee, ?_⟩⟩
        exact returns_modify_bind.mpr (returns_pure _)
    · have hother : changed.get? "status" ≠ some (.string "completed") := by
        intro hget
        rw [valueString_of_get? hget] at hstatus
        exact hcompleted (Except.ok.inj hstatus).symm
      simp [hcompleted, hother]

variable {task : Json}

theorem isObject_changedTask (env : StoreEnv) (body : Json) (hobject : task.isObject = true) :
  (changedTask env body task).isObject = true
  := by
  have hassigned := isObject_assignFields hobject
    ["id", "teamId", "createdAt", "_github_issue", "updatedAt"] body
  rw [changedTask]
  apply isObject_set
  split
  · exact isObject_set hassigned
  · exact hassigned

/-- The handler has the task that the store changes. -/
theorem exec_updateTask (s : LiveStore) :
  exec (Operation.updateTask parse gh metrics env teamId taskId body) s
    = Prod.map (Except.map fun _ => ()) id
        (exec (Handling.updateTask parse gh metrics env teamId taskId body) s)
  := by
  rw [Operation.updateTask, Handling.updateTask]
  split
  · rfl
  · simp only [exec_bind]
    rcases exec (load parse gh (.entities .tasks)) s with ⟨r, t⟩
    cases r with
    | error e => rfl
    | ok _ =>
      simp only [exec_get]
      cases t.stored .tasks taskId with
      | none => rfl
      | some task =>
        simp only [exec_bind, exec_lift]
        cases reading (task.valueString "teamId" "") with
        | error e => rfl
        | ok owner =>
          dsimp only
          split
          · rfl
          · simp only [storeTask, exec_bind, exec_modify, exec_lift]
            cases rewriteIssue gh .tasks taskId (changedTask env body task) with
            | error e => rfl
            | ok _ => cases recordStatus metrics body <;> rfl

/-- A change that is stored is announced. -/
theorem respondTask_eq {changed : Json} (hobject : changed.isObject = true) :
  respondTask teamId taskId changed = announceTask teamId taskId changed
  := by
  cases changed with
  | object ms => rfl
  | _ => cases hobject

theorem storeTask_returns_iff (hobject : task.isObject = true) :
  (onStore (storeTask gh metrics env taskId body task) >>= respondTask teamId taskId).Returns s
    ↔ (∃ a, rewriteIssue gh .tasks taskId (changedTask env body task) = .ok a)
      ∧ (metrics = true → body.TextAt "status")
      ∧ (changedTask env body task).TextAt "status"
      ∧ ((changedTask env body task).get? "status" = some (.string "completed") →
        (changedTask env body task).TextAt "type"
          ∧ (changedTask env body task).TextAt "assigneeAgentId")
  := by
  have hchanged := isObject_changedTask env body hobject
  rw [storeTask, returns_onStore_modify, returns_onStore_lift, ← recordStatus_returns]
  constructor
  · rintro ⟨_, hissue, h⟩
    obtain ⟨_, hmetric, h⟩ := returns_onStore_lift.mp h
    rw [returns_onStore_pure, respondTask_eq hchanged, announceTask_returns] at h
    exact ⟨⟨_, hissue⟩, ⟨_, hmetric⟩, h.2⟩
  · rintro ⟨⟨_, hissue⟩, ⟨_, hmetric⟩, hread⟩
    refine ⟨_, hissue, returns_onStore_lift.mpr ⟨_, hmetric, ?_⟩⟩
    rw [returns_onStore_pure, respondTask_eq hchanged, announceTask_returns]
    exact ⟨hchanged, hread⟩

theorem storeTask_returns (hgh : ∀ client ∈ gh, client.Answers) (hobject : task.isObject = true) :
  (onStore (storeTask gh metrics env taskId body task) >>= respondTask teamId taskId).Returns s
    ↔ ChangeFine gh metrics body (changedTask env body task)
  := by
  rw [storeTask_returns_iff hobject, rewriteIssue_returns hgh]
  constructor
  · rintro ⟨hissue, hmetric, hstatus, hcompleted⟩
    exact ⟨hissue, hmetric, hstatus, hcompleted⟩
  · intro h
    exact ⟨h.issue, h.metric, h.status, h.completed⟩

/-- The handler answers where the load, the owner and the change allow it. -/
theorem updateTaskHandler_returns (hgh : ∀ client ∈ gh, client.Answers) :
  (updateTaskHandler parse gh metrics env teamId taskId body).Returns s
    ↔ TaskFine parse gh metrics env s.store teamId taskId body
  := by
  rw [updateTaskHandler, afterCheck_returns, TaskFine]
  simp only [taskChecks_returns, true_and]
  apply imp_congr_right
  intro _
  have hnull : ∀ s, (onStore (pure .null) >>= respondTask teamId taskId).Returns s
    := fun _ => returns_onStore_pure.mpr (returns_pure _)
  rw [Handling.updateTask]
  by_cases hrefused : body.isObject = false ∨ teamId = ""
  · rw [if_pos hrefused]
    apply iff_of_true (hnull s)
    rcases hrefused with hrefused | hrefused <;> simp [hrefused]
  · rw [if_neg hrefused]
    rw [not_or, Bool.not_eq_false] at hrefused
    simp only [returns_onStore_bind (x := load parse gh _), Unique.exists_iff, hrefused, ne_eq,
      not_false_eq_true, true_implies]
    apply exists_congr
    intro t
    apply and_congr_right
    intro _
    rw [returns_onStore_get]
    cases t.stored .tasks taskId with
    | none => simp [hnull]
    | some task =>
      simp only [returns_onStore_lift, reading_eq_ok, Option.some.injEq, forall_eq']
      apply exists_congr
      intro owner
      apply and_congr_right
      intro howner
      have hobject := (valueString_returns.mp ⟨owner, howner⟩).1
      by_cases hteam : owner = teamId
      · simp [hteam, storeTask_returns hgh hobject]
      · simp [hteam, hnull]

end UpdateTask

/-! ### Calls of the orchestrator -/

/-- The operations that answer whenever the client does: all but the completion of a plain
task. -/
def Op.Plain : Op → Prop
  | .markTaskCompleted _ _ => False
  | _ => True

section Orchestrate

/-- Loading tasks or briefs does not throw. -/
theorem load_returns (parse : String → Option Json) (gh : Option Client) (s : LiveStore) :
  (∃ t, exec (load parse gh .hmasTasks) s = (.ok (), t))
    ∧ ∃ t, exec (load parse gh .briefs) s = (.ok (), t)
  := by
  constructor
  all_goals
    rw [load, exec_ofExec]
    split
    · exact ⟨_, rfl⟩
    · split <;> exact ⟨_, rfl⟩

variable (parse) (hgh : ∀ client ∈ gh, client.Answers)
include hgh

theorem rewriteHmasTaskIssue_returns (numbers : StringMap String) (id : String) (t : HmasTask) :
  rewriteHmasTaskIssue gh numbers id t = .ok ()
  := by
  unfold rewriteHmasTaskIssue
  split
  · rename_i client number hnumber
    exact (hgh client rfl).updateIssueBody _ _ _
  · rfl

theorem updateHmasTask_returns (t : HmasTask) (s : LiveStore) :
  (Operation.updateHmasTask parse gh t).Returns s
  := by
  obtain ⟨s', hload⟩ := (load_returns parse gh s).1
  refine returns_bind.mpr ⟨_, _, hload, returns_get_bind.mpr ?_⟩
  split
  · exact returns_pure _
  · refine returns_modify_bind.mpr (returns_get_bind.mpr (returns_lift.mpr ⟨(), ?_⟩))
    apply rewriteHmasTaskIssue_returns hgh

/-- A record is filed once its collection is loaded. -/
theorem returns_makeIssue {shelf : Shelf} {f : String → LiveStore → LiveStore} {s : LiveStore}
    (hload : ∃ t, exec (load parse gh shelf) s = (.ok (), t)) (title entityType : String)
    (entity : Json) (label : String) :
  (load parse gh shelf >>= fun _ => Attempt.lift (makeIssue gh title entityType entity label)
    >>= fun number => modify (f number)).Returns s
  := by
  obtain ⟨t, hload⟩ := hload
  obtain ⟨number, hnumber⟩ := makeIssue_returns hgh title entityType entity label
  exact returns_bind.mpr ⟨_, _, hload, returns_lift_bind.mpr ⟨number, hnumber, (), _, rfl⟩⟩

/-- With a client that does not fail, the store and the publisher answer. -/
theorem perform_returns (op : Op) (hop : op.Plain) (s : Server) :
  (perform parse gh op).Returns s
  := by
  cases op with
  | getHmasTask id =>
    obtain ⟨t, hload⟩ := (load_returns parse gh s.store).1
    refine returns_focus_bind.mpr ⟨_, _, hload, returns_get_bind.mpr (returns_pure _)⟩
  | updateHmasTask t =>
    obtain ⟨_, s', hupdate⟩ := updateHmasTask_returns parse hgh t s.store
    refine returns_focus_bind.mpr ⟨_, _, hupdate, returns_get_bind.mpr (returns_pure _)⟩
  | createHmasTask t =>
    exact returns_onStore.mpr (returns_makeIssue parse hgh (load_returns parse gh _).1 _ _ _ _)
  | createTaskBrief b =>
    exact returns_onStore.mpr (returns_makeIssue parse hgh (load_returns parse gh _).2 _ _ _ _)
  | markTaskCompleted now id => exact hop.elim
  | dispatched t => exact returns_pure _
  | publish subject payload | publishLog subject level message metadata => exact ⟨(), _, rfl⟩

end Orchestrate

/-! ### Escalations -/

variable {calls : Orchestrator.Env}

theorem returns_escalate (calls : Orchestrator.Env) (taskId reason : String) :
  (Orchestrator.escalate calls taskId reason).Returns Op.Plain (fun _ => True)
  := by
  unfold Orchestrator.escalate
  refine Program.Returns.bind (fun task _ => ?_) (Program.returns_request trivial)
  cases task with
  | none => trivial
  | some task =>
    dsimp only
    split
    · refine ⟨trivial, fun _ => ⟨trivial, fun _ => ⟨trivial, fun _ => ⟨trivial, fun _ => ?_⟩⟩⟩⟩
      exact ⟨trivial, fun _ => trivial⟩
    · trivial

theorem escalate_returns (hgh : ∀ client ∈ gh, client.Answers) {s : Server} :
  (Handling.escalate parse gh calls taskId body).Returns s
    ↔ body.isObject = true ∧ body.TextAt "reason"
  := by
  rw [Handling.escalate, returns_lift_bind]
  constructor
  · rintro ⟨reason, hreason, -⟩
    exact valueString_returns.mp ⟨reason, reading_eq_ok.mp hreason⟩
  · intro h
    obtain ⟨reason, hreason⟩ := valueString_returns.mpr h
    refine ⟨reason, reading_eq_ok.mpr hreason, ?_⟩
    obtain ⟨escalated, s', hexec, -⟩ :=
      Program.exec_carryOut_of_returns (perform_returns parse hgh)
        (returns_escalate calls taskId reason) s
    refine returns_bind.mpr ⟨escalated, s', hexec, ?_⟩
    split <;> exact returns_pure _

/-! ### Briefs -/

theorem briefCheck_returns :
  (∃ r, briefCheck body = .ok r) ↔ body.TextAt "title"
  := by
  rw [briefCheck, Json.TextAt]
  cases body.get? "title" with
  | none => simp
  | some v => cases v <;> simp [getString, Except.map]

/-- Whatever a brief makes the orchestrator throw is caught: only its title is read before. -/
theorem postBrief_returns {what : Failure → String} {s : Server} :
  (postBrief parse gh what calls body).Returns s ↔ body.TextAt "title"
  := by
  rw [postBrief, afterCheck_returns, briefCheck_returns, and_iff_left]
  intro _
  apply returns_catching
  intro e s'
  apply returns_pure

/-! ### Splits -/

/-- The entries of a split are read until one has no title. -/
def SubtasksFine : List Json → Prop
  | [] => True
  | sub :: rest =>
      sub.isObject = true → sub.TextAt "title" ∧
        (sub.valueString "title" "" ≠ .ok "" →
          sub.NumberAt "issue" ∧ sub.TextAt "description" ∧ sub.TextAt "base_branch"
            ∧ SubtasksFine rest)

/-- The entries of a split can be read, if its task is stored. -/
def SplitFine (parse : String → Option Json) (gh : Option Client) (s : LiveStore)
    (taskId : String) (body : Json) : Prop :=
  ((exec (load parse gh .hmasTasks) s).2.memory.getHmasTask taskId).isSome = true →
    ∀ subtasks, subtasksOf body = some subtasks → SubtasksFine subtasks

variable {original : HmasTask}

theorem remainder_returns (ts : String) (original : HmasTask) (id prevId : String) {sub : Json}
    (hobject : sub.isObject = true) :
  (∃ child, remainder ts original id prevId sub = .ok child)
    ↔ sub.NumberAt "issue" ∧ sub.TextAt "title" ∧ sub.TextAt "description"
      ∧ sub.TextAt "base_branch"
  := by
  have hlast : ∀ t : HmasTask, ∃ b, (pure t : Except Exn HmasTask) = .ok b := fun t => ⟨t, rfl⟩
  simp only [remainder, exists_bind_eq_ok, hlast, and_true, exists_and_right,
    valueString_returns, valueInt_returns, hobject, true_and]

theorem textAt_errorReply (message : String) :
  (errorReply message).TextAt "error"
  := by
  intro v hv
  rw [errorReply, get?_ofMembers (by simp)] at hv
  exact ⟨message, (Option.some.inj hv).symm⟩

variable {subtasks : List Json}

/-- The loop stops without an exception at an entry that has no title. -/
theorem returns_splitLoop (created : List String) (h : SubtasksFine subtasks) :
  (splitLoop calls original subtasks created).Returns Op.Plain
    (fun r => ∀ reply, r = .error reply → reply.TextAt "error")
  := by
  induction subtasks generalizing created with
  | nil => intro reply hreply; contradiction
  | cons sub rest ih =>
    rw [SubtasksFine] at h
    have hrefused : ∀ reply, (.error (errorReply
        "each subtask needs a non-empty 'title'") : Except Json (List String)) = .error reply →
      reply.TextAt "error" := by
      intro reply hreply
      rw [← Except.error.inj hreply]
      apply textAt_errorReply
    cases hobject : sub.isObject with
    | false =>
      simp only [splitLoop, hobject]
      exact hrefused
    | true =>
      obtain ⟨htext, hentry⟩ := h hobject
      obtain ⟨title, htitle⟩ := valueString_returns (d := "").mpr ⟨hobject, htext⟩
      simp only [splitLoop, hobject, htitle, if_true, Program.returns_ok_bind]
      by_cases hempty : title = ""
      · rw [if_pos hempty]
        exact hrefused
      · obtain ⟨hissue, hdescription, hbranch, hrest⟩ := hentry (by simpa [htitle] using hempty)
        obtain ⟨child, hchild⟩ :=
          (remainder_returns calls.ts original (calls.uuid created.length)
            (created.getLast?.getD "") hobject).mpr ⟨hissue, htext, hdescription, hbranch⟩
        rw [if_neg hempty, hchild, Program.returns_ok_bind]
        exact ⟨trivial, fun _ => ih _ hrest⟩

/-- The loop throws at an entry that cannot be read. -/
theorem throws_splitLoop (created : List String) (h : ¬ SubtasksFine subtasks) :
  (splitLoop calls original subtasks created).Throws
  := by
  induction subtasks generalizing created with
  | nil => exact absurd trivial h
  | cons sub rest ih =>
    rw [SubtasksFine, Classical.not_imp] at h
    obtain ⟨hobject, h⟩ := h
    cases htitle : sub.valueString "title" "" with
    | error e =>
      simp only [splitLoop, hobject, htitle, if_true]
      exact Program.throws_error_bind
    | ok title =>
      have htext : sub.TextAt "title" := (valueString_returns.mp ⟨title, htitle⟩).2
      rw [not_and, Classical.not_imp] at h
      obtain ⟨hne, hentry⟩ := h htext
      have hempty : title ≠ "" := by simpa [htitle] using hne
      simp only [splitLoop, hobject, htitle, if_true, Program.throws_ok_bind]
      rw [if_neg hempty]
      cases hchild : remainder calls.ts original (calls.uuid created.length)
          (created.getLast?.getD "") sub with
      | error e => exact Program.throws_error_bind
      | ok child =>
        obtain ⟨hissue, -, hdescription, hbranch⟩ :=
          (remainder_returns _ _ _ _ hobject).mp ⟨child, hchild⟩
        rw [Program.throws_ok_bind]
        intro _
        exact ih _ fun hrest => hentry ⟨hissue, hdescription, hbranch, hrest⟩

/-- What `split_task` does once it has found the task. -/
theorem splitTask_found (calls : Orchestrator.Env) (taskId : String) (subtasks : List Json) :
  ∃ next : Option HmasTask → Prog Json,
    splitTask calls taskId (.array subtasks)
        = .call (.getHmasTask taskId) next
      ∧ next none = .ret (errorReply "task not found")
      ∧ ∀ original, (SubtasksFine subtasks →
          (next (some original)).Returns Op.Plain (fun reply => reply.TextAt "error"))
        ∧ (subtasks ≠ [] → ¬ SubtasksFine subtasks → (next (some original)).Throws)
  := by
  refine ⟨_, rfl, rfl, ?_⟩
  intro original
  constructor
  · intro h
    cases subtasks with
    | nil => exact textAt_errorReply _
    | cons sub rest =>
      change Program.Returns _ _ (splitLoop calls original (sub :: rest) [] >>= _)
      refine Program.Returns.bind (fun outcome houtcome => ?_) (returns_splitLoop [] h)
      cases outcome with
      | error reply => exact houtcome reply rfl
      | ok created =>
        refine ⟨trivial, fun _ => ⟨trivial, fun _ => ?_⟩⟩
        intro v hv
        rw [get?_ofMembers (by simp)] at hv
        simp [Lists.lookup_cons] at hv
  · intro hne h
    cases subtasks with
    | nil => exact absurd rfl hne
    | cons sub rest =>
      change Program.Throws (splitLoop calls original (sub :: rest) [] >>= _)
      exact Program.Throws.bind (throws_splitLoop [] h)

theorem subtasksOf_ne_nil (h : subtasksOf body = some subtasks) :
  subtasks ≠ []
  := by
  rintro rfl
  unfold subtasksOf at h
  split at h <;> simp at h

theorem respondSplit_returns {result : Json} (h : result.TextAt "error") (s : Server) :
  (respondSplit result).Returns s
  := by
  rw [respondSplit]
  cases hget : result.get? "error" with
  | none => exact returns_pure _
  | some error =>
    obtain ⟨message, rfl⟩ := h error hget
    dsimp only
    split
    · exact returns_pure _
    · exact returns_lift_bind.mpr ⟨message, rfl, returns_pure _⟩

theorem exec_getHmasTask (parse : String → Option Json) (gh : Option Client) (taskId : String)
    (s : Server) :
  exec (Handling.getHmasTask parse gh taskId) s
    = (.ok ((exec (load parse gh .hmasTasks) s.store).2.memory.getHmasTask taskId),
      { s with store := (exec (load parse gh .hmasTasks) s.store).2 })
  := by
  obtain ⟨t, hload⟩ := (load_returns parse gh s.store).1
  rw [Handling.getHmasTask, exec_bind, onStore, focus, exec_ofExec, hload]
  rfl

theorem orchestrate_call {α : Type} (next : Option HmasTask → Prog α) :
  orchestrate parse gh (.call (.getHmasTask taskId) next)
    = (Handling.getHmasTask parse gh taskId >>= fun r => orchestrate parse gh (next r))
  := rfl

theorem split_returns (hgh : ∀ client ∈ gh, client.Answers) {s : Server} :
  (Handling.split parse gh calls taskId body).Returns s ↔ SplitFine parse gh s.store taskId body
  := by
  rw [Handling.split, SplitFine]
  cases hsubtasks : subtasksOf body with
  | none => simp
  | some subtasks =>
    obtain ⟨next, hprogram, hnone, hsome⟩ := splitTask_found calls taskId subtasks
    simp only [hprogram, orchestrate_call, returns_bind_bind, exec_getHmasTask, Prod.mk.injEq,
      Except.ok.injEq, and_assoc, exists_eq_left', exists_and_left, Option.some.injEq, forall_eq']
    cases (exec (load parse gh .hmasTasks) s.store).2.memory.getHmasTask taskId with
    | none =>
      rw [hnone]
      refine iff_of_true ?_ (by simp)
      exact returns_bind.mpr ⟨_, _, rfl, respondSplit_returns (textAt_errorReply _) _⟩
    | some original =>
      simp only [Option.isSome_some, true_implies]
      constructor
      · intro h
        by_contra hfine
        obtain ⟨result, s', hexec, -⟩ := returns_bind.mp h
        have hthrows : (next (some original)).Throws
          := (hsome original).2 (subtasksOf_ne_nil hsubtasks) hfine
        exact Program.not_returns_of_throws hthrows _ ⟨result, s', hexec⟩
      · intro hfine
        obtain ⟨result, s', hexec, hresult⟩ :=
          Program.exec_carryOut_of_returns (perform_returns parse hgh) ((hsome original).1 hfine) _
        exact returns_bind.mpr ⟨result, s', hexec, respondSplit_returns hresult s'⟩

/-! ### Requests -/

/-- The bodies that a route answers. -/
def Route.Fine (parse : String → Option Json) (gh : Option Client) (metrics : Bool)
    (env : StoreEnv) (s : LiveStore) (body : Json) : Route → Prop
  | .postAgents => AgentFine parse gh s body
  | .postBriefs => body.TextAt "title"
  | .putTask teamId taskId => TaskFine parse gh metrics env s teamId taskId body
  | .patchTask teamId taskId => TaskFine parse gh metrics env s teamId taskId body
  | .postEscalate _ => body.isObject = true ∧ body.TextAt "reason"
  | .postSplit taskId => SplitFine parse gh s taskId body

/-- A handler answers an accepted body exactly if what it reads without a test can be read. -/
theorem handle_returns_iff (read : String → Except Exn Json) (parse : String → Option Json)
    (gh : Option Client) (metrics : Bool) (what : Failure → String) (env : StoreEnv)
    (calls : Orchestrator.Env) (route : Route) (text : String) (body : Json) (s : Server)
    (hgh : ∀ client ∈ gh, client.Answers) (hbody : parseBody read what text = .ok (.ok body)) :
  (route.handle read parse gh metrics what env calls text).Returns s
    ↔ route.Fine parse gh metrics env s.store body
  := by
  rw [Route.handle, hbody]
  cases route with
  | postAgents => exact postAgent_returns hgh
  | postBriefs => exact postBrief_returns
  | putTask teamId taskId | patchTask teamId taskId => exact updateTaskHandler_returns hgh
  | postEscalate taskId => exact escalate_returns hgh
  | postSplit taskId => exact split_returns hgh

/-- A server that has just started. -/
def Server.fresh : Server where
  store := .fresh
  published := []
  logs := []

/-- What the store takes from outside during a request. -/
def requestEnv : StoreEnv where
  uuid := "a"
  number := 7
  now := fun _ => ⟨2026, 4, 1, 0, 0, 0⟩

/-- What the orchestrator takes from outside during a request. -/
def requestCalls : Orchestrator.Env where
  uuid := fun _ => "t"
  now := ⟨2026, 4, 1, 0, 0, 0⟩

/-- A client that lists one agent, and answers all other calls. -/
def oneAgentClient : Client :=
  { Client.answering requestEnv with
    listIssues := fun _ => some [(fencedIssue 1 (identified (.string "b"))).toJson] }

/-- A new agent. -/
def newBuilder : Json :=
  .object [("label", .string "l"), ("name", .string "a"), ("program", .string "p"),
    ("status", .string "offline"), ("taskDescription", .string "d")]

theorem textAt_newBuilder (k : String) :
  newBuilder.TextAt k
  := by
  intro v hv
  have hmem := Lists.mem_of_lookup hv
  simp only [List.mem_cons, Prod.mk.injEq, List.not_mem_nil, or_false] at hmem
  rcases hmem with ⟨-, rfl⟩ | ⟨-, rfl⟩ | ⟨-, rfl⟩ | ⟨-, rfl⟩ | ⟨-, rfl⟩
  all_goals exact ⟨_, rfl⟩

/-- The agents are loaded, and the new one is stored. -/
theorem handle_returns_newBuilder :
  oneAgentClient.Answers
  ∧ (Route.handle (parsePayload Json.read) Json.read (some oneAgentClient) true (fun _ => "")
      requestEnv requestCalls .postAgents (Json.print newBuilder)).Returns Server.fresh
  := by
  have hclient : oneAgentClient.Answers
    := ⟨fun _ _ _ _ => ⟨_, rfl⟩, fun _ _ _ => rfl, fun _ => rfl⟩
  refine ⟨hclient, (handle_returns_iff _ _ _ _ _ _ _ _ _ newBuilder _ ?_ rfl).mpr ?_⟩
  · rintro _ ⟨⟩
    exact hclient
  · refine fun _ => ⟨textAt_newBuilder _, fun _ => ⟨textAt_newBuilder _, fun _ =>
      ⟨textAt_newBuilder _, fun _ _ => ⟨⟨_, _, rfl⟩, fun k _ => textAt_newBuilder k⟩⟩⟩⟩

/-- The label is a number.  It is not tested, and reading it throws. -/
theorem handle_numberedLabel :
  exec (Route.handle (parsePayload Json.read) Json.read none false (fun _ => "") requestEnv
      requestCalls .postAgents "\x7b\"name\":\"a\",\"label\":5\x7d") Server.fresh
    = (.error (.own (.typeError 302)), Server.fresh)
  := by
  rfl

end Agamemnon
