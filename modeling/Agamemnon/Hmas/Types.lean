import Agamemnon.Json.Value
import Mathlib.Data.Finmap
import Mathlib.Data.Finset.Sort

/-!
# Tasks and briefs

The records the orchestrator works on: layers and states of tasks, escalation records,
tasks and briefs, together with their JSON form and the clock reading they carry.
-/

namespace Agamemnon

/-! ### The clock -/

/-- A broken-down time in UTC, as `gmtime_r` returns it. -/
structure Tm where
  year : ℕ
  month : ℕ
  day : ℕ
  hour : ℕ
  minute : ℕ
  second : ℕ
deriving DecidableEq, Repr

/-- A number below one hundred written with two digits. -/
def twoDigits (n : ℕ) : String :=
  if n < 10 then "0" ++ toString n else toString n

/-- `now_iso8601` at the clock reading `t`. -/
def nowIso8601 (t : Tm) : String :=
  toString t.year ++ "-" ++ twoDigits t.month ++ "-" ++ twoDigits t.day ++ "T"
    ++ twoDigits t.hour ++ ":" ++ twoDigits t.minute ++ ":" ++ twoDigits t.second ++ "Z"

/-- A time stamp is never empty. -/
@[simp]
theorem nowIso8601_ne_empty (t : Tm) :
  nowIso8601 t ≠ ""
  := by
  intro h
  have hlength := congrArg String.length h
  simp only [nowIso8601, String.length_append] at hlength
  have hz : "Z".length = 1 := rfl
  have hempty : "".length = 0 := rfl
  omega

/-! ### Layers and states -/

/-- `HmasLayer`. -/
inductive HmasLayer where
  | l0ChiefArchitect
  | l1ComponentLead
  | l2ModuleLead
  | l3TaskAgent
deriving DecidableEq, Repr

/-- `TaskState`. -/
inductive TaskState where
  | pending
  | decomposing
  | delegated
  | inProgress
  | escalated
  | completed
  | failed
deriving DecidableEq, Repr

/-- The states no event leads out of. -/
def TaskState.terminal : TaskState → Bool
  | completed => true
  | failed => true
  | _ => false

/-- The numeric value of a layer. -/
def HmasLayer.toNat : HmasLayer → ℕ
  | l0ChiefArchitect => 0
  | l1ComponentLead => 1
  | l2ModuleLead => 2
  | l3TaskAgent => 3

/-- `hmas_layer_to_string`. -/
def hmasLayerToString : HmasLayer → String
  | .l0ChiefArchitect => "L0_ChiefArchitect"
  | .l1ComponentLead => "L1_ComponentLead"
  | .l2ModuleLead => "L2_ModuleLead"
  | .l3TaskAgent => "L3_TaskAgent"

/-- `task_state_to_string`. -/
def taskStateToString : TaskState → String
  | .pending => "Pending"
  | .decomposing => "Decomposing"
  | .delegated => "Delegated"
  | .inProgress => "InProgress"
  | .escalated => "Escalated"
  | .completed => "Completed"
  | .failed => "Failed"

/-! ### Records -/

/-- `EscalationRecord`. -/
structure EscalationRecord where
  taskId : String
  reason : String
  escalatedAt : String
  fromLayer : HmasLayer
deriving DecidableEq, Repr

/-- `HmasTask`. -/
structure HmasTask where
  id : String
  briefId : String
  parentTaskId : String
  layer : HmasLayer
  state : TaskState
  subject : String
  description : String
  repo : String
  module : String
  issue : ℤ
  assignedLeadId : String
  blockedBy : List String
  childTaskIds : List String
  escalations : List EscalationRecord
  createdAt : String
  completedAt : String
deriving DecidableEq, Repr

/-- A map with string keys, as `std::unordered_map<std::string, α>`. -/
abbrev StringMap (α : Type) : Type :=
  Finmap (fun _ : String => α)

/-- `TaskBrief`: for every repository its modules, and for every module of a repository
its implementation tasks. -/
structure TaskBrief where
  id : String
  title : String
  description : String
  repos : List String
  modules : StringMap (List String)
  impls : StringMap (StringMap (List String))

/-! ### JSON form -/

/-- `escalation_record_to_json`. -/
def escalationRecordToJson (r : EscalationRecord) : Json :=
  .ofMembers
    [("task_id", .string r.taskId),
     ("reason", .string r.reason),
     ("escalated_at", .string r.escalatedAt),
     ("from_layer", .string (hmasLayerToString r.fromLayer))]

/-- `hmas_task_to_json`. -/
def hmasTaskToJson (t : HmasTask) : Json :=
  .ofMembers
    [("id", .string t.id),
     ("brief_id", .string t.briefId),
     ("parent_task_id", .string t.parentTaskId),
     ("layer", .string (hmasLayerToString t.layer)),
     ("state", .string (taskStateToString t.state)),
     ("subject", .string t.subject),
     ("description", .string t.description),
     ("repo", .string t.repo),
     ("module", .string t.module),
     ("issue", .integer t.issue),
     ("assigned_lead_id", .string t.assignedLeadId),
     ("blocked_by", .ofStrings t.blockedBy),
     ("child_task_ids", .ofStrings t.childTaskIds),
     ("created_at", .string t.createdAt),
     ("completed_at", .string t.completedAt),
     ("escalations", .array (t.escalations.map escalationRecordToJson))]

/-- The entries of a map in increasing key order. -/
def StringMap.entries {α : Type} (m : StringMap α) : List (String × α) :=
  (m.keys.sort (· ≤ ·)).filterMap fun k => (m.lookup k).map fun a => (k, a)

/-- The object with the members of `m`, converted by `f`. -/
def StringMap.toJson {α : Type} (f : α → Json) (m : StringMap α) : Json :=
  .object ((m.keys.sort (· ≤ ·)).filterMap fun k => (m.lookup k).map fun v => (k, f v))

/-- `task_brief_to_json`. -/
def taskBriefToJson (b : TaskBrief) : Json :=
  .ofMembers
    [("id", .string b.id),
     ("title", .string b.title),
     ("description", .string b.description),
     ("repos", .ofStrings b.repos),
     ("modules", b.modules.toJson .ofStrings),
     ("impls", b.impls.toJson fun m => m.toJson .ofStrings)]

/-! ### Wire names -/

/-- `mesh_role_name`. -/
def meshRoleName : HmasLayer → String
  | .l0ChiefArchitect => "chief-architect"
  | .l1ComponentLead => "component-lead"
  | .l2ModuleLead => "module-lead"
  | .l3TaskAgent => "task-agent"

/-- `mesh_dispatch_subject`. -/
def meshDispatchSubject (domain role taskId : String) : String :=
  "hi.myrmidon." ++ domain ++ "." ++ role ++ ".task." ++ taskId

end Agamemnon
