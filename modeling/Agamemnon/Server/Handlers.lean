import Agamemnon.Hmas.Reading
import Agamemnon.Lib.Carry
import Agamemnon.Lib.Numerals
import Agamemnon.Orchestrator.Calls
import Agamemnon.Store.Client

/-!
# Request handlers

The handlers for new agents, briefs, changes of tasks, escalations and splits.  A handler parses
the body, makes its checks in turn, each of which may refuse the request, and then works on the
store and the publisher.  Nothing but the handler for briefs catches exceptions.
-/

namespace Agamemnon

open Orchestrator

/-! ### Responses -/

/-- A response, with a JSON value for its content. -/
structure Response where
  status : ℕ
  body : Json

/-- `kInternalFields`. -/
def internalFields : List String :=
  ["_github_issue"]

mutual

/-- `strip_internal_fields`. -/
def stripInternalFields : Json → Json
  | .object members => .object (stripMembers members)
  | .array elements => .array (stripElements elements)
  | j => j

/-- Strip the elements of an array. -/
def stripElements : List Json → List Json
  | [] => []
  | e :: es => stripInternalFields e :: stripElements es

/-- Erase the internal members of an object, and strip the others. -/
def stripMembers : List (String × Json) → List (String × Json)
  | [] => []
  | (k, v) :: ms =>
      if k ∈ internalFields then stripMembers ms
      else (k, stripInternalFields v) :: stripMembers ms

end

/-- `reply_json`. -/
def replyJson (status : ℕ) (body : Json) : Response where
  status := status
  body := stripInternalFields body

/-- `reply_not_found`. -/
def replyNotFound (what : String) : Response :=
  replyJson 404 (errorReply (what ++ " not found"))

/-- `reply_bad_request`. -/
def replyBadRequest (message : String) : Response :=
  replyJson 400 (errorReply message)

/-! ### Checks -/

/-- `kMaxNameLen`. -/
def maxNameLen : ℕ := 256

/-- `kMaxLabelLen`. -/
def maxLabelLen : ℕ := 256

/-- `kMaxDescriptionLen`. -/
def maxDescriptionLen : ℕ := 4096

/-- `kMaxSubjectLen`. -/
def maxSubjectLen : ℕ := 512

/-- `kMaxProgramLen`. -/
def maxProgramLen : ℕ := 1024

/-- `kMaxBodyBytes`. -/
def maxBodyBytes : ℕ := 1024 * 1024

/-- `kValidAgentStatuses`. -/
def validAgentStatuses : List String :=
  ["offline", "online", "error"]

/-- `kValidTaskStatuses`. -/
def validTaskStatuses : List String :=
  ["pending", "running", "completed", "failed", "blocked"]

/-- `kValidTaskTypes`. -/
def validTaskTypes : List String :=
  ["general", "research", "implementation", "review", "testing", "hello"]

/-- `check_field_length`: the refusal, if the value is too long. -/
def checkFieldLength (field : String) (maxLen : ℕ) (value : String) : Option Response :=
  if value.utf8ByteSize > maxLen then
    some (replyBadRequest
      ("field '" ++ field ++ "' exceeds maximum length of " ++ toString maxLen))
  else none

/-- `require_nonempty_string`. -/
def requireNonemptyString (field value : String) : Option Response :=
  if value.toList.all Numerals.isSpace then
    some (replyBadRequest ("'" ++ field ++ "' must be a non-empty string"))
  else none

/-- `require_enum`. -/
def requireEnum (field : String) (allowed : List String) (value : String) : Option Response :=
  if value ∈ allowed then none
  else some (replyBadRequest ("'" ++ field ++ "' has invalid value '" ++ value ++ "'"))

/-- What a check of a body comes to: the refusal, if there is one, or an exception. -/
abbrev Check : Type :=
  Except Exn (Option Response)

section Checks

variable (body : Json) (field : String)

/-- `require_field_present`. -/
def requireFieldPresent : Check :=
  .ok (if body.contains field then none
    else some (replyBadRequest ("'" ++ field ++ "' is required")))

/-- `require_string_if_present`. -/
def requireStringIfPresent : Check :=
  match body.get? field with
  | none => .ok none
  | some (.string _) => .ok none
  | some _ => .ok (some (replyBadRequest ("'" ++ field ++ "' must be a string")))

/-- A check of the member `field`, which is read with `get<std::string>` where it is present. -/
def onMember (check : String → Option Response) : Check :=
  match body.get? field with
  | none => .ok none
  | some v => v.getString.map check

/-- A check of the member `field`, which is made only where it is a string. -/
def onString (check : String → Option Response) : Check :=
  match body.get? field with
  | some (.string s) => .ok (check s)
  | _ => .ok none

/-- The value is a string, whichever. -/
def Json.isText : Json → Bool
  | .string _ => true
  | _ => false

/-- `require_string_array` of the member `field`, where it is present. -/
def requireStringArray : Check :=
  match body.get? field with
  | none => .ok none
  | some (.array elements) =>
      .ok (if elements.all Json.isText then none
        else some (replyBadRequest ("'" ++ field ++ "' elements must be strings")))
  | some _ => .ok (some (replyBadRequest ("'" ++ field ++ "' must be an array")))

end Checks

/-- Make checks in turn, up to the first that refuses or throws. -/
def firstRefusal : List Check → Check
  | [] => .ok none
  | .ok none :: checks => firstRefusal checks
  | outcome :: _ => outcome

/-- The checks for a new agent. -/
def agentChecks (body : Json) : List Check :=
  [requireFieldPresent body "name",
    requireStringIfPresent body "name",
    onMember body "name" (requireNonemptyString "name"),
    onMember body "name" (checkFieldLength "name" maxNameLen),
    onMember body "label" (checkFieldLength "label" maxLabelLen),
    onMember body "program" (checkFieldLength "program" maxProgramLen),
    onMember body "taskDescription" (checkFieldLength "taskDescription" maxDescriptionLen),
    onString body "status" (requireEnum "status" validAgentStatuses)]

/-- The checks for a change of a task. -/
def taskChecks (body : Json) : List Check :=
  [requireStringIfPresent body "subject",
    onMember body "subject" (checkFieldLength "subject" maxSubjectLen),
    requireStringIfPresent body "description",
    onMember body "description" (checkFieldLength "description" maxDescriptionLen),
    onString body "status" (requireEnum "status" validTaskStatuses),
    onString body "type" (requireEnum "type" validTaskTypes),
    requireStringArray body "blockedBy"]

/-- The check for a brief. -/
def briefCheck (body : Json) : Check :=
  match body.get? "title" with
  | none => .ok (some (replyBadRequest "title is required"))
  | some v => v.getString.map fun title =>
      if title = "" then some (replyBadRequest "title is required") else none

/-- The entries of a split, if there are any. -/
def subtasksOf (body : Json) : Option (List Json) :=
  match body.get? "subtasks" with
  | some (.array (sub :: rest)) => some (sub :: rest)
  | _ => none

/-! ### The server -/

/-- The store, and what has been sent. -/
structure Server where
  store : LiveStore
  published : List (String × Json)
  logs : List LogLine

/-- A handler that has been given its request. -/
abbrev Handling : Type → Type :=
  Attempt Failure Server

variable (read : String → Except Exn Json) (parse : String → Option Json) (gh : Option Client)
  (metrics : Bool) (what : Failure → String) (env : StoreEnv) (calls : Orchestrator.Env)

namespace Handling

open Operation

/-- An operation of the store. -/
def onStore {α : Type} (x : Operation α) : Handling α :=
  Attempt.focus (·.store) (fun s store => { s with store }) x

/-- `NatsPublisher::publish`. -/
def publish (subject : String) (payload : Json) : Handling Unit :=
  modify fun s => { s with published := s.published ++ [(subject, payload)] }

/-- `NatsPublisher::publish_log`. -/
def publishLog (subject level message : String) (metadata : Json) : Handling Unit :=
  modify fun s => { s with logs := s.logs ++ [⟨subject, level, message, metadata⟩] }

/-- Go on if a check does not refuse the request. -/
def afterCheck (check : Check) (next : Handling Response) : Handling Response :=
  match check with
  | .error e => .lift (.error (.own e))
  | .ok (some refusal) => pure refusal
  | .ok none => next

/-- `get_hmas_task`. -/
def getHmasTask (id : String) : Handling (Option HmasTask) := do
  onStore (load parse gh .hmasTasks)
  return (← get).store.memory.getHmasTask id

/-- What the orchestrator asks of the store and the publisher. -/
def perform : (op : Op) → Handling op.Res
  | .getHmasTask id => getHmasTask parse gh id
  | .updateHmasTask t => do
      onStore (Operation.updateHmasTask parse gh t)
      return ((← get).store.memory.getHmasTask t.id).isSome
  | .createHmasTask t => onStore (Operation.createHmasTask parse gh t)
  | .createTaskBrief b => onStore (Operation.createTaskBrief parse gh b)
  | .markTaskCompleted now id => do
      onStore (load parse gh (.entities .tasks))
      match (← get).store.memory.markTaskCompleted now id with
      | .error e => return .error e
      | .ok memory => do
          modify fun s => { s with store := { s.store with memory } }
          match memory.tasks.lookup id with
          | none => return .ok ()
          | some task => do
              .lift (rewriteIssue gh .tasks id task)
              return .ok ()
  | .dispatched _ => pure ()
  | .publish subject payload => publish subject payload
  | .publishLog subject level message metadata => publishLog subject level message metadata

/-- A call of the orchestrator. -/
def orchestrate {α : Type} (p : Prog α) : Handling α :=
  p.carryOut (perform parse gh) .own

/-- `create_agent`, with its answer. -/
def createAgent (body : Json) : Operation Json := do
  Operation.perform parse gh metrics env (.createAgent body)
  let agent := ((← get).stored .agents env.uuid).getD .null
  return .ofMembers [("id", .string env.uuid), ("agent", agent)]

/-- The part of `update_task` that changes a task. -/
def storeTask (taskId : String) (body task : Json) : Operation Json := do
  modify (·.put .tasks taskId (changedTask env body task))
  .lift (rewriteIssue gh .tasks taskId (changedTask env body task))
  .lift (recordStatus metrics body)
  return changedTask env body task

/-- `update_task`, with its answer. -/
def updateTask (teamId taskId : String) (body : Json) : Operation Json :=
  if body.isObject = false ∨ teamId = "" then pure .null
  else do
    load parse gh (.entities .tasks)
    match (← get).stored .tasks taskId with
    | none => pure .null
    | some task => do
        let owner ← .lift (reading (task.valueString "teamId" ""))
        if owner ≠ teamId then pure .null else storeTask gh metrics env taskId body task

/-- The tasks of a plan, and its root: the last task without a parent. -/
def planJson (briefId : String) (tasks : List HmasTask) (brief : Option TaskBrief) : Json :=
  let root := ((tasks.filter (·.parentTaskId = "")).getLast?.map hmasTaskToJson).getD .null
  match tasks, brief with
  | [], some brief => .ofMembers [("brief_id", .string briefId), ("root", .null),
      ("tasks", .array []), ("brief", taskBriefToJson brief)]
  | _, _ => .ofMembers [("brief_id", .string briefId), ("root", root),
      ("tasks", .array (tasks.map hmasTaskToJson))]

/-- `get_plan`. -/
def getPlan (briefId : String) : Handling Json := do
  onStore (load parse gh .hmasTasks)
  let memory := (← get).store.memory
  let tasks := ((memory.hmasTasksByBrief.lookup briefId).getD []).filterMap memory.hmasTasks.lookup
  if tasks ≠ [] then return planJson briefId tasks none
  else do
    onStore (load parse gh .briefs)
    return planJson briefId [] ((← get).store.memory.taskBriefs.lookup briefId)

/-- What the handler does once an agent has been created. -/
def announceAgent (result : Json) : Handling Response := do
  let agent := (result.get? "agent").getD .null
  let host ← .lift (reading (agent.valueString "host" "local"))
  let name ← .lift (reading (agent.valueString "name" "unknown"))
  let agentId ← .lift (reading (agent.valueString "id" "unknown"))
  let agentType ← .lift (reading (agent.valueString "type" "unknown"))
  publish ("hi.agents." ++ host ++ "." ++ name ++ ".created") result
  publishLog "hi.logs.agamemnon.agent_created" "info" ("Agent created: " ++ agentId)
    (.ofMembers [("agent_id", .string agentId), ("name", .string name),
      ("type", .string agentType), ("host", .string host)])
  return replyJson 201 result

/-- `POST /v1/agents`. -/
def postAgent (body : Json) : Handling Response :=
  afterCheck (firstRefusal (agentChecks body)) do
    announceAgent (← onStore (createAgent parse gh metrics env body))

/-- What the handler does once a task has been changed. -/
def announceTask (teamId taskId : String) (result : Json) : Handling Response := do
  let status ← .lift (reading (result.valueString "status" ""))
  let wrapped : Json := .ofMembers [("task", result)]
  publish ("hi.tasks." ++ teamId ++ "." ++ taskId ++ ".updated") wrapped
  if status = "completed" then do
    let taskType ← .lift (reading (result.valueString "type" "unknown"))
    let assignee ← .lift (reading (result.valueString "assigneeAgentId" ""))
    publishLog "hi.logs.agamemnon.task_completed" "info" ("Task completed: " ++ taskId)
      (.ofMembers [("task_id", .string taskId), ("team_id", .string teamId),
        ("type", .string taskType), ("assignee", .string assignee)])
    return replyJson 200 wrapped
  else return replyJson 200 wrapped

/-- The response to a change of a task, by the answer of the store. -/
def respondTask (teamId taskId : String) (result : Json) : Handling Response :=
  if result.isNull then pure (replyNotFound "task") else announceTask teamId taskId result

/-- `PUT` and `PATCH /v1/teams/:team_id/tasks/:task_id`. -/
def updateTaskHandler (teamId taskId : String) (body : Json) : Handling Response :=
  afterCheck (firstRefusal (taskChecks body)) do
    respondTask teamId taskId (← onStore (updateTask parse gh metrics env teamId taskId body))

/-- `POST /v1/briefs`. -/
def postBrief (body : Json) : Handling Response :=
  afterCheck (briefCheck body) <| Attempt.catching (do
    let brief ← .lift (reading (taskBriefFromJson body))
    let briefId ← orchestrate parse gh (submit calls brief)
    let plan ← getPlan parse gh briefId
    return replyJson 201 plan) fun e => pure (replyBadRequest ("invalid brief: " ++ what e))

/-- `POST /v1/tasks/:task_id/escalate`. -/
def escalate (taskId : String) (body : Json) : Handling Response := do
  let reason ← .lift (reading (body.valueString "reason" "unspecified"))
  let escalated ← orchestrate parse gh (Orchestrator.escalate calls taskId reason)
  if escalated then
    return replyJson 200 (.ofMembers [("task_id", .string taskId), ("escalated", .boolean true)])
  else return replyNotFound "task"

/-- The response to a split, by the answer of the orchestrator. -/
def respondSplit (result : Json) : Handling Response :=
  match result.get? "error" with
  | none => pure (replyJson 201 result)
  | some error =>
      if error.isString "task not found" then pure (replyNotFound "task")
      else do
        let message ← .lift (reading error.getString)
        return replyBadRequest message

/-- `POST /v1/tasks/:task_id/split`. -/
def split (taskId : String) (body : Json) : Handling Response :=
  match subtasksOf body with
  | none => pure (replyBadRequest "subtasks must be a non-empty array")
  | some subtasks => do
      respondSplit (← orchestrate parse gh (splitTask calls taskId (.array subtasks)))

end Handling

/-! ### Requests -/

/-- The routes of the handlers. -/
inductive Route where
  | postAgents
  | postBriefs
  | putTask (teamId taskId : String)
  | patchTask (teamId taskId : String)
  | postEscalate (taskId : String)
  | postSplit (taskId : String)

/-- `parse_body`: the value of a body, or the refusal.  Only a `parse_error` is caught. -/
def parseBody (text : String) : Except Exn (Except Response Json) :=
  if text.utf8ByteSize > maxBodyBytes then
    .ok (.error (replyJson 413 (errorReply "request body too large")))
  else if text = "" then .ok (.ok (.object []))
  else
    match read text with
    | .ok body => .ok (.ok body)
    | .error .parseError =>
        .ok (.error (replyBadRequest ("invalid JSON: " ++ what (.own .parseError))))
    | .error e => .error e

/-- What a handler does with the value of the body. -/
def Route.respond (body : Json) : Route → Handling Response
  | .postAgents => Handling.postAgent parse gh metrics env body
  | .postBriefs => Handling.postBrief parse gh what calls body
  | .putTask teamId taskId => Handling.updateTaskHandler parse gh metrics env teamId taskId body
  | .patchTask teamId taskId => Handling.updateTaskHandler parse gh metrics env teamId taskId body
  | .postEscalate taskId => Handling.escalate parse gh calls taskId body
  | .postSplit taskId => Handling.split parse gh calls taskId body

/-- The handler of a route. -/
def Route.handle (route : Route) (text : String) : Handling Response :=
  match parseBody read what text with
  | .error e => .lift (.error (.own e))
  | .ok (.error refusal) => pure refusal
  | .ok (.ok body) => route.respond parse gh metrics what env calls body

end Agamemnon
