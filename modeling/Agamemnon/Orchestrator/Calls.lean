import Agamemnon.Hmas.StateMachine
import Agamemnon.Lib.Program
import Agamemnon.Plan.Breakdown
import Agamemnon.Store.Memory

/-!
# The calls of the orchestrator

The entry points of the orchestrator as programs over the operations of the store and of
the publisher, each of which is atomic.  A call draws its identifiers from its own
generator and reads the clock at most once; both are part of its `Env`.  How a payload is
parsed is a parameter.
-/

namespace Agamemnon

open Program

/-! ### Operations -/

/-- The operations a call performs on the store and on the publisher.  `dispatched` marks
the entry of `dispatch_task`; it has no effect on either. -/
inductive Op where
  | getHmasTask (id : String)
  | updateHmasTask (t : HmasTask)
  | createHmasTask (t : HmasTask)
  | createTaskBrief (b : TaskBrief)
  | markTaskCompleted (now id : String)
  | dispatched (t : HmasTask)
  | publish (subject : String) (payload : Json)
  | publishLog (subject level message : String) (metadata : Json)

/-- What an operation answers. -/
def Op.Res : Op → Type
  | getHmasTask _ => Option HmasTask
  | updateHmasTask _ => Bool
  | createHmasTask _ => Unit
  | createTaskBrief _ => Unit
  | markTaskCompleted _ _ => Except Exn Unit
  | dispatched _ => Unit
  | publish _ _ => Unit
  | publishLog _ _ _ _ => Unit

/-- The programs of the orchestrator. -/
abbrev Prog (α : Type) : Type :=
  Program Op Op.Res Exn α

/-- A task handed to `dispatch_task`, with the stored tasks at that moment. -/
structure Dispatch where
  task : HmasTask
  tasks : StringMap HmasTask

/-- A line of the log. -/
structure LogLine where
  subject : String
  level : String
  message : String
  metadata : Json

/-- The store, and what has been sent so far. -/
structure World where
  store : Memory
  dispatched : List Dispatch
  published : List (String × Json)
  logs : List LogLine

/-- The world at start-up. -/
def World.empty : World where
  store := Memory.empty
  dispatched := []
  published := []
  logs := []

/-- What the operations do. -/
def World.handle : Handler Op Op.Res World
  | w, .getHmasTask id => (w.store.getHmasTask id, w)
  | w, .updateHmasTask t =>
      ((w.store.updateHmasTask t).1, { w with store := (w.store.updateHmasTask t).2 })
  | w, .createHmasTask t => ((), { w with store := w.store.createHmasTask t })
  | w, .createTaskBrief b => ((), { w with store := w.store.createTaskBrief b })
  | w, .markTaskCompleted now id =>
      match w.store.markTaskCompleted now id with
      | .ok store => (.ok (), { w with store })
      | .error e => (.error e, w)
  | w, .dispatched t =>
      ((), { w with dispatched := w.dispatched ++ [⟨t, w.store.hmasTasks⟩] })
  | w, .publish subject payload =>
      ((), { w with published := w.published ++ [(subject, payload)] })
  | w, .publishLog subject level message metadata =>
      ((), { w with logs := w.logs ++ [⟨subject, level, message, metadata⟩] })

namespace Orchestrator

/-- Look up a task. -/
def getHmasTask (id : String) : Prog (Option HmasTask) :=
  request (Op.getHmasTask id)

/-- Write a task back. -/
def updateHmasTask (t : HmasTask) : Prog Bool :=
  request (Op.updateHmasTask t)

/-- Store a new task. -/
def createHmasTask (t : HmasTask) : Prog Unit :=
  request (Op.createHmasTask t)

/-- Store a brief. -/
def createTaskBrief (b : TaskBrief) : Prog Unit :=
  request (Op.createTaskBrief b)

/-- Complete a plain task. -/
def markTaskCompleted (now id : String) : Prog Unit := do
  let outcome ← request (Op.markTaskCompleted now id)
  ofExcept outcome

/-- `NatsPublisher::publish`. -/
def publish (subject : String) (payload : Json) : Prog Unit :=
  request (Op.publish subject payload)

/-- `NatsPublisher::publish_log`. -/
def publishLog (subject level message : String) (metadata : Json) : Prog Unit :=
  request (Op.publishLog subject level message metadata)

/-! ### Helpers -/

/-- `publish_task_state`. -/
def publishTaskState (t : HmasTask) : Prog Unit :=
  publish ("hi.tasks." ++ (taskStateToString t.state).toLower)
    ((hmasTaskToJson t).set "brief_id" (.string t.briefId))

/-- `myrmidon_subject`. -/
def myrmidonSubject (layer : HmasLayer) (taskId : String) : String :=
  let layerStr := match layer with
    | .l0ChiefArchitect => "chief_architect"
    | .l1ComponentLead => "component_lead"
    | .l2ModuleLead => "module_lead"
    | .l3TaskAgent => "task_agent"
  "hi.myrmidon." ++ layerStr ++ "." ++ taskId

/-- The pointer fields `dispatch_task` adds to a payload. -/
def dispatchPayload (t : HmasTask) (payload : Json) : Json :=
  let payload := payload.set "task_id" (.string t.id)
  let payload :=
    if payload.contains "team_id" then payload else payload.set "team_id" (.string "mesh")
  let payload := payload.set "role" (.string (meshRoleName t.layer))
  let payload := payload.set "domain" (.string "pipeline")
  if t.issue ≠ 0 then payload.set "issue" (.integer t.issue) else payload

/-- `dispatch_task`. -/
def dispatchTask (t : HmasTask) (payload : Json) : Prog Unit := do
  let _ ← request (Op.dispatched t)
  let payload := dispatchPayload t payload
  publish (myrmidonSubject t.layer t.id) payload
  publish (meshDispatchSubject "pipeline" (meshRoleName t.layer) t.id) payload

/-- What a call takes from outside: the identifiers its generator returns, and the
reading of the clock. -/
structure Env where
  uuid : ℕ → String
  now : Tm

/-- The time stamp of a call. -/
def Env.ts (env : Env) : String :=
  nowIso8601 env.now

/-- The generator after `n` identifiers. -/
def Env.skip (env : Env) (n : ℕ) : Env :=
  { env with uuid := fun i => env.uuid (n + i) }

/-! ### Delegation -/

/-- `delegate`. -/
def delegate (env : Env) (taskId : String) : Prog Bool := do
  match ← getHmasTask taskId with
  | none => return false
  | some task =>
      let (ok, task) := delegateWalk env.ts task
      if ok then
        let _ ← updateHmasTask task
        publishTaskState task
        dispatchTask task (hmasTaskToJson task)
        return true
      else return false

/-- Whether every blocker is a stored task that is completed; the first one that is not
ends the loop. -/
def allClear : List String → Prog Bool
  | [] => return true
  | blockerId :: rest => do
      match ← getHmasTask blockerId with
      | none => return false
      | some blocker => if blocker.state ≠ .completed then return false else allClear rest

/-- The body of the loop of `delegate_unblocked_children`. -/
def considerChild (env : Env) (childId : String) : Prog Unit := do
  match ← getHmasTask childId with
  | none => return ()
  | some candidate =>
      if candidate.state ≠ .pending then return ()
      else if ← allClear candidate.blockedBy then
        let _ ← delegate env candidate.id
        return ()
      else return ()

/-- `delegate_unblocked_children`. -/
def delegateUnblockedChildren (env : Env) (completedTaskId : String) : Prog Unit := do
  match ← getHmasTask completedTaskId with
  | none => return ()
  | some completed => forEach completed.childTaskIds (considerChild env)

/-! ### Submission -/

/-- `submit` for a brief with an identifier. -/
def submitBrief (env : Env) (brief : TaskBrief) : Prog String := do
  createTaskBrief brief
  let tasks ← ofExcept (decompose env.uuid env.ts brief)
  forEach tasks createHmasTask
  match tasks with
  | [] => return brief.id
  | first :: _ =>
      match ← getHmasTask first.id with
      | none => return brief.id
      | some root =>
          let root := advance env.ts .submit root
          let root := advance env.ts .delegate root
          let _ ← updateHmasTask root
          publishTaskState root
          dispatchTask root ((hmasTaskToJson root).set "brief_id" (.string brief.id))
          publishLog "hi.logs.agamemnon.brief_submitted" "info" ("Brief submitted: " ++ brief.id)
            (.ofMembers [("brief_id", .string brief.id), ("root_task_id", .string root.id),
              ("task_count", .integer tasks.length)])
          return brief.id

/-- `submit`; the identifier of the brief is drawn first, when it is missing. -/
def submit (env : Env) (brief : TaskBrief) : Prog String :=
  if brief.id = "" then submitBrief (env.skip 1) { brief with id := env.uuid 0 }
  else submitBrief env brief

/-! ### Escalation -/

/-- The layer an escalated task goes to. -/
def parentLayer : HmasLayer → HmasLayer
  | .l0ChiefArchitect => .l0ChiefArchitect
  | .l1ComponentLead => .l0ChiefArchitect
  | .l2ModuleLead => .l1ComponentLead
  | .l3TaskAgent => .l2ModuleLead

/-- The record of an escalation. -/
def escalationRecord (env : Env) (taskId reason : String) (layer : HmasLayer) :
    EscalationRecord where
  taskId := taskId
  reason := reason
  escalatedAt := env.ts
  fromLayer := layer

/-- `escalate`. -/
def escalate (env : Env) (taskId reason : String) : Prog Bool := do
  match ← getHmasTask taskId with
  | none => return false
  | some task =>
      let (ok, task) := tryTransition env.ts task .escalate
      if ok then
        let task :=
          { task with
            escalations := task.escalations ++ [escalationRecord env taskId reason task.layer] }
        let _ ← updateHmasTask task
        publishTaskState task
        let payload := (hmasTaskToJson task).set "escalation_reason" (.string reason)
        publish (myrmidonSubject (parentLayer task.layer) task.id) payload
        publish (meshDispatchSubject "pipeline" (meshRoleName (parentLayer task.layer)) task.id)
          payload
        publishLog "hi.logs.agamemnon.task_escalated" "warn" ("Task escalated: " ++ taskId)
          (.ofMembers [("task_id", .string taskId), ("reason", .string reason),
            ("from_layer", .string (hmasLayerToString task.layer))])
        return true
      else return false

/-! ### Messages -/

/-- The task a completion message names: `data.task_id`, or else `task_id`, or else
none. -/
def completionTaskId (msg : Json) : Except Exn String :=
  match (msg.get? "data").bind (·.get? "task_id") with
  | some v => v.getString
  | none =>
      match msg.get? "task_id" with
      | some v => v.getString
      | none => .ok ""

/-- `on_myrmidon_completion` for the task `taskId`. -/
def completeTask (env : Env) (taskId : String) : Prog Unit := do
  match ← getHmasTask taskId with
  | none => markTaskCompleted env.ts taskId
  | some task =>
      let task := completionWalk env.ts task
      let _ ← updateHmasTask task
      publishTaskState task
      delegateUnblockedChildren env taskId
      if task.layer = .l0ChiefArchitect then
        publishLog "hi.logs.agamemnon.brief_completed" "info"
          ("Brief completed: " ++ task.briefId)
          (.ofMembers [("brief_id", .string task.briefId), ("root_task_id", .string taskId)])
      else return ()

/-- Who took a task, and where. -/
def assignedLead (agentId execHost : String) : String :=
  if execHost = "" then agentId else agentId ++ "@" ++ execHost

/-- `on_myrmidon_started` for the task `taskId` that the message `msg` names. -/
def startTask (env : Env) (msg : Json) (taskId : String) : Prog Unit := do
  match ← getHmasTask taskId with
  | none => return ()
  | some task =>
      let task := startedWalk env.ts task
      let agentId ← ofExcept (msg.valueString "agent_id" "")
      let execHost ← ofExcept (msg.valueString "exec_host" "")
      let task :=
        if agentId = "" then task
        else { task with assignedLeadId := assignedLead agentId execHost }
      let _ ← updateHmasTask task
      publishTaskState task
      publishLog "hi.logs.agamemnon.task_started" "info" ("Task started: " ++ taskId)
        (.ofMembers [("task_id", .string taskId), ("agent_id", .string agentId),
          ("exec_host", .string execHost)])

/-- `on_myrmidon_failed` for the task `taskId` that the message `msg` names. -/
def failTask (env : Env) (msg : Json) (taskId : String) : Prog Unit := do
  match ← getHmasTask taskId with
  | none => return ()
  | some task =>
      let task := failedWalk env.ts task
      let _ ← updateHmasTask task
      publishTaskState task
      let error ← ofExcept (msg.valueJson "error" (.object []))
      publishLog "hi.logs.agamemnon.task_failed" "warn" ("Task failed: " ++ taskId)
        (.ofMembers [("task_id", .string taskId), ("error", error)])

/-- The epic of a message, with its repository, its key and its issue. -/
def epicFields (msg : Json) : Except Exn (Json × String × String × ℤ) := do
  let epic ← msg.valueJson "epic" (.object [])
  let repo ← epic.valueString "repo" ""
  let key ← epic.valueString "key" ""
  let issue ← epic.valueInt "issue" 0
  return (epic, repo, key, issue)

/-- The placeholder brief of an epic. -/
def epicBrief (env : Env) (repo key : String) (issue : ℤ) : TaskBrief where
  id := env.uuid 0
  title := "[epic] " ++ key
  description := "Decompose epic " ++ repo ++ "#" ++ toString issue
  repos := []
  modules := ∅
  impls := ∅

/-- The root of the placeholder brief of an epic. -/
def epicRoot (env : Env) (brief : TaskBrief) (repo : String) (issue : ℤ) : HmasTask :=
  { blankTask with
    id := env.uuid 1
    briefId := brief.id
    layer := .l0ChiefArchitect
    state := .pending
    subject := brief.title
    description := brief.description
    repo := repo
    issue := issue
    createdAt := env.ts }

/-- `on_epic_registered` for the epic `epic` of the message `msg`. -/
def registerEpic (env : Env) (msg epic : Json) (repo key : String) (issue : ℤ) :
    Prog String := do
  let brief := epicBrief env repo key issue
  createTaskBrief brief
  let root := epicRoot env brief repo issue
  createHmasTask root
  let root := advance env.ts .submit root
  let _ ← updateHmasTask root
  publishTaskState root
  let teamId ← ofExcept (msg.valueString "team_id" "mesh")
  let dispatch := (hmasTaskToJson root).set "task_id" (.string root.id)
  let dispatch := dispatch.set "team_id" (.string teamId)
  let dispatch := dispatch.set "epic" epic
  let dispatch := dispatch.set "brief_id" (.string brief.id)
  dispatchTask root dispatch
  publishLog "hi.logs.agamemnon.epic_registered" "info" ("Epic registered: " ++ key)
    (.ofMembers [("brief_id", .string brief.id), ("root_task_id", .string root.id),
      ("repo", .string repo), ("issue", .integer issue)])
  return brief.id

section Messages

variable (parse : String → Option Json) (env : Env)

/-- `json::parse`. -/
def parsePayload (payload : String) : Except Exn Json :=
  match parse payload with
  | none => .error .parseError
  | some msg => .ok msg

/-- `on_myrmidon_completion`; exceptions are logged and dropped. -/
def onMyrmidonCompletion (payload : String) : Prog Unit :=
  tryCatch (do
    let msg ← ofExcept (parsePayload parse payload)
    let taskId ← ofExcept (completionTaskId msg)
    if taskId = "" then return () else completeTask env taskId) fun _ => return ()

/-- `on_myrmidon_started`; exceptions are logged and dropped. -/
def onMyrmidonStarted (payload : String) : Prog Unit :=
  tryCatch (do
    let msg ← ofExcept (parsePayload parse payload)
    let taskId ← ofExcept (msg.valueString "task_id" "")
    if taskId = "" then return () else startTask env msg taskId) fun _ => return ()

/-- `on_myrmidon_failed`; exceptions are logged and dropped. -/
def onMyrmidonFailed (payload : String) : Prog Unit :=
  tryCatch (do
    let msg ← ofExcept (parsePayload parse payload)
    let taskId ← ofExcept (msg.valueString "task_id" "")
    if taskId = "" then return () else failTask env msg taskId) fun _ => return ()

/-- `on_epic_registered`; exceptions are logged, and the answer is empty. -/
def onEpicRegistered (payload : String) : Prog String :=
  tryCatch (do
    let msg ← ofExcept (parsePayload parse payload)
    let (epic, repo, key, issue) ← ofExcept (epicFields msg)
    if repo = "" ∨ key = "" ∨ issue = 0 then return ""
    else registerEpic env msg epic repo key issue) fun _ => return ""

end Messages

/-! ### Splitting -/

/-- The description of a remainder, with its base branch. -/
def splitDescription (description baseBranch : String) : String :=
  if baseBranch = "" then description
  else description ++ (if description = "" then "" else "\n") ++ "Base branch: " ++ baseBranch

/-- The blockers a caller lists for a remainder; entries that are not strings are
skipped. -/
def callerBlockers (sub : Json) : List String :=
  match sub.get? "blocked_by" with
  | some (.array bs) => bs.filterMap fun
      | .string s => some s
      | _ => none
  | _ => []

/-- The remainder made from one entry of a split of `original`. -/
def remainder (ts : String) (original : HmasTask) (id prevId : String) (sub : Json) :
    Except Exn HmasTask := do
  let issue ← sub.valueInt "issue" 0
  let title ← sub.valueString "title" ""
  let description ← sub.valueString "description" ""
  let baseBranch ← sub.valueString "base_branch" ""
  return { blankTask with
    id := id
    briefId := original.briefId
    parentTaskId := original.parentTaskId
    layer := original.layer
    state := .pending
    repo := original.repo
    module := original.module
    issue := issue
    subject := title
    description := splitDescription description baseBranch
    createdAt := ts
    blockedBy := [original.id] ++ (if prevId = "" then [] else [prevId]) ++ callerBlockers sub }

/-- The answer to a rejected request. -/
def errorReply (message : String) : Json :=
  .ofMembers [("error", .string message)]

/-- The loop of `split_task`; the identifiers made so far are `created`.  The answer is an
error as soon as an entry is rejected. -/
def splitLoop (env : Env) (original : HmasTask) :
    List Json → List String → Prog (Except Json (List String))
  | [], created => return .ok created
  | sub :: rest, created => do
      let title ← ofExcept
        (if sub.isObject then sub.valueString "title" "" else .ok "")
      if title = "" then
        return .error (errorReply "each subtask needs a non-empty 'title'")
      else
        let child ← ofExcept
          (remainder env.ts original (env.uuid created.length) (created.getLast?.getD "") sub)
        createHmasTask child
        splitLoop env original rest (created ++ [child.id])

/-- `split_task`. -/
def splitTask (env : Env) (taskId : String) (subtasks : Json) : Prog Json := do
  match ← getHmasTask taskId with
  | none => return errorReply "task not found"
  | some original =>
      match subtasks with
      | .array (sub :: rest) =>
          match ← splitLoop env original (sub :: rest) [] with
          | .error reply => return reply
          | .ok created =>
              let _ ← updateHmasTask
                { original with childTaskIds := original.childTaskIds ++ created }
              publishLog "hi.logs.agamemnon.task_split" "info" ("Task split: " ++ taskId)
                (.ofMembers [("task_id", .string taskId), ("created", .ofStrings created)])
              return .ofMembers [("task_id", .string taskId), ("created", .ofStrings created)]
      | _ => return errorReply "subtasks must be a non-empty array"

/-! ### Calls -/

/-- A call of the orchestrator with its arguments. -/
inductive Call where
  | submit (brief : TaskBrief)
  | onEpicRegistered (payload : String)
  | onMyrmidonStarted (payload : String)
  | onMyrmidonCompletion (payload : String)
  | onMyrmidonFailed (payload : String)
  | escalate (taskId reason : String)
  | splitTask (taskId : String) (subtasks : Json)

/-- What a call returns. -/
inductive Reply where
  | none
  | text (s : String)
  | flag (b : Bool)
  | value (j : Json)

/-- The program of a call. -/
def Call.program (parse : String → Option Json) (env : Env) : Call → Prog Reply
  | .submit brief => do return .text (← Orchestrator.submit env brief)
  | .onEpicRegistered payload => do
      return .text (← Orchestrator.onEpicRegistered parse env payload)
  | .onMyrmidonStarted payload => do
      Orchestrator.onMyrmidonStarted parse env payload
      return .none
  | .onMyrmidonCompletion payload => do
      Orchestrator.onMyrmidonCompletion parse env payload
      return .none
  | .onMyrmidonFailed payload => do
      Orchestrator.onMyrmidonFailed parse env payload
      return .none
  | .escalate taskId reason => do return .flag (← Orchestrator.escalate env taskId reason)
  | .splitTask taskId subtasks => do
      return .value (← Orchestrator.splitTask env taskId subtasks)

end Orchestrator

end Agamemnon
