import Agamemnon.Store.Github

/-!
# The operations of the store

The operations that change the collections, with a GitHub client configured: each of them
changes the map in memory and writes the issue behind the entity.  An exception leaves what
was changed before it.
-/

namespace Agamemnon

/-! ### The store and its backend -/

/-- `Collection`: the collections of JSON entities. -/
inductive Collection where
  | agents
  | teams
  | tasks
  | faults
deriving DecidableEq, Repr

namespace Collection

/-- The label of the issues. -/
def label : Collection → String
  | agents => "agamemnon-agent"
  | teams => "agamemnon-team"
  | tasks => "agamemnon-task"
  | faults => "agamemnon-fault"

/-- The type of an entity in the body of its issue. -/
def entityType (id : String) : Collection → String
  | agents => "agents/" ++ id
  | teams => "teams/" ++ id
  | tasks => "tasks/" ++ id
  | faults => "faults/" ++ id

end Collection

namespace Memory

/-- The entities of a collection. -/
def entities (m : Memory) : Collection → StringMap Json
  | .agents => m.agents
  | .teams => m.teams
  | .tasks => m.tasks
  | .faults => m.faults

/-- Replace the entities of a collection. -/
def setEntities (m : Memory) (c : Collection) (es : StringMap Json) : Memory :=
  match c with
  | .agents => { m with agents := es }
  | .teams => { m with teams := es }
  | .tasks => { m with tasks := es }
  | .faults => { m with faults := es }

end Memory

/-- A store, and the issues behind it. -/
structure Deployment where
  memory : Memory
  hmasTaskIssueNumbers : StringMap String
  briefIssueNumbers : StringMap String
  github : Github

/-- What an operation takes from outside: the identifier it draws, the number the backend gives
a new issue, and the readings of the clock. -/
structure StoreEnv where
  uuid : String
  number : ℕ
  now : ℕ → Tm

/-- A time stamp. -/
def StoreEnv.ts (env : StoreEnv) (i : ℕ) : String :=
  nowIso8601 (env.now i)

namespace Deployment

/-- Nothing stored, and no issue. -/
def empty : Deployment where
  memory := Memory.empty
  hmasTaskIssueNumbers := ∅
  briefIssueNumbers := ∅
  github := ∅

/-- Put an entity into a collection. -/
def put (d : Deployment) (c : Collection) (id : String) (entity : Json) : Deployment :=
  { d with memory := d.memory.setEntities c ((d.memory.entities c).insert id entity) }

/-- Erase an entity from a collection. -/
def erase (d : Deployment) (c : Collection) (id : String) : Deployment :=
  { d with memory := d.memory.setEntities c ((d.memory.entities c).erase id) }

variable (dump : Json → String) (env : StoreEnv)

/-- Make an issue for a new entity, and store the entity with the number of the issue. -/
def createEntity (d : Deployment) (c : Collection) (title : String) (entity : Json) :
    Json × Deployment :=
  let (number, github) := d.github.createIssue env.number title
    (makeIssueBody dump (c.entityType env.uuid) entity) c.label
  let entity := if number = "" then entity else entity.set "_github_issue" (.string number)
  (entity, { d.put c env.uuid entity with github })

/-- Store a changed entity, and write it to its issue. -/
def writeEntity (d : Deployment) (c : Collection) (id : String) (entity : Json) :
    Except Exn Unit × Deployment :=
  let d := d.put c id entity
  match entity.get? "_github_issue" with
  | none => (.ok (), d)
  | some v =>
      match v.getString with
      | .error e => (.error e, d)
      | .ok number =>
          (.ok (), { d with
            github := d.github.updateIssueBody number
              (makeIssueBody dump (c.entityType id) entity) })

/-- Close the issue of an entity, and erase the entity. -/
def removeEntity (d : Deployment) (c : Collection) (id : String) : Except Exn Bool × Deployment :=
  match (d.memory.entities c).lookup id with
  | none => (.ok false, d)
  | some entity =>
      match entity.get? "_github_issue" with
      | none => (.ok true, d.erase c id)
      | some v =>
          match v.getString with
          | .error e => (.error e, d)
          | .ok number =>
              (.ok true, { d.erase c id with github := d.github.closeIssue number })

/-- Change an entity with `f`, and write it to its issue; the answer is made from the changed
entity. -/
def updateEntity (d : Deployment) (c : Collection) (id : String) (f : Json → Json)
    (reply : Json → Json) : Except Exn Json × Deployment :=
  match (d.memory.entities c).lookup id with
  | none => (.ok .null, d)
  | some entity =>
      let (outcome, d) := d.writeEntity dump c id (f entity)
      (outcome.map fun _ => reply (f entity), d)

end Deployment

/-! ### New entities -/

variable (env : StoreEnv)

/-- The title of the issue and the entity of `create_agent`. -/
def newAgent (body : Json) : Except Exn (String × Json) := do
  let name ← body.valueString "name" "unnamed"
  let label ← body.valueString "label" ""
  let program ← body.valueString "program" ""
  let workingDirectory ← body.valueString "workingDirectory" ""
  let programArgs ← body.valueJson "programArgs" (.array [])
  let taskDescription ← body.valueString "taskDescription" ""
  let tags ← body.valueJson "tags" (.array [])
  let owner ← body.valueString "owner" ""
  let role ← body.valueString "role" "worker"
  let host ← body.valueString "host" "local"
  return ("agent: " ++ name, .ofMembers
    [("id", .string env.uuid), ("name", .string name), ("label", .string label),
     ("program", .string program), ("workingDirectory", .string workingDirectory),
     ("programArgs", programArgs), ("taskDescription", .string taskDescription), ("tags", tags),
     ("owner", .string owner), ("role", .string role), ("host", .string host),
     ("status", .string "offline"), ("createdAt", .string (env.ts 0)),
     ("updatedAt", .string (env.ts 0))])

/-- The members of a new team, under either of two names. -/
def teamAgentIds (body : Json) : Except Exn Json :=
  match body.get? "agent_ids" with
  | some v => .ok v
  | none => body.valueJson "agentIds" (.array [])

/-- The title of the issue and the entity of `create_team`. -/
def newTeam (body : Json) : Except Exn (String × Json) := do
  let name ← body.valueString "name" "unnamed-team"
  let agentIds ← teamAgentIds body
  return ("team: " ++ name, .ofMembers
    [("id", .string env.uuid), ("name", .string name), ("agentIds", agentIds),
     ("createdAt", .string (env.ts 0)), ("updatedAt", .string (env.ts 0))])

/-- The title of the issue and the entity of `create_task`. -/
def newTask (teamId : String) (body : Json) : Except Exn (String × Json) := do
  let subject ← body.valueString "subject" ""
  let description ← body.valueString "description" ""
  let assigneeAgentId ← body.valueString "assigneeAgentId" ""
  let blockedBy ← body.valueJson "blockedBy" (.array [])
  let type ← body.valueString "type" "general"
  return ("task: " ++ (if subject = "" then env.uuid else subject), .ofMembers
    [("id", .string env.uuid), ("teamId", .string teamId), ("subject", .string subject),
     ("description", .string description), ("assigneeAgentId", .string assigneeAgentId),
     ("blockedBy", blockedBy), ("type", .string type), ("status", .string "pending"),
     ("createdAt", .string (env.ts 0)), ("updatedAt", .string (env.ts 0)),
     ("completedAt", .null)])

/-- The title of the issue and the entity of `create_fault`. -/
def newFault (type : String) : String × Json :=
  ("fault: " ++ type, .ofMembers
    [("id", .string env.uuid), ("type", .string type), ("active", .boolean true),
     ("createdAt", .string (env.ts 0)), ("updatedAt", .string (env.ts 0))])

/-! ### Changed entities -/

/-- Assign the members of `fields` to an entity, except those in `kept`. -/
def assignFields (kept : List String) (fields entity : Json) : Json :=
  match fields with
  | .object ms => ms.foldl (fun e m => if m.1 ∈ kept then e else e.set m.1 m.2) entity
  | _ => entity

/-- The change of `update_agent`. -/
def changedAgent (fields agent : Json) : Json :=
  (assignFields ["id", "createdAt", "_github_issue", "updatedAt"] fields agent).set "updatedAt"
    (.string (env.ts 0))

/-- The members of a team that `update_team` assigns. -/
def changedAgentIds (body team : Json) : Json :=
  match body.get? "agentIds" with
  | some v => team.set "agentIds" v
  | none =>
      match body.get? "agent_ids" with
      | some v => team.set "agentIds" v
      | none => team

/-- The change of `update_team`. -/
def changedTeam (body team : Json) : Json :=
  let team := changedAgentIds body team
  let team := match body.get? "name" with
    | some v => team.set "name" v
    | none => team
  team.set "updatedAt" (.string (env.ts 0))

/-- The value is the string `s`. -/
def Json.isString (s : String) : Json → Bool
  | .string s' => s' = s
  | _ => false

/-- The change of `update_task`: the time of completion is set when the status becomes completed
and there is none. -/
def changedTask (body task : Json) : Json :=
  let task := assignFields ["id", "teamId", "createdAt", "_github_issue", "updatedAt"] body task
  let task :=
    if ((body.get? "status").any (·.isString "completed")
        && ((task.get? "completedAt").getD .null).isNull) = true then
      task.set "completedAt" (.string (env.ts 0))
    else task
  task.set "updatedAt" (.string (env.ts 1))

/-- The change of `mark_task_completed`. -/
def completedTask (task : Json) : Json :=
  (task.set "status" (.string "completed")).set "completedAt" (.string (env.ts 0))

/-! ### Operations -/

namespace Deployment

variable (dump : Json → String) (env : StoreEnv) (d : Deployment)

/-- `create_agent`. -/
def createAgent (body : Json) : Except Exn Json × Deployment :=
  match newAgent env body with
  | .error e => (.error e, d)
  | .ok (title, agent) =>
      let (agent, d) := d.createEntity dump env .agents title agent
      (.ok (.ofMembers [("id", .string env.uuid), ("agent", agent)]), d)

/-- `update_agent`. -/
def updateAgent (id : String) (fields : Json) : Except Exn Json × Deployment :=
  if fields.isObject = false then (.ok .null, d)
  else d.updateEntity dump .agents id (changedAgent env fields) fun agent => agent

/-- `start_agent`. -/
def startAgent (id : String) : Except Exn Json × Deployment :=
  d.updateEntity dump .agents id (·.set "status" (.string "online")) fun _ =>
    .ofMembers [("status", .string "online"), ("id", .string id)]

/-- `stop_agent`. -/
def stopAgent (id : String) : Except Exn Json × Deployment :=
  d.updateEntity dump .agents id (·.set "status" (.string "offline")) fun _ =>
    .ofMembers [("status", .string "offline"), ("id", .string id)]

/-- `delete_agent`. -/
def deleteAgent (id : String) : Except Exn Bool × Deployment :=
  d.removeEntity .agents id

/-- `create_team`. -/
def createTeam (body : Json) : Except Exn Json × Deployment :=
  match newTeam env body with
  | .error e => (.error e, d)
  | .ok (title, team) =>
      let (team, d) := d.createEntity dump env .teams title team
      (.ok (.ofMembers [("team", team)]), d)

/-- `update_team`. -/
def updateTeam (id : String) (body : Json) : Except Exn Json × Deployment :=
  d.updateEntity dump .teams id (changedTeam env body) fun team => team

/-- `delete_team`. -/
def deleteTeam (id : String) : Except Exn Bool × Deployment :=
  d.removeEntity .teams id

/-- `create_task`. -/
def createTask (teamId : String) (body : Json) : Except Exn Json × Deployment :=
  match newTask env teamId body with
  | .error e => (.error e, d)
  | .ok (title, task) =>
      let (task, d) := d.createEntity dump env .tasks title task
      (.ok (.ofMembers [("task", task)]), d)

/-- `update_task`. -/
def updateTask (teamId taskId : String) (body : Json) : Except Exn Json × Deployment :=
  if body.isObject = false ∨ teamId = "" then (.ok .null, d)
  else
    match d.memory.tasks.lookup taskId with
    | none => (.ok .null, d)
    | some task =>
        match task.valueString "teamId" "" with
        | .error e => (.error e, d)
        | .ok owner =>
            if owner ≠ teamId then (.ok .null, d)
            else d.updateEntity dump .tasks taskId (changedTask env body) fun task => task

/-- `mark_task_completed`. -/
def markTaskCompleted (taskId : String) : Except Exn Unit × Deployment :=
  match d.memory.tasks.lookup taskId with
  | none => (.ok (), d)
  | some task =>
      match task.valueString "status" "pending" with
      | .error e => (.error e, d)
      | .ok _ => d.writeEntity dump .tasks taskId (completedTask env task)

/-- `create_fault`. -/
def createFault (type : String) : Json × Deployment :=
  let (title, fault) := newFault env type
  let (fault, d) := d.createEntity dump env .faults title fault
  (.ofMembers [("fault", fault)], d)

/-- `remove_fault`. -/
def removeFault (id : String) : Except Exn Bool × Deployment :=
  d.removeEntity .faults id

/-- `create_hmas_task`. -/
def createHmasTask (t : HmasTask) : Deployment :=
  let (number, github) := d.github.createIssue env.number ("hmas-task: " ++ t.id)
    (makeIssueBody dump ("hmas-tasks/" ++ t.id) (hmasTaskToJson t)) "agamemnon-hmas-task"
  { d with
    memory := d.memory.createHmasTask t
    hmasTaskIssueNumbers :=
      if number = "" then d.hmasTaskIssueNumbers else d.hmasTaskIssueNumbers.insert t.id number
    github }

/-- `update_hmas_task`. -/
def updateHmasTask (t : HmasTask) : Bool × Deployment :=
  let (ok, memory) := d.memory.updateHmasTask t
  if ok = false then (false, d)
  else
    match d.hmasTaskIssueNumbers.lookup t.id with
    | none => (true, { d with memory })
    | some number =>
        (true, { d with
          memory
          github := d.github.updateIssueBody number
            (makeIssueBody dump ("hmas-tasks/" ++ t.id) (hmasTaskToJson t)) })

/-- Change a stored task with `f`, and write it to its issue. -/
def rewriteHmasTask (id : String) (f : HmasTask → HmasTask) : Bool × Deployment :=
  match d.memory.hmasTasks.lookup id with
  | none => (false, d)
  | some t =>
      let memory := { d.memory with hmasTasks := d.memory.hmasTasks.insert id (f t) }
      match d.hmasTaskIssueNumbers.lookup id with
      | none => (true, { d with memory })
      | some number =>
          (true, { d with
            memory
            github := d.github.updateIssueBody number
              (makeIssueBody dump ("hmas-tasks/" ++ id) (hmasTaskToJson (f t))) })

/-- `update_hmas_task_state`. -/
def updateHmasTaskState (id : String) (state : TaskState) : Bool × Deployment :=
  d.rewriteHmasTask dump id fun t => { t with state }

/-- `update_hmas_task_state_and_record_escalation`. -/
def updateHmasTaskStateAndRecordEscalation (id : String) (newState : TaskState)
    (escalation : EscalationRecord) : Bool × Deployment :=
  d.rewriteHmasTask dump id fun t =>
    { t with state := newState, escalations := t.escalations ++ [escalation] }

/-- The first 80 characters of a title. -/
def truncatedTitle (title : String) : String :=
  String.ofList (title.toList.take 80)

/-- `create_task_brief`. -/
def createTaskBrief (b : TaskBrief) : Deployment :=
  let (number, github) := d.github.createIssue env.number ("brief: " ++ truncatedTitle b.title)
    (makeIssueBody dump ("briefs/" ++ b.id) (taskBriefToJson b)) "agamemnon-brief"
  { d with
    memory := d.memory.createTaskBrief b
    briefIssueNumbers :=
      if number = "" then d.briefIssueNumbers else d.briefIssueNumbers.insert b.id number
    github }

/-! ### Titles of briefs -/

/-- How far the loop of `create_task_brief` goes on from a lead byte. -/
def advance (c : UInt8) : ℕ :=
  if c < 0x80 then 1 else if c < 0xC0 then 1 else if c < 0xE0 then 2 else if c < 0xF0 then 3 else 4

/-- The loop of `create_task_brief`, with the number of code points that may still follow. -/
def truncate : ℕ → List UInt8 → List UInt8
  | 0, _ => []
  | _ + 1, [] => []
  | n + 1, c :: bytes =>
      if (c :: bytes).length < advance c then []
      else (c :: bytes).take (advance c) ++ truncate n ((c :: bytes).drop (advance c))

/-- The lead byte of a character tells its length. -/
theorem exists_utf8EncodeChar_eq (c : Char) :
  ∃ b bytes, String.utf8EncodeChar c = b :: bytes ∧ advance b = (b :: bytes).length
  := by
  have hlead (n : ℕ) {k : UInt8} : UInt8.ofNat n < k ↔ n % 256 < k.toNat := by
    rw [UInt8.lt_iff_toNat_lt, UInt8.toNat_ofNat']
  unfold String.utf8EncodeChar
  dsimp only
  split_ifs
  all_goals
    refine ⟨_, _, rfl, ?_⟩
    simp only [advance, hlead, List.length_cons, List.length_nil, UInt8.reduceToNat]
    split_ifs <;> omega

/-- The loop stands on the start of a character, as long as it has not taken `n` of them. -/
theorem truncate_flatMap :
  ∀ (n : ℕ) (cs : List Char),
    truncate n (cs.flatMap String.utf8EncodeChar) = (cs.take n).flatMap String.utf8EncodeChar
  | 0, _ => rfl
  | _ + 1, [] => rfl
  | n + 1, c :: cs => by
      obtain ⟨b, bytes, hc, hlead⟩ := exists_utf8EncodeChar_eq c
      have hlength : ¬ (b :: (bytes ++ cs.flatMap String.utf8EncodeChar)).length
          < (b :: bytes).length := by
        simp
      rw [List.take_succ_cons, List.flatMap_cons, List.flatMap_cons, hc, List.cons_append, truncate,
        hlead, if_neg hlength, ← List.cons_append, List.take_left, List.drop_left,
        truncate_flatMap n cs]

/-- The bytes of a text. -/
def bytesOf (text : String) : List UInt8 :=
  text.toByteArray.data.toList

theorem bytesOf_ofList (cs : List Char) :
  bytesOf (String.ofList cs) = cs.flatMap String.utf8EncodeChar
  := by
  rw [bytesOf, String.toByteArray_ofList, List.utf8Encode, List.toList_data_toByteArray]

/-- The title that the loop leaves of any title in UTF-8 consists of its first 80 characters. -/
theorem truncate_bytesOf (title : String) :
  bytesOf "brief: " ++ truncate 80 (bytesOf title) = bytesOf ("brief: " ++ truncatedTitle title)
    ∧ (truncatedTitle title).toList = title.toList.take (min 80 title.toList.length)
  := by
  constructor
  · have hloop : truncate 80 (bytesOf title) = bytesOf (truncatedTitle title) := by
      rw [truncatedTitle, bytesOf_ofList, ← truncate_flatMap, ← bytesOf_ofList,
        String.ofList_toList]
    rw [hloop, bytesOf, bytesOf, bytesOf, String.toByteArray_append, ByteArray.data_append,
      Array.toList_append]
  · rw [truncatedTitle, String.toList_ofList, ← List.take_take, List.take_length]

end Deployment

end Agamemnon
