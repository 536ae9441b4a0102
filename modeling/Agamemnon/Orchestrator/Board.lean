import Agamemnon.Orchestrator.Calls

/-!
# The board

Of the world a call runs in, the orchestrator depends on the stored tasks only.  A board
holds these, together with the plain tasks and the tasks dispatched so far.  On a board
the calls are functions, written without programs: `exec_completeTask` and its siblings
say that the programs compute them.
-/

namespace Agamemnon

open Program Orchestrator

/-- What the calls of the orchestrator depend on, and what they dispatch. -/
@[ext]
structure Board where
  tasks : StringMap HmasTask
  plain : StringMap Json
  dispatched : List Dispatch

/-- The board of a world. -/
def World.board (w : World) : Board where
  tasks := w.store.hmasTasks
  plain := w.store.tasks
  dispatched := w.dispatched

namespace Board

/-- No task at all. -/
def empty : Board where
  tasks := ∅
  plain := ∅
  dispatched := []

/-- The stored task. -/
def lookup (b : Board) (id : String) : Option HmasTask :=
  b.tasks.lookup id

/-- Store a task under its identifier. -/
def put (b : Board) (t : HmasTask) : Board :=
  { b with tasks := b.tasks.insert t.id t }

/-- Record a dispatch. -/
def dispatch (b : Board) (t : HmasTask) : Board :=
  { b with dispatched := b.dispatched ++ [⟨t, b.tasks⟩] }

/-- What the operations do to the board. -/
def handle : Handler Op Op.Res Board
  | b, .getHmasTask id => (b.lookup id, b)
  | b, .updateHmasTask t =>
      if (b.lookup t.id).isSome then (true, b.put t) else (false, b)
  | b, .createHmasTask t => ((), b.put t)
  | b, .createTaskBrief _ => ((), b)
  | b, .markTaskCompleted now id =>
      match Memory.markCompleted now id b.plain with
      | .ok plain => (.ok (), { b with plain })
      | .error e => (.error e, b)
  | b, .dispatched t => ((), b.dispatch t)
  | b, .publish _ _ => ((), b)
  | b, .publishLog _ _ _ _ => ((), b)

end Board

theorem map_board_handle (w : World) (op : Op) :
  Prod.map id World.board (World.handle w op) = Board.handle w.board op
  := by
  cases op with
  | updateHmasTask t =>
    cases hold : w.store.hmasTasks.lookup t.id with
    | none | some old =>
      simp only [World.handle, Board.handle, Memory.updateHmasTask, Board.lookup, World.board,
        hold]
      rfl
  | markTaskCompleted now id =>
    cases hmark : Memory.markCompleted now id w.store.tasks with
    | error e | ok plain =>
      simp only [World.handle, Board.handle, Memory.markTaskCompleted, World.board, hmark]
      rfl
  | _ => rfl

/-- The board of a world changes as the world does. -/
theorem board_hom :
  HandlerHom World.handle Board.handle World.board
  where
  answer := fun w op => congrArg Prod.fst (map_board_handle w op)
  effect := fun w op => congrArg Prod.snd (map_board_handle w op)

namespace Board

/-! ### Looking up -/

@[simp]
theorem lookup_put_self (b : Board) (t : HmasTask) :
  (b.put t).lookup t.id = some t
  := Finmap.lookup_insert _

variable {t : HmasTask} {id : String}

theorem lookup_put_of_eq (b : Board) (h : t.id = id) :
  (b.put t).lookup id = some t
  := h ▸ lookup_put_self b t

theorem lookup_put_of_ne (b : Board) (h : id ≠ t.id) :
  (b.put t).lookup id = b.lookup id
  := Finmap.lookup_insert_of_ne _ h

theorem lookup_put (b : Board) (t : HmasTask) (id : String) :
  (b.put t).lookup id = if id = t.id then some t else b.lookup id
  := by
  split
  · subst id
    apply lookup_put_self
  · rename_i h
    apply lookup_put_of_ne b h

/-- The later of two tasks with one identifier is stored. -/
theorem put_put (b : Board) {t' : HmasTask} (h : t.id = t'.id) :
  (b.put t).put t' = b.put t'
  := by
  ext
  · simp [put, h, Finmap.insert_insert]
  · rfl
  · rfl

@[simp]
theorem lookup_dispatch (b : Board) (t : HmasTask) (id : String) :
  (b.dispatch t).lookup id = b.lookup id
  := rfl

@[simp]
theorem dispatched_put (b : Board) (t : HmasTask) :
  (b.put t).dispatched = b.dispatched
  := rfl

/-- Every task is stored under its identifier. -/
def Keyed (b : Board) : Prop :=
  ∀ ⦃id : String⦄ ⦃t : HmasTask⦄, b.lookup id = some t → t.id = id

variable {b : Board}

theorem Keyed.put (hb : b.Keyed) (t : HmasTask) :
  (b.put t).Keyed
  := by
  intro id u h
  rw [lookup_put] at h
  split at h
  · rename_i hid
    obtain rfl := Option.some.inj h
    apply hid.symm
  · apply hb h

theorem Keyed.dispatch (hb : b.Keyed) (t : HmasTask) :
  (b.dispatch t).Keyed
  := hb

/-! ### The calls as functions -/

/-- The remainders a split makes, and how its loop ends. -/
def splitPlan (env : Orchestrator.Env) (original : HmasTask) :
    List Json → List String → List HmasTask × Except Exn (Except Json (List String))
  | [], created => ([], .ok (.ok created))
  | sub :: rest, created =>
      match (if sub.isObject then sub.valueString "title" "" else .ok "") with
      | .error e => ([], .error e)
      | .ok title =>
          if title = "" then
            ([], .ok (.error (errorReply "each subtask needs a non-empty 'title'")))
          else
            match remainder env.ts original (env.uuid created.length)
                (created.getLast?.getD "") sub with
            | .error e => ([], .error e)
            | .ok child =>
                let (children, outcome) := splitPlan env original rest (created ++ [child.id])
                (child :: children, outcome)

/-- The task is stored and completed. -/
def isCompleted (b : Board) (id : String) : Bool :=
  match b.lookup id with
  | none => false
  | some t => t.state = .completed

theorem isCompleted_of_lookup (h : b.lookup id = some t) :
  b.isCompleted id = decide (t.state = .completed)
  := by
  rw [isCompleted, h]

/-- Every blocker of the task is completed. -/
def clear (b : Board) (t : HmasTask) : Bool :=
  t.blockedBy.all b.isCompleted

/-- Store a task and dispatch it. -/
def send (b : Board) (t : HmasTask) : Board :=
  (b.put t).dispatch t

theorem lookup_send_of_ne (b : Board) (h : id ≠ t.id) :
  (b.send t).lookup id = b.lookup id
  := lookup_put_of_ne b h

/-- Delegate a child if it is pending and no longer blocked. -/
def consider (b : Board) (childId : String) : Board :=
  match b.lookup childId with
  | none => b
  | some t =>
      if t.state = .pending ∧ b.clear t then b.send (t.withState .delegated) else b

/-- Complete a plain task; an exception leaves it as it was. -/
def completePlain (b : Board) (ts id : String) : Board :=
  match Memory.markCompleted ts id b.plain with
  | .ok plain => { b with plain }
  | .error _ => b

/-- Complete a task and consider its children; a task that is not stored may be a plain
one. -/
def complete (b : Board) (ts id : String) : Board :=
  match b.lookup id with
  | none => b.completePlain ts id
  | some t =>
      (completionWalk ts t).childTaskIds.foldl consider (b.put (completionWalk ts t))

/-- A task as a start message leaves it; reading who took it may throw. -/
def startedTask (ts : String) (msg : Json) (t : HmasTask) : Except Exn HmasTask := do
  let agentId ← msg.valueString "agent_id" ""
  let execHost ← msg.valueString "exec_host" ""
  return if agentId = "" then startedWalk ts t
    else { startedWalk ts t with assignedLeadId := assignedLead agentId execHost }

/-- Start a task; an exception leaves it as it was. -/
def start (b : Board) (ts : String) (msg : Json) (id : String) : Board :=
  match b.lookup id with
  | none => b
  | some t =>
      match startedTask ts msg t with
      | .ok t' => b.put t'
      | .error _ => b

/-- Fail a task. -/
def fail (b : Board) (ts id : String) : Board :=
  match b.lookup id with
  | none => b
  | some t => b.put (failedWalk ts t)

/-- The task is stored and in progress. -/
def inProgress (b : Board) (id : String) : Bool :=
  match b.lookup id with
  | none => false
  | some t => t.state = .inProgress

/-- A task with one more escalation. -/
def escalatedTask (t : HmasTask) (r : EscalationRecord) : HmasTask :=
  { t.withState .escalated with escalations := t.escalations ++ [r] }

/-- Escalate a task that is in progress. -/
def escalate (b : Board) (env : Orchestrator.Env) (id reason : String) : Board :=
  match b.lookup id with
  | none => b
  | some t =>
      if t.state = .inProgress then
        b.put (escalatedTask t (escalationRecord env id reason t.layer))
      else b

/-- Store tasks in turn. -/
def putAll (b : Board) (ts : List HmasTask) : Board :=
  ts.foldl put b

/-- Store the remainders of a split, and, if all entries were accepted, the original. -/
def split (b : Board) (env : Orchestrator.Env) (id : String) (subtasks : Json) : Board :=
  match b.lookup id, subtasks with
  | some original, .array (sub :: rest) =>
      let (children, outcome) := splitPlan env original (sub :: rest) []
      match outcome with
      | .ok (.ok created) =>
          (b.putAll children).put
            { original with childTaskIds := original.childTaskIds ++ created }
      | _ => b.putAll children
  | _, _ => b

/-- Store the tasks of a brief and send its root. -/
def submit (b : Board) (env : Orchestrator.Env) (brief : TaskBrief) : Board :=
  match decompose env.uuid env.ts brief with
  | .ok (first :: rest) =>
      let b := b.putAll (first :: rest)
      match b.lookup first.id with
      | none => b
      | some root => b.send (advance env.ts .delegate (advance env.ts .submit root))
  | _ => b

/-- Store the root of an epic, and dispatch it unless the team cannot be read. -/
def register (b : Board) (env : Orchestrator.Env) (msg : Json) (root : HmasTask) : Board :=
  let b := (b.put root).put (advance env.ts .submit root)
  match msg.valueString "team_id" "mesh" with
  | .ok _ => b.dispatch (advance env.ts .submit root)
  | .error _ => b

/-! ### Storing several tasks -/

theorem lookup_putAll_of_not_mem :
  ∀ (ts : List HmasTask) {b : Board}, id ∉ ts.map (·.id) → (b.putAll ts).lookup id = b.lookup id
  | [], _, _ => rfl
  | t :: ts, b, h => by
      rw [List.map_cons, List.mem_cons, not_or] at h
      apply (lookup_putAll_of_not_mem ts h.2).trans
      apply lookup_put_of_ne b h.1

/-- Tasks with distinct identifiers are all stored. -/
theorem lookup_putAll_of_mem :
  ∀ {ts : List HmasTask} {b : Board}, (ts.map (·.id)).Nodup → t ∈ ts →
    (b.putAll ts).lookup t.id = some t
  | u :: ts, b, hnodup, ht => by
      obtain ⟨hu, hnodup⟩ := List.nodup_cons.mp hnodup
      rcases List.mem_cons.mp ht with rfl | ht
      · apply (lookup_putAll_of_not_mem ts hu).trans
        apply lookup_put_self
      · apply lookup_putAll_of_mem hnodup ht

/-- What is stored stays stored. -/
theorem isSome_lookup_putAll :
  ∀ (ts : List HmasTask) {b : Board}, (b.lookup id).isSome → ((b.putAll ts).lookup id).isSome
  | [], _, h => h
  | t :: ts, b, h => by
      apply isSome_lookup_putAll ts
      rw [lookup_put]
      split
      · rfl
      · apply h

@[simp]
theorem dispatched_putAll :
  ∀ (ts : List HmasTask) (b : Board), (b.putAll ts).dispatched = b.dispatched
  | [], _ => rfl
  | t :: ts, b => dispatched_putAll ts (b.put t)

theorem Keyed.putAll {b : Board} (hb : b.Keyed) :
  ∀ ts : List HmasTask, (b.putAll ts).Keyed
  | [] => hb
  | t :: ts => (hb.put t).putAll ts

theorem Keyed.consider (hb : b.Keyed) (id : String) :
  (b.consider id).Keyed
  := by
  rw [Board.consider]
  split
  · apply hb
  · split
    · apply (hb.put _).dispatch
    · apply hb

end Board

/-! ### What a message says -/

section Messages

variable (parse : String → Option Json) (payload : String)

/-- The task a completion message names, if it can be read and names one. -/
def completionTarget : Option String :=
  match parsePayload parse payload >>= completionTaskId with
  | .ok id => if id = "" then none else some id
  | .error _ => none

/-- A start or failure message and the task it names, if it can be read and names one. -/
def messageTarget : Option (Json × String) :=
  match parsePayload parse payload with
  | .error _ => none
  | .ok msg =>
      match msg.valueString "task_id" "" with
      | .ok id => if id = "" then none else some (msg, id)
      | .error _ => none

variable {parse payload}

/-- A message that names no task is dropped, and so are the exceptions of what it starts. -/
theorem message_eq (body : Json → String → Prog Unit) :
  Program.tryCatch (do
      let msg ← Program.ofExcept (parsePayload parse payload)
      let taskId ← Program.ofExcept (msg.valueString "task_id" "")
      if taskId = "" then return () else body msg taskId) (fun _ => return ())
    = match messageTarget parse payload with
      | none => return ()
      | some (msg, id) => (body msg id).tryCatch fun _ => return ()
  := by
  rw [messageTarget]
  cases parsePayload parse payload with
  | error e => rfl
  | ok msg =>
    simp only [Program.ok_bind]
    cases msg.valueString "task_id" "" with
    | error e => rfl
    | ok id =>
      simp only [Program.ok_bind]
      split <;> rfl

theorem completion_eq (body : String → Prog Unit) :
  Program.tryCatch (do
      let msg ← Program.ofExcept (parsePayload parse payload)
      let taskId ← Program.ofExcept (completionTaskId msg)
      if taskId = "" then return () else body taskId) (fun _ => return ())
    = match completionTarget parse payload with
      | none => return ()
      | some id => (body id).tryCatch fun _ => return ()
  := by
  rw [completionTarget]
  cases parsePayload parse payload with
  | error e => rfl
  | ok msg =>
    have hread : (Except.ok msg >>= completionTaskId)
        = completionTaskId msg := rfl
    simp only [Program.ok_bind, hread]
    cases completionTaskId msg with
    | error e => rfl
    | ok id =>
      simp only [Program.ok_bind]
      split <;> rfl

end Messages

/-- A call as a function on boards. -/
def Orchestrator.Call.effect (parse : String → Option Json) (env : Orchestrator.Env)
    (b : Board) : Orchestrator.Call → Board
  | .submit brief =>
      if brief.id = "" then b.submit (env.skip 1) { brief with id := env.uuid 0 }
      else b.submit env brief
  | .onEpicRegistered payload =>
      match parsePayload parse payload with
      | .error _ => b
      | .ok msg =>
          match epicFields msg with
          | .error _ => b
          | .ok (_, repo, key, issue) =>
              if repo = "" ∨ key = "" ∨ issue = 0 then b
              else b.register env msg
                (epicRoot env (epicBrief env repo key issue) repo issue)
  | .onMyrmidonStarted payload =>
      match messageTarget parse payload with
      | none => b
      | some (msg, id) => b.start env.ts msg id
  | .onMyrmidonCompletion payload =>
      match completionTarget parse payload with
      | none => b
      | some id => b.complete env.ts id
  | .onMyrmidonFailed payload =>
      match messageTarget parse payload with
      | none => b
      | some (_, id) => b.fail env.ts id
  | .escalate taskId reason => b.escalate env taskId reason
  | .splitTask taskId subtasks => b.split env taskId subtasks

end Agamemnon
