import Agamemnon.Agents.Lead
import Agamemnon.Agents.Quoting
import Agamemnon.Agents.Sanitizer
import Agamemnon.Lib.Numerals
import Mathlib.Data.List.DropRight

/-!
# The agent that runs commands

`TaskAgent::processMessage` answers a message once, if there is a bus.  An answer to an error is
marked as a failure only if the error was thrown while the command was run.  An agent that has
failed, and a cancellation without a task, send the text of the error as a result (`reports_iff`).

A cancellation is recorded, and the agent does not look at the record before it runs a command
(`cancellationHolds_iff`).
-/

namespace Agamemnon

open Agents Attempt

/-! ### The agent -/

/-- What the agent is given: `stod`, the order of the allowed commands, and for a line passed to
`popen` the strings that `fgets` reads and the status, unless there is no pipe. -/
structure TaskAgent.Host where
  stod : String → Except String ℚ
  order : List String
  popen : List Char → Option (List String × ℤ)

/-- A task agent, with the lines that it had a shell run. -/
structure TaskAgent where
  core : AgentCore
  failed : Bool
  failureReason : String
  commandLog : List (String × String)
  executed : List (List Char)

namespace TaskAgent

/-- A new agent, with or without a bus. -/
def create (agentId : String) (uuid : ℕ → String) (messageBus : Bool) : TaskAgent where
  core := ⟨agentId, messageBus, ∅, uuid, 0, []⟩
  failed := false
  failureReason := ""
  commandLog := []
  executed := []

def onCore {α : Type} : Attempt String AgentCore α → Attempt String TaskAgent α :=
  .focus core fun agent core => { agent with core }

/-- A message to the sender of `msg`, with the identifier of `msg`. -/
def replyTo (msg : KeystoneMessage) (agentId : String) (action : ActionType) (payload : String) :
    KeystoneMessage :=
  { KeystoneMessage.create msg.msgId agentId msg.senderId "response" (some payload) with
    actionType := action }

/-- The identifier that is drawn for the message is not used. -/
def sendReply (msg : KeystoneMessage) (action : ActionType) (payload : String) :
    Attempt String TaskAgent Unit :=
  onCore do
    let core ← get
    let _ ← AgentCore.generateUuid
    AgentCore.sendMessage (replyTo msg core.agentId action payload)

def sendResponseMessage (msg : KeystoneMessage) (payload : String) :
    Attempt String TaskAgent Unit :=
  sendReply msg .execute payload

def executeBash (host : Host) (command : String) : Attempt String TaskAgent String := do
  .lift (validateCommand host.stod host.order command)
  let line := cStr (bashCommand command)
  match host.popen line with
  | none => .lift (.error "popen() failed")
  | some (output, status) =>
      modify fun agent => { agent with executed := agent.executed ++ [line] }
      if status ≠ 0 then .lift (.error ("Command exited with status " ++ toString status))
      else return .ofList ((String.join output).toList.rdropWhile Numerals.isSpace)

def processMessage (host : Host) (msg : KeystoneMessage) : Attempt String TaskAgent Response := do
  let agent ← get
  if agent.failed then
    let response := .createError msg agent.core.agentId
      ("Agent is in failed state: " ++ agent.failureReason)
    sendResponseMessage msg response.result
    return response
  else if msg.actionType = .cancelTask then
    let response ← onCore (AgentCore.handleCancellation msg)
    sendResponseMessage msg response.result
    return response
  else
    .catching (do
      let result ← executeBash host msg.command
      modify fun agent => { agent with commandLog := agent.commandLog ++ [(msg.command, result)] }
      sendResponseMessage msg result
      return .createSuccess msg agent.core.agentId result) fun error => do
        let sanitized := Sanitizer.sanitizeErrorMessage error false
        sendReply msg .taskFailed ("ERROR: " ++ sanitized)
        return .createError msg agent.core.agentId sanitized

/-! ### What a message does -/

variable {host : Host} {agent : TaskAgent} {msg : KeystoneMessage}

section Processing

variable {agent' : TaskAgent}

/-- The agent without its log and without what it has sent. -/
def bare (agent : TaskAgent) : TaskAgent :=
  { agent with core := { agent.core with drawn := 0, sent := [] }, commandLog := [] }

/-- The command is accepted, and there is a pipe to a shell. -/
def Host.Runs (host : Host) (command : String) : Prop :=
  validateCommand host.stod host.order command = .ok ⟨⟩
    ∧ (host.popen (cStr (bashCommand command))).isSome = true

instance (host : Host) (command : String) : Decidable (host.Runs command) :=
  inferInstanceAs (Decidable (_ ∧ _))

/-- A reply to `msg` is the one message sent, and without a bus there is an exception. -/
structure Answers {α : Type} (agent : TaskAgent) (msg : KeystoneMessage) (action : ActionType)
    (payload : String) (a : α) (next : Except String α × TaskAgent) : Prop where
  bare : next.2.bare = agent.bare
  returns : agent.core.messageBus = true → next.1 = .ok a
  sent : agent.core.messageBus = true →
    next.2.core.sent = agent.core.sent ++ [replyTo msg agent.core.agentId action payload]
  throws : agent.core.messageBus = false → ∃ e, next.1 = .error e

theorem answers_reply {α : Type} (msg : KeystoneMessage) (agent : TaskAgent)
    (action : ActionType) (payload : String) (a : α) :
  Answers agent msg action payload a
    (exec (sendReply msg action payload >>= fun _ => pure a) agent)
  := by
  obtain ⟨⟨agentId, messageBus, cancelledTasks, uuid, drawn, sent⟩, _, _, _, _⟩ := agent
  cases messageBus with
  | false => exact ⟨rfl, by simp, by simp, fun _ => ⟨_, rfl⟩⟩
  | true => exact ⟨rfl, fun _ => rfl, fun _ => rfl, by simp⟩

theorem answers_failed (h : agent.failed = true) :
  Answers agent msg .execute ("Agent is in failed state: " ++ agent.failureReason)
    (Response.createError msg agent.core.agentId
      ("Agent is in failed state: " ++ agent.failureReason))
    (exec (processMessage host msg) agent)
  := by
  rw [processMessage, exec_get_bind, if_pos h]
  apply answers_reply

/-- The answer to a cancellation. -/
def cancellation (agent : TaskAgent) (msg : KeystoneMessage) : Response :=
  match msg.taskId with
  | none => .createError msg agent.core.agentId "CANCEL_TASK message missing task_id"
  | some taskId =>
      .createSuccess msg agent.core.agentId ("Task " ++ taskId ++ " marked for cancellation")

/-- The agent has recorded that a task is cancelled. -/
def cancelling (agent : TaskAgent) (taskId : Option String) : TaskAgent :=
  { agent with core := { agent.core with
      cancelledTasks := agent.core.cancelledTasks ∪ taskId.toFinset } }

theorem answers_cancellation (h : agent.failed = false) (hcancel : msg.actionType = .cancelTask) :
  Answers (agent.cancelling msg.taskId) msg .execute (agent.cancellation msg).result
    (agent.cancellation msg) (exec (processMessage host msg) agent)
  := by
  have hhandle : exec (onCore (AgentCore.handleCancellation msg)) agent
      = (.ok (agent.cancellation msg), agent.cancelling msg.taskId) := by
    rw [onCore, exec_focus, AgentCore.handleCancellation, exec_get_bind,
      cancellation, cancelling]
    cases msg.taskId with
    | none => simp
    | some taskId =>
      rw [Option.toFinset_some, Finset.union_comm, ← Finset.insert_eq]
      rfl
  rw [processMessage, exec_get_bind, if_neg (by simp [h]), if_pos hcancel,
    exec_bind, hhandle]
  apply answers_reply

/-- The agent has had a shell run the line. -/
def executing (agent : TaskAgent) (host : Host) (command : String) : TaskAgent :=
  { agent with executed := agent.executed
      ++ if host.Runs command then [cStr (bashCommand command)] else [] }

theorem exec_executeBash (command : String) :
  (exec (executeBash host command) agent).2 = agent.executing host command
  := by
  have hstay (h : ¬ host.Runs command) : agent.executing host command = agent := by
    rw [executing, if_neg h, List.append_nil]
  rw [executeBash, exec_bind, exec_lift]
  cases hvalid : validateCommand host.stod host.order command with
  | error e => exact (hstay (by simp [Host.Runs, hvalid])).symm
  | ok _ =>
    cases hpipe : host.popen (cStr (bashCommand command)) with
    | none =>
      simp only [hpipe]
      exact (hstay (by simp [Host.Runs, hpipe])).symm
    | some pipe =>
      obtain ⟨output, status⟩ := pipe
      have hruns : host.Runs command := ⟨hvalid, by simp [hpipe]⟩
      simp only [hpipe]
      rw [executing, if_pos hruns, exec_bind, exec_modify]
      split_ifs <;> rfl

/-- An error in the command is reported as a failure. -/
theorem answers_command (h : agent.failed = false) (hcommand : msg.actionType ≠ .cancelTask) :
  ∃ action payload response, (response.status = .error → action = .taskFailed)
    ∧ Answers (agent.executing host msg.command) msg action payload response
      (exec (processMessage host msg) agent)
  := by
  rw [processMessage, exec_get_bind, if_neg (by simp [h]), if_neg hcommand,
    catching, exec_ofExec, exec_bind]
  have hbash := @exec_executeBash host agent msg.command
  cases hexec : exec (executeBash host msg.command) agent with
  | mk outcome next =>
    rw [hexec] at hbash
    obtain rfl := hbash
    cases outcome with
    | error e => exact ⟨_, _, _, fun _ => rfl, answers_reply _ _ _ _ _⟩
    | ok result =>
      -- without a bus the answer throws, and so does the report of that
      generalize agent.executing host msg.command = next
      obtain ⟨⟨agentId, messageBus, cancelledTasks, uuid, drawn, sent⟩, _, _, _, _⟩ := next
      cases messageBus with
      | true =>
        refine ⟨.execute, result, .createSuccess msg agent.core.agentId result, ?_, rfl,
          fun _ => rfl, fun _ => rfl, by simp⟩
        intro herror
        cases herror
      | false =>
        refine ⟨.taskFailed, "", .createError msg agentId "", fun _ => rfl, rfl, by simp, by simp,
          fun _ => ⟨_, rfl⟩⟩

end Processing

/-! ### Reports -/

/-- The sender gets one message, and if the response is an error, then that message is a failure,
which a lead does not take for a result. -/
def Reports (host : Host) (agent : TaskAgent) (msg : KeystoneMessage) : Prop :=
  ∃ response reply, (exec (processMessage host msg) agent).1 = .ok response
    ∧ (exec (processMessage host msg) agent).2.core.sent = agent.core.sent ++ [reply]
    ∧ reply.receiverId = msg.senderId
    ∧ (response.status = .error →
      reply.actionType = .taskFailed ∧ ModuleLeadAgent.isSubordinateResult reply = false)

section Reports

variable {before : TaskAgent} {action : ActionType} {payload : String} {response : Response}

theorem reports_iff_of_answers
    (h : Answers before msg action payload response (exec (processMessage host msg) agent))
    (hbus : before.core.messageBus = agent.core.messageBus)
    (hsent : before.core.sent = agent.core.sent) :
  Reports host agent msg
    ↔ agent.core.messageBus = true ∧ (response.status = .error → action = .taskFailed)
  := by
  rw [Reports]
  cases hagent : agent.core.messageBus with
  | false =>
    obtain ⟨e, he⟩ := h.throws (hbus.trans hagent)
    simp [he]
  | true =>
    rw [h.returns (hbus.trans hagent), h.sent (hbus.trans hagent), hsent]
    constructor
    · rintro ⟨_, _, hresponse, hreply, -, herror⟩
      obtain rfl := Except.ok.inj hresponse
      obtain rfl := List.singleton_inj.mp (List.append_cancel_left hreply)
      exact ⟨rfl, fun hstatus => (herror hstatus).1⟩
    · rintro ⟨-, herror⟩
      refine ⟨_, _, rfl, rfl, rfl, fun hstatus => ?_⟩
      rw [herror hstatus]
      exact ⟨rfl, rfl⟩

/-- A message is reported exactly if there is a bus, the agent has not failed, and a cancellation
names a task. -/
theorem reports_iff (host : Host) (agent : TaskAgent) (msg : KeystoneMessage) :
  Reports host agent msg
    ↔ agent.core.messageBus = true ∧ agent.failed = false
      ∧ (msg.actionType = .cancelTask → msg.taskId ≠ none)
  := by
  cases hfailed : agent.failed with
  | true =>
    rw [reports_iff_of_answers (answers_failed hfailed) rfl rfl]
    simp [Response.createError, Response.create]
  | false =>
    by_cases hcancel : msg.actionType = .cancelTask
    · rw [reports_iff_of_answers (answers_cancellation hfailed hcancel) rfl rfl]
      cases htask : msg.taskId with
      | none => simp [cancellation, htask, hcancel, Response.createError, Response.create]
      | some taskId => simp [cancellation, htask, Response.createSuccess, Response.create]
    · obtain ⟨action, payload, response, herror, h⟩ := answers_command hfailed hcancel
      rw [reports_iff_of_answers h rfl rfl]
      exact and_congr_right fun _ => iff_of_true herror ⟨rfl, fun h => absurd h hcancel⟩

/-- An agent that has failed sends its error as a result. -/
theorem not_reports_failed :
  let host : Host := ⟨fun _ => .ok 0, allowedCommands, fun _ => some ([], 0)⟩
  let agent : TaskAgent := ⟨⟨"task", true, ∅, fun _ => "id", 0, []⟩, true, "chaos", [], []⟩
  let msg := KeystoneMessage.create "1" "lead" "task" "echo 1" none
  ¬ Reports host agent msg
  := by
  intro host agent msg
  rw [reports_iff_of_answers (answers_failed rfl) rfl rfl]
  simp [Response.createError, Response.create]

end Reports

/-! ### Cancellations -/

/-- What happens to an agent. -/
inductive Event
  | message (host : Host) (msg : KeystoneMessage)
  | clearCancellation (taskId : String)
  | markAsFailed (reason : String)
  | recover

def step (agent : TaskAgent) : Event → TaskAgent
  | .message host msg => (exec (processMessage host msg) agent).2
  | .clearCancellation taskId => { agent with core := { agent.core with
      cancelledTasks := agent.core.cancelledTasks.erase taskId } }
  | .markAsFailed reason => { agent with failed := true, failureReason := reason }
  | .recover => { agent with failed := false, failureReason := "" }

def after (agent : TaskAgent) (events : List Event) : TaskAgent :=
  events.foldl step agent

/-- The event is a cancellation of the task that is answered with success. -/
def Acknowledges (agent : TaskAgent) (taskId : String) (event : Event) : Prop :=
  ∃ host msg response, event = .message host msg ∧ msg.actionType = .cancelTask
    ∧ msg.taskId = some taskId
    ∧ (exec (processMessage host msg) agent).1 = .ok response
    ∧ response.status = .success

/-- A cancellation of the task has been acknowledged, and has not been cleared since. -/
def Acknowledged (agent : TaskAgent) (taskId : String) (events : List Event) : Prop :=
  Lists.Lasting (fun before event => (agent.after before).Acknowledges taskId event)
    (fun event => event = .clearCancellation taskId) events

/-- No command is executed for a task that is cancelled. -/
def CancellationHolds (agent : TaskAgent) (events : List Event) : Prop :=
  ∀ front host msg back taskId, events = front ++ .message host msg :: back →
    msg.taskId = some taskId → agent.Acknowledged taskId front →
    ((agent.after front).step (.message host msg)).executed = (agent.after front).executed

variable {taskId : String} {event : Event}

/-- The fields that answers do not change. -/
theorem bare_message (host : Host) (agent : TaskAgent) (msg : KeystoneMessage) :
  (agent.step (.message host msg)).bare
    = (if agent.failed then agent
      else if msg.actionType = .cancelTask then agent.cancelling msg.taskId
      else agent.executing host msg.command).bare
  := by
  split_ifs with hfailed hcancel
  · exact (answers_failed hfailed).bare
  · exact (answers_cancellation (Bool.eq_false_iff.mpr hfailed) hcancel).bare
  · have hfailed := Bool.eq_false_iff.mpr hfailed
    obtain ⟨_, _, _, -, h⟩ := @answers_command host agent msg hfailed hcancel
    exact h.bare

theorem executed_message (host : Host) (agent : TaskAgent) (msg : KeystoneMessage) :
  (agent.step (.message host msg)).executed = agent.executed
    ↔ agent.failed = true ∨ msg.actionType = .cancelTask ∨ ¬ host.Runs msg.command
  := by
  have hbare := congrArg executed (bare_message host agent msg)
  change (agent.step (.message host msg)).executed = executed (ite _ _ _) at hbare
  rw [hbare]
  split_ifs with hfailed hcancel
  · simp [hfailed]
  · simp [hcancel, cancelling]
  · by_cases hruns : host.Runs msg.command
    · simp [hfailed, hcancel, executing, hruns]
    · simp [executing, hruns]

theorem messageBus_step (agent : TaskAgent) (event : Event) :
  (agent.step event).core.messageBus = agent.core.messageBus
  := by
  cases event with
  | message host msg =>
    have hbare := congrArg (fun agent => agent.core.messageBus) (bare_message host agent msg)
    apply Eq.trans hbare
    split_ifs <;> rfl
  | _ => rfl

theorem acknowledges_message_iff :
  agent.Acknowledges taskId (.message host msg)
    ↔ agent.core.messageBus = true ∧ agent.failed = false ∧ msg.actionType = .cancelTask
      ∧ msg.taskId = some taskId
  := by
  constructor
  · rintro ⟨_, _, response, heq, hcancel, htask, hok, hstatus⟩
    obtain ⟨rfl, rfl⟩ := Event.message.inj heq
    have hbus {before : TaskAgent} {action : ActionType} {payload : String} {response' : Response}
        (h : Answers before msg action payload response'
          (exec (processMessage host msg) agent)) :
        before.core.messageBus = true ∧ response' = response := by
      cases hbefore : before.core.messageBus with
      | false =>
        obtain ⟨e, he⟩ := h.throws hbefore
        cases hok.symm.trans he
      | true => exact ⟨rfl, Except.ok.inj ((h.returns hbefore).symm.trans hok)⟩
    cases hfailed : agent.failed with
    | true =>
      obtain ⟨-, rfl⟩ := hbus (answers_failed hfailed)
      cases hstatus
    | false => exact ⟨(hbus (answers_cancellation hfailed hcancel)).1, rfl, hcancel, htask⟩
  · rintro ⟨hbus, hfailed, hcancel, htask⟩
    refine ⟨host, msg, agent.cancellation msg, rfl, hcancel, htask,
      (answers_cancellation hfailed hcancel).returns hbus, ?_⟩
    rw [cancellation, htask]
    rfl

/-- With a bus, the tasks that an event cancels are those whose cancellation it acknowledges. -/
theorem mem_cancelledTasks_step (hbus : agent.core.messageBus = true) :
  taskId ∈ (agent.step event).core.cancelledTasks
    ↔ agent.Acknowledges taskId event
      ∨ event ≠ .clearCancellation taskId ∧ taskId ∈ agent.core.cancelledTasks
  := by
  cases event with
  | message host msg =>
    have hbare := congrArg (fun agent => agent.core.cancelledTasks) (bare_message host agent msg)
    change (agent.step (.message host msg)).core.cancelledTasks
      = (TaskAgent.core (ite _ _ _)).cancelledTasks at hbare
    rw [hbare, acknowledges_message_iff]
    split_ifs with hfailed hcancel
    · simp [hfailed]
    · simp [hfailed, hcancel, hbus, cancelling, or_comm]
    · simp [hcancel, executing]
  | clearCancellation taskId' => simp [Acknowledges, step, eq_comm]
  | markAsFailed reason | recover => simp [Acknowledges, step]

theorem after_concat (agent : TaskAgent) (events : List Event) (event : Event) :
  agent.after (events ++ [event]) = (agent.after events).step event
  := List.foldl_concat ..

theorem messageBus_after (agent : TaskAgent) (events : List Event) :
  (agent.after events).core.messageBus = agent.core.messageBus
  := by
  induction events using List.reverseRecOn with
  | nil => rfl
  | append_singleton events event ih => rw [after_concat, messageBus_step, ih]

/-- The cancelled tasks are those whose cancellation has been acknowledged. -/
theorem mem_cancelledTasks_after (hbus : agent.core.messageBus = true)
    (hnone : agent.core.cancelledTasks = ∅) (events : List Event) :
  taskId ∈ (agent.after events).core.cancelledTasks ↔ agent.Acknowledged taskId events
  := by
  induction events using List.reverseRecOn with
  | nil =>
    rw [after, List.foldl_nil, hnone]
    exact iff_of_false (Finset.notMem_empty taskId) Lists.not_lasting_nil
  | append_singleton events event ih =>
    have hafter := (messageBus_after agent events).trans hbus
    rw [after_concat, mem_cancelledTasks_step hafter, ih]
    unfold Acknowledged
    rw [Lists.lasting_snoc]

/-- Cancellations hold in a run exactly if there is no bus, or no command is run, by an agent that
has not failed, for a message with the identifier of a task that the agent knows to be
cancelled. -/
theorem cancellationHolds_iff (agentId : String) (uuid : ℕ → String) (messageBus : Bool)
    (events : List Event) :
  (create agentId uuid messageBus).CancellationHolds events
    ↔ (messageBus = true → ∀ front host msg back taskId,
      events = front ++ .message host msg :: back → msg.taskId = some taskId →
      taskId ∈ ((create agentId uuid messageBus).after front).core.cancelledTasks →
      ((create agentId uuid messageBus).after front).failed = true
        ∨ msg.actionType = .cancelTask ∨ ¬ host.Runs msg.command)
  := by
  constructor
  · intro h hbus front host msg back taskId hevents htask hmem
    rw [mem_cancelledTasks_after hbus rfl] at hmem
    exact (executed_message ..).mp (h front host msg back taskId hevents htask hmem)
  · intro h front host msg back taskId hevents htask hacknowledged
    rw [executed_message]
    cases messageBus with
    | true =>
      rw [← mem_cancelledTasks_after rfl rfl] at hacknowledged
      exact h rfl front host msg back taskId hevents htask hacknowledged
    | false =>
      -- nothing is acknowledged without a bus
      obtain ⟨before, event, _, -, hevent, -⟩ := hacknowledged
      obtain ⟨host', msg', _, rfl, -⟩ := id hevent
      obtain ⟨hbus, -⟩ := acknowledges_message_iff.mp hevent
      rw [messageBus_after] at hbus
      cases hbus

/-- A command is run for a task after its cancellation has been acknowledged. -/
theorem not_cancellationHolds_cancelledEcho :
  let host : Host := ⟨fun _ => .ok 0, allowedCommands, fun _ => some ([], 0)⟩
  let echo : KeystoneMessage :=
    { KeystoneMessage.create "2" "lead" "task" "echo 1" none with taskId := some "t" }
  let cancel : KeystoneMessage :=
    { KeystoneMessage.createAction "1" "lead" "task" .cancelTask "default" none with
      taskId := some "t" }
  ¬ (create "task" (fun _ => "id") true).CancellationHolds
    [.message host cancel, .message host echo]
  := by
  intro host echo cancel h
  have hacknowledged : (create "task" (fun _ => "id") true).Acknowledged "t"
      [.message host cancel]
    := ⟨[], _, [], rfl, acknowledges_message_iff.mpr ⟨rfl, rfl, rfl, rfl⟩, by simp⟩
  have hexecuted := h [.message host cancel] host echo [] "t" rfl rfl hacknowledged
  have hruns : host.Runs "echo 1" := ⟨by decide +kernel, rfl⟩
  rcases (executed_message ..).mp hexecuted with hfailed | hcancel | hnot
  · cases hfailed
  · cases hcancel
  · exact hnot hruns

end TaskAgent

end Agamemnon
