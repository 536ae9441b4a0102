import Agamemnon.Lib.Attempt
import Mathlib.Data.Finset.Insert
import Mathlib.Tactic.SplitIfs

/-!
# Messages between agents

An agent draws an identifier for each message it creates and hands the message to the bus.
Without a bus it throws.  What an agent has handed over is kept in the order of sending.
-/

namespace Agamemnon

namespace Agents

inductive Priority
  | high | normal | low
  deriving DecidableEq, Repr

inductive ActionType
  | decompose | execute | returnResult | shutdown | cancelTask | taskFailed
  deriving DecidableEq, Repr

def actionTypeToString : ActionType → String
  | .decompose => "DECOMPOSE"
  | .execute => "EXECUTE"
  | .returnResult => "RETURN_RESULT"
  | .shutdown => "SHUTDOWN"
  | .cancelTask => "CANCEL_TASK"
  | .taskFailed => "TASK_FAILED"

/-- A message, without the fields that no agent reads. -/
structure KeystoneMessage where
  msgId : String
  senderId : String
  receiverId : String
  actionType : ActionType
  sessionId : String
  priority : Priority
  taskId : Option String
  command : String
  payload : Option String
  deriving DecidableEq, Repr

namespace KeystoneMessage

/-- `KeystoneMessage::create` with a command. -/
def create (msgId sender receiver command : String) (data : Option String) : KeystoneMessage where
  msgId := msgId
  senderId := sender
  receiverId := receiver
  actionType := .execute
  sessionId := "default"
  priority := .normal
  taskId := none
  command := command
  payload := data

/-- `KeystoneMessage::create` with an action. -/
def createAction (msgId sender receiver : String) (action : ActionType) (session : String)
    (data : Option String) : KeystoneMessage where
  msgId := msgId
  senderId := sender
  receiverId := receiver
  actionType := action
  sessionId := session
  priority := .normal
  taskId := none
  command := actionTypeToString action
  payload := data

end KeystoneMessage

inductive Response.Status
  | success | error
  deriving DecidableEq, Repr

structure Response where
  msgId : String
  senderId : String
  receiverId : String
  status : Response.Status
  result : String
  deriving DecidableEq, Repr

namespace Response

/-- A response to a message. -/
def create (status : Status) (msg : KeystoneMessage) (sender result : String) : Response where
  msgId := msg.msgId
  senderId := sender
  receiverId := msg.senderId
  status := status
  result := result

def createSuccess : KeystoneMessage → String → String → Response :=
  create .success

def createError : KeystoneMessage → String → String → Response :=
  create .error

end Response

/-- What every agent has: its identifier, whether a bus is set, the tasks marked for
cancellation, the identifiers that the generator gives and how many have been drawn, and the
messages handed to the bus. -/
structure AgentCore where
  agentId : String
  messageBus : Bool
  cancelledTasks : Finset String
  uuid : ℕ → String
  drawn : ℕ
  sent : List KeystoneMessage

namespace AgentCore

/-- `generate_uuid`. -/
def generateUuid : Attempt String AgentCore String := do
  let core ← get
  modify fun core => { core with drawn := core.drawn + 1 }
  return core.uuid core.drawn

/-- `AgentCore::sendMessage`; the agents do not look at what the router answers. -/
def sendMessage (msg : KeystoneMessage) : Attempt String AgentCore Unit := do
  let core ← get
  if core.messageBus then
    modify fun core => { core with sent := core.sent ++ [msg] }
  else
    .lift (.error ("Message bus not set for agent: " ++ core.agentId))

/-- `AgentCore::requestCancellation`. -/
def requestCancellation (taskId : String) : Attempt String AgentCore Unit :=
  modify fun core => { core with cancelledTasks := insert taskId core.cancelledTasks }

/-- `AsyncAgent::handleCancellation`. -/
def handleCancellation (msg : KeystoneMessage) : Attempt String AgentCore Response := do
  let core ← get
  match msg.taskId with
  | none => return .createError msg core.agentId "CANCEL_TASK message missing task_id"
  | some taskId => do
      requestCancellation taskId
      return .createSuccess msg core.agentId ("Task " ++ taskId ++ " marked for cancellation")

variable {core : AgentCore}

@[simp]
theorem exec_generateUuid :
  Attempt.exec generateUuid core
    = (.ok (core.uuid core.drawn), { core with drawn := core.drawn + 1 })
  := rfl

theorem exec_sendMessage (msg : KeystoneMessage) :
  Attempt.exec (sendMessage msg) core
    = if core.messageBus then (.ok (), { core with sent := core.sent ++ [msg] })
      else (.error ("Message bus not set for agent: " ++ core.agentId), core)
  := by
  rw [sendMessage, Attempt.exec_get_bind]
  split_ifs <;> rfl

end AgentCore

end Agents

end Agamemnon
