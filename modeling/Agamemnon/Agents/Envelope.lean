import Agamemnon.Agents.Messages

/-!
# Envelopes

The action of an envelope is written before the payload, and `AgentEnvelope::wrap` reads it there.
No payload hides the action.  The task of a cancellation is what stands after the action, if that
is not empty, whichever function has built the envelope (`decodes_iff`).
-/

namespace Agamemnon

namespace Agents

inductive AgentActionType
  | decompose | cancelTask | taskFailed
  deriving DecidableEq, Repr

inductive TransportActionType
  | execute | returnResult | shutdown
  deriving DecidableEq, Repr

structure TransportMessage where
  senderId : String
  receiverId : String
  actionType : TransportActionType
  payload : Option String
  priority : Priority

/-- `TransportMessage::create`. -/
def TransportMessage.create (sender receiver : String) (action : TransportActionType)
    (data : Option String) : TransportMessage where
  senderId := sender
  receiverId := receiver
  actionType := action
  payload := data
  priority := .normal

structure AgentEnvelope where
  transportMsg : TransportMessage
  agentAction : Option AgentActionType
  sessionId : String
  taskId : Option String

namespace AgentEnvelope

/-- `kCancelPrefix`, `kFailedPrefix` and `kDecomposePrefix`. -/
def prefixOf : AgentActionType → String
  | .cancelTask => "CANCEL_TASK:"
  | .taskFailed => "TASK_FAILED:"
  | .decompose => "DECOMPOSE:"

def wrap (msg : TransportMessage) : AgentEnvelope :=
  let env : AgentEnvelope := ⟨msg, none, "default", none⟩
  match msg.payload with
  | none => env
  | some p =>
      if (prefixOf .cancelTask).toList.isPrefixOf p.toList then
        let tid := String.ofList (p.toList.drop (prefixOf .cancelTask).length)
        { env with agentAction := some .cancelTask, taskId := if tid = "" then none else some tid }
      else if (prefixOf .taskFailed).toList.isPrefixOf p.toList then
        { env with agentAction := some .taskFailed }
      else if (prefixOf .decompose).toList.isPrefixOf p.toList then
        { env with agentAction := some .decompose }
      else env

def create (sender receiver : String) (action : AgentActionType) (session : String)
    (data : Option String) : AgentEnvelope where
  transportMsg := .create sender receiver .execute (some (prefixOf action ++ data.getD ""))
  agentAction := some action
  sessionId := session
  taskId := none

def createCancellation (sender receiver taskIdVal session : String) : AgentEnvelope where
  transportMsg := { TransportMessage.create sender receiver .execute
    (some (prefixOf .cancelTask ++ taskIdVal)) with priority := .high }
  agentAction := some .cancelTask
  sessionId := session
  taskId := some taskIdVal

def createFailure (sender receiver errorMsg session : String) : AgentEnvelope where
  transportMsg := .create sender receiver .execute (some (prefixOf .taskFailed ++ errorMsg))
  agentAction := some .taskFailed
  sessionId := session
  taskId := none

/-- The action and the task of the envelope are read from its message. -/
def Decodes (env : AgentEnvelope) : Prop :=
  (wrap env.transportMsg).agentAction = env.agentAction
    ∧ (wrap env.transportMsg).taskId = env.taskId

/-- No prefix is the beginning of another, so that the data do not matter. -/
theorem isPrefixOf_prefixOf (action action' : AgentActionType) (data : List Char) :
  (prefixOf action).toList.isPrefixOf ((prefixOf action').toList ++ data)
    = decide (action = action')
  := by
  cases action <;> cases action' <;> rfl

theorem wrap_prefixOf {msg : TransportMessage} {action : AgentActionType} {data : String}
    (h : msg.payload = some (prefixOf action ++ data)) :
  (wrap msg).agentAction = some action
    ∧ (wrap msg).taskId = if action = .cancelTask ∧ data ≠ "" then some data else none
  := by
  rw [wrap, h]
  simp only [String.toList_append, isPrefixOf_prefixOf]
  cases action with
  | cancelTask =>
    have hdrop : ((prefixOf .cancelTask).toList ++ data.toList).drop (prefixOf .cancelTask).length
        = data.toList := rfl
    simp only [hdrop, String.ofList_toList, decide_true, if_true, true_and, ne_eq, ite_not]
  | taskFailed | decompose => simp

theorem decodes_iff_of_payload {env : AgentEnvelope} {action : AgentActionType} {data : String}
    (h : env.transportMsg.payload = some (prefixOf action ++ data))
    (haction : env.agentAction = some action) :
  env.Decodes ↔ (if action = .cancelTask ∧ data ≠ "" then some data else none) = env.taskId
  := by
  obtain ⟨haction', htask⟩ := wrap_prefixOf h
  rw [Decodes, haction', htask, haction]
  apply and_iff_right rfl

/-- An envelope is read from its message, except for a cancellation that has data and no task, or
an empty task. -/
theorem decodes_iff (sender receiver session : String) :
  (∀ action data, (create sender receiver action session data).Decodes
      ↔ (action = .cancelTask → data.getD "" = ""))
    ∧ (∀ taskIdVal, (createCancellation sender receiver taskIdVal session).Decodes
      ↔ taskIdVal ≠ "")
    ∧ ∀ errorMsg, (createFailure sender receiver errorMsg session).Decodes
  := by
  refine ⟨?_, ?_, ?_⟩
  · intro action data
    apply (decodes_iff_of_payload rfl rfl).trans
    simp [create]
  · intro taskIdVal
    apply (decodes_iff_of_payload rfl rfl).trans
    simp [createCancellation]
  · intro errorMsg
    apply wrap_prefixOf rfl

/-- The task of a cancellation that `create` builds is not in the envelope, and an empty one is not
in the message. -/
theorem not_decodes_cancellations :
  ¬ (create "lead" "task" .cancelTask "default" (some "t")).Decodes
    ∧ ¬ (createCancellation "lead" "task" "" "default").Decodes
  := by
  rw [decodes_iff_of_payload rfl rfl, decodes_iff_of_payload rfl rfl]
  decide

end AgentEnvelope

end Agents

end Agamemnon
