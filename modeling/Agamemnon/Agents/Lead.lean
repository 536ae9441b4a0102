import Agamemnon.Agents.Messages
import Agamemnon.Lib.Numerals
import Agamemnon.Lib.Pattern
import Mathlib.Data.Finmap

/-!
# Lead agents

A lead agent decomposes a goal, sends each subtask to a subordinate and waits for as many results
or failures as there are subtasks.  `LeadHooks` are the methods in which the two lead agents
differ: a module lead sends the numbers of its goal to task agents, a component lead sends the
sections of its goal to module leads.
-/

namespace Agamemnon

namespace Agents

open Numerals (intMax)

/-! ### The coordination state -/

/-- `CoordinationState`. -/
structure Coordination (σ : Type) where
  currentState : σ
  executionTrace : List String
  expectedResults : ℕ
  receivedResults : ℕ
  failedResults : ℕ
  results : List String
  failureMessages : List String
  pendingSubordinates : Finmap fun _ : String => String
  currentGoal : String
  requesterId : String

namespace Coordination

variable {σ : Type}

def transitionTo (c : Coordination σ) (newState : σ) (stateName : String) : Coordination σ :=
  { c with currentState := newState, executionTrace := c.executionTrace ++ [stateName] }

def initializeCoordination (c : Coordination σ) (expectedCount : ℕ) : Coordination σ :=
  { c with
    expectedResults := expectedCount
    receivedResults := 0
    failedResults := 0
    results := []
    failureMessages := []
    pendingSubordinates := ∅ }

/-- `recordResult`; what it returns is `isComplete` of the new state. -/
def recordResult (c : Coordination σ) (result : String) : Coordination σ :=
  { c with results := c.results ++ [result], receivedResults := c.receivedResults + 1 }

/-- `recordFailure`; what it returns is `isComplete` of the new state. -/
def recordFailure (c : Coordination σ) (errorMsg : String) : Coordination σ :=
  { c with
    failureMessages := c.failureMessages ++ [errorMsg]
    failedResults := c.failedResults + 1
    receivedResults := c.receivedResults + 1 }

def hasFailures (c : Coordination σ) : Bool :=
  0 < c.failedResults

def isComplete (c : Coordination σ) : Bool :=
  c.expectedResults ≤ c.receivedResults

def trackPendingSubordinate (c : Coordination σ) (msgId subordinateId : String) :
    Coordination σ :=
  { c with pendingSubordinates := c.pendingSubordinates.insert msgId subordinateId }

def setCurrentGoal (c : Coordination σ) (goal : String) : Coordination σ :=
  { c with currentGoal := goal }

def setRequesterId (c : Coordination σ) (requesterId : String) : Coordination σ :=
  { c with requesterId := requesterId }

end Coordination

/-- A lead agent, with the subordinates that are available to it. -/
structure LeadAgent (σ : Type) where
  core : AgentCore
  subordinates : List String
  coordination : Coordination σ

/-- What a class derived from `LeadAgentBase` provides. -/
structure LeadHooks (σ : Type) where
  idleState : σ
  planningState : σ
  waitingState : σ
  aggregatingState : σ
  errorState : σ
  stateToString : σ → String
  decomposeGoal : String → List String
  delegateSubtasks : List String → Attempt String (LeadAgent σ) Unit
  isSubordinateResult : KeystoneMessage → Bool
  processSubordinateResult : KeystoneMessage → Attempt String (LeadAgent σ) Unit

namespace LeadAgent

variable {σ α : Type}

/-- Use what the agent has as an agent. -/
def onCore (x : Attempt String AgentCore α) : Attempt String (LeadAgent σ) α :=
  .focus (·.core) (fun agent core => { agent with core := core }) x

/-- Change the coordination state. -/
def coordinate (f : Coordination σ → Coordination σ) : Attempt String (LeadAgent σ) Unit :=
  modify fun agent => { agent with coordination := f agent.coordination }

/-! ### The template method -/

section Template

variable (hooks : LeadHooks σ)

def transitionTo (newState : σ) : Attempt String (LeadAgent σ) Unit :=
  coordinate (·.transitionTo newState (hooks.stateToString newState))

/-- Tell the requester, if there is one, that a subtask has failed. -/
def reportFailure (parentId sessionId error : String) : Attempt String AgentCore Unit := do
  if parentId ≠ "" then
    let core ← get
    let msgId ← AgentCore.generateUuid
    AgentCore.sendMessage
      (.createAction msgId core.agentId parentId .taskFailed sessionId (some error))

def processSubordinateFailure (msg : KeystoneMessage) : Attempt String (LeadAgent σ) Unit := do
  let error := msg.payload.getD "subordinate task failed"
  coordinate (·.recordFailure error)
  let agent ← get
  if agent.coordination.isComplete then
    transitionTo hooks hooks.errorState
    onCore (reportFailure agent.coordination.requesterId msg.sessionId error)

/-- A cancellation is acknowledged under the identifier of its message. -/
def acknowledge (msg : KeystoneMessage) : Attempt String AgentCore Response := do
  let core ← get
  let response ← AgentCore.handleCancellation msg
  let msgId ← AgentCore.generateUuid
  let responseMsg : KeystoneMessage :=
    .create msgId core.agentId msg.senderId "response" (some response.result)
  AgentCore.sendMessage { responseMsg with msgId := msg.msgId }
  return response

/-- Steps 5 to 7 of `processMessage`: wait for the subtasks of a goal, unless there are none or
too many. -/
def startSubtasks (msg : KeystoneMessage) (subtasks : List String) :
    Attempt String (LeadAgent σ) Response := do
  let agent ← get
  if subtasks = [] then
    transitionTo hooks hooks.errorState
    return .createError msg agent.core.agentId "Failed to decompose goal"
  else if intMax < subtasks.length then
    transitionTo hooks hooks.errorState
    return .createError msg agent.core.agentId
      ("Subtask count exceeds maximum: " ++ toString subtasks.length ++ " > " ++ toString intMax)
  else
    coordinate (·.initializeCoordination subtasks.length)
    transitionTo hooks hooks.waitingState
    hooks.delegateSubtasks subtasks
    return .createSuccess msg agent.core.agentId
      ("Goal decomposed into " ++ toString subtasks.length ++ " subtasks")

/-- Steps 3 and 4 of `processMessage`: plan a new goal. -/
def processGoal (msg : KeystoneMessage) : Attempt String (LeadAgent σ) Response := do
  transitionTo hooks hooks.planningState
  coordinate (·.setCurrentGoal msg.command)
  coordinate (·.setRequesterId msg.senderId)
  let agent ← get
  startSubtasks hooks msg (hooks.decomposeGoal agent.coordination.currentGoal)

def processMessage (msg : KeystoneMessage) : Attempt String (LeadAgent σ) Response := do
  let agent ← get
  if msg.actionType = .cancelTask then
    onCore (acknowledge msg)
  else if msg.actionType = .taskFailed then
    processSubordinateFailure hooks msg
    return .createSuccess msg agent.core.agentId "Subordinate failure recorded"
  else if hooks.isSubordinateResult msg then
    hooks.processSubordinateResult msg
    return .createSuccess msg agent.core.agentId "Subordinate result processed"
  else
    processGoal hooks msg

/-- Process messages in the order of their arrival. -/
def run (agent : LeadAgent σ) (messages : List KeystoneMessage) : LeadAgent σ :=
  messages.foldl (fun agent msg => (Attempt.exec (processMessage hooks msg) agent).2) agent

end Template

/-! ### Delegation -/

/-- Create the message of a subtask, note whom it is for, and send it. -/
def handOver (subordinate subtask : String) : Attempt String (LeadAgent σ) Unit := do
  let agent ← get
  let msgId ← onCore AgentCore.generateUuid
  coordinate (·.trackPendingSubordinate msgId subordinate)
  onCore (AgentCore.sendMessage (.create msgId agent.core.agentId subordinate subtask none))

/-- The loop over the subtasks, from the one with number `i`; `choose` tells to whom a subtask
goes. -/
def delegate (choose : List String → ℕ → Except String String) :
    ℕ → List String → Attempt String (LeadAgent σ) Unit
  | _, [] => pure ()
  | i, subtask :: subtasks => do
      let agent ← get
      let subordinate ← Attempt.lift (choose agent.subordinates i)
      handOver subordinate subtask
      delegate choose (i + 1) subtasks

end LeadAgent

open LeadAgent

/-! ### Module leads -/

inductive ModuleLeadState
  | idle | planning | waitingForTasks | synthesizing | error
  deriving DecidableEq, Repr

namespace ModuleLeadAgent

def stateToString : ModuleLeadState → String
  | .idle => "IDLE"
  | .planning => "PLANNING"
  | .waitingForTasks => "WAITING_FOR_TASKS"
  | .synthesizing => "SYNTHESIZING"
  | .error => "ERROR"

/-- A match of `\d+`. -/
def numberAt (text : List Char) : Option (String × ℕ) :=
  let number := text.takeWhile Char.isDigit
  if number = [] then none else some (String.ofList number, number.length)

def decomposeGoal (goal : String) : List String :=
  (Pattern.scan numberAt 0 goal.toList).map ("echo " ++ ·)

/-- The task agents take turns. -/
def chooseTaskAgent (agents : List String) (i : ℕ) : Except String String :=
  match agents[i % agents.length]? with
  | none => .error "No TaskAgents available for delegation"
  | some agent => .ok agent

def delegateSubtasks : List String → Attempt String (LeadAgent ModuleLeadState) Unit :=
  delegate chooseTaskAgent 0

def isSubordinateResult (msg : KeystoneMessage) : Bool :=
  msg.command = "response" && msg.actionType ≠ .taskFailed

def processSubordinateResult (msg : KeystoneMessage) :
    Attempt String (LeadAgent ModuleLeadState) Unit := do
  match msg.payload with
  | none => pure ()
  | some payload =>
      coordinate (·.recordResult payload)
      let agent ← get
      if agent.coordination.isComplete then
        if agent.coordination.hasFailures then
          coordinate (·.transitionTo .error (stateToString .error))
        else
          coordinate (·.transitionTo .synthesizing (stateToString .synthesizing))

def hooks : LeadHooks ModuleLeadState where
  idleState := .idle
  planningState := .planning
  waitingState := .waitingForTasks
  aggregatingState := .synthesizing
  errorState := .error
  stateToString := stateToString
  decomposeGoal := decomposeGoal
  delegateSubtasks := delegateSubtasks
  isSubordinateResult := isSubordinateResult
  processSubordinateResult := processSubordinateResult

end ModuleLeadAgent

/-! ### Component leads -/

inductive ComponentLeadState
  | idle | planning | waitingForModules | aggregating | error
  deriving DecidableEq, Repr

namespace ComponentLeadAgent

def stateToString : ComponentLeadState → String
  | .idle => "IDLE"
  | .planning => "PLANNING"
  | .waitingForModules => "WAITING_FOR_MODULES"
  | .aggregating => "AGGREGATING"
  | .error => "ERROR"

/-- A match of `(\w+)\(([0-9+]+)\)`, with its two groups.  No letter of a group is the one that
has to follow it, so that the longest groups are the only ones. -/
def sectionAt (text : List Char) : Option ((String × String) × ℕ) :=
  let isWord (c : Char) := c.isAlphanum || c = '_'
  let isNumbers (c : Char) := c.isDigit || c = '+'
  let name := text.takeWhile isWord
  match text.dropWhile isWord with
  | '(' :: rest =>
      let numbers := rest.takeWhile isNumbers
      match rest.dropWhile isNumbers with
      | ')' :: _ =>
          if name = [] ∨ numbers = [] then none
          else some ((String.ofList name, String.ofList numbers),
            name.length + numbers.length + 2)
      | _ => none
  | _ => none

def decomposeGoal (goal : String) : List String :=
  (Pattern.scan sectionAt 0 goal.toList).map fun (name, numbers) =>
    "Calculate " ++ name ++ ": " ++ numbers

/-- Each module lead gets one module. -/
def chooseModuleLead (leads : List String) (i : ℕ) : Except String String :=
  if leads = [] then .error "No ModuleLeadAgents available for delegation"
  else
    match leads[i]? with
    | none => .error "Not enough ModuleLeadAgents for all modules"
    | some lead => .ok lead

def delegateSubtasks : List String → Attempt String (LeadAgent ComponentLeadState) Unit :=
  delegate chooseModuleLead 0

def isSubordinateResult (msg : KeystoneMessage) : Bool :=
  msg.command = "module_result"

def processSubordinateResult (msg : KeystoneMessage) :
    Attempt String (LeadAgent ComponentLeadState) Unit := do
  match msg.payload with
  | none => pure ()
  | some payload =>
      coordinate (·.recordResult payload)
      let agent ← get
      if agent.coordination.isComplete then
        coordinate (·.transitionTo .aggregating (stateToString .aggregating))

def hooks : LeadHooks ComponentLeadState where
  idleState := .idle
  planningState := .planning
  waitingState := .waitingForModules
  aggregatingState := .aggregating
  errorState := .error
  stateToString := stateToString
  decomposeGoal := decomposeGoal
  delegateSubtasks := delegateSubtasks
  isSubordinateResult := isSubordinateResult
  processSubordinateResult := processSubordinateResult

end ComponentLeadAgent

/-! ### The two kinds of lead agents -/

/-- The classes derived from `LeadAgentBase`. -/
inductive LeadKind
  | moduleLead | componentLead
  deriving DecidableEq, Repr

namespace LeadKind

def State : LeadKind → Type
  | .moduleLead => ModuleLeadState
  | .componentLead => ComponentLeadState

instance : (kind : LeadKind) → DecidableEq kind.State
  | .moduleLead => inferInstanceAs (DecidableEq ModuleLeadState)
  | .componentLead => inferInstanceAs (DecidableEq ComponentLeadState)

def hooks : (kind : LeadKind) → LeadHooks kind.State
  | .moduleLead => ModuleLeadAgent.hooks
  | .componentLead => ComponentLeadAgent.hooks

/-- A new lead agent with a bus. -/
def fresh (kind : LeadKind) (agentId : String) (subordinates : List String) (uuid : ℕ → String) :
    LeadAgent kind.State where
  core :=
    { agentId := agentId
      messageBus := true
      cancelledTasks := ∅
      uuid := uuid
      drawn := 0
      sent := [] }
  subordinates := subordinates
  coordination :=
    { currentState := kind.hooks.idleState
      executionTrace := ["IDLE"]
      expectedResults := 0
      receivedResults := 0
      failedResults := 0
      results := []
      failureMessages := []
      pendingSubordinates := ∅
      currentGoal := ""
      requesterId := "" }

/-- A module lead with one task agent. -/
def oneTaskAgent : LeadAgent LeadKind.moduleLead.State :=
  fresh .moduleLead "module" ["task"] fun i => if i = 0 then "first" else "second"

/-- A goal with two numbers. -/
def twoNumbers : KeystoneMessage :=
  .create "goal" "component" "module" "Calculate A: 1+2" none

end LeadKind

end Agents

end Agamemnon
