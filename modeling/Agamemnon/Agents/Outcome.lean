import Agamemnon.Agents.Lead

/-!
# What becomes of a goal

A lead agent leaves its waiting state with the message that completes the count.
-/

namespace Agamemnon

namespace Agents

open Attempt LeadAgent
open Numerals (intMax)

namespace LeadHooks

variable {σ : Type} (hooks : LeadHooks σ)

/-- The message is taken for a new goal. -/
def isGoal (msg : KeystoneMessage) : Bool :=
  msg.actionType ≠ .cancelTask && msg.actionType ≠ .taskFailed && !hooks.isSubordinateResult msg

/-- The message is a failure, or a result with a payload. -/
def isTerminal (msg : KeystoneMessage) : Bool :=
  msg.actionType = .taskFailed
    || msg.actionType ≠ .cancelTask && hooks.isSubordinateResult msg && msg.payload.isSome

end LeadHooks

namespace LeadKind

/-- The state in which a lead agent ends, by whether the last message is a failure and whether
any message is. -/
def concluded : (kind : LeadKind) → Bool → Bool → kind.State
  | .moduleLead, _, anyFailed => if anyFailed then .error else .synthesizing
  | .componentLead, lastFailed, _ => if lastFailed then .error else .aggregating

theorem concluded_failed (kind : LeadKind) :
  kind.concluded true true = kind.hooks.errorState
  := by
  cases kind <;> rfl

end LeadKind

/-! ### One message -/

namespace LeadAgent

variable {σ : Type} {hooks : LeadHooks σ} {agent : LeadAgent σ}

section Template

variable {msg : KeystoneMessage}

@[simp]
theorem exec_coordinate (f : Coordination σ → Coordination σ) :
  exec (coordinate f) agent = (.ok (), { agent with coordination := f agent.coordination })
  := rfl

theorem exec_coordinate_bind {α : Type} (f : Coordination σ → Coordination σ)
    (g : Unit → Attempt String (LeadAgent σ) α) :
  exec (coordinate f >>= g) agent = exec (g ()) { agent with coordination := f agent.coordination }
  := rfl

theorem exec_processMessage :
  exec (processMessage hooks msg) agent
    = if msg.actionType = .cancelTask then exec (onCore (acknowledge msg)) agent
      else if msg.actionType = .taskFailed then
        exec (do
          processSubordinateFailure hooks msg
          return .createSuccess msg agent.core.agentId "Subordinate failure recorded") agent
      else if hooks.isSubordinateResult msg then
        exec (do
          hooks.processSubordinateResult msg
          return .createSuccess msg agent.core.agentId "Subordinate result processed") agent
      else exec (processGoal hooks msg) agent
  := by
  rw [processMessage, exec_get_bind]
  split_ifs <;> rfl

theorem exec_of_failure (h : msg.actionType = .taskFailed) :
  run hooks agent [msg] = (exec (processSubordinateFailure hooks msg) agent).2
  := by
  rw [run, List.foldl_cons, List.foldl_nil, exec_processMessage]
  simp only [h, reduceCtorEq, if_false, if_true]
  rw [exec_bind_pure_snd]

theorem run_failure (h : msg.actionType = .taskFailed) :
  run hooks agent [msg]
    = let error := msg.payload.getD "subordinate task failed"
      let c := agent.coordination.recordFailure error
      if agent.coordination.expectedResults ≤ agent.coordination.receivedResults + 1 then
        { agent with
          core :=
            (exec (reportFailure agent.coordination.requesterId msg.sessionId error) agent.core).2
          coordination :=
            c.transitionTo hooks.errorState (hooks.stateToString hooks.errorState) }
      else { agent with coordination := c }
  := by
  rw [exec_of_failure h, processSubordinateFailure, exec_coordinate_bind, exec_get_bind]
  have hcomplete : (agent.coordination.recordFailure
      (msg.payload.getD "subordinate task failed")).isComplete = true
      ↔ agent.coordination.expectedResults ≤ agent.coordination.receivedResults + 1
    := decide_eq_true_iff
  simp only [hcomplete]
  split_ifs <;> rfl

/-- A cancellation does not touch the coordination. -/
theorem run_cancellation (h : msg.actionType = .cancelTask) :
  run hooks agent [msg] = { agent with core := (exec (acknowledge msg) agent.core).2 }
  := by
  rw [run, List.foldl_cons, List.foldl_nil, exec_processMessage]
  simp only [h, if_true]
  rfl

theorem run_result (hcancel : msg.actionType ≠ .cancelTask) (hfailed : msg.actionType ≠ .taskFailed)
    (hresult : hooks.isSubordinateResult msg = true) :
  run hooks agent [msg] = (exec (hooks.processSubordinateResult msg) agent).2
  := by
  rw [run, List.foldl_cons, List.foldl_nil, exec_processMessage, if_neg hcancel, if_neg hfailed,
    if_pos hresult, exec_bind_pure_snd]

end Template

/-! ### Delegation -/

section Delegation

/-- Of the coordination only the pending subordinates have changed, and at most `n` messages
have been sent, none of them a failure. -/
structure Delegated (n : ℕ) (before after : LeadAgent σ) : Prop where
  coordination : ∃ pending,
    after.coordination = { before.coordination with pendingSubordinates := pending }
  messageBus : after.core.messageBus = before.core.messageBus
  sent : ∃ messages, after.core.sent = before.core.sent ++ messages ∧ messages.length ≤ n
    ∧ ∀ msg ∈ messages, msg.actionType = .execute

theorem Delegated.refl (n : ℕ) : Delegated n agent agent where
  coordination := ⟨_, rfl⟩
  messageBus := rfl
  sent := ⟨[], (List.append_nil _).symm, Nat.zero_le _, by simp⟩

variable {before after : LeadAgent σ} {m n : ℕ}

theorem Delegated.mono (h : Delegated m before after) (hle : m ≤ n) :
  Delegated n before after
  := by
  obtain ⟨messages, hsent, hlength, hexecute⟩ := h.sent
  exact ⟨h.coordination, h.messageBus, messages, hsent, hlength.trans hle, hexecute⟩

theorem Delegated.trans {middle : LeadAgent σ} (h : Delegated m before middle)
    (h' : Delegated n middle after) :
  Delegated (m + n) before after
  := by
  obtain ⟨⟨_, hcoordination⟩, hbus, messages, hsent, hle, hexecute⟩ := h
  obtain ⟨⟨pending, hcoordination'⟩, hbus', messages', hsent', hle', hexecute'⟩ := h'
  refine ⟨⟨pending, ?_⟩, hbus'.trans hbus, messages ++ messages', ?_, ?_, ?_⟩
  · rw [hcoordination', hcoordination]
  · rw [hsent', hsent, List.append_assoc]
  · rw [List.length_append]
    omega
  · intro msg hmsg
    rcases List.mem_append.mp hmsg with hmsg | hmsg
    · exact hexecute msg hmsg
    · exact hexecute' msg hmsg

theorem delegated_handOver (agent : LeadAgent σ) (subordinate subtask : String) :
  Delegated 1 agent (exec (handOver subordinate subtask) agent).2
  := by
  unfold handOver onCore
  simp only [exec_bind, exec_get, exec_focus, AgentCore.exec_generateUuid, exec_coordinate,
    AgentCore.exec_sendMessage]
  cases hbus : agent.core.messageBus with
  | true => exact ⟨⟨_, rfl⟩, hbus.symm, [_], rfl, Nat.le_refl _, by simp [KeystoneMessage.create]⟩
  | false =>
    exact ⟨⟨_, rfl⟩, hbus.symm, [], (List.append_nil _).symm, Nat.zero_le _, by simp⟩

theorem delegated_delegate (choose : List String → ℕ → Except String String) (i : ℕ)
    (subtasks : List String) :
  Delegated subtasks.length agent (exec (delegate choose i subtasks) agent).2
  := by
  induction subtasks generalizing i agent with
  | nil => exact Delegated.refl _
  | cons subtask subtasks ih =>
    rw [delegate, exec_get_bind, exec_bind, exec_lift]
    rcases choose agent.subordinates i with e | subordinate
    · exact Delegated.refl _
    · have hstep := delegated_handOver agent subordinate subtask
      simp only [exec_bind, List.length_cons]
      generalize exec (handOver subordinate subtask) agent = outcome at hstep ⊢
      obtain ⟨e | _, agent'⟩ := outcome
      · exact hstep.mono (Nat.le_add_left 1 _)
      · exact (hstep.trans (ih (i + 1))).mono (Nat.add_comm 1 _).le

end Delegation

/-- The agent that plans a goal. -/
def planning {σ : Type} (hooks : LeadHooks σ) (goal : KeystoneMessage) (agent : LeadAgent σ) :
    LeadAgent σ :=
  { agent with
    coordination :=
      ((agent.coordination.transitionTo hooks.planningState
        (hooks.stateToString hooks.planningState)).setCurrentGoal goal.command).setRequesterId
        goal.senderId }

/-- The agent that has accepted a goal with `n` subtasks and is about to delegate them. -/
def accepting {σ : Type} (hooks : LeadHooks σ) (goal : KeystoneMessage) (n : ℕ)
    (agent : LeadAgent σ) : LeadAgent σ :=
  { agent with
    coordination :=
      ((planning hooks goal agent).coordination.initializeCoordination n).transitionTo
        hooks.waitingState (hooks.stateToString hooks.waitingState) }

variable {goal : KeystoneMessage}

section Goal

variable (hgoal : hooks.isGoal goal = true)

include hgoal

theorem exec_processMessage_goal :
  exec (processMessage hooks goal) agent
    = exec (startSubtasks hooks goal (hooks.decomposeGoal goal.command))
        (planning hooks goal agent)
  := by
  simp only [LeadHooks.isGoal, Bool.and_eq_true, Bool.not_eq_true', decide_eq_true_eq] at hgoal
  obtain ⟨⟨hcancel, hfailed⟩, hresult⟩ := hgoal
  rw [exec_processMessage, if_neg hcancel, if_neg hfailed, if_neg (by simp [hresult])]
  rfl

/-- A goal that is accepted is delegated. -/
theorem exec_accepted (hsome : hooks.decomposeGoal goal.command ≠ [])
    (hmax : (hooks.decomposeGoal goal.command).length ≤ intMax) :
  exec (processMessage hooks goal) agent
    = exec (do
        hooks.delegateSubtasks (hooks.decomposeGoal goal.command)
        return .createSuccess goal agent.core.agentId ("Goal decomposed into "
          ++ toString (hooks.decomposeGoal goal.command).length ++ " subtasks"))
        (accepting hooks goal (hooks.decomposeGoal goal.command).length agent)
  := by
  rw [exec_processMessage_goal hgoal, startSubtasks, exec_get_bind, if_neg hsome,
    if_neg hmax.not_gt, exec_coordinate_bind, transitionTo, exec_coordinate_bind]
  rfl

theorem run_accepted (hsome : hooks.decomposeGoal goal.command ≠ [])
    (hmax : (hooks.decomposeGoal goal.command).length ≤ intMax) :
  run hooks agent [goal]
    = (exec (hooks.delegateSubtasks (hooks.decomposeGoal goal.command))
        (accepting hooks goal (hooks.decomposeGoal goal.command).length agent)).2
  := by
  rw [run, List.foldl_cons, List.foldl_nil, exec_accepted hgoal hsome hmax, exec_bind_pure_snd]

theorem run_rejected
    (h : hooks.decomposeGoal goal.command = []
      ∨ intMax < (hooks.decomposeGoal goal.command).length) :
  (run hooks agent [goal]).coordination.currentState = hooks.errorState
    ∧ (run hooks agent [goal]).core = agent.core
  := by
  rw [run, List.foldl_cons, List.foldl_nil, exec_processMessage_goal hgoal, startSubtasks,
    exec_get_bind]
  split_ifs with hnone hmax
  · exact ⟨rfl, rfl⟩
  · exact ⟨rfl, rfl⟩
  · exact absurd h (not_or.mpr ⟨hnone, hmax⟩)

end Goal

end LeadAgent

/-! ### Results -/

section Results

variable {msg : KeystoneMessage} {payload : String}

theorem ModuleLeadAgent.exec_result {agent : LeadAgent ModuleLeadState}
    (hpayload : msg.payload = some payload) :
  (exec (processSubordinateResult msg) agent).2
    = let c := agent.coordination.recordResult payload
      let next := if c.hasFailures then ModuleLeadState.error else .synthesizing
      { agent with
        coordination :=
          if c.isComplete then c.transitionTo next (stateToString next) else c }
  := by
  rw [processSubordinateResult, hpayload, exec_coordinate_bind, exec_get_bind]
  cases hcomplete : (agent.coordination.recordResult payload).isComplete with
  | true =>
    cases hfailures : (agent.coordination.recordResult payload).hasFailures <;>
      simp only [hcomplete, hfailures, if_true, Bool.false_eq_true, if_false] <;> rfl
  | false =>
    simp only [hcomplete, Bool.false_eq_true, if_false]
    rfl

theorem ComponentLeadAgent.exec_result {agent : LeadAgent ComponentLeadState}
    (hpayload : msg.payload = some payload) :
  (exec (processSubordinateResult msg) agent).2
    = let c := agent.coordination.recordResult payload
      { agent with
        coordination :=
          if c.isComplete then c.transitionTo .aggregating (stateToString .aggregating) else c }
  := by
  rw [processSubordinateResult, hpayload, exec_coordinate_bind, exec_get_bind]
  cases hcomplete : (agent.coordination.recordResult payload).isComplete <;>
    simp only [hcomplete, if_true, Bool.false_eq_true, if_false] <;> rfl

end Results

/-! ### Counting -/

namespace LeadKind

variable {kind : LeadKind} {agent : LeadAgent kind.State} {msg : KeystoneMessage}

theorem delegated_delegateSubtasks (kind : LeadKind) (agent : LeadAgent kind.State)
    (subtasks : List String) :
  Delegated subtasks.length agent (exec (kind.hooks.delegateSubtasks subtasks) agent).2
  := by
  cases kind with
  | moduleLead => exact delegated_delegate ModuleLeadAgent.chooseTaskAgent 0 subtasks
  | componentLead => exact delegated_delegate ComponentLeadAgent.chooseModuleLead 0 subtasks

/-- A message has been counted.  Only a failure that completes the count is reported. -/
structure Counted (kind : LeadKind) (msg : KeystoneMessage)
    (before after : LeadAgent kind.State) : Prop where
  expected : after.coordination.expectedResults = before.coordination.expectedResults
  received : after.coordination.receivedResults = before.coordination.receivedResults + 1
  failed : after.coordination.failedResults
    = before.coordination.failedResults + if msg.actionType = .taskFailed then 1 else 0
  requester : after.coordination.requesterId = before.coordination.requesterId
  state : after.coordination.currentState
    = if before.coordination.expectedResults ≤ before.coordination.receivedResults + 1 then
        kind.concluded (msg.actionType = .taskFailed) (0 < after.coordination.failedResults)
      else before.coordination.currentState
  core : after.core
    = if msg.actionType = .taskFailed
        ∧ before.coordination.expectedResults ≤ before.coordination.receivedResults + 1 then
        (exec (reportFailure before.coordination.requesterId msg.sessionId
          (msg.payload.getD "subordinate task failed")) before.core).2
      else before.core

theorem counted_failure (h : msg.actionType = .taskFailed) :
  Counted kind msg agent (run kind.hooks agent [msg])
  := by
  rw [run_failure h]
  dsimp only
  split_ifs with hle
  · refine ⟨rfl, rfl, ?_, rfl, ?_, (if_pos ⟨h, hle⟩).symm⟩
    · rw [if_pos h]
      rfl
    · change _ = if _ then kind.concluded _ (decide (0 < agent.coordination.failedResults + 1))
        else _
      rw [if_pos hle, decide_eq_true h, decide_eq_true (Nat.succ_pos _), concluded_failed]
      rfl
  · refine ⟨rfl, rfl, ?_, rfl, (if_neg hle).symm, (if_neg fun h => hle h.2).symm⟩
    rw [if_pos h]
    rfl

variable {payload : String}

theorem exec_result (hpayload : msg.payload = some payload) :
  (exec (kind.hooks.processSubordinateResult msg) agent).2
    = let c := agent.coordination.recordResult payload
      let next := kind.concluded false c.hasFailures
      { agent with
        coordination :=
          if c.isComplete then c.transitionTo next (kind.hooks.stateToString next) else c }
  := by
  cases kind with
  | moduleLead => exact ModuleLeadAgent.exec_result hpayload
  | componentLead => exact ComponentLeadAgent.exec_result hpayload

theorem counted_result (hcancel : msg.actionType ≠ .cancelTask)
    (hfailed : msg.actionType ≠ .taskFailed) (hresult : kind.hooks.isSubordinateResult msg = true)
    (hpayload : msg.payload = some payload) :
  Counted kind msg agent (run kind.hooks agent [msg])
  := by
  rw [run_result hcancel hfailed hresult, exec_result hpayload]
  have hcomplete : (agent.coordination.recordResult payload).isComplete
      = decide (agent.coordination.expectedResults ≤ agent.coordination.receivedResults + 1) := rfl
  by_cases hle : agent.coordination.expectedResults ≤ agent.coordination.receivedResults + 1
  · simp only [hcomplete, decide_eq_true hle, if_true]
    refine ⟨rfl, rfl, ?_, rfl, ?_, (if_neg fun h => hfailed h.1).symm⟩
    · rw [if_neg hfailed]
      rfl
    · rw [if_pos hle, decide_eq_false hfailed]
      rfl
  · simp only [hcomplete, decide_eq_false hle, Bool.false_eq_true, if_false]
    refine ⟨rfl, rfl, ?_, rfl, (if_neg hle).symm, (if_neg fun h => hfailed h.1).symm⟩
    rw [if_neg hfailed]
    rfl

theorem counted_of_isTerminal (h : kind.hooks.isTerminal msg = true) :
  Counted kind msg agent (run kind.hooks agent [msg])
  := by
  by_cases hfailed : msg.actionType = .taskFailed
  · exact counted_failure hfailed
  · simp only [LeadHooks.isTerminal, hfailed, Bool.or_eq_true, Bool.and_eq_true, decide_false,
      decide_eq_true_eq, Bool.false_eq_true, false_or] at h
    obtain ⟨⟨hcancel, hresult⟩, hpayload⟩ := h
    obtain ⟨payload, hpayload⟩ := Option.isSome_iff_exists.mp hpayload
    exact counted_result hcancel hfailed hresult hpayload

/-- A message that is neither terminal nor a goal is not counted. -/
theorem coordination_of_not_isTerminal (hterminal : ¬ kind.hooks.isTerminal msg = true)
    (hgoal : ¬ kind.hooks.isGoal msg = true) :
  (run kind.hooks agent [msg]).coordination = agent.coordination
  := by
  by_cases hcancel : msg.actionType = .cancelTask
  · rw [run_cancellation hcancel]
  · simp only [LeadHooks.isTerminal, LeadHooks.isGoal, hcancel, Bool.or_eq_true, Bool.and_eq_true,
      decide_eq_true_eq, ne_eq, not_false_eq_true, decide_true, true_and, not_or, not_and,
      Bool.not_eq_true', Bool.not_eq_false] at hterminal hgoal
    obtain ⟨hfailed, hpayload⟩ := hterminal
    have hresult := hgoal hfailed
    have hnone : msg.payload = none := Option.not_isSome_iff_eq_none.mp (hpayload hresult)
    rw [run_result hcancel hfailed hresult]
    cases kind with
    | moduleLead =>
      simp only [hooks, ModuleLeadAgent.hooks, ModuleLeadAgent.processSubordinateResult, hnone]
      rfl
    | componentLead =>
      simp only [hooks, ComponentLeadAgent.hooks, ComponentLeadAgent.processSubordinateResult,
        hnone]
      rfl

/-! ### Runs -/

theorem run_cons (messages : List KeystoneMessage) :
  run kind.hooks agent (msg :: messages) = run kind.hooks (run kind.hooks agent [msg]) messages
  := rfl

theorem run_append (xs ys : List KeystoneMessage) :
  run kind.hooks agent (xs ++ ys) = run kind.hooks (run kind.hooks agent xs) ys
  := List.foldl_append

/-- Has the message been sent because of a failure? -/
def isFailure (msg : KeystoneMessage) : Bool :=
  msg.actionType = .taskFailed

/-- All the messages have been counted, and the agent still waits. -/
structure Waits (kind : LeadKind) (messages : List KeystoneMessage)
    (before after : LeadAgent kind.State) : Prop where
  expected : after.coordination.expectedResults = before.coordination.expectedResults
  received : after.coordination.receivedResults
    = before.coordination.receivedResults + messages.length
  failed : after.coordination.failedResults
    = before.coordination.failedResults + messages.countP isFailure
  requester : after.coordination.requesterId = before.coordination.requesterId
  state : after.coordination.currentState = before.coordination.currentState
  core : after.core = before.core

theorem waits_run {messages : List KeystoneMessage}
    (hterminal : ∀ msg ∈ messages, kind.hooks.isTerminal msg = true)
    (hlt : agent.coordination.receivedResults + messages.length
      < agent.coordination.expectedResults) :
  Waits kind messages agent (run kind.hooks agent messages)
  := by
  induction messages generalizing agent with
  | nil => exact ⟨rfl, rfl, rfl, rfl, rfl, rfl⟩
  | cons msg messages ih =>
    rw [List.length_cons] at hlt
    have hmsg : Counted kind msg agent (run kind.hooks agent [msg])
      := counted_of_isTerminal (hterminal msg List.mem_cons_self)
    have hnotLast : ¬ agent.coordination.expectedResults
        ≤ agent.coordination.receivedResults + 1 := by omega
    have hrest := ih
      (fun m hm => hterminal m (List.mem_cons_of_mem msg hm))
      (by rw [hmsg.expected, hmsg.received]; omega)
    rw [run_cons]
    refine ⟨?_, ?_, ?_, ?_, ?_, ?_⟩
    · rw [hrest.expected, hmsg.expected]
    · rw [hrest.received, hmsg.received, List.length_cons]
      omega
    · rw [hrest.failed, hmsg.failed, List.countP_cons]
      simp only [isFailure, decide_eq_true_eq]
      omega
    · rw [hrest.requester, hmsg.requester]
    · rw [hrest.state, hmsg.state, if_neg hnotLast]
    · rw [hrest.core, hmsg.core, if_neg fun h => hnotLast h.2]

/-- The agent has accepted a goal from `requester` and delegated its `n` subtasks. -/
structure Accepts (kind : LeadKind) (requester : String) (n : ℕ)
    (before after : LeadAgent kind.State) : Prop where
  expected : after.coordination.expectedResults = n
  received : after.coordination.receivedResults = 0
  failed : after.coordination.failedResults = 0
  requester : after.coordination.requesterId = requester
  state : after.coordination.currentState = kind.hooks.waitingState
  messageBus : after.core.messageBus = before.core.messageBus
  sent : ∃ messages, after.core.sent = before.core.sent ++ messages ∧ messages.length ≤ n
    ∧ ∀ msg ∈ messages, msg.actionType = .execute

theorem accepts_run (agent : LeadAgent kind.State) {goal : KeystoneMessage}
    (hgoal : kind.hooks.isGoal goal = true) (hsome : kind.hooks.decomposeGoal goal.command ≠ [])
    (hmax : (kind.hooks.decomposeGoal goal.command).length ≤ intMax) :
  Accepts kind goal.senderId (kind.hooks.decomposeGoal goal.command).length agent
    (run kind.hooks agent [goal])
  := by
  have h := delegated_delegateSubtasks kind
    (accepting kind.hooks goal (kind.hooks.decomposeGoal goal.command).length agent)
    (kind.hooks.decomposeGoal goal.command)
  rw [← run_accepted hgoal hsome hmax] at h
  obtain ⟨⟨pending, hcoordination⟩, hbus, hsent⟩ := h
  refine ⟨?_, ?_, ?_, ?_, ?_, hbus, hsent⟩ <;> rw [hcoordination] <;> rfl

variable {messages : List KeystoneMessage}

theorem not_any_isFailure :
  messages.any isFailure = false ↔ ∀ msg ∈ messages, msg.actionType ≠ .taskFailed
  := by
  simp [isFailure]

/-- Which state a lead agent should end in. -/
def Settled (kind : LeadKind) (messages : List KeystoneMessage) (agent : LeadAgent kind.State) :
    Prop :=
  agent.coordination.currentState
    = if messages.any isFailure then kind.hooks.errorState else kind.hooks.aggregatingState

/-- The failures that have been reported to the requester. -/
def reported (requester : String) (sent : List KeystoneMessage) : ℕ :=
  sent.countP fun msg => isFailure msg && msg.receiverId = requester

theorem reported_append (requester : String) (xs ys : List KeystoneMessage) :
  reported requester (xs ++ ys) = reported requester xs + reported requester ys
  := List.countP_append

variable {requester : String}

/-- The messages to subordinates are not failures. -/
theorem reported_of_execute (h : ∀ msg ∈ messages, msg.actionType = .execute) :
  reported requester messages = 0
  := by
  rw [reported, List.countP_eq_zero]
  intro msg hmsg
  simp [isFailure, h msg hmsg]

theorem sent_reportFailure {core : AgentCore} (hrequester : requester ≠ "")
    (session error : String) :
  reported requester (exec (reportFailure requester session error) core).2.sent
    = reported requester core.sent + if core.messageBus then 1 else 0
  := by
  rw [reportFailure, if_pos hrequester, exec_get_bind, exec_bind, AgentCore.exec_generateUuid]
  simp only [AgentCore.exec_sendMessage]
  split_ifs
  · simp [reported, isFailure, KeystoneMessage.createAction]
  · rfl

/-- One failure has been reported if there is one among the messages, and none otherwise. -/
def ReportedOnce (requester : String) (messages : List KeystoneMessage)
    (before after : AgentCore) : Prop :=
  reported requester after.sent
    = reported requester before.sent + if messages.any isFailure then 1 else 0

section Answered

variable (agent : LeadAgent kind.State) (goal last : KeystoneMessage)
  (answers : List KeystoneMessage) (hgoal : kind.hooks.isGoal goal = true)
  (hmax : (kind.hooks.decomposeGoal goal.command).length ≤ intMax)
  (hcount : (kind.hooks.decomposeGoal goal.command).length = answers.length + 1)
  (hterminal : ∀ msg ∈ answers ++ [last], kind.hooks.isTerminal msg = true)

include hgoal hmax hcount hterminal

/-- The agent before the last of as many messages as the goal has subtasks. -/
theorem waits_before_last :
  ∃ accepted, Accepts kind goal.senderId (answers.length + 1) agent accepted
    ∧ Waits kind answers accepted (run kind.hooks agent (goal :: answers))
    ∧ Counted kind last (run kind.hooks agent (goal :: answers))
      (run kind.hooks agent (goal :: (answers ++ [last])))
  := by
  have hsome : kind.hooks.decomposeGoal goal.command ≠ [] := List.ne_nil_of_length_eq_add_one hcount
  have haccepts := accepts_run agent hgoal hsome hmax
  rw [hcount] at haccepts
  refine ⟨_, haccepts, waits_run ?_ ?_, ?_⟩
  · intro msg hmsg
    exact hterminal msg (List.mem_append_left _ hmsg)
  · rw [haccepts.received, haccepts.expected]
    omega
  · rw [← List.cons_append, run_append]
    exact counted_of_isTerminal (hterminal last (by simp))

theorem currentState_run :
  (run kind.hooks agent (goal :: (answers ++ [last]))).coordination.currentState
    = kind.concluded (isFailure last) ((answers ++ [last]).any isFailure)
  := by
  obtain ⟨accepted, haccepts, hwaits, hlast⟩
    := waits_before_last agent goal last answers hgoal hmax hcount hterminal
  have hfailed : (run kind.hooks agent (goal :: (answers ++ [last]))).coordination.failedResults
      = (answers ++ [last]).countP isFailure := by
    rw [hlast.failed, hwaits.failed, haccepts.failed, List.countP_append, List.countP_singleton]
    simp [isFailure]
  have hany : decide (0 < (answers ++ [last]).countP isFailure)
      = (answers ++ [last]).any isFailure := by
    rw [Bool.eq_iff_iff, decide_eq_true_eq, List.countP_pos_iff, List.any_eq_true]
  rw [hlast.state, if_pos, hfailed, hany, isFailure]
  rw [hwaits.expected, haccepts.expected, hwaits.received, haccepts.received]
  omega

theorem reportedOnce_iff_last (hrequester : goal.senderId ≠ "") :
  ReportedOnce goal.senderId (answers ++ [last]) agent.core
      (run kind.hooks agent (goal :: (answers ++ [last]))).core
    ↔ (isFailure last && agent.core.messageBus) = (answers ++ [last]).any isFailure
  := by
  obtain ⟨accepted, haccepts, hwaits, hlast⟩
    := waits_before_last agent goal last answers hgoal hmax hcount hterminal
  have hbefore : reported goal.senderId (run kind.hooks agent (goal :: answers)).core.sent
      = reported goal.senderId agent.core.sent := by
    obtain ⟨messages, hsent, -, hexecute⟩ := haccepts.sent
    rw [hwaits.core, hsent, reported_append, reported_of_execute hexecute, Nat.add_zero]
  have hafter :
      reported goal.senderId (run kind.hooks agent (goal :: (answers ++ [last]))).core.sent
        = reported goal.senderId agent.core.sent
          + if isFailure last && agent.core.messageBus then 1 else 0 := by
    have hcore := hlast.core
    by_cases hfailed : last.actionType = .taskFailed
    · have hle : (run kind.hooks agent (goal :: answers)).coordination.expectedResults
          ≤ (run kind.hooks agent (goal :: answers)).coordination.receivedResults + 1 := by
        rw [hwaits.expected, haccepts.expected, hwaits.received, haccepts.received]
        omega
      rw [if_pos ⟨hfailed, hle⟩, hwaits.requester, haccepts.requester] at hcore
      rw [hcore, sent_reportFailure hrequester, hbefore, hwaits.core, haccepts.messageBus,
        isFailure, decide_eq_true hfailed, Bool.true_and]
    · rw [if_neg fun h => hfailed h.1] at hcore
      rw [hcore, hbefore, isFailure, decide_eq_false hfailed, Bool.false_and]
      rfl
  rw [ReportedOnce, hafter, Nat.add_left_cancel_iff]
  cases isFailure last && agent.core.messageBus <;> cases (answers ++ [last]).any isFailure <;>
    simp

end Answered

/-- A lead agent whose goal has `n` subtasks ends in its error state after `n` terminal messages
of which one is a failure, and in its synthesizing or aggregating state otherwise, exactly if it
is a module lead, the last message is a failure, or none is. -/
theorem settled_iff (kind : LeadKind) (agent : LeadAgent kind.State) (goal last : KeystoneMessage)
    (answers : List KeystoneMessage) (hgoal : kind.hooks.isGoal goal = true)
    (hmax : (kind.hooks.decomposeGoal goal.command).length ≤ intMax)
    (hcount : (kind.hooks.decomposeGoal goal.command).length = answers.length + 1)
    (hterminal : ∀ msg ∈ answers ++ [last], kind.hooks.isTerminal msg = true) :
  Settled kind (answers ++ [last]) (run kind.hooks agent (goal :: (answers ++ [last])))
    ↔ kind = .moduleLead ∨ last.actionType = .taskFailed
      ∨ ∀ msg ∈ answers, msg.actionType ≠ .taskFailed
  := by
  rw [Settled, currentState_run agent goal last answers hgoal hmax hcount hterminal]
  cases kind with
  | moduleLead => exact iff_of_true rfl (.inl rfl)
  | componentLead =>
    have hkind : ¬ LeadKind.componentLead = .moduleLead := fun h => nomatch h
    rw [List.any_append, List.any_cons, List.any_nil, Bool.or_false, or_iff_right hkind]
    by_cases hlast : last.actionType = .taskFailed
    · rw [isFailure, decide_eq_true hlast, Bool.or_true]
      exact iff_of_true rfl (.inl hlast)
    · rw [isFailure, decide_eq_false hlast, Bool.or_false, or_iff_right hlast]
      rw [← not_any_isFailure]
      cases answers.any isFailure with
      | true => exact iff_of_false (fun h => ComponentLeadState.noConfusion h) Bool.noConfusion
      | false => exact iff_of_true rfl rfl

/-- A component lead with two module leads. -/
def twoModules : LeadAgent LeadKind.componentLead.State :=
  fresh .componentLead "component" ["first", "second"] toString

/-- A goal with two sections. -/
def twoSections : KeystoneMessage :=
  .create "goal" "chief" "component" "A(1) B(2)" none

/-- The failure of a module lead. -/
def moduleFailure : KeystoneMessage :=
  .createAction "0" "first" "component" .taskFailed "default" (some "error")

/-- The result of a module lead. -/
def moduleResult : KeystoneMessage :=
  .create "1" "second" "component" "module_result" (some "2")

theorem settled_twoSections :
  Settled .componentLead [moduleResult, moduleFailure]
    (run componentLead.hooks twoModules [twoSections, moduleResult, moduleFailure])
  := by
  have hsubtasks : (componentLead.hooks.decomposeGoal twoSections.command).length = 2 := by decide
  exact (settled_iff .componentLead twoModules twoSections moduleFailure [moduleResult]
    (by decide) (by rw [hsubtasks]; decide) hsubtasks (by decide)).mpr (.inr (.inl rfl))

/-- If the failure comes first, a component lead takes the goal for achieved. -/
theorem not_settled_twoSections :
  ¬ Settled .componentLead [moduleFailure, moduleResult]
    (run componentLead.hooks twoModules [twoSections, moduleFailure, moduleResult])
  := by
  intro h
  have hsubtasks : (componentLead.hooks.decomposeGoal twoSections.command).length = 2 := by decide
  have hstate := currentState_run twoModules twoSections moduleResult [moduleFailure]
    (by decide) (by rw [hsubtasks]; decide) hsubtasks (by decide)
  rw [Settled] at h
  rw [List.singleton_append, h] at hstate
  exact ComponentLeadState.noConfusion hstate

/-- The failures that a lead agent reports to its requester are one if there is a failure among
the messages and none otherwise, exactly if there is none, or if the last message is a failure
and there is a bus. -/
theorem reportedOnce_iff (kind : LeadKind) (agent : LeadAgent kind.State)
    (goal last : KeystoneMessage) (answers : List KeystoneMessage)
    (hgoal : kind.hooks.isGoal goal = true) (hrequester : goal.senderId ≠ "")
    (hmax : (kind.hooks.decomposeGoal goal.command).length ≤ intMax)
    (hcount : (kind.hooks.decomposeGoal goal.command).length = answers.length + 1)
    (hterminal : ∀ msg ∈ answers ++ [last], kind.hooks.isTerminal msg = true) :
  ReportedOnce goal.senderId (answers ++ [last]) agent.core
      (run kind.hooks agent (goal :: (answers ++ [last]))).core
    ↔ (∀ msg ∈ answers ++ [last], msg.actionType ≠ .taskFailed)
      ∨ last.actionType = .taskFailed ∧ agent.core.messageBus = true
  := by
  rw [reportedOnce_iff_last agent goal last answers hgoal hmax hcount hterminal hrequester,
    ← not_any_isFailure]
  by_cases hfailed : last.actionType = .taskFailed
  · have hany : (answers ++ [last]).any isFailure = true
      := List.any_eq_true.mpr ⟨last, by simp, decide_eq_true hfailed⟩
    rw [hany, isFailure, decide_eq_true hfailed]
    simp [hfailed]
  · rw [isFailure, decide_eq_false hfailed, Bool.false_and, or_iff_left fun h => hfailed h.1]
    exact eq_comm

theorem reportedOnce_twoSections :
  ReportedOnce "chief" [moduleResult, moduleFailure] twoModules.core
    (run componentLead.hooks twoModules [twoSections, moduleResult, moduleFailure]).core
  := by
  have hsubtasks : (componentLead.hooks.decomposeGoal twoSections.command).length = 2 := by decide
  exact (reportedOnce_iff .componentLead twoModules twoSections moduleFailure [moduleResult]
    (by decide) (by decide) (by rw [hsubtasks]; decide) hsubtasks (by decide)).mpr
    (.inr ⟨rfl, rfl⟩)

/-- If the failure comes first, nothing is reported. -/
theorem not_reportedOnce_twoSections :
  ¬ ReportedOnce "chief" [moduleFailure, moduleResult] twoModules.core
    (run componentLead.hooks twoModules [twoSections, moduleFailure, moduleResult]).core
  := by
  intro h
  have hsubtasks : (componentLead.hooks.decomposeGoal twoSections.command).length = 2 := by decide
  have hlast := (reportedOnce_iff_last twoModules twoSections moduleResult [moduleFailure]
    (by decide) (by rw [hsubtasks]; decide) hsubtasks (by decide) (by decide)).mp h
  exact Bool.noConfusion hlast

end LeadKind

end Agents

end Agamemnon
