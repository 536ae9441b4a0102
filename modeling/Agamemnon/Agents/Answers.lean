import Agamemnon.Agents.Outcome
import Agamemnon.Lib.Lists

/-!
# Which answers are counted

A lead agent notes the identifiers of the messages it sends and never looks at them: every result
and every failure counts, whichever message it answers.  So the agent leaves its waiting state
with the `n`-th terminal message after its goal, and it has all its answers then only if none of
these messages was a duplicate or an answer to something else.
-/

namespace Agamemnon

namespace Agents

open Attempt LeadAgent
open Numerals (intMax)

namespace LeadKind

variable {kind : LeadKind} {agent : LeadAgent kind.State} {msg : KeystoneMessage}

/-! ### Leaving the waiting state -/

theorem concluded_ne_waiting (lastFailed anyFailed : Bool) :
  kind.concluded lastFailed anyFailed ≠ kind.hooks.waitingState
  := by
  cases kind with
  | moduleLead =>
    cases anyFailed <;> exact fun h => ModuleLeadState.noConfusion h
  | componentLead =>
    cases lastFailed <;> exact fun h => ComponentLeadState.noConfusion h

theorem error_ne_waiting :
  kind.hooks.errorState ≠ kind.hooks.waitingState
  := by
  cases kind with
  | moduleLead => exact fun h => ModuleLeadState.noConfusion h
  | componentLead => exact fun h => ComponentLeadState.noConfusion h

/-- Only a goal makes an agent wait. -/
theorem not_waiting_of_not_isGoal (hgoal : ¬ kind.hooks.isGoal msg = true)
    (h : agent.coordination.currentState ≠ kind.hooks.waitingState) :
  (run kind.hooks agent [msg]).coordination.currentState ≠ kind.hooks.waitingState
  := by
  by_cases hterminal : kind.hooks.isTerminal msg = true
  · rw [(counted_of_isTerminal hterminal).state]
    split_ifs
    · exact concluded_ne_waiting _ _
    · exact h
  · rw [coordination_of_not_isTerminal hterminal hgoal]
    exact h

theorem not_waiting_run {messages : List KeystoneMessage}
    (hgoal : ∀ msg ∈ messages, ¬ kind.hooks.isGoal msg = true)
    (h : agent.coordination.currentState ≠ kind.hooks.waitingState) :
  (run kind.hooks agent messages).coordination.currentState ≠ kind.hooks.waitingState
  := by
  induction messages generalizing agent with
  | nil => exact h
  | cons msg messages ih =>
    rw [run_cons]
    apply ih (fun m hm => hgoal m (List.mem_cons_of_mem msg hm))
    exact not_waiting_of_not_isGoal (hgoal msg List.mem_cons_self) h

/-- An agent that waits goes on to wait exactly until the count is complete. -/
theorem waiting_run_iff {messages : List KeystoneMessage}
    (hgoal : ∀ msg ∈ messages, ¬ kind.hooks.isGoal msg = true)
    (hwaiting : agent.coordination.currentState = kind.hooks.waitingState)
    (hlt : agent.coordination.receivedResults < agent.coordination.expectedResults) :
  (run kind.hooks agent messages).coordination.currentState = kind.hooks.waitingState
    ↔ agent.coordination.receivedResults + messages.countP kind.hooks.isTerminal
      < agent.coordination.expectedResults
  := by
  induction messages generalizing agent with
  | nil => exact iff_of_true hwaiting hlt
  | cons msg messages ih =>
    have hrest : ∀ m ∈ messages, ¬ kind.hooks.isGoal m = true
      := fun m hm => hgoal m (List.mem_cons_of_mem msg hm)
    rw [run_cons, List.countP_cons]
    by_cases hterminal : kind.hooks.isTerminal msg = true
    · have hmsg : Counted kind msg agent (run kind.hooks agent [msg])
        := counted_of_isTerminal hterminal
      rw [if_pos hterminal]
      by_cases hlast : agent.coordination.expectedResults
          ≤ agent.coordination.receivedResults + 1
      · have hleft : (run kind.hooks agent [msg]).coordination.currentState
            ≠ kind.hooks.waitingState := by
          rw [hmsg.state, if_pos hlast]
          exact concluded_ne_waiting _ _
        exact iff_of_false (not_waiting_run hrest hleft) (by omega)
      · rw [ih hrest (by rw [hmsg.state, if_neg hlast, hwaiting])
          (by rw [hmsg.received, hmsg.expected]; omega), hmsg.received, hmsg.expected]
        omega
    · have hsame : (run kind.hooks agent [msg]).coordination = agent.coordination
        := coordination_of_not_isTerminal hterminal (hgoal msg List.mem_cons_self)
      rw [if_neg hterminal, ih hrest (by rw [hsame, hwaiting]) (by rw [hsame]; exact hlt), hsame,
        Nat.add_zero]

/-! ### The answers to a goal -/

/-- The identifiers of the messages that were sent in between. -/
def sentIds (before after : LeadAgent kind.State) : List String :=
  (after.core.sent.drop before.core.sent.length).map (·.msgId)

/-- The identifiers of the messages that are counted. -/
def countedIds (kind : LeadKind) (messages : List KeystoneMessage) : List String :=
  (messages.filter kind.hooks.isTerminal).map (·.msgId)

section Goal

variable {goal : KeystoneMessage} {messages : List KeystoneMessage}

/-- An agent that waits after a goal has accepted it. -/
theorem accepts_of_waiting (hgoal : kind.hooks.isGoal goal = true)
    (hmessages : ∀ msg ∈ messages, ¬ kind.hooks.isGoal msg = true)
    (hwaiting : (run kind.hooks agent (goal :: messages)).coordination.currentState
      = kind.hooks.waitingState) :
  kind.hooks.decomposeGoal goal.command ≠ []
    ∧ (kind.hooks.decomposeGoal goal.command).length ≤ intMax
  := by
  by_contra h
  rw [not_and_or, not_not, not_le] at h
  have hrejected : (run kind.hooks agent [goal]).coordination.currentState
      ≠ kind.hooks.waitingState := by
    rw [(run_rejected hgoal h).1]
    exact error_ne_waiting
  exact not_waiting_run hmessages hrejected hwaiting

/-- The agent leaves its waiting state with the `n`-th terminal message. -/
theorem length_countedIds {last : KeystoneMessage} (hgoal : kind.hooks.isGoal goal = true)
    (hmessages : ∀ msg ∈ messages ++ [last], ¬ kind.hooks.isGoal msg = true)
    (hwaiting : (run kind.hooks agent (goal :: messages)).coordination.currentState
      = kind.hooks.waitingState)
    (hleft : (run kind.hooks agent (goal :: (messages ++ [last]))).coordination.currentState
      ≠ kind.hooks.waitingState) :
  (kind.countedIds (messages ++ [last])).length
    = (kind.hooks.decomposeGoal goal.command).length
  := by
  have hbefore : ∀ msg ∈ messages, ¬ kind.hooks.isGoal msg = true
    := fun msg hmsg => hmessages msg (List.mem_append_left _ hmsg)
  obtain ⟨hsome, hmax⟩ := accepts_of_waiting hgoal hbefore hwaiting
  have haccepts := accepts_run agent hgoal hsome hmax
  have hlt : (run kind.hooks agent [goal]).coordination.receivedResults
      < (run kind.hooks agent [goal]).coordination.expectedResults := by
    rw [haccepts.received, haccepts.expected]
    exact List.length_pos_iff.mpr hsome
  rw [run_cons, waiting_run_iff hbefore haccepts.state hlt] at hwaiting
  rw [run_cons, ne_eq, waiting_run_iff hmessages haccepts.state hlt] at hleft
  rw [haccepts.received, haccepts.expected] at hwaiting hleft
  rw [List.countP_append, List.countP_singleton] at hleft
  rw [countedIds, List.length_map, ← List.countP_eq_length_filter, List.countP_append,
    List.countP_singleton]
  split_ifs at hleft ⊢ <;> omega

/-- A lead agent that leaves its waiting state has the answers to all messages that it sent for
its goal, each of them once, exactly if none of them has been answered twice and as many other
messages have been counted as subtasks could not be sent. -/
theorem answered_iff_of_left (kind : LeadKind) (agent : LeadAgent kind.State)
    (goal last : KeystoneMessage) (messages : List KeystoneMessage)
    (hgoal : kind.hooks.isGoal goal = true)
    (hmessages : ∀ msg ∈ messages ++ [last], ¬ kind.hooks.isGoal msg = true)
    (hwaiting : (run kind.hooks agent (goal :: messages)).coordination.currentState
      = kind.hooks.waitingState)
    (hleft : (run kind.hooks agent (goal :: (messages ++ [last]))).coordination.currentState
      ≠ kind.hooks.waitingState) :
  Lists.Answered (sentIds agent (run kind.hooks agent [goal]))
      (kind.countedIds (messages ++ [last]))
    ↔ (∀ id ∈ sentIds agent (run kind.hooks agent [goal]),
        (kind.countedIds (messages ++ [last])).count id
          ≤ (sentIds agent (run kind.hooks agent [goal])).count id)
      ∧ ((kind.countedIds (messages ++ [last])).filter
          (· ∉ sentIds agent (run kind.hooks agent [goal]))).length
        = (kind.hooks.decomposeGoal goal.command).length
          - (sentIds agent (run kind.hooks agent [goal])).length
  := by
  have hcounted := length_countedIds hgoal hmessages hwaiting hleft
  obtain ⟨hsome, hmax⟩ := accepts_of_waiting hgoal
    (fun msg hmsg => hmessages msg (List.mem_append_left _ hmsg)) hwaiting
  obtain ⟨sent, hsent, hlength, -⟩ := (accepts_run agent hgoal hsome hmax).sent
  rw [← hcounted]
  apply Lists.answered_iff
  rw [hcounted, sentIds, hsent, List.drop_left, List.length_map]
  exact hlength

end Goal

/-- The result for the message with the identifier. -/
def taskResult (msgId : String) : KeystoneMessage :=
  .create msgId "task" "module" "response" (some "1")

theorem answered_twoNumbers :
  Lists.Answered (sentIds oneTaskAgent (run moduleLead.hooks oneTaskAgent [twoNumbers]))
    (moduleLead.countedIds [taskResult "first", taskResult "second"])
  := by
  exact (answered_iff_of_left .moduleLead oneTaskAgent twoNumbers (taskResult "second")
    [taskResult "first"] (by decide) (by decide) (by decide +kernel) (by decide +kernel)).mpr
    (by decide +kernel)

/-- A result that is delivered twice completes a goal with two subtasks. -/
theorem not_answered_twoNumbers :
  (run moduleLead.hooks oneTaskAgent
      [twoNumbers, taskResult "first"]).coordination.currentState
      = moduleLead.hooks.waitingState
    ∧ (run moduleLead.hooks oneTaskAgent
      [twoNumbers, taskResult "first", taskResult "first"]).coordination.currentState
      = moduleLead.hooks.aggregatingState
    ∧ ¬ Lists.Answered (sentIds oneTaskAgent (run moduleLead.hooks oneTaskAgent [twoNumbers]))
      (moduleLead.countedIds [taskResult "first", taskResult "first"])
  := by
  unfold Lists.Answered
  decide +kernel

end LeadKind

end Agents

end Agamemnon
