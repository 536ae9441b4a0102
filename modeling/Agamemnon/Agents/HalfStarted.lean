import Agamemnon.Agents.Outcome

/-!
# Goals that cannot be delegated

A goal that is rejected leaves a lead agent in its error state, before it has sent anything.  A goal
that is accepted puts the agent into its waiting state, and then the subtasks are sent one by one.
An exception on the way leaves the agent waiting, with the subtasks before it sent.

So a goal that fails leaves nothing half started exactly if it is rejected, or all its subtasks can
be sent (`noHalfStart_iff`).
-/

namespace Agamemnon

namespace Agents

open Attempt LeadAgent
open Numerals (intMax)

/-- The outcome is an exception, or a response that says that there was an error. -/
def Failed (outcome : Except String Response) : Prop :=
  ∀ response, outcome = .ok response → response.status = .error

/-- If processing the goal fails, then nothing has been sent and the agent is in its error
state. -/
def NoHalfStart (kind : LeadKind) (agent : LeadAgent kind.State) (goal : KeystoneMessage) : Prop :=
  Failed (exec (processMessage kind.hooks goal) agent).1 →
    (exec (processMessage kind.hooks goal) agent).2.core.sent = agent.core.sent
      ∧ (exec (processMessage kind.hooks goal) agent).2.coordination.currentState
        = kind.hooks.errorState

/-- There are enough subordinates for `n` subtasks. -/
def LeadKind.Enough : (kind : LeadKind) → (subordinates : List String) → (n : ℕ) → Prop
  | .moduleLead, subordinates, _ => subordinates ≠ []
  | .componentLead, subordinates, n => n ≤ subordinates.length

/-- The goal is rejected, or all its subtasks can be sent. -/
def Startable (kind : LeadKind) (agent : LeadAgent kind.State) (goal : KeystoneMessage) : Prop :=
  let subtasks := kind.hooks.decomposeGoal goal.command
  subtasks = [] ∨ intMax < subtasks.length
    ∨ agent.core.messageBus = true ∧ kind.Enough agent.subordinates subtasks.length

/-! ### Delegation -/

section Delegation

variable {σ : Type} {agent : LeadAgent σ}

/-- A subtask is sent if there is a bus. -/
theorem exec_handOver_of_bus (h : agent.core.messageBus = true) (subordinate subtask : String) :
  ∃ agent' msg, exec (handOver subordinate subtask) agent = (.ok (), agent')
    ∧ agent'.core.messageBus = true ∧ agent'.subordinates = agent.subordinates
    ∧ agent'.core.sent = agent.core.sent ++ [msg] ∧ msg.command = subtask
  := by
  unfold handOver onCore
  simp only [exec_bind, exec_get, exec_focus, AgentCore.exec_generateUuid, exec_coordinate,
    AgentCore.exec_sendMessage, h, if_true]
  exact ⟨_, _, rfl, rfl, rfl, rfl, rfl⟩

/-- Without a bus nothing is sent. -/
theorem exec_handOver_of_no_bus (h : agent.core.messageBus = false) (subordinate subtask : String) :
  ∃ e agent', exec (handOver subordinate subtask) agent = (.error e, agent')
    ∧ agent'.core.sent = agent.core.sent
  := by
  unfold handOver onCore
  simp only [exec_bind, exec_get, exec_focus, AgentCore.exec_generateUuid, exec_coordinate,
    AgentCore.exec_sendMessage, h, Bool.false_eq_true, if_false]
  exact ⟨_, _, rfl, rfl⟩

/-- The loop over the subtasks does not throw if there is a bus and someone for each subtask. -/
theorem returns_delegate_iff (choose : List String → ℕ → Except String String) (i : ℕ)
    (subtasks : List String) :
  Returns (delegate choose i subtasks) agent ↔ subtasks = [] ∨ agent.core.messageBus = true
    ∧ ∀ k < subtasks.length, ∃ subordinate, choose agent.subordinates (i + k) = .ok subordinate
  := by
  induction subtasks generalizing i agent with
  | nil => simp [delegate]
  | cons subtask subtasks ih =>
    rw [delegate, returns_get_bind, returns_lift_bind]
    simp only [reduceCtorEq, false_or, List.length_cons]
    cases hbus : agent.core.messageBus with
    | false =>
      simp only [Bool.false_eq_true, false_and, iff_false, not_exists, not_and]
      intro subordinate _ hreturns
      obtain ⟨e, agent', hexec, -⟩ := exec_handOver_of_no_bus hbus subordinate subtask
      obtain ⟨u, agent'', hexec', -⟩ := returns_bind.mp hreturns
      cases hexec.symm.trans hexec'
    | true =>
      simp only [true_and]
      constructor
      · rintro ⟨subordinate, hchoose, hreturns⟩ k hk
        obtain ⟨agent', -, hexec, hbus', hsubordinates, -⟩
          := exec_handOver_of_bus hbus subordinate subtask
        obtain ⟨u, agent'', hexec', hreturns⟩ := returns_bind.mp hreturns
        cases hexec.symm.trans hexec'
        cases k with
        | zero => exact ⟨subordinate, hchoose⟩
        | succ k =>
          rcases (ih (i + 1)).mp hreturns with rfl | ⟨-, hall⟩
          · cases hk
            contradiction
          · obtain ⟨other, hother⟩ := hall k (Nat.lt_of_succ_lt_succ hk)
            rw [hsubordinates, Nat.add_assoc, Nat.add_comm 1 k] at hother
            exact ⟨other, hother⟩
      · intro hall
        obtain ⟨subordinate, hchoose⟩ := hall 0 (Nat.succ_pos _)
        obtain ⟨agent', -, hexec, hbus', hsubordinates, -⟩
          := exec_handOver_of_bus hbus subordinate subtask
        use subordinate, hchoose
        rw [returns_bind]
        use (), agent', hexec
        apply (ih (i + 1)).mpr
        right
        use hbus'
        intro k hk
        obtain ⟨other, hother⟩ := hall (k + 1) (Nat.succ_lt_succ hk)
        use other
        rw [hsubordinates, Nat.add_assoc, Nat.add_comm 1 k]
        apply hother

end Delegation

theorem chooseTaskAgent_ok_iff {agents : List String} {i : ℕ} :
  (∃ agent, ModuleLeadAgent.chooseTaskAgent agents i = .ok agent) ↔ agents ≠ []
  := by
  rw [ModuleLeadAgent.chooseTaskAgent]
  constructor
  · rintro ⟨agent, hagent⟩ rfl
    cases hagent
  · intro hagents
    have hlt : i % agents.length < agents.length := Nat.mod_lt _ (List.length_pos_iff.mpr hagents)
    rw [List.getElem?_eq_getElem hlt]
    exact ⟨_, rfl⟩

theorem chooseModuleLead_ok_iff {leads : List String} {i : ℕ} :
  (∃ lead, ComponentLeadAgent.chooseModuleLead leads i = .ok lead) ↔ i < leads.length
  := by
  rw [ComponentLeadAgent.chooseModuleLead]
  split_ifs with hleads
  · simp [hleads]
  · rcases Nat.lt_or_ge i leads.length with hi | hi
    · rw [List.getElem?_eq_getElem hi]
      simp [hi]
    · rw [List.getElem?_eq_none hi]
      simp [hi]

namespace LeadKind

variable {kind : LeadKind} {agent : LeadAgent kind.State}

theorem returns_delegateSubtasks_iff {subtasks : List String} (hsome : subtasks ≠ []) :
  Returns (kind.hooks.delegateSubtasks subtasks) agent
    ↔ agent.core.messageBus = true ∧ kind.Enough agent.subordinates subtasks.length
  := by
  have hlength : 0 < subtasks.length := List.length_pos_iff.mpr hsome
  cases kind with
  | moduleLead =>
    apply (returns_delegate_iff ModuleLeadAgent.chooseTaskAgent 0 subtasks).trans
    simp only [hsome, false_or, chooseTaskAgent_ok_iff, Enough]
    apply and_congr_right
    intro _
    constructor
    · intro hall
      apply hall 0 hlength
    · intro hagents _ _
      apply hagents
  | componentLead =>
    apply (returns_delegate_iff ComponentLeadAgent.chooseModuleLead 0 subtasks).trans
    simp only [hsome, false_or, chooseModuleLead_ok_iff, Enough, Nat.zero_add]
    apply and_congr_right
    intro _
    constructor
    · intro hall
      have hlast := hall (subtasks.length - 1) (by omega)
      omega
    · intro hle k hk
      omega

theorem waitingState_ne_errorState (kind : LeadKind) :
  kind.hooks.waitingState ≠ kind.hooks.errorState
  := by
  cases kind with
  | moduleLead => exact ModuleLeadState.noConfusion
  | componentLead => exact ComponentLeadState.noConfusion

end LeadKind

open LeadKind

/-! ### Goals -/

variable {kind : LeadKind} {agent : LeadAgent kind.State} {goal : KeystoneMessage}

/-- A goal that is rejected. -/
theorem noHalfStart_of_rejected (hgoal : kind.hooks.isGoal goal = true)
    (h : kind.hooks.decomposeGoal goal.command = []
      ∨ intMax < (kind.hooks.decomposeGoal goal.command).length) :
  NoHalfStart kind agent goal
  := by
  rw [NoHalfStart, exec_processMessage_goal hgoal, startSubtasks, exec_get_bind]
  intro _
  split_ifs with hnone hmax
  · exact ⟨rfl, rfl⟩
  · exact ⟨rfl, rfl⟩
  · cases not_or.mpr ⟨hnone, hmax⟩ h

/-- An accepted goal leaves nothing half started exactly if the loop over its subtasks does not
throw: then it does not fail, and otherwise the agent waits. -/
theorem noHalfStart_iff_returns (hgoal : kind.hooks.isGoal goal = true)
    (hsome : kind.hooks.decomposeGoal goal.command ≠ [])
    (hmax : ¬ intMax < (kind.hooks.decomposeGoal goal.command).length) :
  NoHalfStart kind agent goal
    ↔ Returns (kind.hooks.delegateSubtasks (kind.hooks.decomposeGoal goal.command))
        (accepting kind.hooks goal (kind.hooks.decomposeGoal goal.command).length agent)
  := by
  have hdelegated := delegated_delegateSubtasks kind
    (accepting kind.hooks goal (kind.hooks.decomposeGoal goal.command).length agent)
    (kind.hooks.decomposeGoal goal.command)
  obtain ⟨⟨pending, hcoordination⟩, -, -⟩ := hdelegated
  rw [NoHalfStart, exec_accepted hgoal hsome (not_lt.mp hmax), exec_bind, Returns]
  generalize exec (kind.hooks.delegateSubtasks (kind.hooks.decomposeGoal goal.command))
    (accepting kind.hooks goal _ agent) = outcome at hcoordination ⊢
  obtain ⟨e | u, agent'⟩ := outcome
  · apply iff_of_false
    · intro h
      obtain ⟨-, hstate⟩ := h (fun response hresponse => by cases hresponse)
      apply kind.waitingState_ne_errorState
      rw [← hstate, hcoordination]
      rfl
    · rintro ⟨u, agent'', houtcome⟩
      cases houtcome
  · apply iff_of_true
    · intro hfailed
      cases hfailed _ rfl
    · exact ⟨u, agent', rfl⟩

/-- A goal that fails leaves nothing half started exactly if it is rejected or all its subtasks can
be sent. -/
theorem noHalfStart_iff (kind : LeadKind) (agent : LeadAgent kind.State) (goal : KeystoneMessage)
    (hgoal : kind.hooks.isGoal goal = true) :
  NoHalfStart kind agent goal ↔ Startable kind agent goal
  := by
  by_cases hsome : kind.hooks.decomposeGoal goal.command = []
  · exact iff_of_true (noHalfStart_of_rejected hgoal (.inl hsome)) (.inl hsome)
  · by_cases hmax : intMax < (kind.hooks.decomposeGoal goal.command).length
    · exact iff_of_true (noHalfStart_of_rejected hgoal (.inr hmax)) (.inr (.inl hmax))
    · rw [noHalfStart_iff_returns hgoal hsome hmax, returns_delegateSubtasks_iff hsome,
        Startable]
      simp only [hsome, hmax, false_or]
      rfl

theorem noHalfStart_twoModules :
  componentLead.hooks.isGoal twoSections = true
    ∧ NoHalfStart .componentLead twoModules twoSections
  := by
  have hgoal : componentLead.hooks.isGoal twoSections = true := by decide
  use hgoal
  apply (noHalfStart_iff .componentLead twoModules twoSections hgoal).mpr
  right
  right
  use rfl
  have hlength : (componentLead.hooks.decomposeGoal
      twoSections.command).length = 2 := by decide
  rw [hlength]
  apply Nat.le_refl

/-- A component lead with one module lead, for a goal with two sections: the second section cannot
be sent any more. -/
theorem not_noHalfStart_oneModule :
  ¬ NoHalfStart .componentLead (componentLead.fresh "component" ["first"] toString)
    twoSections
  := by
  have hlength : (componentLead.hooks.decomposeGoal
      twoSections.command).length = 2 := by decide
  have hsome : componentLead.hooks.decomposeGoal twoSections.command ≠ []
    := List.length_pos_iff.mp (by rw [hlength]; decide)
  rw [noHalfStart_iff_returns (by decide) hsome (by rw [hlength]; decide),
    returns_delegateSubtasks_iff hsome]
  rintro ⟨-, henough⟩
  have hone : 2 ≤ 1 := hlength ▸ henough
  contradiction

end Agents

end Agamemnon
