import Agamemnon.Agents.HalfStarted
import Agamemnon.Agents.Numbers
import Agamemnon.Plan.ImplRef
import Mathlib.Algebra.Order.BigOperators.Group.List

/-!
# The sum of a module

A module lead asks task agents to echo the numbers of its goal, reads each result with `std::stoi`
and adds them up in an `int32_t`.  A number that is no `int` is skipped, and a sum that is no
`int32_t` overflows.  Without a bus or task agents nothing is asked for, and the sum of nothing
is zero.

So the result is the sum of the numbers of the goal exactly if this sum fits and the numbers can be
handed out (`exactSum_iff`).
-/

namespace Agamemnon

namespace Agents

open Attempt LeadAgent
open Numerals (decimalValue intMax)

/-! ### Synthesis -/

namespace ModuleLeadAgent

/-- `total += value` for an `int32_t`; nothing is known of an overflow. -/
def addInt32 (total value : ℤ) : Option ℤ :=
  if total + value < -2147483648 ∨ 2147483647 < total + value then none
  else some (total + value)

/-- Add a result; one that is not numeric is skipped. -/
def addResult (total : ℤ) (result : String) : Option ℤ :=
  match stoi result.toList with
  | .ok value => addInt32 total value
  | .error _ => some total

/-- `synthesizeResults`: the text and the coordination state, unless the sum overflows. -/
def synthesizeResults (c : Coordination ModuleLeadState) :
    Option (String × Coordination ModuleLeadState) :=
  if c.currentState = .error then
    let msg := "ERROR: " ++ toString c.failedResults ++ " subordinate task(s) failed"
    match c.failureMessages with
    | [] => some (msg, c)
    | first :: _ => some (msg ++ ": " ++ first, c)
  else if c.currentState ≠ .synthesizing ∧ c.currentState ≠ .waitingForTasks then
    some ("ERROR: Cannot synthesize in current state", c)
  else do
    let total ← c.results.foldlM addResult 0
    return ("Module result: Sum = " ++ toString total, c.transitionTo .idle (stateToString .idle))

/-! ### The answers of the task agents -/

/-- What has been sent for a goal. -/
def requests (agent : LeadAgent ModuleLeadState) (goal : KeystoneMessage) :
    List KeystoneMessage :=
  (run hooks agent [goal]).core.sent.drop agent.core.sent.length

/-- The answer gives the number that the request asks to echo. -/
structure Echoes (request answer : KeystoneMessage) : Prop where
  command : answer.command = "response"
  actionType : answer.actionType = .execute
  payload : ∃ number, request.command = "echo " ++ number ∧ answer.payload = some number

/-- The sum of all numbers of a goal. -/
def digitSum (goal : String) : ℕ :=
  ((digitRuns goal).map decimalValue).sum

/-- When every request has been answered, in any order, the result is the sum of all numbers of the
goal. -/
def ExactSum (agent : LeadAgent ModuleLeadState) (goal : KeystoneMessage) : Prop :=
  ∀ asked answers, asked.Perm (requests agent goal) → List.Forall₂ Echoes asked answers →
    (synthesizeResults (run hooks agent (goal :: answers)).coordination).map Prod.fst
      = some ("Module result: Sum = " ++ toString (digitSum goal.command))

/-- The agent waits for results or has them all, and has got these and no failure. -/
structure Collected (agent : LeadAgent ModuleLeadState) (results : List String) : Prop where
  results : agent.coordination.results = results
  failed : agent.coordination.failedResults = 0
  state : agent.coordination.currentState = .waitingForTasks
    ∨ agent.coordination.currentState = .synthesizing

variable {agent : LeadAgent ModuleLeadState}

section Collected

variable {results : List String}

theorem collected_answer (h : Collected agent results) {request answer : KeystoneMessage}
    (hechoes : Echoes request answer) :
  ∃ number, request.command = "echo " ++ number
    ∧ Collected (run hooks agent [answer]) (results ++ [number])
  := by
  obtain ⟨hcommand, haction, number, hrequest, hpayload⟩ := hechoes
  have hresult : hooks.isSubordinateResult answer = true := by
    change isSubordinateResult answer = true
    simp [isSubordinateResult, hcommand, haction]
  have hfailures : (agent.coordination.recordResult number).hasFailures = false := by
    simp [Coordination.hasFailures, Coordination.recordResult, h.failed]
  have hresults : (agent.coordination.recordResult number).results = results ++ [number] := by
    rw [Coordination.recordResult, h.results]
  use number, hrequest
  rw [run_result (by simp [haction]) (by simp [haction]) hresult]
  change Collected (exec (processSubordinateResult answer) agent).2 _
  rw [exec_result hpayload]
  simp only [hfailures]
  split_ifs
  · contradiction
  · exact ⟨hresults, h.failed, .inr rfl⟩
  · exact ⟨hresults, h.failed, h.state⟩

/-- Answers to all that was asked are collected in their order. -/
theorem collected_answers {asked answers : List KeystoneMessage}
    (hechoes : List.Forall₂ Echoes asked answers) (h : Collected agent results) :
  ∃ numbers, asked.map (·.command) = numbers.map ("echo " ++ ·)
    ∧ Collected (run hooks agent answers) (results ++ numbers)
  := by
  induction hechoes generalizing agent results with
  | nil =>
    use [], rfl
    rwa [List.append_nil]
  | cons hanswer _ ih =>
    obtain ⟨number, hrequest, hstep⟩ := collected_answer h hanswer
    obtain ⟨numbers, hcommands, hrest⟩ := ih hstep
    use number :: numbers
    constructor
    · rw [List.map_cons, List.map_cons, hrequest, hcommands]
    · rw [List.append_cons]
      exact hrest

end Collected

/-! ### The loop over the results -/

/-- The sum of the values that are an `int`. -/
def fittingSum (runs : List (List Char)) : ℕ :=
  ((runs.map decimalValue).filter (· ≤ intMax)).sum

/-- The loop gives the sum of the values that are an `int`, unless it overflows. -/
theorem foldlM_addResult {runs : List (List Char)}
    (h : ∀ digits ∈ runs, digits ≠ [] ∧ ∀ c ∈ digits, c.isDigit = true) {total : ℕ}
    (htotal : total ≤ intMax) :
  (runs.map String.ofList).foldlM addResult (total : ℤ)
    = if total + fittingSum runs ≤ intMax then some ((total + fittingSum runs : ℕ) : ℤ) else none
  := by
  induction runs generalizing total with
  | nil => simp [fittingSum, htotal]
  | cons digits runs ih =>
    obtain ⟨hsome, hdigits⟩ := h digits List.mem_cons_self
    have ih' := @ih fun digits hdigits => h digits (List.mem_cons_of_mem _ hdigits)
    rw [List.map_cons, List.foldlM_cons, addResult, String.toList_ofList,
      stoi_of_digits hsome hdigits]
    by_cases hfits : decimalValue digits ≤ intMax
    · have hsum : fittingSum (digits :: runs) = decimalValue digits + fittingSum runs := by
        simp [fittingSum, hfits]
      rw [if_pos hfits, hsum]
      simp only [addInt32]
      by_cases hadd : total + decimalValue digits ≤ intMax
      · have hadd' : ¬ ((total : ℤ) + decimalValue digits < -2147483648
            ∨ 2147483647 < (total : ℤ) + decimalValue digits) := by
          rw [intMax] at hadd
          omega
        rw [if_neg hadd', Option.bind_eq_bind, Option.bind_some, ← Nat.cast_add, ih' hadd,
          Nat.add_assoc]
      · have hadd' : (total : ℤ) + decimalValue digits < -2147483648
            ∨ 2147483647 < (total : ℤ) + decimalValue digits := by
          rw [intMax] at hadd
          omega
        rw [if_pos hadd', if_neg (by omega)]
        rfl
    · have hsum : fittingSum (digits :: runs) = fittingSum runs := by
        simp [fittingSum, hfits]
      rw [if_neg hfits, hsum]
      exact ih' htotal

/-- If the sum of all numbers fits, none is skipped. -/
theorem fittingSum_eq {runs : List (List Char)} (h : (runs.map decimalValue).sum ≤ intMax) :
  fittingSum runs = (runs.map decimalValue).sum
  := by
  rw [fittingSum, List.filter_eq_self.mpr]
  intro value hvalue
  exact decide_eq_true ((List.le_sum_of_mem hvalue).trans h)

theorem fittingSum_perm {xs ys : List (List Char)} (h : xs.Perm ys) :
  fittingSum xs = fittingSum ys
  := ((h.map decimalValue).filter _).sum_eq

/-! ### Synthesis of the answers -/

variable {goal : KeystoneMessage}

theorem synthesized_inj {m n : ℕ} :
  "Module result: Sum = " ++ toString (m : ℤ) = "Module result: Sum = " ++ toString n ↔ m = n
  := (String.append_right_inj _).trans Numerals.toString_inj

theorem error_ne_synthesized {error sum : String} :
  "ERROR: " ++ error ≠ "Module result: Sum = " ++ sum
  := by
  intro h
  have hlist := congrArg String.toList h
  simp at hlist

/-- What is synthesized of the numbers of a goal, in any order, is their sum exactly if it
fits. -/
theorem synthesizeResults_collected {results : List String} (h : Collected agent results)
    (hresults : results.Perm ((digitRuns goal.command).map String.ofList)) :
  (synthesizeResults agent.coordination).map Prod.fst
      = some ("Module result: Sum = " ++ toString (digitSum goal.command))
    ↔ digitSum goal.command ≤ intMax
  := by
  have hperm : (results.map String.toList).Perm (digitRuns goal.command) := by
    have hmap := hresults.map String.toList
    simpa [Function.comp_def] using hmap
  have hdigits : ∀ digits ∈ results.map String.toList,
      digits ≠ [] ∧ ∀ c ∈ digits, c.isDigit = true
    := fun digits hmem => Pattern.of_mem_runs (hperm.mem_iff.mp hmem)
  have hloop : results.foldlM addResult 0
      = if fittingSum (digitRuns goal.command) ≤ intMax
        then some ((fittingSum (digitRuns goal.command) : ℕ) : ℤ) else none := by
    have hall := foldlM_addResult hdigits (Nat.zero_le intMax)
    rw [Nat.zero_add, fittingSum_perm hperm] at hall
    simpa [Function.comp_def] using hall
  have hstate : ¬ agent.coordination.currentState = .error
      ∧ ¬ (agent.coordination.currentState ≠ .synthesizing
        ∧ agent.coordination.currentState ≠ .waitingForTasks) := by
    rcases h.state with hstate | hstate <;> simp [hstate]
  rw [synthesizeResults, if_neg hstate.1, if_neg hstate.2, h.results, hloop]
  by_cases hsum : digitSum goal.command ≤ intMax
  · have heq : fittingSum (digitRuns goal.command) = digitSum goal.command := fittingSum_eq hsum
    rw [heq, if_pos hsum]
    exact iff_of_true rfl hsum
  · apply iff_of_false _ hsum
    split_ifs with hfits
    · intro heq
      have hvalue := synthesized_inj.mp (Option.some.inj heq)
      exact hsum (hvalue ▸ hfits)
    · intro heq
      cases heq

/-! ### Requests -/

/-- With a bus and task agents there is one message for each subtask. -/
theorem sent_delegate_of_bus (hbus : agent.core.messageBus = true)
    (hagents : agent.subordinates ≠ []) (i : ℕ) (subtasks : List String) :
  ∃ messages, (exec (delegate chooseTaskAgent i subtasks) agent).2.core.sent
      = agent.core.sent ++ messages
    ∧ messages.map (·.command) = subtasks
  := by
  induction subtasks generalizing i agent with
  | nil => exact ⟨[], (List.append_nil _).symm, rfl⟩
  | cons subtask subtasks ih =>
    obtain ⟨subordinate, hchoose⟩ := (@chooseTaskAgent_ok_iff _ i).mpr hagents
    obtain ⟨agent', msg, hexec, hbus', hagents', hsent, hcommand⟩
      := exec_handOver_of_bus hbus subordinate subtask
    obtain ⟨messages, hrest, hcommands⟩ := ih hbus' (hagents' ▸ hagents) (i + 1)
    use msg :: messages
    rw [delegate, exec_get_bind, hchoose, exec_bind, exec_lift]
    dsimp only
    rw [exec_bind, hexec]
    dsimp only
    rw [hrest, hsent, List.append_assoc, List.singleton_append, List.map_cons, hcommand, hcommands]
    exact ⟨rfl, rfl⟩

/-- Without a bus or task agents there is none. -/
theorem sent_delegate_of_not (h : ¬ (agent.core.messageBus = true ∧ agent.subordinates ≠ []))
    (i : ℕ) (subtasks : List String) :
  (exec (delegate chooseTaskAgent i subtasks) agent).2.core.sent = agent.core.sent
  := by
  cases subtasks with
  | nil => rfl
  | cons subtask subtasks =>
    rw [delegate, exec_get_bind, exec_bind, exec_lift]
    cases hchoose : chooseTaskAgent agent.subordinates i with
    | error e => rfl
    | ok subordinate =>
      have hagents := chooseTaskAgent_ok_iff.mp ⟨subordinate, hchoose⟩
      have hbus : agent.core.messageBus = false
        := Bool.eq_false_iff.mpr fun hbus => h ⟨hbus, hagents⟩
      obtain ⟨e, agent', hexec, hsent⟩ := exec_handOver_of_no_bus hbus subordinate subtask
      dsimp only
      rw [exec_bind, hexec]
      exact hsent

/-- Requests to echo something can be answered. -/
theorem exists_answers {messages : List KeystoneMessage}
    (h : ∀ msg ∈ messages, ∃ number, msg.command = "echo " ++ number) :
  ∃ answers, List.Forall₂ Echoes messages answers
  := by
  induction messages with
  | nil => exact ⟨[], .nil⟩
  | cons msg messages ih =>
    obtain ⟨number, hnumber⟩ := h msg List.mem_cons_self
    obtain ⟨answers, hanswers⟩ := ih fun msg hmsg => h msg (List.mem_cons_of_mem _ hmsg)
    use .create msg.msgId msg.receiverId msg.senderId "response" (some number) :: answers
    exact .cons ⟨rfl, rfl, number, hnumber, rfl⟩ hanswers

section Accepted

variable (hgoal : hooks.isGoal goal = true) (hsome : decomposeGoal goal.command ≠ [])
  (hruns : digitRuns goal.command ≠ []) (hmax : (decomposeGoal goal.command).length ≤ intMax)
include hgoal hmax

include hsome in
theorem run_delegated :
  run hooks agent [goal]
    = (exec (delegate chooseTaskAgent 0 (decomposeGoal goal.command))
        (accepting hooks goal (decomposeGoal goal.command).length agent)).2
  := run_accepted hgoal hsome hmax

include hsome in
theorem collected_accepted :
  Collected (run hooks agent [goal]) []
  := by
  obtain ⟨⟨pending, hcoordination⟩, -, -⟩ := @delegated_delegate _
    (accepting hooks goal (decomposeGoal goal.command).length agent) chooseTaskAgent 0
    (decomposeGoal goal.command)
  rw [← run_delegated hgoal hsome hmax] at hcoordination
  constructor
  · rw [hcoordination]
    rfl
  · rw [hcoordination]
    rfl
  · left
    rw [hcoordination]
    rfl

include hsome in
/-- What is asked for, if the goal is accepted. -/
theorem commands_requests :
  (requests agent goal).map (·.command)
    = if agent.core.messageBus = true ∧ agent.subordinates ≠ [] then decomposeGoal goal.command
      else []
  := by
  rw [requests, run_delegated hgoal hsome hmax]
  split_ifs with hout
  · obtain ⟨messages, hsent, hcommands⟩ := @sent_delegate_of_bus
      (accepting hooks goal (decomposeGoal goal.command).length agent) hout.1 hout.2 0
      (decomposeGoal goal.command)
    rw [hsent]
    change List.map _ (List.drop agent.core.sent.length (agent.core.sent ++ messages)) = _
    rw [List.drop_left, hcommands]
  · have hsent := @sent_delegate_of_not
      (accepting hooks goal (decomposeGoal goal.command).length agent) hout 0
      (decomposeGoal goal.command)
    rw [hsent]
    change List.map _ (List.drop agent.core.sent.length agent.core.sent) = _
    rw [List.drop_length]
    rfl

/-! ### The sum -/

include hruns

/-- The numbers of the goal are handed out. -/
theorem exactSum_iff_of_bus (hout : agent.core.messageBus = true ∧ agent.subordinates ≠ []) :
  ExactSum agent goal ↔ digitSum goal.command ≤ intMax
  := by
  have hsome : decomposeGoal goal.command ≠ [] := by simpa [decomposeGoal_eq] using hruns
  have hcommands := @commands_requests agent goal hgoal hsome hmax
  rw [if_pos hout, decomposeGoal_eq] at hcommands
  have hexact : ∀ asked answers, asked.Perm (requests agent goal) →
      List.Forall₂ Echoes asked answers →
      ((synthesizeResults (run hooks agent (goal :: answers)).coordination).map Prod.fst
          = some ("Module result: Sum = " ++ toString (digitSum goal.command))
        ↔ digitSum goal.command ≤ intMax) := by
    intro asked answers hperm hanswers
    obtain ⟨numbers, hnumbers, hcollected⟩
      := collected_answers hanswers (collected_accepted hgoal hsome hmax)
    apply synthesizeResults_collected hcollected
    have hecho : Function.Injective ("echo " ++ ·) := fun _ _ => (String.append_right_inj _).mp
    rw [List.nil_append, ← List.map_perm_map_iff hecho, ← hnumbers, List.map_map]
    exact (hperm.map _).trans (List.Perm.of_eq hcommands)
  constructor
  · intro h
    have hechoes : ∀ msg ∈ requests agent goal, ∃ number, msg.command = "echo " ++ number := by
      intro msg hmsg
      have hcommand := List.mem_map_of_mem (f := (·.command)) hmsg
      rw [hcommands] at hcommand
      obtain ⟨run, -, hrun⟩ := List.mem_map.mp hcommand
      exact ⟨_, hrun.symm⟩
    obtain ⟨answers, hanswers⟩ := exists_answers hechoes
    exact (hexact _ answers (.refl _) hanswers).mp (h _ answers (.refl _) hanswers)
  · intro hsum asked answers hperm hanswers
    exact (hexact asked answers hperm hanswers).mpr hsum

/-- Nothing is handed out. -/
theorem exactSum_iff_of_not (hout : ¬ (agent.core.messageBus = true ∧ agent.subordinates ≠ [])) :
  ExactSum agent goal ↔ digitSum goal.command = 0
  := by
  have hsome : decomposeGoal goal.command ≠ [] := by simpa [decomposeGoal_eq] using hruns
  have hcommands := @commands_requests agent goal hgoal hsome hmax
  rw [if_neg hout, List.map_eq_nil_iff] at hcommands
  have hcollected := @collected_accepted agent goal hgoal hsome hmax
  have hzero : (synthesizeResults (run hooks agent [goal]).coordination).map Prod.fst
      = some ("Module result: Sum = " ++ toString ((0 : ℕ) : ℤ)) := by
    rcases hcollected.state with hstate | hstate <;>
      simp [synthesizeResults, hstate, hcollected.results]
  constructor
  · intro h
    have hsum := h [] [] (by rw [hcommands]) .nil
    rw [hzero] at hsum
    exact (synthesized_inj.mp (Option.some.inj hsum)).symm
  · intro hsum asked answers hperm hanswers
    rw [hcommands] at hperm
    obtain rfl := hperm.eq_nil
    cases hanswers
    rw [hzero, hsum]
    rfl

end Accepted

/-- A goal that is rejected has no result. -/
theorem not_exactSum_of_rejected (hgoal : hooks.isGoal goal = true)
    (hmax : intMax < (decomposeGoal goal.command).length) :
  ¬ ExactSum agent goal
  := by
  intro h
  obtain ⟨hstate, hcore⟩ := @run_rejected _ _ agent _ hgoal (.inr hmax)
  have hnone : requests agent goal = [] := by rw [requests, hcore, List.drop_length]
  have hsum := h [] [] (by rw [hnone]) .nil
  change (run hooks agent [goal]).coordination.currentState = .error at hstate
  rw [synthesizeResults, if_pos hstate] at hsum
  split at hsum
  · apply error_ne_synthesized
    simpa [String.append_assoc] using Option.some.inj hsum
  · apply error_ne_synthesized
    simpa [String.append_assoc] using Option.some.inj hsum

/-- The result is the sum of the numbers of the goal exactly if the goal is accepted, the sum is an
`int32_t`, and the numbers can be handed out or their sum is zero anyway. -/
theorem exactSum_iff (agent : LeadAgent ModuleLeadState) (goal : KeystoneMessage)
    (hgoal : hooks.isGoal goal = true) (hruns : digitRuns goal.command ≠ []) :
  ExactSum agent goal
    ↔ (digitRuns goal.command).length ≤ intMax ∧ digitSum goal.command ≤ intMax
      ∧ (agent.core.messageBus = true ∧ agent.subordinates ≠ [] ∨ digitSum goal.command = 0)
  := by
  have hlength : (decomposeGoal goal.command).length = (digitRuns goal.command).length := by
    rw [decomposeGoal_eq, List.length_map]
  rw [← hlength]
  rcases Nat.lt_or_ge intMax (decomposeGoal goal.command).length with hmax | hmax
  · apply iff_of_false (not_exactSum_of_rejected hgoal hmax)
    rintro ⟨hle, -⟩
    exact hmax.not_ge hle
  · rw [and_iff_right hmax]
    by_cases hout : agent.core.messageBus = true ∧ agent.subordinates ≠ []
    · rw [exactSum_iff_of_bus hgoal hruns hmax hout, and_iff_left (.inl hout)]
    · rw [exactSum_iff_of_not hgoal hruns hmax hout, or_iff_right hout]
      constructor
      · intro hzero
        exact ⟨hzero ▸ Nat.zero_le _, hzero⟩
      · apply And.right

open LeadKind (oneTaskAgent twoNumbers) in
theorem exactSum_twoNumbers :
  hooks.isGoal twoNumbers = true ∧ digitRuns twoNumbers.command ≠ []
    ∧ ExactSum oneTaskAgent twoNumbers
  := by
  have hgoal : hooks.isGoal twoNumbers = true := by decide
  have hruns : digitRuns twoNumbers.command = [['1'], ['2']] := by decide
  have hsome : digitRuns twoNumbers.command ≠ [] := by
    rw [hruns]
    exact List.cons_ne_nil _ _
  refine ⟨hgoal, hsome, (exactSum_iff oneTaskAgent twoNumbers hgoal hsome).mpr ?_⟩
  rw [digitSum, hruns]
  exact ⟨by decide, by decide, .inl ⟨rfl, List.cons_ne_nil _ _⟩⟩

/-- A goal with a number that is no `int`. -/
def largeNumber : KeystoneMessage :=
  .create "goal" "component" "module" "Calculate A: 3000000000" none

/-- The number is skipped. -/
theorem not_exactSum_largeNumber :
  ¬ ExactSum LeadKind.oneTaskAgent largeNumber
  := by
  have hgoal : hooks.isGoal largeNumber = true := by decide
  have hruns : digitRuns largeNumber.command = ["3000000000".toList] := by decide
  have hlength : (decomposeGoal largeNumber.command).length = 1 := by
    rw [decomposeGoal_eq, hruns]
    rfl
  apply mt (exactSum_iff_of_bus hgoal (by rw [hruns]; exact List.cons_ne_nil _ _)
    (by rw [hlength]; decide) ⟨rfl, List.cons_ne_nil _ _⟩).mp
  rw [digitSum, hruns]
  decide

end ModuleLeadAgent

end Agents

end Agamemnon
