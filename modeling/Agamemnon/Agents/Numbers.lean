import Agamemnon.Agents.Lead

/-!
# The numbers of a goal

A component lead takes the sections `Name(n1+n2+...)` out of its goal and writes the goal
`Calculate Name: n1+n2+...` for each of them.  A module lead takes the runs of digits out of its
goal, wherever they are.

So the tasks of a section are its numbers exactly if its name has no digit (`keepsNumbers_iff`).
-/

namespace Agamemnon

open Pattern

namespace Agents

/-- The runs of digits of a text. -/
def digitRuns (text : String) : List (List Char) :=
  runs Char.isDigit text.toList

/-- A module lead has one task for each run of digits. -/
theorem ModuleLeadAgent.decomposeGoal_eq (goal : String) :
  decomposeGoal goal = (digitRuns goal).map fun run => "echo " ++ String.ofList run
  := by
  have hruns : scan numberAt 0 goal.toList = (digitRuns goal).map String.ofList
    := scan_eq_runs (fun _ => rfl) goal.toList
  rw [decomposeGoal, hruns, List.map_map]
  rfl

namespace ComponentLeadAgent

/-- The sections of a goal, each with its name and its numbers. -/
def sections (goal : String) : List (String × String) :=
  scan sectionAt 0 goal.toList

/-- The goal of a module lead for a section. -/
def moduleGoal (s : String × String) : String :=
  "Calculate " ++ s.1 ++ ": " ++ s.2

theorem decomposeGoal_eq (goal : String) :
  decomposeGoal goal = (sections goal).map moduleGoal
  := rfl

/-- The numbers `n1`, `n2`, ... of a section. -/
def numbersOf (s : String × String) : List (List Char) :=
  (s.2.toList.splitOnP (· = '+')).filter fun number => !number.isEmpty

/-- For each section of the goal the module lead has one task for each number, in order, and no
other task. -/
def KeepsNumbers (goal : String) : Prop :=
  ∀ s ∈ sections goal, ModuleLeadAgent.decomposeGoal (moduleGoal s)
    = (numbersOf s).map fun number => "echo " ++ String.ofList number

/-! ### Sections -/

/-- The numbers of a section consist of digits and plus signs. -/
theorem numbers_of_sectionAt {text : List Char} {s : String × String} {n : ℕ}
    (h : sectionAt text = some (s, n)) :
  ∀ c ∈ s.2.toList, (c.isDigit || c = '+') = true
  := by
  simp only [sectionAt] at h
  split at h
  · split at h
    · split at h
      · cases h
      · cases h
        intro c hc
        rw [String.toList_ofList] at hc
        apply List.mem_takeWhile_imp hc
    · cases h
  · cases h

/-- Where there are only digits and plus signs, splitting at the plus signs gives the runs of
digits. -/
theorem numbersOf_eq {s : String × String} (h : ∀ c ∈ s.2.toList, (c.isDigit || c = '+') = true) :
  numbersOf s = digitRuns s.2
  := by
  rw [numbersOf, digitRuns, runs]
  congr 1
  generalize s.2.toList = text at h ⊢
  induction text with
  | nil => rfl
  | cons c cs ih =>
    have hc : decide (c = '+') = !c.isDigit := by
      have hor := h c List.mem_cons_self
      rcases Decidable.em (c = '+') with rfl | hne
      · rfl
      · simpa [hne] using hor
    rw [List.splitOnP_cons_eq_if_modifyHead, List.splitOnP_cons_eq_if_modifyHead, hc,
      ih fun c hc => h c (List.mem_cons_of_mem _ hc)]

/-- The digits of the goal for a section are those of its name and those of its numbers. -/
theorem digitRuns_moduleGoal (s : String × String) :
  digitRuns (moduleGoal s) = digitRuns s.1 ++ digitRuns s.2
  := by
  have htext : (moduleGoal s).toList
      = "Calculate".toList ++ ' ' :: (s.1.toList ++ ':' :: ([] ++ ' ' :: s.2.toList)) := by
    simp [moduleGoal]
  have hword : runs Char.isDigit "Calculate".toList = [] := by decide
  rw [digitRuns, htext, runs_append_cons _ _ rfl, runs_append_cons _ _ rfl,
    runs_append_cons _ _ rfl, hword]
  rfl

theorem echo_injective :
  Function.Injective fun number => "echo " ++ String.ofList number
  := by
  intro xs ys h
  exact String.ofList_injective (by simpa using h)

/-- The tasks of all sections of a goal are their numbers exactly if no section has a digit in its
name. -/
theorem keepsNumbers_iff (goal : String) :
  KeepsNumbers goal ↔ ∀ s ∈ sections goal, ∀ c ∈ s.1.toList, c.isDigit = false
  := by
  apply forall₂_congr
  intro s hs
  obtain ⟨text, n, hsection⟩ := exists_of_mem_scan hs
  rw [ModuleLeadAgent.decomposeGoal_eq, digitRuns_moduleGoal,
    numbersOf_eq (numbers_of_sectionAt hsection), echo_injective.list_map.eq_iff,
    List.append_left_eq_self, digitRuns, runs_eq_nil_iff]

/-- The digit in the name becomes a task. -/
theorem not_keepsNumbers_digit :
  ¬ KeepsNumbers "Mod2(10+20)"
  := by
  intro h
  have hsection : ("Mod2", "10+20") ∈ sections "Mod2(10+20)" := by decide
  have htasks : digitRuns "Mod2" ++ digitRuns "10+20" = [['2'], ['1', '0'], ['2', '0']] := by decide
  have hnumbers : numbersOf ("Mod2", "10+20") = [['1', '0'], ['2', '0']] := by decide
  have hkept := h _ hsection
  rw [ModuleLeadAgent.decomposeGoal_eq, echo_injective.list_map.eq_iff, digitRuns_moduleGoal,
    htasks, hnumbers] at hkept
  simp at hkept

end ComponentLeadAgent

end Agents

end Agamemnon
