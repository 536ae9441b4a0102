import Agamemnon.Hmas.Reading
import Agamemnon.Plan.Breakdown

/-!
# Plans of briefs that were read

A brief that is written and read again loses its empty lists and maps.  The planner takes a list
that is missing for an empty one, so it makes the same plan.
-/

namespace Agamemnon

theorem getD_lookup_trim (m : StringMap (List String)) (k : String) :
  ((m.trim kept).lookup k).getD [] = (m.lookup k).getD []
  := by
  rw [StringMap.lookup_trim]
  cases m.lookup k with
  | none => rfl
  | some ss =>
    rw [Option.bind_some, kept]
    split_ifs with hempty
    · exact hempty.symm
    · rfl

variable (b : TaskBrief)

theorem modulesOf_trimmed (repo : String) :
  b.trimmed.modulesOf repo = b.modulesOf repo
  := by
  simp only [TaskBrief.modulesOf, TaskBrief.trimmed, getD_lookup_trim]

theorem implsOf_trimmed (repo mod : String) :
  b.trimmed.implsOf repo mod = b.implsOf repo mod
  := by
  have hlookup : ((b.trimmed.impls.lookup repo).bind (·.lookup mod)).getD []
      = ((b.impls.lookup repo).bind (·.lookup mod)).getD [] := by
    rw [TaskBrief.trimmed, StringMap.lookup_trim]
    cases b.impls.lookup repo with
    | none => rfl
    | some m =>
      rw [Option.bind_some, Option.bind_some, ← getD_lookup_trim, keptMap]
      split_ifs with hempty
      · rw [hempty, Finmap.lookup_empty]
        rfl
      · rfl
  rw [TaskBrief.implsOf, hlookup]
  rfl

/-- The planner does not see what a brief loses. -/
theorem decompose_trimmed (uuid : ℕ → String) (ts : String) :
  decompose uuid ts b.trimmed = decompose uuid ts b
  := by
  have hmodule : decomposeModule uuid ts b.trimmed = decomposeModule uuid ts b := by
    funext repo l1Id l1Idx acc mod
    rw [decomposeModule, implsOf_trimmed]
    rfl
  have hrepo : decomposeRepo uuid ts b.trimmed = decomposeRepo uuid ts b := by
    funext rootId tasks repo
    rw [decomposeRepo, modulesOf_trimmed, hmodule]
    rfl
  rw [decompose, hrepo]
  rfl

/-- Tasks are read as they were written; briefs are, up to empty lists and maps, which neither a
brief that was read has nor the planner sees. -/
theorem records_roundTrip :
  (∀ t : HmasTask, t.IssueFits → hmasTaskFromJson (hmasTaskToJson t) = .ok t)
    ∧ ∀ b : TaskBrief, ∃ r, taskBriefFromJson (taskBriefToJson b) = .ok r ∧ b.Trims r
      ∧ (∀ j, taskBriefFromJson j = .ok b → r = b)
      ∧ ∀ uuid ts, decompose uuid ts r = decompose uuid ts b
  := by
  constructor
  · intro t hissue
    exact hmasTaskFromJson_toJson hissue
  · intro b
    refine ⟨b.trimmed, taskBriefFromJson_toJson b, trims_trimmed b, ?_, decompose_trimmed b⟩
    intro j hj
    exact trimmed_of_full (full_of_taskBriefFromJson hj)

/-- A task that has been escalated. -/
def escalatedTask : HmasTask :=
  { blankTask with
    id := "t"
    briefId := "b"
    parentTaskId := "p"
    layer := .l3TaskAgent
    state := .escalated
    subject := "#7"
    issue := 7
    blockedBy := ["u", "v"]
    childTaskIds := ["c"]
    escalations := [⟨"t", "stuck", "2026-01-01T00:00:00Z", .l2ModuleLead⟩] }

/-- A brief with two modules, as it is submitted. -/
def briefRequest : Json :=
  .ofMembers [("id", .string "b"), ("title", .string "t"), ("repos", .ofStrings ["r"]),
    ("modules", .ofMembers [("r", .ofStrings ["m", "n"])]),
    ("impls", .ofMembers [("r", .ofMembers [("m", .ofStrings ["#5", "#6"])])])]

/-- The brief that is read from it. -/
def requestedBrief : TaskBrief where
  id := "b"
  title := "t"
  description := ""
  repos := ["r"]
  modules := (∅ : StringMap (List String)).insert "r" ["m", "n"]
  impls := (∅ : StringMap (StringMap (List String))).insert "r"
    ((∅ : StringMap (List String)).insert "m" ["#5", "#6"])

theorem records_roundTrip_escalatedTask :
  hmasTaskFromJson (hmasTaskToJson escalatedTask) = .ok escalatedTask
    ∧ taskBriefFromJson briefRequest = .ok requestedBrief
    ∧ taskBriefFromJson (taskBriefToJson requestedBrief) = .ok requestedBrief
  := by
  have hread : taskBriefFromJson briefRequest = .ok requestedBrief := rfl
  refine ⟨records_roundTrip.1 escalatedTask (by decide), hread, ?_⟩
  obtain ⟨r, hr, -, hsame, -⟩ := records_roundTrip.2 requestedBrief
  rw [hr, hsame briefRequest hread]

end Agamemnon
