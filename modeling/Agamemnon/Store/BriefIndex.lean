import Agamemnon.Lib.Machine
import Agamemnon.Store.Identity
import Agamemnon.Store.Queries

/-!
# The tasks of a brief

`list_hmas_tasks_by_brief` reads the index, which is built when the tasks are loaded and kept by
`create_hmas_task` and `update_hmas_task`.  It lists the stored tasks of a brief, each once, after
every sequence of calls exactly if no loaded task with a brief is replaced by a later one with the
same identifier: the index still lists the replaced task.
-/

namespace Agamemnon

open Memory

/-! ### Exact lists -/

/-- The list of every brief has the stored tasks of the brief, each once. -/
def Memory.Exact (m : Memory) : Prop :=
  ∀ briefId, briefId ≠ "" → (m.listHmasTasksByBrief briefId).Nodup
    ∧ ∀ t, t ∈ m.listHmasTasksByBrief briefId
      ↔ ∃ id, m.hmasTasks.lookup id = some t ∧ t.briefId = briefId

namespace Memory

variable {m : Memory} {ts : List HmasTask} {t : HmasTask}

theorem Indexed.exact (h : m.Indexed) (hid : ∀ id t, m.hmasTasks.lookup id = some t → t.id = id) :
  m.Exact
  := by
  intro briefId hbrief
  constructor
  · -- tasks that are stored under different identifiers are different
    apply (h.nodup briefId).filterMap
    intro id id' t ht ht'
    rw [← hid id t ht, ← hid id' t ht']
  · intro t
    rw [listHmasTasksByBrief, List.mem_filterMap]
    constructor
    · rintro ⟨id, hlisted, ht⟩
      obtain ⟨-, u, hu, hub⟩ := h.mem_listed.mp hlisted
      obtain rfl := Option.some.inj (hu.symm.trans ht)
      exact ⟨id, ht, hub⟩
    · rintro ⟨id, ht, hb⟩
      exact ⟨id, h.mem_listed.mpr ⟨hbrief, t, ht, hb⟩, ht⟩

/-! ### Loading -/

/-- The index lists every loaded task of a brief. -/
theorem listed_foldl_createHmasTask (ts : List HmasTask) (m : Memory) {briefId : String}
    (hbrief : briefId ≠ "") :
  (ts.foldl createHmasTask m).listed briefId
    = m.listed briefId ++ (ts.filter fun t => t.briefId = briefId).map HmasTask.id
  := by
  induction ts generalizing m with
  | nil => simp
  | cons t ts ih =>
    have hpush : (m.createHmasTask t).listed briefId
        = if briefId = t.briefId ∧ t.briefId ≠ "" then m.listed briefId ++ [t.id]
          else m.listed briefId := lookup_pushToBrief m.hmasTasksByBrief t.briefId t.id briefId
    rw [List.foldl_cons, ih, hpush, List.filter_cons]
    by_cases hb : t.briefId = briefId
    · subst hb
      simp [hbrief]
    · rw [if_neg fun h => hb h.1.symm, if_neg (by simpa using hb)]

/-- Creating tasks with other ids keeps a task. -/
theorem lookup_foldl_createHmasTask_of_ne (m : Memory) {id : String} (hts : ∀ t ∈ ts, id ≠ t.id) :
  (ts.foldl createHmasTask m).hmasTasks.lookup id = m.hmasTasks.lookup id
  := by
  induction ts generalizing m with
  | nil => rfl
  | cons t ts ih =>
    rw [List.forall_mem_cons] at hts
    rw [List.foldl_cons, ih _ hts.2, createHmasTask, Finmap.lookup_insert_of_ne _ hts.1]

/-- What is stored under the identifier of a loaded task is a loaded task. -/
theorem exists_lookup_foldl_createHmasTask (m : Memory) (ht : t ∈ ts) :
  ∃ u ∈ ts, u.id = t.id
    ∧ (ts.foldl createHmasTask m).hmasTasks.lookup t.id = some u
  := by
  induction ts generalizing m t with
  | nil => cases ht
  | cons v ts ih =>
    by_cases hlater : ∃ w ∈ ts, w.id = t.id
    · obtain ⟨w, hw, hid⟩ := hlater
      obtain ⟨u, hu, huid, hlookup⟩ := ih (m.createHmasTask v) hw
      rw [hid] at huid hlookup
      exact ⟨u, List.mem_cons_of_mem v hu, huid, hlookup⟩
    · push Not at hlater
      obtain rfl | ht := List.mem_cons.mp ht
      · refine ⟨t, List.mem_cons_self, rfl, ?_⟩
        rw [List.foldl_cons, lookup_foldl_createHmasTask_of_ne _ fun w hw => (hlater w hw).symm,
          createHmasTask, Finmap.lookup_insert]
      · exact absurd rfl (hlater t ht)

/-- If the lists are exact after loading, then no task with a brief was replaced. -/
theorem noneReplaced_of_exact (h : (ts.foldl createHmasTask empty).Exact) :
  NoneReplaced ts
  := by
  rw [NoneReplaced, List.pairwise_iff_forall_sublist]
  intro t u hsub hid
  by_contra hbrief
  obtain ⟨hnodup, hmem⟩ := h t.briefId hbrief
  obtain ⟨front, back, rfl, ht, hu⟩ := List.cons_sublist_iff.mp hsub
  obtain ⟨w, hw, hwid, hlookup⟩ := exists_lookup_foldl_createHmasTask
    (front.foldl createHmasTask empty) (List.singleton_sublist.mp hu)
  rw [← List.foldl_append] at hlookup
  rw [← hid] at hwid hlookup
  -- the list of the brief of `t` has `w` for `t`
  have hlisted := listed_foldl_createHmasTask (front ++ back) empty hbrief
  have hwlist : w ∈ listHmasTasksByBrief ((front ++ back).foldl createHmasTask empty)
      t.briefId := by
    apply List.mem_filterMap.mpr
    refine ⟨t.id, ?_, hlookup⟩
    change t.id ∈ listed _ t.briefId
    rw [hlisted]
    apply List.mem_append_right
    apply List.mem_map_of_mem
    simp [ht]
  obtain ⟨-, -, hwbrief⟩ := (hmem w).mp hwlist
  -- so `w` is a task of the brief, and the list has it once more
  have htwice : [t.id, w.id].Sublist
      (listed ((front ++ back).foldl createHmasTask empty) t.briefId) := by
    have hpair : [t, w].Sublist (front ++ back)
      := (List.singleton_sublist.mpr ht).append (List.singleton_sublist.mpr hw)
    have hfilter := (hpair.filter fun v => v.briefId = t.briefId).map HmasTask.id
    rw [hlisted]
    simpa [hwbrief] using hfilter.trans (List.sublist_append_right _ _)
  have hsublist := htwice.filterMap
    ((front ++ back).foldl createHmasTask empty).hmasTasks.lookup
  rw [hwid] at hsublist
  have hww := hnodup.sublist hsublist
  simp only [List.filterMap_cons, List.filterMap_nil, hlookup] at hww
  exact (List.nodup_cons.mp hww).1 List.mem_cons_self

end Memory

/-! ### Calls after loading -/

/-- The calls that change the tasks. -/
inductive BriefCall where
  | createHmasTask (t : HmasTask)
  | updateHmasTask (t : HmasTask)

/-- What a call leaves; a task is created with an identifier that is not yet present. -/
def briefStep (dump : Json → String) (d : Deployment) : StoreEnv × BriefCall → Option Deployment
  | (env, .createHmasTask t) =>
      if d.memory.hmasTasks.lookup t.id = none then some (d.createHmasTask dump env t) else none
  | (_, .updateHmasTask t) => some (d.updateHmasTask dump t).2

variable {dump : Json → String} {parse : String → Option Json} {d d' : Deployment}
  {c : StoreEnv × BriefCall}

theorem memory_updateHmasTask (d : Deployment) (t : HmasTask) :
  (d.updateHmasTask dump t).2.memory = (d.memory.updateHmasTask t).2
  := by
  rw [Deployment.updateHmasTask, updateHmasTask]
  cases d.memory.hmasTasks.lookup t.id with
  | none => rfl
  | some old =>
    simp only [Bool.true_eq_false, ↓reduceIte]
    split <;> rfl

/-- The index is in order, and the tasks are stored under their own identifiers. -/
structure InOrder (d : Deployment) : Prop where
  indexed : d.memory.Indexed
  identified : d.Identified

/-- Every step keeps the index in order. -/
theorem InOrder.briefStep (h : InOrder d) (hstep : briefStep dump d c = some d') :
  InOrder d'
  := by
  obtain ⟨env, call⟩ := c
  cases call with
  | createHmasTask t =>
    rw [Agamemnon.briefStep] at hstep
    split_ifs at hstep with hunused
    obtain rfl := Option.some.inj hstep
    exact ⟨h.indexed.createHmasTask hunused, h.identified.operation dump env (.createHmasTask t)⟩
  | updateHmasTask t =>
    obtain rfl := Option.some.inj hstep
    refine ⟨?_, h.identified.operation dump env (.updateHmasTask t)⟩
    rw [memory_updateHmasTask]
    cases hold : d.memory.hmasTasks.lookup t.id with
    | none =>
      rw [updateHmasTask, hold]
      exact h.indexed
    | some old => exact h.indexed.updateHmasTask hold

/-- The tasks that are read from the issues. -/
def loadedTasks (parse : String → Option Json) (issues : List Json) : List HmasTask :=
  issues.filterMap fun issue => (readRecord parse hmasTaskFromJson issue).map (·.1)

/-- The service has loaded the tasks. -/
def afterLoading (dump : Json → String) (parse : String → Option Json) (issues : List Json) :
    Deployment :=
  Deployment.afterService dump parse [.loadHmasTasks issues]

/-- A load creates the tasks that are listed, in their order. -/
theorem memory_afterLoading (issues : List Json) :
  (afterLoading dump parse issues).memory
    = (loadedTasks parse issues).foldl createHmasTask empty
  := hydrateHmasTasks_fst issues empty ∅

/-- For every list of issues: the lists of the briefs are exact after every sequence of calls
exactly if no loaded task with a brief is replaced by a later one with the same identifier. -/
theorem exact_iff (dump : Json → String) (parse : String → Option Json) (issues : List Json) :
  (∀ calls d, Machine.run (briefStep dump) (afterLoading dump parse issues) calls = some d →
      d.memory.Exact)
    ↔ Memory.NoneReplaced (loadedTasks parse issues)
  := by
  constructor
  · intro h
    apply noneReplaced_of_exact
    rw [← memory_afterLoading]
    exact h [] _ rfl
  · intro hnone calls d hrun
    have hstart : InOrder (afterLoading dump parse issues) := by
      refine ⟨?_, Deployment.identified_afterService dump parse _⟩
      rw [memory_afterLoading]
      apply indexed_empty.foldl_createHmasTask_of_noneReplaced hnone
      intro t _ old hold
      cases hold
    have hend := Machine.run_invariant InOrder.briefStep hstart hrun
    exact hend.indexed.exact hend.identified.hmasTask

/-- The issue of a task is read as this task. -/
theorem readRecord_fencedIssue {n : ℕ} {t : HmasTask} (hn : n < 2 ^ 31) (hissue : t.IssueFits) :
  readRecord Json.read hmasTaskFromJson (fencedIssue n (hmasTaskToJson t)).toJson
    = some (t, some (toString n))
  := by
  have hid : (hmasTaskToJson t).get? "id" = some (.string t.id) := Json.get?_ofMembers (by simp) "id"
  apply readRecord_toJson Json.codec hn rfl (by decide) (hmasTaskToJson_proper hissue)
  · rw [Json.contains, hid]
    rfl
  · exact hmasTaskFromJson_toJson hissue

theorem loadedTasks_cons {issue : Json} {issues : List Json} {t : HmasTask} {number : Option String}
    (h : readRecord parse hmasTaskFromJson issue = some (t, number)) :
  loadedTasks parse (issue :: issues) = t :: loadedTasks parse issues
  := by
  simp [loadedTasks, h]

/-- Two issues have the same task, one with the brief `b` and one with the brief `c`. -/
def movedTask : List Json :=
  [fencedIssue 1 (hmasTaskToJson { Deployment.januaryTask with briefId := "b" }),
    fencedIssue 2 (hmasTaskToJson { Deployment.januaryTask with briefId := "c" })].map Issue.toJson

/-- The task is listed for `b`, although it is a task of `c`. -/
theorem not_exact_movedTask :
  ¬ (afterLoading Json.print Json.read movedTask).memory.Exact
  := by
  intro h
  have htasks : loadedTasks Json.read movedTask
      = [{ Deployment.januaryTask with briefId := "b" },
        { Deployment.januaryTask with briefId := "c" }] := by
    apply (loadedTasks_cons (readRecord_fencedIssue (by decide) (by decide))).trans
    apply congrArg (List.cons _)
    apply loadedTasks_cons (readRecord_fencedIssue (by decide) (by decide))
  rw [memory_afterLoading, htasks] at h
  have hnone := noneReplaced_of_exact h
  obtain ⟨hfirst, -⟩ := List.pairwise_cons.mp hnone
  exact absurd (hfirst _ List.mem_cons_self rfl) (by decide)

end Agamemnon
