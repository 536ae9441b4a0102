import Agamemnon.Lib.History
import Agamemnon.Store.Identity

/-!
# The time of completion

A task is completed by `update_task` with that status, or by `mark_task_completed` when its worker
reports.  The first sets `completedAt` where it is `null`, the second always.  So `completedAt` is
the time since when the task is completed, unless a task that is completed is reported once more,
or a task that was completed and opened again is completed by an update.
-/

namespace Agamemnon

open Json Deployment

/-! ### Assigned members -/

section Assignments

variable {e body : Json} {k : String}

/-- A member that is not kept is assigned. -/
theorem get?_assignFields_of_not_mem (hobject : e.isObject = true) (kept : List String)
    (hbody : body.Proper) (hk : k ∉ kept) :
  (assignFields kept body e).get? k = (body.get? k).or (e.get? k)
  := by
  cases hbody with
  | @object ms sorted members =>
    clear members
    rw [assignFields]
    -- on the members that are left to assign
    induction ms generalizing e with
    | nil => rfl
    | cons m ms ih =>
      obtain ⟨hfirst, hrest⟩ := List.pairwise_cons.mp sorted
      rw [List.foldl_cons, get?, Lists.lookup_cons]
      by_cases hm : k = m.1
      · subst hm
        have hnone : ms.lookup m.1 = none := by
          rw [List.lookup_eq_none_iff]
          intro m' hm'
          rw [bne_iff_ne]
          exact (hfirst m' hm').ne
        rw [if_neg hk, ih (isObject_set hobject) hrest, if_pos rfl, get?, hnone,
          get?_set_self hobject]
        rfl
      · rw [if_neg hm]
        split_ifs
        · exact ih hobject hrest
        · rw [ih (isObject_set hobject) hrest, get?_set_of_ne hobject hm]
          rfl
  | _ => rfl

end Assignments

/-! ### Completed tasks -/

namespace Json

/-- The status is `completed`. -/
def isCompleted (task : Json) : Bool :=
  (task.get? "status").any (·.isString "completed")

/-- `value("completedAt", nullptr)`. -/
def completedAt (task : Json) : Json :=
  (task.get? "completedAt").getD .null

theorem isNull_iff {j : Json} :
  j.isNull = true ↔ j = .null
  := by
  cases j with
  | null => simp [isNull]
  | _ => simp [isNull]

theorem isString_iff {s : String} {j : Json} :
  j.isString s = true ↔ j = .string s
  := by
  cases j with
  | string s' => simp [isString]
  | _ => simp [isString]

theorem isObject_of_valueString {j : Json} {k d s : String} (h : j.valueString k d = .ok s) :
  j.isObject = true
  := by
  cases j with
  | object ms => rfl
  | _ => cases h

theorem get?_status_of_isCompleted {task : Json} (h : task.isCompleted = true) :
  task.get? "status" = some (.string "completed")
  := by
  rw [isCompleted] at h
  cases hstatus : task.get? "status" with
  | none =>
    rw [hstatus] at h
    cases h
  | some status =>
    rw [hstatus, Option.any_some, isString_iff] at h
    rw [h]

end Json

variable {dump : Json → String} {env : StoreEnv} {d : Deployment} {op : StoreOp} {taskId : String}
  {body task : Json}

/-- A field that the change does not keep is that of the body, if it is there. -/
theorem get?_changedTask_of_not_mem (hobject : task.isObject = true) (hbody : body.Proper)
    {k : String}
    (hk : k ∉ ["completedAt", "id", "teamId", "createdAt", "_github_issue", "updatedAt"]) :
  (changedTask env body task).get? k = (body.get? k).or (task.get? k)
  := by
  have hfields := isObject_assignFields hobject
    ["id", "teamId", "createdAt", "_github_issue", "updatedAt"] body
  rw [List.mem_cons, not_or] at hk
  have hupdated : k ≠ "updatedAt" := by
    rintro rfl
    exact hk.2 (by simp)
  rw [changedTask, ← get?_assignFields_of_not_mem hobject _ hbody hk.2]
  split_ifs
  · rw [get?_set_of_ne (isObject_set hfields) hupdated,
      get?_set_of_ne hfields hk.1]
  · rw [get?_set_of_ne hfields hupdated]

theorem isCompleted_changedTask (hobject : task.isObject = true) (hbody : body.Proper) :
  (changedTask env body task).isCompleted
    = if body.contains "status" = true then body.isCompleted else task.isCompleted
  := by
  rw [isCompleted, get?_changedTask_of_not_mem hobject hbody (by decide), contains,
    isCompleted, isCompleted]
  cases body.get? "status" with
  | none => rfl
  | some status => rfl

theorem completedAt_changedTask (hobject : task.isObject = true)
    (hbody : body.get? "completedAt" = none) :
  (changedTask env body task).completedAt
    = if (body.isCompleted && task.completedAt.isNull) = true then .string (env.ts 0)
      else task.completedAt
  := by
  have hfields := isObject_assignFields hobject
    ["id", "teamId", "createdAt", "_github_issue", "updatedAt"] body
  have hassigned : (assignFields ["id", "teamId", "createdAt", "_github_issue", "updatedAt"]
      body task).get? "completedAt" = task.get? "completedAt"
    := get?_assignFields hobject (.inr hbody)
  rw [completedAt, completedAt, changedTask, ← isCompleted, hassigned]
  split_ifs
  · rw [get?_set_of_ne (isObject_set hfields) (by decide), get?_set_self hfields]
    rfl
  · rw [get?_set_of_ne hfields (by decide), hassigned]

theorem isCompleted_completedTask (hobject : task.isObject = true) :
  (completedTask env task).isCompleted = true
  := by
  rw [isCompleted, completedTask, get?_set_of_ne (isObject_set hobject) (by decide),
    get?_set_self hobject]
  rfl

theorem completedAt_completedTask (hobject : task.isObject = true) :
  (completedTask env task).completedAt = .string (env.ts 0)
  := by
  rw [completedAt, completedTask, get?_set_self (isObject_set hobject)]
  rfl

/-! ### Calls on a task -/

namespace StoreOp

/-- A call of `update_task` whose body does not name `completedAt`, or of `mark_task_completed`. -/
def OnTask (taskId : String) : StoreOp → Prop
  | updateTask _ id body => id = taskId ∧ body.Proper ∧ body.get? "completedAt" = none
  | markTaskCompleted id => id = taskId
  | _ => False

/-- A call on a task that it does not accept changes nothing. -/
theorem stored_apply_of_not_accepts (hop : op.OnTask taskId)
    (h : ∀ task, d.stored .tasks taskId = some task → ¬ op.Accepts task) :
  (op.apply dump env d).stored .tasks taskId = d.stored .tasks taskId
  := by
  cases op with
  | updateTask teamId id body =>
    obtain ⟨rfl, -⟩ := hop
    rw [apply, Deployment.updateTask]
    split
    · rfl
    rename_i hrequest
    obtain ⟨hbody, hteam⟩ := not_or.mp hrequest
    split
    · rfl
    rename_i task hlookup
    split
    · rfl
    rename_i owner howner
    split_ifs with hne
    · rfl
    · obtain rfl := not_not.mp hne
      cases h task hlookup ⟨Bool.not_eq_false _ ▸ hbody, hteam, howner⟩
  | markTaskCompleted id =>
    obtain rfl := hop
    rw [apply, Deployment.markTaskCompleted]
    split
    · rfl
    rename_i task hlookup
    split
    · rfl
    · rename_i status hstatus
      cases h task hlookup ⟨status, hstatus⟩
  | _ => cases hop

end StoreOp

namespace Deployment

/-- The task is completed. -/
def completed (d : Deployment) (taskId : String) : Bool :=
  (d.stored .tasks taskId).any (·.isCompleted)

/-- `completedAt` of the task. -/
def completedAt (d : Deployment) (taskId : String) : Json :=
  ((d.stored .tasks taskId).map (·.completedAt)).getD .null

/-- A call as it was made, with what it read from the clock. -/
def call (dump : Json → String) (d : Deployment) (c : StoreEnv × StoreOp) : Deployment :=
  c.2.apply dump c.1 d

/-- The time of a call, as the store writes it. -/
def callTime (c : StoreEnv × StoreOp) : Json :=
  .string (c.1.ts 0)

/-- Where the rule for the time of completion can be met.  An update that completes the task finds
no time of an earlier completion, and a report does not find the task completed; or the time that
they find is the time of the call. -/
def Timely (taskId : String) (d : Deployment) (c : StoreEnv × StoreOp) : Prop :=
  ∀ task, d.stored .tasks taskId = some task →
    match c.2 with
    | .updateTask _ _ body => c.2.Accepts task → body.isCompleted = true →
        task.isCompleted = false → task.completedAt = .null ∨ task.completedAt = callTime c
    | .markTaskCompleted _ => task.isCompleted = true → task.completedAt = callTime c
    | _ => True

/-- A completed task has a time of completion. -/
def Dated (d : Deployment) (taskId : String) : Prop :=
  d.completed taskId = true → d.completedAt taskId ≠ .null

theorem completed_of_stored (h : d.stored .tasks taskId = some task) :
  d.completed taskId = task.isCompleted
  := by
  rw [completed, h, Option.any_some]

theorem completedAt_of_stored (h : d.stored .tasks taskId = some task) :
  d.completedAt taskId = task.completedAt
  := by
  rw [completedAt, h]
  rfl

/-- The time of completion is shown by a call. -/
abbrev ShowsCompletion (dump : Json → String) (taskId : String) :=
  History.Shows (call dump) (completed · taskId = true) (completedAt · taskId) callTime

theorem showsCompletion_of_same {c : StoreEnv × StoreOp}
    (h : (d.call dump c).stored .tasks taskId = d.stored .tasks taskId) :
  ShowsCompletion dump taskId d c
  := by
  intro hafter
  rw [completed, h] at hafter
  constructor
  · intro _
    simp only [completedAt, h]
  · intro hbefore
    cases hbefore hafter

theorem showsCompletion_updateTask (hdated : d.Dated taskId) {teamId : String} (hbody : body.Proper)
    (hnames : body.get? "completedAt" = none) (hstored : d.stored .tasks taskId = some task)
    (haccepts : (StoreOp.updateTask teamId taskId body).Accepts task) :
  ShowsCompletion dump taskId d (env, .updateTask teamId taskId body)
    ↔ (body.isCompleted = true → task.isCompleted = false →
        task.completedAt = .null ∨ task.completedAt = .string (env.ts 0))
  := by
  have hobject := isObject_of_valueString haccepts.2.2
  have hafter : (d.call dump (env, .updateTask teamId taskId body)).stored .tasks taskId
      = some (changedTask env body task) := StoreOp.stored_apply rfl hstored haccepts
  rw [Dated, completed_of_stored hstored, completedAt_of_stored hstored] at hdated
  simp only [ShowsCompletion, History.Shows, completed_of_stored hafter,
    completedAt_of_stored hafter, completed_of_stored hstored, completedAt_of_stored hstored,
    isCompleted_changedTask hobject hbody, completedAt_changedTask hobject hnames]
  cases hcompletes : body.isCompleted with
  | false =>
    -- the task is completed after the call only if it was before, and keeps its time
    simp only [Bool.false_and, Bool.false_eq_true, if_false, false_implies, iff_true]
    split_ifs with hstatus
    · simp
    · intro hbefore
      exact ⟨fun _ => trivial, fun hopen => absurd hbefore hopen⟩
  | true =>
    have hstatus : body.contains "status" = true := by
      rw [contains, get?_status_of_isCompleted hcompletes]
      rfl
    simp only [if_pos hstatus, Bool.true_and, true_implies]
    cases hbefore : task.isCompleted with
    | false =>
      simp only [Bool.false_eq_true, false_implies, not_false_eq_true, true_implies, true_and]
      split_ifs with hnull
      · simp [isNull_iff.mp hnull, callTime]
      · rw [isNull_iff] at hnull
        simp [hnull, callTime]
    | true =>
      have hnull := hdated hbefore
      rw [ne_eq, ← isNull_iff] at hnull
      simp [hnull]

theorem showsCompletion_markTaskCompleted (hstored : d.stored .tasks taskId = some task)
    (haccepts : (StoreOp.markTaskCompleted taskId).Accepts task) :
  ShowsCompletion dump taskId d (env, .markTaskCompleted taskId)
    ↔ (task.isCompleted = true → task.completedAt = .string (env.ts 0))
  := by
  obtain ⟨status, hstatus⟩ := id haccepts
  have hobject := isObject_of_valueString hstatus
  have hafter : (d.call dump (env, .markTaskCompleted taskId)).stored .tasks taskId
      = some (completedTask env task) := StoreOp.stored_apply rfl hstored haccepts
  simp only [ShowsCompletion, History.Shows, completed_of_stored hafter,
    completedAt_of_stored hafter, completed_of_stored hstored, completedAt_of_stored hstored,
    isCompleted_completedTask hobject, completedAt_completedTask hobject]
  constructor
  · intro h hbefore
    exact ((h trivial).1 hbefore).symm
  · intro h _
    exact ⟨fun hbefore => (h hbefore).symm, fun _ => rfl⟩

/-- A call shows the time of completion where the rule can be met. -/
theorem showsCompletion_iff (hdated : d.Dated taskId) {c : StoreEnv × StoreOp}
    (hc : c.2.OnTask taskId) :
  ShowsCompletion dump taskId d c ↔ d.Timely taskId c
  := by
  obtain ⟨env, op⟩ := c
  by_cases haccepts : ∃ task, d.stored .tasks taskId = some task ∧ op.Accepts task
  · obtain ⟨task, hstored, haccepts⟩ := haccepts
    cases op with
    | updateTask teamId id body =>
      obtain ⟨rfl, hbody, hnames⟩ := hc
      rw [showsCompletion_updateTask hdated hbody hnames hstored haccepts, Timely]
      simp only [hstored, Option.some.injEq, forall_eq']
      exact ⟨fun h _ => h, fun h => h haccepts⟩
    | markTaskCompleted id =>
      obtain rfl := hc
      rw [showsCompletion_markTaskCompleted hstored haccepts, Timely]
      simp only [hstored, Option.some.injEq, forall_eq']
      rfl
    | _ => cases hc
  · have haccepts : ∀ task, d.stored .tasks taskId = some task → ¬ op.Accepts task
      := fun task hstored h => haccepts ⟨task, hstored, h⟩
    apply iff_of_true (showsCompletion_of_same (StoreOp.stored_apply_of_not_accepts hc haccepts))
    intro task hstored
    cases op with
    | updateTask teamId id body => exact fun h => absurd h (haccepts task hstored)
    | markTaskCompleted id =>
      intro hcompleted
      cases haccepts task hstored
        ⟨"completed", valueString_of_get? (get?_status_of_isCompleted hcompleted)⟩
    | _ => trivial

/-- A call where the rule can be met leaves a completed task with a time of completion. -/
theorem Dated.call (hdated : d.Dated taskId) {c : StoreEnv × StoreOp}
    (h : ShowsCompletion dump taskId d c) :
  (d.call dump c).Dated taskId
  := by
  intro hafter
  obtain ⟨hlasts, hbegan⟩ := h hafter
  intro hnull
  by_cases hbefore : d.completed taskId = true
  · exact hdated hbefore ((hlasts hbefore).symm.trans hnull)
  · cases (hbegan hbefore).symm.trans hnull

/-! ### Runs -/

/-- The time of completion is right after some calls, the last of which comes first: it is the
time since when the task is completed, and is not `null` when the task is completed. -/
def CompletionTimed (dump : Json → String) (d : Deployment) (taskId : String)
    (calls : List (StoreEnv × StoreOp)) : Prop :=
  (∀ t, History.Since (call dump) d (completed · taskId = true) (completedAt · taskId)
      callTime calls t →
    (History.after (call dump) d calls).completedAt taskId = t)
  ∧ (History.after (call dump) d calls).Dated taskId

/-- The time of completion is right in every state that a run visits, if and only if a completed
task has such a time at the start and every call is made where the rule can be met. -/
theorem completionTimed_iff (dump : Json → String) (d : Deployment) (taskId : String)
    {calls : List (StoreEnv × StoreOp)} (hcalls : ∀ c ∈ calls, c.2.OnTask taskId) :
  (∀ l, l <:+ calls → CompletionTimed dump d taskId l)
    ↔ d.Dated taskId ∧ ∀ c earlier, c :: earlier <:+ calls →
        (History.after (call dump) d earlier).Timely taskId c
  := by
  constructor
  · intro h
    have hshows := History.shown_iff.mp fun l hl => (h l hl).1
    use (h [] (List.nil_suffix)).2
    intro c earlier hl
    have hdated := (h earlier ((List.suffix_cons c earlier).trans hl)).2
    exact (showsCompletion_iff hdated (hcalls c (hl.mem List.mem_cons_self))).mp
      (hshows c earlier hl)
  · rintro ⟨hstart, htimely⟩
    have hdated : ∀ l, l <:+ calls → (History.after (call dump) d l).Dated taskId := by
      intro l hl
      induction l with
      | nil => exact hstart
      | cons c earlier ih =>
        have hearlier := ih ((List.suffix_cons c earlier).trans hl)
        apply hearlier.call
        exact (showsCompletion_iff hearlier (hcalls c (hl.mem List.mem_cons_self))).mpr
          (htimely c earlier hl)
    intro l hl
    refine ⟨?_, hdated l hl⟩
    apply History.shown_iff.mpr _ l hl
    intro c earlier hl
    have hearlier := hdated earlier ((List.suffix_cons c earlier).trans hl)
    exact (showsCompletion_iff hearlier (hcalls c (hl.mem List.mem_cons_self))).mpr
      (htimely c earlier hl)

/-- What a call draws and reads in an hour of a day. -/
def hourEnv (hour : ℕ) : StoreEnv where
  uuid := "t"
  number := 7
  now := fun _ => ⟨2026, 4, 1, hour, 0, 0⟩

/-- A store with one task, which has been created at midnight. -/
def oneOpenTask : Deployment :=
  (empty.createTask (fun _ => "") (hourEnv 0) "A" (.object [])).2

/-- The completion of the task is reported at one, and delivered again at two. -/
def reportedTwice : List (StoreEnv × StoreOp) :=
  [(hourEnv 2, .markTaskCompleted "t"), (hourEnv 1, .markTaskCompleted "t")]

/-- The second report moves the time of completion. -/
theorem not_completionTimed_reportedTwice :
  (∀ c ∈ reportedTwice, c.2.OnTask "t")
    ∧ ¬ ∀ l, l <:+ reportedTwice → CompletionTimed (fun _ => "") oneOpenTask "t" l
  := by
  constructor
  · simp [reportedTwice, StoreOp.OnTask]
  · intro h
    have hsince : History.Since (call fun _ => "") oneOpenTask (completed · "t" = true)
        (completedAt · "t") callTime reportedTwice (.string "2026-04-01T01:00:00Z") := by
      apply History.Since.lasts
      · apply History.Since.began
        · decide +kernel
        · decide +kernel
      · decide +kernel
    have htime := (h reportedTwice List.suffix_rfl).1 _ hsince
    have hread : ((History.after (call fun _ => "") oneOpenTask
        reportedTwice).completedAt "t").isString "2026-04-01T02:00:00Z" = true := by decide +kernel
    rw [htime] at hread
    revert hread
    decide

/-- An update completes the task at one, and another changes its description at two. -/
def completedThenDescribed : List (StoreEnv × StoreOp) :=
  [(hourEnv 2, .updateTask "A" "t" (.object [("description", .string "done")])),
    (hourEnv 1, .updateTask "A" "t" (.object [("status", .string "completed")]))]

theorem completionTimed_described :
  (∀ c ∈ completedThenDescribed, c.2.OnTask "t")
    ∧ ∀ l, l <:+ completedThenDescribed → CompletionTimed (fun _ => "") oneOpenTask "t" l
  := by
  have hcalls : ∀ c ∈ completedThenDescribed, c.2.OnTask "t" := by
    intro c hc
    obtain rfl | rfl : c = _ ∨ c = _ := by simpa [completedThenDescribed] using hc
    all_goals
      refine ⟨rfl, .object (List.pairwise_singleton ..) ?_, rfl⟩
      simp [Json.Proper.string]
  refine ⟨hcalls, (completionTimed_iff _ oneOpenTask "t" hcalls).mpr ⟨?_, ?_⟩⟩
  · intro hcompleted
    cases hcompleted
  · intro c earlier hl task hstored
    rcases List.suffix_cons_iff.mp hl with heq | hl
    · cases heq
      intro _ hbody
      cases hbody
    rcases List.suffix_cons_iff.mp hl with heq | hl
    · cases heq
      intro _ _ _
      left
      rw [← completedAt_of_stored hstored]
      rfl
    · cases List.suffix_nil.mp hl

end Deployment

end Agamemnon
