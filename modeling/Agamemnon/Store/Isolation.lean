import Agamemnon.Lib.Machine
import Agamemnon.Store.Identity
import Agamemnon.Store.Queries

/-!
# Teams do not see each other

A team creates, updates and reads tasks through calls that name it.  Such a call leaves a task, or
stores a task of the team where there was none or another task of the team (`TaskCall.Effect`).  So
another team observes the same before and after any sequence of such calls, and no call returns a
task of another team.
-/

namespace Agamemnon

open StringMap Deployment

/-! ### The owner of a task -/

theorem Json.IsTask.congr {task task' : Json} (h : task.IsTask) (hobject : task'.isObject = true)
    (hteam : task'.get? "teamId" = task.get? "teamId") :
  task'.IsTask ∧ owner task' = owner task
  := by
  refine ⟨⟨hobject, ?_⟩, ?_⟩
  · intro v hv
    exact h.teamId v (hteam.symm.trans hv)
  · rw [owner, owner, hteam]

/-! ### What a team observes -/

/-- Two collections have the same tasks of a team. -/
def SameTasksOf (teamId : String) (tasks tasks' : StringMap Json) : Prop :=
  ∀ id task, owner task = teamId → (tasks.lookup id = some task ↔ tasks'.lookup id = some task)

namespace Memory

variable {m m' : Memory} {order order' : List String} {teamId : String}

theorem getTask_eq (htasks : AllTasks m.tasks) (hteam : teamId ≠ "") (taskId : String) :
  m.getTask teamId taskId
    = .ok (((m.tasks.lookup taskId).filter fun task => owner task = teamId).getD .null)
  := by
  rw [getTask, if_neg hteam]
  cases hlookup : m.tasks.lookup taskId with
  | none => rfl
  | some task =>
    simp only [(htasks taskId task hlookup).valueString]
    by_cases howner : owner task = teamId
    · simp [Option.filter, howner, bind, Except.bind, pure, Except.pure]
    · simp [Option.filter, howner, bind, Except.bind, pure, Except.pure]

end Memory

theorem StringMap.mem_entries {α : Type} {m : StringMap α} {e : String × α} :
  e ∈ m.entries ↔ m.lookup e.1 = some e.2
  := by
  constructor
  · exact lookup_of_mem_entries
  · intro h
    have hkey : e.1 ∈ m.keys := Finmap.mem_keys.mpr (Finmap.mem_of_lookup_eq_some h)
    apply List.mem_filterMap.mpr
    exact ⟨e.1, Finset.mem_sort _ |>.mpr hkey, by rw [h]; rfl⟩

/-- The tasks of a team, in key order, are determined by what they are. -/
theorem SameTasksOf.filter_entries {teamId : String} {tasks tasks' : StringMap Json}
    (h : SameTasksOf teamId tasks tasks') :
  (entries tasks).filter (fun e => owner e.2 = teamId)
    = (entries tasks').filter fun e => owner e.2 = teamId
  := by
  have hnodup (tasks : StringMap Json) :
      ((entries tasks).filter fun e => owner e.2 = teamId).Nodup := by
    apply List.Nodup.filter
    apply (pairwise_entries tasks).imp
    rintro x y hlt rfl
    exact lt_irrefl _ hlt
  have hperm := (List.perm_ext_iff_of_nodup (hnodup tasks) (hnodup tasks')).mpr
    (by
      intro e
      rw [List.mem_filter, List.mem_filter, mem_entries, mem_entries,
        decide_eq_true_eq]
      constructor
      · rintro ⟨hlookup, howner⟩
        exact ⟨(h e.1 e.2 howner).mp hlookup, howner⟩
      · rintro ⟨hlookup, howner⟩
        exact ⟨(h e.1 e.2 howner).mpr hlookup, howner⟩)
  have hsorted (tasks : StringMap Json) :=
    (pairwise_entries tasks).filter fun e => owner e.2 = teamId
  rw [← sortEntries_eq hperm (hsorted tasks'),
    sortEntries_eq (List.Perm.refl _) (hsorted tasks)]

/-- What a team can observe of two stores is the same: each of its tasks, and every page of the list
of its tasks, in whatever orders the stores iterate their tasks. -/
structure SameForTeam (teamId : String) (m m' : Memory) : Prop where
  getTask : ∀ taskId, m.getTask teamId taskId = m'.getTask teamId taskId
  listTasksForTeam : ∀ order order', m.tasks.Visits order → m'.tasks.Visits order' →
    ∀ limit offset, m.listTasksForTeam order teamId limit offset
      = m'.listTasksForTeam order' teamId limit offset

theorem SameTasksOf.sameForTeam {teamId : String} {m m' : Memory} (hteam : teamId ≠ "")
    (hm : AllTasks m.tasks) (hm' : AllTasks m'.tasks) (h : SameTasksOf teamId m.tasks m'.tasks) :
  SameForTeam teamId m m'
  where
  getTask := by
    intro taskId
    rw [Memory.getTask_eq hm hteam, Memory.getTask_eq hm' hteam]
    congr 2
    ext task
    simp only [Option.filter_eq_some_iff, decide_eq_true_eq]
    exact and_congr_left (h taskId task)
  listTasksForTeam := by
    intro order order' horder horder' limit offset
    rw [Memory.listTasksForTeam_eq hm horder, Memory.listTasksForTeam_eq hm' horder',
      h.filter_entries]

/-! ### Calls of a team -/

theorem Deployment.stored_updateEntity_of_ne {dump : Json → String} {d : Deployment}
    {c c' : Collection} {id id' : String} {f reply : Json → Json} (hne : ¬ (c' = c ∧ id' = id)) :
  (d.updateEntity dump c id f reply).2.stored c' id' = d.stored c' id'
  := by
  rw [updateEntity]
  split
  · rfl
  · exact stored_writeEntity.trans (stored_put_of_ne hne)

/-- The calls that name a team. -/
inductive TaskCall where
  | createTask (body : Json)
  | updateTask (taskId : String) (body : Json)
  | getTask (taskId : String)

namespace TaskCall

/-- The answer to a call for a team, and what it leaves. -/
def perform (dump : Json → String) (teamId : String) (d : Deployment) (env : StoreEnv) :
    TaskCall → Except Exn Json × Deployment
  | createTask body => d.createTask dump env teamId body
  | updateTask taskId body => d.updateTask dump env teamId taskId body
  | getTask taskId => (d.memory.getTask teamId taskId, d)

/-- The task in an answer; `null` is none. -/
def returned (answer : Json) : TaskCall → Option Json
  | createTask _ => answer.get? "task"
  | updateTask _ _ => if answer.isNull then none else some answer
  | getTask _ => if answer.isNull then none else some answer

/-- The identifier that is drawn for a new task is unused. -/
def Unused (d : Deployment) (env : StoreEnv) : TaskCall → Prop
  | createTask _ => d.memory.tasks.lookup env.uuid = none
  | _ => True

/-- What a call can do to the task with an identifier: nothing, or it stores a task of the team
where there was none or a task of the team. -/
inductive Effect (teamId : String) (stored : Option Json) : Option Json → Prop
  | same : Effect teamId stored stored
  | wrote {task : Json} (isTask : task.IsTask) (owned : owner task = teamId)
      (before : ∀ old, stored = some old → owner old = teamId) : Effect teamId stored (some task)

variable {dump : Json → String} {teamId : String} {d : Deployment} {env : StoreEnv}

theorem effect_createTask (body : Json) (hunused : d.memory.tasks.lookup env.uuid = none)
    (id : String) :
  Effect teamId (d.stored .tasks id) ((d.createTask dump env teamId body).2.stored .tasks id)
  := by
  rw [Deployment.createTask]
  split
  · exact .same
  · rename_i title task htask
    obtain ⟨task', hteam, hstored⟩ := @Deployment.stored_createEntity dump env d .tasks task
      "teamId" _ (by decide) (get?_newTask htask).2 title
    simp only [hstored]
    obtain rfl | hne := eq_or_ne id env.uuid
    · obtain ⟨htask', howner⟩ := Json.IsTask.of_get? (Json.isObject_of_get? hteam) hteam
      rw [Deployment.stored_put_self]
      refine .wrote htask' howner ?_
      intro old hold
      cases hunused.symm.trans hold
    · rw [Deployment.stored_put_of_ne (fun h => hne h.2)]
      exact .same

theorem isTask_changedTask {task : Json} (h : task.IsTask) (env : StoreEnv) (body : Json) :
  (changedTask env body task).IsTask ∧ owner (changedTask env body task) = owner task
  := by
  apply h.congr
  · exact (@StoreOp.stamp_change env (.updateTask "" "" body) .tasks "" task _ rfl h.isObject).1
  · exact get?_changedTask env h.isObject (.inl (by decide))

theorem effect_updateTask (htasks : AllTasks d.memory.tasks) (taskId : String) (body : Json)
    (id : String) :
  Effect teamId (d.stored .tasks id)
    ((d.updateTask dump env teamId taskId body).2.stored .tasks id)
  := by
  rw [Deployment.updateTask]
  split
  · exact .same
  split
  · exact .same
  rename_i task hlookup
  have htask := htasks taskId task hlookup
  rw [htask.valueString]
  simp only
  split_ifs with howner
  · exact .same
  · have howner := not_not.mp howner
    obtain rfl | hne := eq_or_ne id taskId
    · have hstored : d.stored .tasks id = some task := hlookup
      obtain ⟨htask', howner'⟩ := isTask_changedTask htask env body
      rw [StoreOp.stored_updateEntity hstored]
      refine .wrote htask' (howner'.trans howner) ?_
      intro old hold
      obtain rfl := Option.some.inj (hlookup.symm.trans hold)
      exact howner
    · rw [Deployment.stored_updateEntity_of_ne (fun h => hne h.2)]
      exact .same

theorem effect_perform (htasks : AllTasks d.memory.tasks) (call : TaskCall)
    (hunused : call.Unused d env) (id : String) :
  Effect teamId (d.stored .tasks id) ((call.perform dump teamId d env).2.stored .tasks id)
  := by
  cases call with
  | createTask body => exact effect_createTask body hunused id
  | updateTask taskId body => exact effect_updateTask htasks taskId body id
  | getTask taskId => exact .same

/-- An answer holds no task but one of the team. -/
theorem owner_of_returned (hteam : teamId ≠ "") (htasks : AllTasks d.memory.tasks) (call : TaskCall)
    {answer task : Json} (hanswer : (call.perform dump teamId d env).1 = .ok answer)
    (htask : call.returned answer = some task) :
  owner task = teamId
  := by
  cases call with
  | createTask body =>
    rw [perform, Deployment.createTask] at hanswer
    split at hanswer
    · cases hanswer
    · rename_i title e he
      obtain rfl := Except.ok.inj hanswer
      rw [returned, Json.get?_ofMembers (by simp)] at htask
      -- the answer holds the task that is stored
      have hstored : (d.createEntity dump env .tasks title e).2.stored .tasks env.uuid
          = some task := (@Deployment.stored_put_self d .tasks env.uuid _).trans htask
      obtain ⟨task', hteamId, htask'⟩ := @Deployment.stored_createEntity dump env d .tasks e
        "teamId" _ (by decide) (get?_newTask he).2 title
      rw [htask', Deployment.stored_put_self] at hstored
      obtain rfl := Option.some.inj hstored
      exact (Json.IsTask.of_get? (Json.isObject_of_get? hteamId) hteamId).2
  | updateTask taskId body =>
    have hnull : (updateTask taskId body).returned .null ≠ some task := by
      simp [returned, Json.isNull]
    rw [perform, Deployment.updateTask] at hanswer
    split at hanswer
    · obtain rfl := Except.ok.inj hanswer
      exact absurd htask hnull
    split at hanswer
    · obtain rfl := Except.ok.inj hanswer
      exact absurd htask hnull
    rename_i old hlookup
    have hold := htasks taskId old hlookup
    rw [hold.valueString] at hanswer
    simp only at hanswer
    split_ifs at hanswer with howner
    · obtain rfl := Except.ok.inj hanswer
      exact absurd htask hnull
    · have hstored : (d.memory.entities .tasks).lookup taskId = some old := hlookup
      rw [Deployment.updateEntity, hstored] at hanswer
      simp only at hanswer
      generalize (d.writeEntity dump .tasks taskId (changedTask env body old)).1 = outcome
        at hanswer
      cases outcome with
      | error exn => cases hanswer
      | ok _ =>
        obtain rfl := Except.ok.inj hanswer
        rw [returned] at htask
        split_ifs at htask
        obtain rfl := Option.some.inj htask
        exact (isTask_changedTask hold env body).2.trans (not_not.mp howner)
  | getTask taskId =>
    rw [perform, Memory.getTask_eq htasks hteam] at hanswer
    obtain rfl := Except.ok.inj hanswer
    cases hfound : (d.memory.tasks.lookup taskId).filter fun task => owner task = teamId with
    | none =>
      rw [hfound] at htask
      cases htask
    | some found =>
      rw [hfound, returned] at htask
      obtain ⟨-, howner⟩ := Option.filter_eq_some_iff.mp hfound
      split_ifs at htask
      obtain rfl := Option.some.inj htask
      exact of_decide_eq_true howner

end TaskCall

/-! ### Sequences of calls -/

/-- The step of a call for the team. -/
def callStep (dump : Json → String) (teamId : String) (d : Deployment)
    (c : StoreEnv × TaskCall) : Option Deployment :=
  some (c.2.perform dump teamId d c.1).2

variable {dump : Json → String} {teamId other : String} {d d' : Deployment}

/-- The tasks are tasks, and those of the other team are those of `tasks`. -/
structure Apart (other : String) (tasks : StringMap Json) (d : Deployment) : Prop where
  allTasks : AllTasks d.memory.tasks
  sameTasks : SameTasksOf other tasks d.memory.tasks

theorem Apart.callStep {tasks : StringMap Json} {c : StoreEnv × TaskCall} (hne : other ≠ teamId)
    (hunused : c.2.Unused d c.1) (h : Apart other tasks d)
    (hstep : callStep dump teamId d c = some d') :
  Apart other tasks d'
  := by
  obtain rfl := Option.some.inj hstep
  have heffect (id : String) := @TaskCall.effect_perform dump teamId d c.1 h.allTasks c.2 hunused id
  constructor
  · intro id task hlookup
    have hid := heffect id
    rw [show (c.2.perform dump teamId d c.1).2.stored .tasks id = some task from hlookup] at hid
    generalize hbefore : d.stored .tasks id = before at hid
    cases hid with
    | same => exact h.allTasks id task hbefore
    | wrote isTask => exact isTask
  · intro id task howner
    rw [h.sameTasks id task howner]
    have hid := heffect id
    change d.stored .tasks id = some task
      ↔ (c.2.perform dump teamId d c.1).2.stored .tasks id = some task
    generalize d.stored .tasks id = before at hid ⊢
    generalize (c.2.perform dump teamId d c.1).2.stored .tasks id = after at hid ⊢
    cases hid with
    | same => rfl
    | wrote isTask owned hbefore =>
      constructor
      · intro hold
        exact absurd (howner.symm.trans (hbefore task hold)) hne
      · intro hnew
        obtain rfl := Option.some.inj hnew
        exact absurd (howner.symm.trans owned) hne

/-- No answer to a call holds a task of the other team. -/
def Withholds (dump : Json → String) (teamId other : String) (d : Deployment)
    (c : StoreEnv × TaskCall) : Prop :=
  ∀ answer task, (c.2.perform dump teamId d c.1).1 = .ok answer →
    c.2.returned answer = some task → owner task ≠ other

/-- Whatever one team calls, in any state that the service gets to, another team observes the same
before and after, and no call returns a task of it.  The identifiers of new tasks are unused, and
the teams of the stored tasks are strings. -/
theorem isolated (dump : Json → String) (parse : String → Option Json) (steps : List ServiceStep)
    (teamId other : String) (hteam : teamId ≠ "") (hother : other ≠ "") (hne : teamId ≠ other)
    (hstrings : ∀ id task v,
      (afterService dump parse steps).stored .tasks id = some task →
      task.get? "teamId" = some v → ∃ s, v = .string s)
    (calls : List (StoreEnv × TaskCall))
    (hunused : Machine.Along (callStep dump teamId) (fun d c => c.2.Unused d c.1)
      (afterService dump parse steps) calls)
    (d' : Deployment)
    (hrun : Machine.run (callStep dump teamId) (afterService dump parse steps) calls
      = some d') :
  SameForTeam other (afterService dump parse steps).memory d'.memory
    ∧ Machine.Along (callStep dump teamId) (Withholds dump teamId other)
      (afterService dump parse steps) calls
  := by
  have hidentified := identified_afterService dump parse steps
  generalize afterService dump parse steps = d at *
  have hd : AllTasks d.memory.tasks := by
    intro id task hlookup
    exact ⟨Json.isObject_of_get? (hidentified.entity .tasks id task hlookup),
      fun v hv => hstrings id task v hlookup hv⟩
  have hstart : Apart other d.memory.tasks d := ⟨hd, fun _ _ _ => Iff.rfl⟩
  have hstep {d₁ c d₂} (hunused : c.2.Unused d₁ c.1) (h : Apart other d.memory.tasks d₁)
      (hstep : callStep dump teamId d₁ c = some d₂) := h.callStep hne.symm hunused hstep
  constructor
  · have hend := Machine.run_invariant_along hstep hstart hunused hrun
    exact hend.sameTasks.sameForTeam hother hd hend.allTasks
  · apply Machine.along_of_invariant hstep _ hstart hunused
    intro d₁ c _ h answer task hanswer htask
    rw [TaskCall.owner_of_returned hteam h.allTasks c.2 hanswer htask]
    exact hne

/-- The service has created a task of the team `B`. -/
def stepsOfB : List ServiceStep :=
  [.step (.operation aprilEnv (.createTask "B" (.object [])))]

/-- The team `A` creates a task, tries to change and to read the task of `B`, and to give its own
task to `B`. -/
def intrusion : List (StoreEnv × TaskCall) :=
  let env : StoreEnv := { aprilEnv with uuid := "own" }
  [(env, .createTask (.object [])),
    (env, .updateTask aprilEnv.uuid (.object [("subject", .string "stolen")])),
    (env, .getTask aprilEnv.uuid),
    (env, .updateTask "own" (.object [("id", .string aprilEnv.uuid), ("teamId", .string "B")]))]

theorem isolated_intrusion :
  let d := afterService (fun _ => "") (fun _ => none) stepsOfB
  ∃ d', Machine.run (callStep (fun _ => "") "A") d intrusion = some d'
    ∧ SameForTeam "B" d.memory d'.memory
    ∧ Machine.Along (callStep (fun _ => "") "A") (Withholds (fun _ => "") "A" "B") d intrusion
  := by
  intro d
  have hempty : Apart "A" ∅ empty := by
    constructor
    · intro id task h
      cases h
    · intro id task _
      rfl
  have hunused : (TaskCall.createTask (.object [])).Unused empty aprilEnv
    := Finmap.lookup_empty _
  have hcreated : callStep (fun _ => "") "B" empty
      (aprilEnv, .createTask (.object [])) = some d := rfl
  have hapart : Apart "A" ∅ d := hempty.callStep (by decide) hunused hcreated
  have hown : d.memory.tasks.lookup "own" = none := Finmap.lookup_insert_of_ne _ (by decide)
  refine ⟨_, rfl, ?_⟩
  apply isolated (fun _ => "") (fun _ => none) stepsOfB "A" "B" (by decide) (by decide) (by decide)
    _ intrusion ⟨hown, trivial, trivial, trivial, trivial⟩ _ rfl
  intro id task v hstored hv
  exact (hapart.allTasks id task hstored).teamId v hv

end Agamemnon
