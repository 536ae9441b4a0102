import Agamemnon.Store.Consistent

/-!
# Runs of the store

A run is a sequence of operations, starting with an empty store and no issue.  The identifiers
and the issue numbers that an operation draws are unused.  The issues mirror the store after
every run.
-/

namespace Agamemnon

/-- What an operation draws is unused.  An issue number is an `int`, and an identifier has no
backtick. -/
structure StoreEnv.Fresh (env : StoreEnv) (d : Deployment) : Prop where
  number : d.github.lookup (toString env.number) = none
  small : env.number < 2 ^ 31
  plain : '`' ∉ env.uuid.toList
  entity : ∀ c, (d.memory.entities c).lookup env.uuid = none
  brief : d.memory.taskBriefs.lookup env.uuid = none

theorem toString_ne_empty (n : ℕ) :
  toString n ≠ ""
  := by
  intro h
  apply @Nat.toDigits_ne_nil n 10
  rw [← Nat.toList_repr]
  exact congrArg String.toList h

variable {dump : Json → String} {parse : String → Option Json} {env : StoreEnv} {d : Deployment}

namespace Deployment

/-! ### Entities and tasks -/

variable {c : Collection} {id : String} (h : d.Mirrored parse) (hcodec : Codec dump parse)
include h

theorem Mirrored.removeEntity :
  (d.removeEntity c id).2.Mirrored parse
  := by
  rw [Deployment.removeEntity]
  split
  · exact h
  · rename_i e he
    have hc := h.entities c
    obtain ⟨i, hi, hlisted, hentity, hnumber⟩ := hc.exists_issue h.numbered he
    rw [hnumber]
    simp only [Json.getString, Github.closeIssue, erase, hi]
    apply h.setEntities (i := { i with isOpen := false }) hlisted.small hlisted.label
    · intro old hold
      obtain rfl := Option.some.inj (hi.symm.trans hold)
      exact hlisted.label
    · apply hc.remove hi hentity

/-- An issue with the label of the HMAS tasks is written, and mirrors the tasks that are stored
with it. -/
theorem Mirrored.setHmasTasks {i : Issue} {ts : StringMap HmasTask}
    {index : StringMap (List String)} {numbers : StringMap String} (hsmall : i.number < 2 ^ 31)
    (hlabel : i.label = "agamemnon-hmas-task")
    (hold : ∀ old, d.github.lookup (toString i.number) = some old →
      old.label = "agamemnon-hmas-task")
    (hts : TasksMirrored parse ts numbers (d.github.insert (toString i.number) i))
    (hindexed : Memory.Indexed
      { d.memory with hmasTasks := ts, hmasTasksByBrief := index }) :
  Mirrored parse { d with
    memory := { d.memory with hmasTasks := ts, hmasTasksByBrief := index }
    hmasTaskIssueNumbers := numbers
    github := d.github.insert (toString i.number) i }
  where
  numbered := h.numbered.insert hsmall
  entities := by
    intro c
    have hframe : EntitiesMirrored parse c (d.memory.entities c)
        (d.github.insert (toString i.number) i) := by
      apply (h.entities c).frame (hlabel ▸ c.label_ne_hmasTask.symm)
      intro old hfound
      rw [hold old hfound]
      exact c.label_ne_hmasTask.symm
    cases c <;> exact hframe
  tasks := hts
  briefs := by
    rw [briefOf, held_recordOf_of_label_ne]
    · exact h.briefs
    · rw [hlabel]
      decide
    · intro old hfound
      rw [hold old hfound]
      decide
  indexed := hindexed

include hcodec

theorem Mirrored.createEntity (hfresh : env.Fresh d) {e : Json} (he : c.Holds env.uuid e)
    (title : String) :
  (d.createEntity dump env c title e).2.Mirrored parse
  := by
  obtain ⟨i, hn, hopen, hlabel, hbody, hcreate⟩ := d.github.exists_createIssue env.number title
    (makeIssueBody dump (c.entityType env.uuid) e) c.label
  have hsmall := hfresh.small
  have hnumber := hfresh.number
  rw [← hn] at hsmall hnumber
  rw [Deployment.createEntity, hcreate]
  simp only [toString_ne_empty, ↓reduceIte]
  apply h.setEntities hsmall hlabel
  · intro old hold
    rw [hnumber] at hold
    contradiction
  · apply (h.entities c).create hcodec hnumber ⟨hsmall, hopen, hlabel⟩ hbody (hfresh.entity c) he

theorem Mirrored.writeEntity {e e' : Json}
    (he : (d.memory.entities c).lookup id = some e) (hkeeps : c.Keeps e e') :
  (d.writeEntity dump c id e').2.Mirrored parse
  := by
  have hc := h.entities c
  obtain ⟨i, hi, hlisted, hentity, hnumber⟩ := hc.exists_issue h.numbered he
  have hnumber' : e'.get? "_github_issue" = some (.string (toString i.number))
    := by rw [hkeeps.member _ c.githubIssue_mem_fixed, hnumber]
  rw [Deployment.writeEntity, hnumber']
  simp only [Json.getString, Github.updateIssueBody, put, hi]
  apply h.setEntities (i := { i with body := makeIssueBody dump (c.entityType id) e' })
    hlisted.small hlisted.label
  · intro old hold
    obtain rfl := Option.some.inj (hi.symm.trans hold)
    exact hlisted.label
  · apply hc.write hcodec hi hlisted hentity (hkeeps.holds (hc.holds he)) hnumber'

theorem Mirrored.updateEntity {f : Json → Json}
    (hf : ∀ e, c.Holds id e → c.Keeps e (f e)) (reply : Json → Json) :
  (d.updateEntity dump c id f reply).2.Mirrored parse
  := by
  rw [Deployment.updateEntity]
  split
  · exact h
  · rename_i e he
    apply h.writeEntity hcodec he (hf e ((h.entities c).holds he))

/-! ### Tasks and briefs -/

section Tasks

variable {t : HmasTask}

theorem Mirrored.createHmasTask (hnumber : d.github.lookup (toString env.number) = none)
    (hsmall : env.number < 2 ^ 31) (hissue : t.IssueFits) (hplain : '`' ∉ t.id.toList)
    (hunused : d.memory.hmasTasks.lookup t.id = none) :
  (d.createHmasTask dump env t).Mirrored parse
  := by
  obtain ⟨i, hn, hopen, hlabel, hbody, hcreate⟩ := d.github.exists_createIssue env.number
    ("hmas-task: " ++ t.id) (makeIssueBody dump ("hmas-tasks/" ++ t.id) (hmasTaskToJson t))
    "agamemnon-hmas-task"
  rw [← hn] at hsmall hnumber
  rw [Deployment.createHmasTask, hcreate]
  simp only [toString_ne_empty, ↓reduceIte]
  apply h.setHmasTasks hsmall hlabel
  · intro old hold
    rw [hnumber] at hold
    contradiction
  · apply h.tasks.create hcodec hnumber ⟨hsmall, hopen, hlabel⟩ hbody hissue hplain hunused
  · apply h.indexed.createHmasTask hunused

theorem Mirrored.updateHmasTask (hissue : t.IssueFits) :
  (d.updateHmasTask dump t).2.Mirrored parse
  := by
  cases hold : d.memory.hmasTasks.lookup t.id with
  | none =>
    rw [Deployment.updateHmasTask, Memory.updateHmasTask, hold]
    exact h
  | some old =>
    obtain ⟨i, hi, hsmall, hlabel, hnumber, hts⟩ := h.tasks.write hcodec h.numbered hold hissue
    have hindexed := h.indexed.updateHmasTask hold
    rw [Deployment.updateHmasTask]
    rw [Memory.updateHmasTask, hold] at hindexed ⊢
    simp only [Bool.true_eq_false, ↓reduceIte, hnumber, Github.updateIssueBody, hi]
    apply h.setHmasTasks (i := { i with
      body := makeIssueBody dump ("hmas-tasks/" ++ t.id) (hmasTaskToJson t) }) hsmall hlabel
    · intro old' hold'
      obtain rfl := Option.some.inj (hi.symm.trans hold')
      exact hlabel
    · exact hts
    · exact hindexed

omit h hcodec in
/-- To change a stored task is to update it. -/
theorem rewriteHmasTask_eq {id : String} {f : HmasTask → HmasTask}
    (ht : d.memory.hmasTasks.lookup id = some t) (hid : (f t).id = id)
    (hbrief : (f t).briefId = t.briefId) :
  d.rewriteHmasTask dump id f = d.updateHmasTask dump (f t)
  := by
  rw [rewriteHmasTask, Deployment.updateHmasTask, Memory.updateHmasTask, ht, hid, ht]
  simp only [hbrief, Bool.true_eq_false, ↓reduceIte]

theorem Mirrored.rewriteHmasTask (id : String) {f : HmasTask → HmasTask}
    (hf : ∀ t, (f t).id = t.id ∧ (f t).briefId = t.briefId ∧ (f t).issue = t.issue) :
  (d.rewriteHmasTask dump id f).2.Mirrored parse
  := by
  cases ht : d.memory.hmasTasks.lookup id with
  | none =>
    rw [Deployment.rewriteHmasTask, ht]
    exact h
  | some t =>
    obtain ⟨hid, -, hissue⟩ := h.tasks.holds ht
    obtain ⟨hfid, hfbrief, hfissue⟩ := hf t
    rw [rewriteHmasTask_eq ht (hfid.trans hid) hfbrief]
    apply h.updateHmasTask hcodec
    rw [HmasTask.IssueFits, hfissue]
    exact hissue

end Tasks

theorem Mirrored.createTaskBrief {b : TaskBrief}
    (hnumber : d.github.lookup (toString env.number) = none) (hsmall : env.number < 2 ^ 31)
    (hfull : b.Full) (hplain : '`' ∉ b.id.toList)
    (hunused : d.memory.taskBriefs.lookup b.id = none) :
  (d.createTaskBrief dump env b).Mirrored parse
  := by
  obtain ⟨i, hn, hopen, hlabel, hbody, hcreate⟩ := d.github.exists_createIssue env.number
    ("brief: " ++ truncatedTitle b.title)
    (makeIssueBody dump ("briefs/" ++ b.id) (taskBriefToJson b)) "agamemnon-brief"
  rw [← hn] at hsmall hnumber
  have hnone : ∀ {label : String} (old : Issue),
      d.github.lookup (toString i.number) = some old → old.label ≠ label := by
    intro label old hold
    rw [hnumber] at hold
    contradiction
  rw [Deployment.createTaskBrief, hcreate]
  simp only [toString_ne_empty, ↓reduceIte]
  constructor
  · apply h.numbered.insert hsmall
  · intro c
    have hframe := (h.entities c).frame (hlabel ▸ c.label_ne_brief.symm) hnone
    cases c <;> exact hframe
  · apply h.tasks.frame _ hnone
    rw [hlabel]
    decide
  · apply mirror_createBrief h.briefs hcodec hnumber ⟨hsmall, hopen, hlabel⟩ hbody hfull hplain
      hunused
  · apply h.indexed.createTaskBrief

end Deployment

/-! ### Runs -/

/-- The operations that change the store. -/
inductive StoreOp where
  | createAgent (body : Json)
  | updateAgent (id : String) (fields : Json)
  | startAgent (id : String)
  | stopAgent (id : String)
  | deleteAgent (id : String)
  | createTeam (body : Json)
  | updateTeam (id : String) (body : Json)
  | deleteTeam (id : String)
  | createTask (teamId : String) (body : Json)
  | updateTask (teamId taskId : String) (body : Json)
  | markTaskCompleted (taskId : String)
  | createFault (type : String)
  | removeFault (id : String)
  | createHmasTask (t : HmasTask)
  | updateHmasTask (t : HmasTask)
  | updateHmasTaskState (id : String) (state : TaskState)
  | updateHmasTaskStateAndRecordEscalation (id : String) (newState : TaskState)
      (escalation : EscalationRecord)
  | createTaskBrief (b : TaskBrief)

namespace StoreOp

/-- What the operation leaves, whether it returns or throws. -/
def apply (dump : Json → String) (env : StoreEnv) (d : Deployment) : StoreOp → Deployment
  | createAgent body => (d.createAgent dump env body).2
  | updateAgent id fields => (d.updateAgent dump env id fields).2
  | startAgent id => (d.startAgent dump id).2
  | stopAgent id => (d.stopAgent dump id).2
  | deleteAgent id => (d.deleteAgent id).2
  | createTeam body => (d.createTeam dump env body).2
  | updateTeam id body => (d.updateTeam dump env id body).2
  | deleteTeam id => (d.deleteTeam id).2
  | createTask teamId body => (d.createTask dump env teamId body).2
  | updateTask teamId taskId body => (d.updateTask dump env teamId taskId body).2
  | markTaskCompleted taskId => (d.markTaskCompleted dump env taskId).2
  | createFault type => (d.createFault dump env type).2
  | removeFault id => (d.removeFault id).2
  | createHmasTask t => d.createHmasTask dump env t
  | updateHmasTask t => (d.updateHmasTask dump t).2
  | updateHmasTaskState id state => (d.updateHmasTaskState dump id state).2
  | updateHmasTaskStateAndRecordEscalation id newState escalation =>
      (d.updateHmasTaskStateAndRecordEscalation dump id newState escalation).2
  | createTaskBrief b => d.createTaskBrief dump env b

/-- The operation may be called: what it draws is unused, the values are values of the library,
a new HMAS task has an identifier of its own, and a brief was read by `taskBriefFromJson` and
given the identifier that was drawn. -/
def Admissible (env : StoreEnv) (d : Deployment) : StoreOp → Prop
  | createAgent body => env.Fresh d ∧ body.Proper
  | updateAgent _ fields => fields.Proper
  | createTeam body => env.Fresh d ∧ body.Proper
  | updateTeam _ body => body.Proper
  | createTask _ body => env.Fresh d ∧ body.Proper
  | updateTask _ _ body => body.Proper
  | createFault _ => env.Fresh d
  | createHmasTask t => env.Fresh d ∧ t.IssueFits ∧ '`' ∉ t.id.toList
      ∧ d.memory.hmasTasks.lookup t.id = none
  | updateHmasTask t => t.IssueFits
  | createTaskBrief b => env.Fresh d
      ∧ ∃ j b', taskBriefFromJson j = .ok b' ∧ b = { b' with id := env.uuid }
  | _ => True

end StoreOp

/-- The deployments that runs lead to. -/
inductive Deployment.Reachable (dump : Json → String) : Deployment → Prop
  | empty : Reachable dump Deployment.empty
  | step {d : Deployment} {env : StoreEnv} {op : StoreOp} (run : Reachable dump d)
      (admissible : op.Admissible env d) : Reachable dump (op.apply dump env d)

namespace Deployment

/-- An operation keeps the issues in step. -/
theorem Mirrored.apply (h : d.Mirrored parse) (hcodec : Codec dump parse) {op : StoreOp}
    (hop : op.Admissible env d) :
  (op.apply dump env d).Mirrored parse
  := by
  cases op with
  | createAgent body =>
    rw [StoreOp.apply, createAgent]
    split
    · exact h
    · rename_i title agent hagent
      apply h.createEntity hcodec hop.1 (holds_newAgent hop.2 hop.1.plain hagent)
  | updateAgent id fields =>
    rw [StoreOp.apply, updateAgent]
    split
    · exact h
    · apply h.updateEntity hcodec
      intro e he
      apply keeps_changedAgent env he hop
  | startAgent id | stopAgent id =>
    apply h.updateEntity hcodec
    intro e he
    apply keeps_status he
  | deleteAgent id | deleteTeam id | removeFault id => apply h.removeEntity
  | createTeam body =>
    rw [StoreOp.apply, createTeam]
    split
    · exact h
    · rename_i title team hteam
      apply h.createEntity hcodec hop.1 (holds_newTeam hop.2 hop.1.plain hteam)
  | updateTeam id body =>
    apply h.updateEntity hcodec
    intro e he
    apply keeps_changedTeam env he hop
  | createTask teamId body =>
    rw [StoreOp.apply, createTask]
    split
    · exact h
    · rename_i title task htask
      apply h.createEntity hcodec hop.1 (holds_newTask hop.2 hop.1.plain htask)
  | updateTask teamId taskId body =>
    rw [StoreOp.apply, updateTask]
    split
    · exact h
    split
    · exact h
    split
    · exact h
    split
    · exact h
    · apply h.updateEntity hcodec
      intro e he
      apply keeps_changedTask env he hop
  | markTaskCompleted taskId =>
    rw [StoreOp.apply, markTaskCompleted]
    split
    · exact h
    · rename_i task htask
      split
      · exact h
      · apply h.writeEntity (c := .tasks) hcodec htask
        apply keeps_completedTask env ((h.entities .tasks).holds htask)
  | createFault type =>
    apply h.createEntity hcodec hop (holds_newFault type hop.plain)
  | createHmasTask t =>
    obtain ⟨hfresh, hissue, hplain, hunused⟩ := hop
    apply h.createHmasTask hcodec hfresh.number hfresh.small hissue hplain hunused
  | updateHmasTask t => apply h.updateHmasTask hcodec hop
  | updateHmasTaskState id state | updateHmasTaskStateAndRecordEscalation id newState escalation =>
    apply h.rewriteHmasTask hcodec
    intro t
    exact ⟨rfl, rfl, rfl⟩
  | createTaskBrief b =>
    obtain ⟨hfresh, j, b', hb', rfl⟩ := hop
    obtain ⟨hmodules, himpls, htasks⟩ := full_of_taskBriefFromJson hb'
    have hfull : TaskBrief.Full { b' with id := env.uuid } := ⟨hmodules, himpls, htasks⟩
    apply h.createTaskBrief hcodec hfresh.number hfresh.small hfull hfresh.plain hfresh.brief

/-- The issues mirror the store after every run. -/
theorem Reachable.mirrored (hcodec : Codec dump parse) (h : Reachable dump d) :
  d.Mirrored parse
  := by
  induction h with
  | empty => apply mirrored_empty
  | step _ admissible ih => apply ih.apply hcodec admissible

end Deployment

end Agamemnon
