import Agamemnon.Store.Inbound
import Agamemnon.Store.Loading
import Agamemnon.Store.Restart

/-!
# Entities keep their identity

The service loads its collections from issues, applies the events that GitHub delivers and performs
its own operations, in any order.  Every entity is stored under its own identifier, and an update
keeps what identifies an entity: its identifier, the time of its creation, the number of its issue
and, for a task, its team.  An HMAS task is replaced as a whole by `update_hmas_task`, with the time
of its creation.
-/

namespace Agamemnon

open Json Collection Deployment Memory

/-! ### Runs of the service -/

/-- The service loads a collection from the issues that were listed, or takes a step. -/
inductive ServiceStep where
  | load (c : Collection) (issues : List Json)
  | loadHmasTasks (issues : List Json)
  | loadBriefs (issues : List Json)
  | step (s : Step)

variable {dump : Json → String} {parse : String → Option Json} {env : StoreEnv} {d : Deployment}
  {op : StoreOp} {c : Collection} {id : String}

namespace Deployment

section Service

variable (dump parse)

/-- What the service leaves.  A load that throws leaves what it has stored before. -/
def serve (d : Deployment) : ServiceStep → Deployment
  | .load c issues =>
      { d with
        memory := d.memory.setEntities c (loadEntities parse issues (d.memory.entities c)).2 }
  | .loadHmasTasks issues =>
      let (memory, hmasTaskIssueNumbers) :=
        hydrateHmasTasks parse issues d.memory d.hmasTaskIssueNumbers
      { d with memory, hmasTaskIssueNumbers }
  | .loadBriefs issues =>
      let (memory, briefIssueNumbers) := hydrateBriefs parse issues d.memory d.briefIssueNumbers
      { d with memory, briefIssueNumbers }
  | .step s => d.step dump parse s

/-- What a run of the service leaves. -/
def afterService (steps : List ServiceStep) : Deployment :=
  steps.foldl (serve dump parse) empty

end Service

/-- Every entity is stored under its own identifier. -/
structure Identified (d : Deployment) : Prop where
  entity : ∀ c id e, d.stored c id = some e → e.get? "id" = some (.string id)
  hmasTask : ∀ id t, d.memory.hmasTasks.lookup id = some t → t.id = id

end Deployment

/-- What identifies an entity. -/
def Collection.identity (c : Collection) : List String :=
  "createdAt" :: c.fixed

/-- What identifies an entity is not what the service and GitHub assign. -/
theorem Collection.ne_of_mem_identity (c : Collection) :
  ∀ k ∈ c.identity, k ≠ "status" ∧ k ≠ "completedAt" ∧ k ≠ "closedAt" ∧ k ≠ "updatedAt"
  := by cases c <;> decide

theorem Collection.id_mem_identity (c : Collection) :
  "id" ∈ c.identity
  := List.mem_cons_of_mem _ c.id_mem_fixed

/-! ### Assignments -/

namespace Json

/-- Assignments to other members leave a member. -/
theorem get?_foldl_set_of_ne {ms : List (String × Json)} {j : Json} {k : String}
    (hobject : j.isObject = true) (hms : ∀ m ∈ ms, k ≠ m.1) :
  (ms.foldl (fun j m => j.set m.1 m.2) j).get? k = j.get? k
  := by
  induction ms generalizing j with
  | nil => rfl
  | cons m ms ih =>
    rw [List.forall_mem_cons] at hms
    rw [List.foldl_cons, ih (isObject_set hobject) hms.2, get?_set_of_ne hobject hms.1]

theorem get?_of_getString {j : Json} {k s : String}
    (h : ((j.get? k).getD .null).getString = .ok s) :
  j.get? k = some (.string s)
  := by
  cases hv : j.get? k with
  | none =>
    rw [hv] at h
    cases h
  | some v =>
    rw [hv] at h
    cases v with
    | string s' =>
      obtain rfl := Except.ok.inj h
      rfl
    | _ => cases h

end Json

section Assignments

variable {e : Json} {k : String}

/-- A member that is kept, or that is not among the fields, is not assigned. -/
theorem get?_assignFields (hobject : e.isObject = true) {kept : List String} {fields : Json}
    (hk : k ∈ kept ∨ fields.get? k = none) :
  (assignFields kept fields e).get? k = e.get? k
  := by
  cases fields with
  | object ms =>
    rw [assignFields]
    -- on the members that are left to assign
    induction ms generalizing e with
    | nil => rfl
    | cons m ms ih =>
      have hrest : k ∈ kept ∨ (object ms).get? k = none := by
        refine hk.imp_right fun hnone => ?_
        rw [get?, Lists.lookup_cons] at hnone
        split_ifs at hnone
        exact hnone
      rw [List.foldl_cons]
      split_ifs with hm
      · exact ih hobject hrest
      · rw [ih (isObject_set hobject) hrest]
        apply get?_set_of_ne hobject
        rintro rfl
        obtain hkept | hnone := hk
        · exact hm hkept
        · rw [get?, Lists.lookup_cons, if_pos rfl] at hnone
          cases hnone
  | _ => rfl

theorem get?_changedAgent (env : StoreEnv) (hobject : e.isObject = true) {fields : Json}
    (hk : k ∈ agents.identity ∨ fields.get? k = none ∧ k ≠ "updatedAt") :
  (changedAgent env fields e).get? k = e.get? k
  := by
  have hidentity : ∀ k ∈ agents.identity,
      k ∈ ["id", "createdAt", "_github_issue", "updatedAt"] ∧ k ≠ "updatedAt" := by decide
  rw [changedAgent, get?_set_of_ne (isObject_assignFields hobject _ fields)]
  · exact get?_assignFields hobject (hk.imp (fun h => (hidentity k h).1) And.left)
  · exact hk.elim (fun h => (hidentity k h).2) And.right

theorem get?_changedTask (env : StoreEnv) (hobject : e.isObject = true) {body : Json}
    (hk : k ∈ tasks.identity
      ∨ body.get? k = none ∧ k ≠ "updatedAt" ∧ k ≠ "completedAt") :
  (changedTask env body e).get? k = e.get? k
  := by
  have hidentity : ∀ k ∈ tasks.identity,
      k ∈ ["id", "teamId", "createdAt", "_github_issue", "updatedAt"]
        ∧ k ≠ "updatedAt" ∧ k ≠ "completedAt" := by decide
  obtain ⟨hupdated, hcompleted⟩ : k ≠ "updatedAt" ∧ k ≠ "completedAt"
    := hk.elim (fun h => (hidentity k h).2) And.right
  have hfields := isObject_assignFields hobject
    ["id", "teamId", "createdAt", "_github_issue", "updatedAt"] body
  have hassigned := get?_assignFields hobject (hk.imp (fun h => (hidentity k h).1) And.left)
  rw [changedTask]
  split_ifs
  · rw [get?_set_of_ne (isObject_set hfields) hupdated,
      get?_set_of_ne hfields hcompleted, hassigned]
  · rw [get?_set_of_ne hfields hupdated, hassigned]

theorem get?_changedAgentIds (hobject : e.isObject = true) (body : Json) (hk : k ≠ "agentIds") :
  (changedAgentIds body e).get? k = e.get? k
  := by
  rw [changedAgentIds]
  split
  · exact get?_set_of_ne hobject hk
  · split
    · exact get?_set_of_ne hobject hk
    · rfl

theorem get?_changedTeam (env : StoreEnv) (hobject : e.isObject = true) (body : Json)
    (hk : k ∈ teams.identity) :
  (changedTeam env body e).get? k = e.get? k
  := by
  obtain ⟨hupdated, hname, hids⟩ : k ≠ "updatedAt" ∧ k ≠ "name" ∧ k ≠ "agentIds" := by
    revert k
    decide
  have hteam := isObject_changedAgentIds hobject body
  rw [changedTeam]
  split
  · rw [get?_set_of_ne (isObject_set hteam) hupdated, get?_set_of_ne hteam hname,
      get?_changedAgentIds hobject body hids]
  · rw [get?_set_of_ne hteam hupdated, get?_changedAgentIds hobject body hids]

/-- A change keeps what identifies the entity. -/
theorem get?_change {f : Json → Json} (hchange : op.change env = some (c, id, f))
    (hobject : e.isObject = true) (hk : k ∈ c.identity) :
  (f e).get? k = e.get? k
  := by
  obtain ⟨hstatus, hcompleted, -, -⟩ := c.ne_of_mem_identity k hk
  cases op with
  | updateAgent id' fields =>
    cases hchange
    exact get?_changedAgent env hobject (.inl hk)
  | startAgent id' | stopAgent id' =>
    cases hchange
    exact get?_set_of_ne hobject hstatus
  | updateTeam id' body =>
    cases hchange
    exact get?_changedTeam env hobject body hk
  | updateTask teamId taskId body =>
    cases hchange
    exact get?_changedTask env hobject (.inl hk)
  | markTaskCompleted taskId =>
    cases hchange
    rw [completedTask, get?_set_of_ne (isObject_set hobject) hcompleted,
      get?_set_of_ne hobject hstatus]
  | _ => cases hchange

end Assignments

/-! ### Issues -/

section Issues

variable {issue e : Json}

theorem get?_id_of_readEntity (h : readEntity parse issue = .ok (some (id, e))) :
  e.get? "id" = some (.string id)
  := by
  rw [readEntity] at h
  split at h
  · cases h
  · obtain ⟨number, -, h⟩ := exists_of_bind_eq_ok h
    obtain ⟨id', hid, h⟩ := exists_of_bind_eq_ok h
    obtain ⟨rfl, rfl⟩ := Prod.mk.inj (Option.some.inj (Except.ok.inj h))
    exact get?_of_getString hid

theorem get?_id_of_readEvent (h : readEvent parse issue = .ok (some (id, e))) :
  e.get? "id" = some (.string id)
  := by
  rw [readEvent] at h
  split at h
  · cases h
  · obtain ⟨id', hid, h⟩ := exists_of_bind_eq_ok h
    obtain ⟨number, -, h⟩ := exists_of_bind_eq_ok h
    obtain ⟨rfl, rfl⟩ := Prod.mk.inj (Option.some.inj (Except.ok.inj h))
    have hid := get?_of_getString hid
    cases number with
    | none => exact hid
    | some number => exact (get?_set_of_ne (isObject_of_get? hid) (by decide)).trans hid

/-- What is stored after an event has an identifier if what the event brings and what was stored
have it. -/
theorem get?_id_merged {action : IssueAction} {updatedAt : String} {stored : Option Json}
    {e' : Json} (he : e.get? "id" = some (.string id))
    (hstored : ∀ j, stored = some j → j.get? "id" = some (.string id))
    (h : merged action updatedAt e stored = some e') :
  e'.get? "id" = some (.string id)
  := by
  obtain ⟨base, members, hbase, hmembers, rfl⟩ := exists_of_merged h
  have hbase : base.get? "id" = some (.string id) := by
    obtain rfl | hbase := hbase
    · exact he
    · exact hstored base hbase
  rw [get?_foldl_set_of_ne (isObject_of_get? hbase), hbase]
  intro m hm heq
  have hkey := hmembers m hm
  rw [← heq] at hkey
  exact absurd hkey (by decide)

theorem identified_loadEntities {issues : List Json} {es : StringMap Json}
    (hes : ∀ id e, es.lookup id = some e → e.get? "id" = some (.string id))
    (h : (loadEntities parse issues es).2.lookup id = some e) :
  e.get? "id" = some (.string id)
  := by
  induction issues generalizing es with
  | nil => exact hes id e h
  | cons issue issues ih =>
    rw [loadEntities] at h
    split at h
    next => exact hes id e h
    next => exact ih hes h
    next id' entity hread =>
      refine ih ?_ h
      intro id'' e' hlookup
      obtain rfl | hne := eq_or_ne id'' id'
      · rw [Finmap.lookup_insert] at hlookup
        obtain rfl := Option.some.inj hlookup
        exact get?_id_of_readEntity hread
      · rw [Finmap.lookup_insert_of_ne _ hne] at hlookup
        exact hes id'' e' hlookup

end Issues

/-! ### HMAS tasks -/

namespace StoreOp

/-- What the operation can do to the HMAS tasks. -/
inductive HmasEffect (op : StoreOp) (ts : StringMap HmasTask) : StringMap HmasTask → Prop
  | same : HmasEffect op ts ts
  | created {t : HmasTask} (create : op = createHmasTask t) : HmasEffect op ts (ts.insert t.id t)
  | replaced {t : HmasTask} (update : op = updateHmasTask t) (stored : ts.lookup t.id ≠ none) :
      HmasEffect op ts (ts.insert t.id t)
  | changed {id : String} {t t' : HmasTask} (changes : op.changesState = true)
      (stored : ts.lookup id = some t) (sameId : t'.id = t.id)
      (sameCreatedAt : t'.createdAt = t.createdAt) : HmasEffect op ts (ts.insert id t')

theorem hmasEffect_writeEntity {e : Json} :
  op.HmasEffect d.memory.hmasTasks (d.writeEntity dump c id e).2.memory.hmasTasks
  := by
  have hput : (d.put c id e).memory.hmasTasks = d.memory.hmasTasks
    := hmasTasks_setEntities ..
  rw [writeEntity]
  split
  · rw [hput]
    exact .same
  · split
    · rw [hput]
      exact .same
    · simp only [hput]
      exact .same

theorem hmasEffect_removeEntity :
  op.HmasEffect d.memory.hmasTasks (d.removeEntity c id).2.memory.hmasTasks
  := by
  have herase : (d.erase c id).memory.hmasTasks = d.memory.hmasTasks
    := hmasTasks_setEntities ..
  rw [removeEntity]
  split
  · exact .same
  · split
    · rw [herase]
      exact .same
    · split
      · exact .same
      · simp only [herase]
        exact .same

theorem hmasEffect_createEntity {e : Json} {title : String} :
  op.HmasEffect d.memory.hmasTasks (d.createEntity dump env c title e).2.memory.hmasTasks
  := by
  have hput : (d.createEntity dump env c title e).2.memory.hmasTasks = d.memory.hmasTasks
    := hmasTasks_setEntities ..
  rw [hput]
  exact .same

theorem hmasEffect_rewriteHmasTask {f : HmasTask → HmasTask} (hop : op.changesState = true)
    (hf : ∀ t, (f t).id = t.id ∧ (f t).createdAt = t.createdAt) :
  op.HmasEffect d.memory.hmasTasks (d.rewriteHmasTask dump id f).2.memory.hmasTasks
  := by
  rw [rewriteHmasTask]
  split
  · exact .same
  · rename_i t ht
    obtain ⟨hid, hcreated⟩ := hf t
    simp only
    split <;> exact .changed hop ht hid hcreated

/-- What an operation does to the HMAS tasks. -/
theorem hmasEffect_apply (dump : Json → String) (env : StoreEnv) (d : Deployment) (op : StoreOp) :
  op.HmasEffect d.memory.hmasTasks (op.apply dump env d).memory.hmasTasks
  := by
  have hdoes := op.does_apply dump env d
  generalize op.apply dump env d = d' at hdoes ⊢
  cases hdoes with
  | nothing | createBrief => exact .same
  | create _ _ => exact hmasEffect_createEntity
  | write _ _ => exact hmasEffect_writeEntity
  | remove _ => exact hmasEffect_removeEntity
  | createTask create => exact .created create
  | @updateTask t update =>
    rw [Deployment.updateHmasTask, Memory.updateHmasTask]
    cases hold : d.memory.hmasTasks.lookup t.id with
    | none => exact .same
    | some old =>
      have hstored : d.memory.hmasTasks.lookup t.id ≠ none := by simp [hold]
      simp only [Bool.true_eq_false, ↓reduceIte]
      split <;> exact .replaced update hstored
  | rewriteTask changes keeps => exact hmasEffect_rewriteHmasTask changes keeps

end StoreOp

/-! ### Runs -/

namespace Deployment

variable {e e' : Json} {t t' : HmasTask}

theorem identified_empty : Identified empty
  where
  entity := by
    intro c id e h
    cases c <;> cases h
  hmasTask := by
    intro id t h
    cases h

theorem identified_insert {ts : StringMap HmasTask}
    (hts : ∀ id t, ts.lookup id = some t → t.id = id) (hid : t.id = id) :
  ∀ id' t', (ts.insert id t).lookup id' = some t' → t'.id = id'
  := by
  intro id' t' h
  obtain rfl | hne := eq_or_ne id' id
  · rw [Finmap.lookup_insert] at h
    obtain rfl := Option.some.inj h
    exact hid
  · rw [Finmap.lookup_insert_of_ne _ hne] at h
    exact hts id' t' h

theorem Identified.operation (h : d.Identified) (dump : Json → String) (env : StoreEnv)
    (op : StoreOp) :
  (op.apply dump env d).Identified
  where
  entity := by
    intro c id e hstored
    have heffect := op.effect_apply dump env d c id
    rw [hstored] at heffect
    generalize hbefore : d.stored c id = before at heffect
    cases heffect with
    | same => exact h.entity c id e hbefore
    | created creates drawn identified => rw [drawn, identified]
    | changed change =>
      have hid := h.entity c id _ hbefore
      rw [get?_change change (isObject_of_get? hid) c.id_mem_identity, hid]
  hmasTask := by
    have heffect := op.hmasEffect_apply dump env d
    generalize (op.apply dump env d).memory.hmasTasks = ts at heffect
    cases heffect with
    | same => exact h.hmasTask
    | created create | replaced update stored => exact identified_insert h.hmasTask rfl
    | changed changes stored sameId _ =>
      exact identified_insert h.hmasTask (sameId.trans (h.hmasTask _ _ stored))

theorem hmasTasks_deliver (parse : String → Option Json) (m : Memory) (e : NormalizedEvent) :
  (m.deliver parse e).hmasTasks = m.hmasTasks
  := by
  rw [deliver]
  split
  · rename_i changed m' hevent
    rw [applyGithubEvent] at hevent
    split at hevent
    · cases hevent
      rfl
    · obtain ⟨brought, -, hevent⟩ := exists_of_bind_eq_ok hevent
      cases brought with
      | none =>
        cases hevent
        rfl
      | some r =>
        obtain ⟨outcome, -, hevent⟩ := exists_of_bind_eq_ok hevent
        cases outcome with
        | none =>
          cases hevent
          rfl
        | some entity =>
          cases hevent
          exact hmasTasks_setEntities ..
  · rfl

theorem Identified.delivery (h : d.Identified) (dump : Json → String) (e : NormalizedEvent) :
  (d.step dump parse (.delivery e)).Identified
  where
  entity := by
    intro c id j hstored
    by_cases hbrings : ∃ entity, e.Brings parse c id entity
    · obtain ⟨entity, hbrings⟩ := hbrings
      have hmerged := (@stored_delivery dump parse d c id e entity hbrings).symm.trans hstored
      exact get?_id_merged (get?_id_of_readEvent hbrings.2) (h.entity c id) hmerged
    · have hsame := @stored_delivery_of_not dump parse d c id e (not_exists.mp hbrings)
      exact h.entity c id j (hsame.symm.trans hstored)
  hmasTask := by
    intro id t ht
    have hsame := congrArg (Finmap.lookup id) (hmasTasks_deliver parse d.memory e)
    exact h.hmasTask id t (hsame.symm.trans ht)

theorem entities_hydrateHmasTasks (issues : List Json) (m : Memory) (numbers : StringMap String)
    (c : Collection) :
  (hydrateHmasTasks parse issues m numbers).1.entities c = m.entities c
  := by
  rw [hydrateHmasTasks_fst]
  obtain ⟨index, hindex⟩ := foldl_createHmasTask
    (issues.filterMap fun issue => (readRecord parse hmasTaskFromJson issue).map (·.1)) m
  rw [hindex]
  cases c <;> rfl

theorem hydrateBriefs_frame (issues : List Json) (m : Memory) (numbers : StringMap String) :
  (∀ c, (hydrateBriefs parse issues m numbers).1.entities c = m.entities c)
    ∧ (hydrateBriefs parse issues m numbers).1.hmasTasks = m.hmasTasks
  := by
  rw [hydrateBriefs_fst, foldl_createTaskBrief]
  refine ⟨fun c => ?_, rfl⟩
  cases c <;> rfl

theorem identified_createHmasTasks {ts : List HmasTask} {m : Memory}
    (hm : ∀ id t, m.hmasTasks.lookup id = some t → t.id = id) :
  ∀ id t, (ts.foldl Memory.createHmasTask m).hmasTasks.lookup id = some t → t.id = id
  := by
  induction ts generalizing m with
  | nil => exact hm
  | cons t ts ih => exact ih (identified_insert hm rfl)

theorem Identified.serve (h : d.Identified) (dump : Json → String) (s : ServiceStep) :
  (d.serve dump parse s).Identified
  := by
  cases s with
  | load c issues =>
    constructor
    · intro c' id e hstored
      obtain rfl | hne := eq_or_ne c' c
      · rw [stored, Deployment.serve, Memory.entities_setEntities_self] at hstored
        exact identified_loadEntities (h.entity c') hstored
      · rw [stored, Deployment.serve, Memory.entities_setEntities_of_ne _ _ hne] at hstored
        exact h.entity c' id e hstored
    · intro id t ht
      rw [Deployment.serve, Memory.hmasTasks_setEntities] at ht
      exact h.hmasTask id t ht
  | loadHmasTasks issues =>
    constructor
    · intro c id e hstored
      rw [stored, Deployment.serve, entities_hydrateHmasTasks] at hstored
      exact h.entity c id e hstored
    · have htasks := @identified_createHmasTasks
        (issues.filterMap fun issue => (readRecord parse hmasTaskFromJson issue).map (·.1))
        d.memory h.hmasTask
      rw [← hydrateHmasTasks_fst issues d.memory d.hmasTaskIssueNumbers] at htasks
      exact htasks
  | loadBriefs issues =>
    obtain ⟨hentities, htasks⟩ := @hydrateBriefs_frame parse issues d.memory d.briefIssueNumbers
    constructor
    · intro c id e hstored
      rw [stored, Deployment.serve, hentities] at hstored
      exact h.entity c id e hstored
    · rw [Deployment.serve, htasks]
      exact h.hmasTask
  | step s =>
    cases s with
    | operation env op => exact h.operation dump env op
    | delivery e => exact h.delivery dump e

theorem identified_afterService (dump : Json → String) (parse : String → Option Json)
    (steps : List ServiceStep) :
  (afterService dump parse steps).Identified
  := by
  rw [afterService]
  generalize hstart : empty = d
  have hd : d.Identified := hstart ▸ identified_empty
  clear hstart
  induction steps generalizing d with
  | nil => exact hd
  | cons s steps ih => exact ih _ (hd.serve dump s)

/-! ### Updates -/

/-- What the updates of the service keep.  An operation that creates no entity keeps what identifies
an entity; `update_agent` and `update_task` also keep every member that is not among the fields,
except for times.  No update changes the identifier of an HMAS task, and only `update_hmas_task`
changes the time of its creation, when it stores another task. -/
structure KeepsIdentity (dump : Json → String) (d : Deployment) : Prop where
  identity : ∀ (env : StoreEnv) (op : StoreOp) (c : Collection) (id : String) (e e' : Json),
    op.creates = none → d.stored c id = some e →
    (op.apply dump env d).stored c id = some e' → ∀ k ∈ c.identity, e'.get? k = e.get? k
  updateAgent : ∀ (env : StoreEnv) (id : String) (fields e e' : Json),
    d.stored .agents id = some e →
    ((StoreOp.updateAgent id fields).apply dump env d).stored .agents id = some e' →
    ∀ k, fields.get? k = none → k ≠ "updatedAt" → e'.get? k = e.get? k
  updateTask : ∀ (env : StoreEnv) (teamId taskId : String) (body e e' : Json),
    d.stored .tasks taskId = some e →
    ((StoreOp.updateTask teamId taskId body).apply dump env d).stored .tasks taskId = some e' →
    ∀ k, body.get? k = none → k ≠ "updatedAt" → k ≠ "completedAt" → e'.get? k = e.get? k
  hmasTaskId : ∀ (env : StoreEnv) (op : StoreOp) (id : String) (t t' : HmasTask),
    (∀ u, op ≠ .createHmasTask u) →
    d.memory.hmasTasks.lookup id = some t →
    (op.apply dump env d).memory.hmasTasks.lookup id = some t' → t'.id = t.id
  hmasTaskCreatedAt : ∀ (env : StoreEnv) (op : StoreOp) (id : String) (t t' : HmasTask),
    (∀ u, op ≠ .createHmasTask u) →
    (∀ u, op ≠ .updateHmasTask u) → d.memory.hmasTasks.lookup id = some t →
    (op.apply dump env d).memory.hmasTasks.lookup id = some t' → t'.createdAt = t.createdAt
  updateHmasTask : ∀ (env : StoreEnv) (t u : HmasTask), d.memory.hmasTasks.lookup u.id = some t →
    ((StoreOp.updateHmasTask u).apply dump env d).memory.hmasTasks.lookup u.id = some u

/-- An operation that creates no entity leaves an entity or changes it. -/
theorem eq_or_change_of_stored (hcreates : op.creates = none) (he : d.stored c id = some e)
    (he' : (op.apply dump env d).stored c id = some e') :
  e' = e ∨ ∃ f, op.change env = some (c, id, f) ∧ e' = f e
  := by
  have heffect := op.effect_apply dump env d c id
  rw [he, he'] at heffect
  cases heffect with
  | same => exact .inl rfl
  | created creates =>
    rw [hcreates] at creates
    cases creates
  | @changed f _ change => exact .inr ⟨f, change, rfl⟩

theorem Identified.keepsIdentity (h : d.Identified) (dump : Json → String) :
  d.KeepsIdentity dump
  where
  identity := by
    intro env op c id e e' hcreates he he' k hk
    obtain rfl | ⟨f, hchange, rfl⟩ := eq_or_change_of_stored hcreates he he'
    · rfl
    · exact get?_change hchange (isObject_of_get? (h.entity c id e he)) hk
  updateAgent := by
    intro env id fields e e' he he' k hk hupdated
    obtain rfl | ⟨f, hchange, rfl⟩ := eq_or_change_of_stored rfl he he'
    · rfl
    · cases hchange
      exact get?_changedAgent env (isObject_of_get? (h.entity _ _ e he))
        (.inr ⟨hk, hupdated⟩)
  updateTask := by
    intro env teamId taskId body e e' he he' k hk hupdated hcompleted
    obtain rfl | ⟨f, hchange, rfl⟩ := eq_or_change_of_stored rfl he he'
    · rfl
    · cases hchange
      exact get?_changedTask env (isObject_of_get? (h.entity _ _ e he))
        (.inr ⟨hk, hupdated, hcompleted⟩)
  hmasTaskId := by
    intro env op id t t' hcreate ht ht'
    rw [h.hmasTask id t ht, (h.operation dump env op).hmasTask id t' ht']
  hmasTaskCreatedAt := by
    intro env op id t t' hcreate hupdate ht ht'
    have heffect := op.hmasEffect_apply dump env d
    generalize (op.apply dump env d).memory.hmasTasks = ts at heffect ht'
    cases heffect with
    | same => rw [Option.some.inj (ht.symm.trans ht')]
    | created create => exact absurd create (hcreate _)
    | replaced update => exact absurd update (hupdate _)
    | @changed id' u u' _ stored _ sameCreatedAt =>
      obtain rfl | hne := eq_or_ne id id'
      · rw [Finmap.lookup_insert] at ht'
        obtain rfl := Option.some.inj ht'
        obtain rfl := Option.some.inj (ht.symm.trans stored)
        exact sameCreatedAt
      · rw [Finmap.lookup_insert_of_ne _ hne] at ht'
        rw [Option.some.inj (ht.symm.trans ht')]
  updateHmasTask := by
    intro env t u ht
    rw [StoreOp.apply, updateHmasTask, Memory.updateHmasTask, ht]
    simp only [Bool.true_eq_false, ↓reduceIte]
    split <;> exact Finmap.lookup_insert _

/-- However the service loads its collections, is told of events and works, every entity is stored
under its own identifier, and the updates keep what identifies it. -/
theorem identified_and_keepsIdentity (dump : Json → String) (parse : String → Option Json)
    (steps : List ServiceStep) :
  (afterService dump parse steps).Identified
    ∧ (afterService dump parse steps).KeepsIdentity dump
  := by
  have h := identified_afterService dump parse steps
  exact ⟨h, h.keepsIdentity dump⟩

/-- A task that was created in January. -/
def januaryTask : HmasTask where
  id := "t"
  briefId := "b"
  parentTaskId := ""
  layer := .l0ChiefArchitect
  state := .pending
  subject := "s"
  description := ""
  repo := ""
  module := ""
  issue := 0
  assignedLeadId := ""
  blockedBy := []
  childTaskIds := []
  escalations := []
  createdAt := "2026-01-01T00:00:00Z"
  completedAt := ""

/-- The service has created the task. -/
def withJanuaryTask : Deployment :=
  afterService (fun _ => "") (fun _ => none)
    [.step (.operation aprilEnv (.createHmasTask januaryTask))]

/-- `update_hmas_task` stores the task that it is given, also one with another time of creation. -/
theorem createdAt_updateHmasTask :
  withJanuaryTask.memory.hmasTasks.lookup "t" = some januaryTask
    ∧ ∃ t', ((StoreOp.updateHmasTask { januaryTask with createdAt := "2026-02-01T00:00:00Z" }).apply
        (fun _ => "") aprilEnv withJanuaryTask).memory.hmasTasks.lookup "t" = some t'
      ∧ t'.createdAt ≠ januaryTask.createdAt
  := by
  have hstored : withJanuaryTask.memory.hmasTasks.lookup "t" = some januaryTask
    := Finmap.lookup_insert _
  have h := (identified_afterService (fun _ => "") (fun _ => none)
    [.step (.operation aprilEnv (.createHmasTask januaryTask))]).keepsIdentity (fun _ => "")
  refine ⟨hstored, _, h.updateHmasTask aprilEnv januaryTask _ hstored, ?_⟩
  decide

end Deployment

end Agamemnon
