import Agamemnon.Store.Index
import Agamemnon.Store.Mirrored

/-!
# Operations keep the issues in step

The issues mirror every collection after every operation of the store, whether it returns or
throws.
-/

namespace Agamemnon

open Json.Proper Collection

/-! ### Collections -/

namespace Memory

variable (m : Memory) (c : Collection) (es : StringMap Json)

@[simp]
theorem entities_setEntities_self :
  (m.setEntities c es).entities c = es
  := by cases c <;> rfl

theorem entities_setEntities_of_ne {c c' : Collection} (h : c' ≠ c) :
  (m.setEntities c es).entities c' = m.entities c'
  := by
  cases c <;> cases c' <;> first | rfl | contradiction

@[simp]
theorem hmasTasks_setEntities :
  (m.setEntities c es).hmasTasks = m.hmasTasks
  := by cases c <;> rfl

@[simp]
theorem taskBriefs_setEntities :
  (m.setEntities c es).taskBriefs = m.taskBriefs
  := by cases c <;> rfl

variable {m}

theorem Indexed.setEntities (h : m.Indexed) :
  (m.setEntities c es).Indexed
  := by
  cases c <;> exact ⟨h.nodup, h.mem_listed⟩

theorem Indexed.createTaskBrief (h : m.Indexed) (b : TaskBrief) :
  (m.createTaskBrief b).Indexed
  := ⟨h.nodup, h.mem_listed⟩

end Memory

namespace Collection

theorem label_injective :
  Function.Injective label
  := by
  intro c c' h
  cases c <;> cases c' <;> first | rfl | exact absurd h (by decide)

theorem label_ne_hmasTask (c : Collection) :
  c.label ≠ "agamemnon-hmas-task"
  := by cases c <;> decide

theorem label_ne_brief (c : Collection) :
  c.label ≠ "agamemnon-brief"
  := by cases c <;> decide

end Collection

/-! ### Writing one issue -/

/-- The issues mirror the store. -/
structure Deployment.Mirrored (parse : String → Option Json) (d : Deployment) : Prop where
  numbered : d.github.Numbered
  entities : ∀ c, EntitiesMirrored parse c (d.memory.entities c) d.github
  tasks : TasksMirrored parse d.memory.hmasTasks d.hmasTaskIssueNumbers d.github
  briefs : Mirror d.memory.taskBriefs (d.github.held (briefOf parse))
  indexed : d.memory.Indexed

namespace Deployment

variable {dump : Json → String} {parse : String → Option Json} {env : StoreEnv} {d : Deployment}

theorem mirrored_empty :
  Deployment.empty.Mirrored parse
  where
  numbered := by
    intro n i h
    contradiction
  entities := by
    intro c
    have hempty : empty.memory.entities c = ∅ := by cases c <;> rfl
    rw [hempty]
    constructor
    · exact Mirror.empty
    · intro n i h
      contradiction
    · intro id e h
      contradiction
  tasks := by
    constructor
    · exact Mirror.empty
    · intro n id t h
      contradiction
    · intro id t h
      contradiction
  briefs := Mirror.empty
  indexed := Memory.indexed_empty

variable {c : Collection} {i : Issue}

/-- An issue of a collection is written, and mirrors the collection that is stored with it. -/
theorem Mirrored.setEntities (h : d.Mirrored parse) {es : StringMap Json}
    (hsmall : i.number < 2 ^ 31) (hlabel : i.label = c.label)
    (hold : ∀ old, d.github.lookup (toString i.number) = some old → old.label = c.label)
    (hes : EntitiesMirrored parse c es (d.github.insert (toString i.number) i)) :
  Mirrored parse { d with
    memory := d.memory.setEntities c es
    github := d.github.insert (toString i.number) i }
  where
  numbered := h.numbered.insert hsmall
  entities := by
    intro c'
    by_cases hc : c' = c
    · subst hc
      rw [Memory.entities_setEntities_self]
      exact hes
    · rw [Memory.entities_setEntities_of_ne _ _ hc]
      have hne : c.label ≠ c'.label := fun heq => hc (label_injective heq.symm)
      apply (h.entities c').frame (hlabel ▸ hne)
      intro old hfound
      rw [hold old hfound]
      exact hne
  tasks := by
    rw [Memory.hmasTasks_setEntities]
    apply h.tasks.frame (hlabel ▸ c.label_ne_hmasTask)
    intro old hfound
    rw [hold old hfound]
    apply c.label_ne_hmasTask
  briefs := by
    rw [Memory.taskBriefs_setEntities, briefOf, held_recordOf_of_label_ne]
    · exact h.briefs
    · rw [hlabel]
      apply c.label_ne_brief
    · intro old hfound
      rw [hold old hfound]
      apply c.label_ne_brief
  indexed := h.indexed.setEntities c es

end Deployment

/-! ### What a change keeps -/

/-- The members that no operation on an entity of the collection assigns. -/
def Collection.fixed : Collection → List String
  | .tasks => ["id", "teamId", "_github_issue"]
  | _ => ["id", "_github_issue"]

/-- An entity that was changed to `e'` keeps the members that no operation assigns. -/
structure Collection.Keeps (c : Collection) (e e' : Json) : Prop where
  proper : e'.Proper
  isObject : e'.isObject = true
  member : ∀ k ∈ c.fixed, e'.get? k = e.get? k

namespace Collection

variable {c : Collection} {id : String} {e e' : Json}

theorem Holds.keeps (h : c.Holds id e) :
  c.Keeps e e
  := ⟨h.proper, h.isObject, fun _ _ => rfl⟩

theorem id_mem_fixed (c : Collection) :
  "id" ∈ c.fixed
  := by cases c <;> decide

theorem githubIssue_mem_fixed (c : Collection) :
  "_github_issue" ∈ c.fixed
  := by cases c <;> decide

theorem Keeps.holds (h : c.Keeps e e') (he : c.Holds id e) :
  c.Holds id e'
  where
  proper := h.proper
  member := by rw [h.member "id" c.id_mem_fixed, he.member]
  plain := he.plain
  teamId := by
    rintro rfl
    rw [h.member "teamId" (by decide)]
    apply he.teamId rfl

theorem Keeps.set (h : c.Keeps e e') {k : String} {v : Json} (hk : k ∉ c.fixed) (hv : v.Proper) :
  c.Keeps e (e'.set k v)
  where
  proper := h.proper.set h.isObject hv
  isObject := Json.isObject_set h.isObject
  member := by
    intro l hl
    rw [Json.get?_set_of_ne h.isObject, h.member l hl]
    rintro rfl
    contradiction

theorem Keeps.assignFields (h : c.Keeps e e') {kept : List String} {fields : Json}
    (hkept : ∀ k ∈ c.fixed, k ∈ kept) (hfields : fields.Proper) :
  c.Keeps e (assignFields kept fields e')
  := by
  cases hfields with
  | object sorted members =>
    rename_i ms
    rw [Agamemnon.assignFields]
    clear sorted
    -- on the members that are left to assign
    induction ms generalizing e' with
    | nil => exact h
    | cons m ms ih =>
      rw [List.foldl_cons]
      apply ih
      · split
        · exact h
        · rename_i hm
          apply h.set
          · intro hfixed
            apply hm (hkept m.1 hfixed)
          · apply members m List.mem_cons_self
      · intro m' hm'
        apply members m' (List.mem_cons_of_mem m hm')
  | _ => exact h

end Collection

variable {body e : Json}

section Changes

variable (env : StoreEnv) {id : String}

theorem keeps_changedAgent (h : agents.Holds id e) (hbody : body.Proper) :
  agents.Keeps e (changedAgent env body e)
  := by
  apply (h.keeps.assignFields (by decide) hbody).set (by decide) (string _)

theorem keeps_status (h : agents.Holds id e) (status : String) :
  agents.Keeps e (e.set "status" (.string status))
  := by
  apply h.keeps.set (by decide) (string _)

theorem keeps_changedAgentIds (h : teams.Holds id e) (hbody : body.Proper) :
  teams.Keeps e (changedAgentIds body e)
  := by
  rw [changedAgentIds]
  split
  · rename_i v hv
    apply h.keeps.set (by decide) (hbody.get? hv)
  · split
    · rename_i v hv
      apply h.keeps.set (by decide) (hbody.get? hv)
    · exact h.keeps

theorem keeps_changedTeam (h : teams.Holds id e) (hbody : body.Proper) :
  teams.Keeps e (changedTeam env body e)
  := by
  have hteam := keeps_changedAgentIds h hbody
  rw [changedTeam]
  split
  · rename_i v hv
    apply (hteam.set (by decide) (hbody.get? hv)).set (by decide) (string _)
  · apply hteam.set (by decide) (string _)

theorem keeps_changedTask (h : tasks.Holds id e) (hbody : body.Proper) :
  tasks.Keeps e (changedTask env body e)
  := by
  have htask : tasks.Keeps e
      (assignFields ["id", "teamId", "createdAt", "_github_issue", "updatedAt"] body e)
    := h.keeps.assignFields (by decide) hbody
  rw [changedTask]
  apply Collection.Keeps.set _ (by decide) (string _)
  split
  · apply htask.set (by decide) (string _)
  · exact htask

theorem keeps_completedTask (h : tasks.Holds id e) :
  tasks.Keeps e (completedTask env e)
  := by
  apply (h.keeps.set (by decide) (string _)).set (by decide) (string _)

end Changes

/-! ### New entities -/

variable {env : StoreEnv} {title : String}

theorem Json.Proper.valueJson {j d v : Json} {k : String} (hj : j.Proper) (hd : d.Proper)
    (h : j.valueJson k d = .ok v) :
  v.Proper
  := by
  cases hk : j.get? k with
  | some w =>
    rw [Json.valueJson, Json.valueWith_of_get? hk] at h
    obtain rfl := Except.ok.inj h
    apply hj.get? hk
  | none =>
    cases j with
    | object ms =>
      rw [Json.valueJson, Json.valueWith, show ms.lookup k = none from hk] at h
      obtain rfl := Except.ok.inj h
      exact hd
    | _ => contradiction

theorem Json.Proper.emptyArray :
  (Json.array []).Proper
  := by
  apply array
  intro e he
  contradiction

theorem holds_newAgent (hbody : body.Proper) (hplain : '`' ∉ env.uuid.toList)
    (h : newAgent env body = .ok (title, e)) :
  agents.Holds env.uuid e
  := by
  iterate 4 obtain ⟨_, -, h⟩ := exists_of_bind_eq_ok h
  obtain ⟨programArgs, hprogramArgs, h⟩ := exists_of_bind_eq_ok h
  obtain ⟨_, -, h⟩ := exists_of_bind_eq_ok h
  obtain ⟨tags, htags, h⟩ := exists_of_bind_eq_ok h
  iterate 3 obtain ⟨_, -, h⟩ := exists_of_bind_eq_ok h
  obtain ⟨-, rfl⟩ := Prod.mk.inj (Except.ok.inj h)
  have hprogramArgs' := hbody.valueJson emptyArray hprogramArgs
  have htags' := hbody.valueJson emptyArray htags
  constructor
  · apply ofMembers
    simp only [List.forall_mem_cons, List.not_mem_nil, false_imp_iff, implies_true, and_true,
      string, true_and]
    exact ⟨hprogramArgs', htags'⟩
  · exact Json.get?_ofMembers (by simp) "id"
  · exact hplain
  · intro hc
    contradiction

theorem proper_teamAgentIds {v : Json} (hbody : body.Proper) (h : teamAgentIds body = .ok v) :
  v.Proper
  := by
  rw [teamAgentIds] at h
  split at h
  · rename_i w hw
    obtain rfl := Except.ok.inj h
    apply hbody.get? hw
  · apply hbody.valueJson emptyArray h

theorem holds_newTeam (hbody : body.Proper) (hplain : '`' ∉ env.uuid.toList)
    (h : newTeam env body = .ok (title, e)) :
  teams.Holds env.uuid e
  := by
  obtain ⟨name, -, h⟩ := exists_of_bind_eq_ok h
  obtain ⟨agentIds, hagentIds, h⟩ := exists_of_bind_eq_ok h
  obtain ⟨-, rfl⟩ := Prod.mk.inj (Except.ok.inj h)
  constructor
  · apply ofMembers
    simp only [List.forall_mem_cons, List.not_mem_nil, false_imp_iff, implies_true, and_true,
      string, true_and]
    exact proper_teamAgentIds hbody hagentIds
  · exact Json.get?_ofMembers (by simp) "id"
  · exact hplain
  · intro hc
    contradiction

theorem holds_newTask {teamId : String} (hbody : body.Proper) (hplain : '`' ∉ env.uuid.toList)
    (h : newTask env teamId body = .ok (title, e)) :
  tasks.Holds env.uuid e
  := by
  iterate 3 obtain ⟨_, -, h⟩ := exists_of_bind_eq_ok h
  obtain ⟨blockedBy, hblockedBy, h⟩ := exists_of_bind_eq_ok h
  obtain ⟨type, -, h⟩ := exists_of_bind_eq_ok h
  obtain ⟨-, rfl⟩ := Prod.mk.inj (Except.ok.inj h)
  constructor
  · apply ofMembers
    simp only [List.forall_mem_cons, List.not_mem_nil, false_imp_iff, implies_true, and_true,
      string, null, true_and]
    exact hbody.valueJson emptyArray hblockedBy
  · exact Json.get?_ofMembers (by simp) "id"
  · exact hplain
  · intro _
    exact ⟨teamId, Json.get?_ofMembers (by simp) "teamId"⟩

theorem holds_newFault (type : String) (hplain : '`' ∉ env.uuid.toList) :
  faults.Holds env.uuid (newFault env type).2
  := by
  constructor
  · apply ofMembers
    simp only [List.forall_mem_cons, List.not_mem_nil, false_imp_iff, implies_true, and_true,
      string, boolean]
  · exact Json.get?_ofMembers (by simp) "id"
  · exact hplain
  · intro hc
    contradiction

end Agamemnon
