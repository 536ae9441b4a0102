import Agamemnon.Store.Memory

/-!
# The index of briefs

The index of the tasks of a brief lists the tasks that name it, each of them once, after every
operation on tasks.
-/

namespace Agamemnon

namespace Memory

/-- The tasks listed for a brief. -/
def listed (m : Memory) (briefId : String) : List String :=
  (m.hmasTasksByBrief.lookup briefId).getD []

/-- The index lists every task under its brief, once. -/
structure Indexed (m : Memory) : Prop where
  nodup : ∀ briefId, (m.listed briefId).Nodup
  mem_listed : ∀ {briefId id}, id ∈ m.listed briefId ↔
    briefId ≠ "" ∧ ∃ t, m.hmasTasks.lookup id = some t ∧ t.briefId = briefId

theorem indexed_empty :
  Memory.empty.Indexed
  where
  nodup := fun _ => List.nodup_nil
  mem_listed := by
    intro briefId id
    constructor
    · intro h
      contradiction
    · rintro ⟨-, t, ht, -⟩
      contradiction

section Index

variable (index : StringMap (List String)) (briefId id : String)

theorem lookup_pushToBrief (b : String) :
  ((pushToBrief index briefId id).lookup b).getD []
    = if b = briefId ∧ briefId ≠ "" then (index.lookup b).getD [] ++ [id]
      else (index.lookup b).getD []
  := by
  rw [pushToBrief]
  by_cases hempty : briefId = ""
  · simp [hempty]
  · by_cases hb : b = briefId
    · subst hb
      simp [hempty, Finmap.lookup_insert]
    · simp [hempty, hb, Finmap.lookup_insert_of_ne]

theorem lookup_removeFromBrief (b : String) :
  ((removeFromBrief index briefId id).lookup b).getD []
    = if b = briefId ∧ briefId ≠ "" then ((index.lookup b).getD []).filter (· ≠ id)
      else (index.lookup b).getD []
  := by
  rw [removeFromBrief]
  by_cases hempty : briefId = ""
  · simp [hempty]
  · rw [if_neg hempty]
    split
    · rename_i hnil
      by_cases hb : b = briefId
      · subst hb
        rw [if_pos ⟨rfl, hempty⟩, hnil, Finmap.lookup_erase]
        rfl
      · rw [if_neg fun h => hb h.1, Finmap.lookup_erase_ne hb]
    · by_cases hb : b = briefId
      · subst hb
        rw [if_pos ⟨rfl, hempty⟩, Finmap.lookup_insert]
        rfl
      · rw [if_neg fun h => hb h.1, Finmap.lookup_insert_of_ne _ hb]

end Index

variable {m m' : Memory} {t : HmasTask} {ts : List HmasTask}

/-- A task is stored; it is no longer listed where it was, but under its brief. -/
theorem Indexed.move (h : m.Indexed) (htasks : m'.hmasTasks = m.hmasTasks.insert t.id t)
    (hlisted : ∀ b, m'.listed b = (m.listed b).filter (· ≠ t.id)
      ++ if b = t.briefId ∧ t.briefId ≠ "" then [t.id] else []) :
  m'.Indexed
  := by
  constructor
  · intro b
    rw [hlisted]
    apply List.Nodup.append ((h.nodup b).filter _)
    · split
      · apply List.nodup_singleton
      · apply List.nodup_nil
    · intro id hid hid'
      have hne : id ≠ t.id := of_decide_eq_true (List.mem_filter.mp hid).2
      split at hid'
      · exact hne (List.mem_singleton.mp hid')
      · contradiction
  · intro b id
    rw [hlisted, List.mem_append, List.mem_filter, decide_eq_true_eq, htasks]
    by_cases hid : id = t.id
    · subst hid
      rw [Finmap.lookup_insert]
      constructor
      · rintro (⟨-, hne⟩ | hmem)
        · contradiction
        · split at hmem
          · rename_i hb
            exact ⟨hb.1 ▸ hb.2, t, rfl, hb.1.symm⟩
          · contradiction
      · rintro ⟨hb, u, hu, rfl⟩
        obtain rfl := Option.some.inj hu
        right
        rw [if_pos ⟨rfl, hb⟩]
        apply List.mem_singleton_self
    · rw [Finmap.lookup_insert_of_ne _ hid, h.mem_listed]
      constructor
      · rintro (⟨hmem, -⟩ | hmem)
        · exact hmem
        · split at hmem
          · exact absurd (List.mem_singleton.mp hmem) hid
          · contradiction
      · intro hmem
        exact Or.inl ⟨hmem, hid⟩

/-- A created task is listed under its brief, if it replaces no task with a brief. -/
theorem Indexed.createHmasTask_of_noBrief (h : m.Indexed)
    (hold : ∀ old, m.hmasTasks.lookup t.id = some old → old.briefId = "") :
  (m.createHmasTask t).Indexed
  := by
  apply h.move rfl
  intro b
  have hnew : ∀ id ∈ m.listed b, decide (id ≠ t.id) = true := by
    intro id hid
    obtain ⟨hb, u, hu, hub⟩ := h.mem_listed.mp hid
    apply decide_eq_true
    rintro rfl
    exact hb (hub.symm.trans (hold u hu))
  apply (lookup_pushToBrief m.hmasTasksByBrief t.briefId t.id b).trans
  rw [List.filter_eq_self.mpr hnew]
  split
  · rfl
  · rw [List.append_nil]
    rfl

/-- A new task is listed under its brief. -/
theorem Indexed.createHmasTask (h : m.Indexed) (hunused : m.hmasTasks.lookup t.id = none) :
  (m.createHmasTask t).Indexed
  := by
  apply h.createHmasTask_of_noBrief
  intro old hold
  rw [hunused] at hold
  contradiction

/-- No task with a brief is replaced by a later one with the same identifier. -/
def NoneReplaced (ts : List HmasTask) : Prop :=
  ts.Pairwise fun t u => t.id = u.id → t.briefId = ""

theorem Indexed.foldl_createHmasTask_of_noneReplaced (h : m.Indexed) (hts : NoneReplaced ts)
    (hold : ∀ t ∈ ts, ∀ old, m.hmasTasks.lookup t.id = some old → old.briefId = "") :
  (ts.foldl Memory.createHmasTask m).Indexed
  := by
  induction ts generalizing m with
  | nil => exact h
  | cons t ts ih =>
    obtain ⟨ht, hts⟩ := List.pairwise_cons.mp hts
    rw [List.forall_mem_cons] at hold
    apply ih (h.createHmasTask_of_noBrief hold.1) hts
    intro u hu old hlookup
    rw [Memory.createHmasTask] at hlookup
    obtain heq | hne := eq_or_ne u.id t.id
    · rw [heq, Finmap.lookup_insert] at hlookup
      obtain rfl := Option.some.inj hlookup
      exact ht u hu heq.symm
    · rw [Finmap.lookup_insert_of_ne _ hne] at hlookup
      exact hold.2 u hu old hlookup

/-- A changed task is listed under its brief. -/
theorem Indexed.updateHmasTask (h : m.Indexed) {old : HmasTask}
    (hold : m.hmasTasks.lookup t.id = some old) :
  (m.updateHmasTask t).2.Indexed
  := by
  rw [Memory.updateHmasTask, hold]
  by_cases hbrief : old.briefId = t.briefId
  · simp only [hbrief, ↓reduceIte]
    constructor
    · apply h.nodup
    · intro b id
      apply h.mem_listed.trans
      by_cases hid : id = t.id
      · subst hid
        rw [hold, Finmap.lookup_insert]
        simp [hbrief]
      · rw [Finmap.lookup_insert_of_ne _ hid]
  · simp only [hbrief, ↓reduceIte]
    apply h.move rfl
    intro b
    apply (lookup_pushToBrief _ t.briefId t.id b).trans
    rw [lookup_removeFromBrief]
    -- only the bucket of the old brief lists the task
    have hkept : ¬ (b = old.briefId ∧ old.briefId ≠ "") →
        (m.listed b).filter (· ≠ t.id) = m.listed b := by
      intro hb
      apply List.filter_eq_self.mpr
      intro id hid
      apply decide_eq_true
      rintro rfl
      obtain ⟨hne, u, hu, hub⟩ := h.mem_listed.mp hid
      obtain rfl := Option.some.inj (hu.symm.trans hold)
      apply hb
      rw [hub]
      exact ⟨rfl, hne⟩
    by_cases hb : b = old.briefId ∧ old.briefId ≠ ""
    · have hb' : ¬ (b = t.briefId ∧ t.briefId ≠ "") := by
        rintro ⟨heq, -⟩
        apply hbrief
        rw [← hb.1, heq]
      rw [if_pos hb, if_neg hb', if_neg hb', List.append_nil]
      rfl
    · rw [if_neg hb, hkept hb]
      split
      · rfl
      · rw [List.append_nil]
        rfl

end Memory

end Agamemnon
