import Agamemnon.Orchestrator.Policies
import Agamemnon.Store.Index

/-!
# Where tasks are filed

A task never changes its brief or its parent.  A filing gives both for every identifier.  As long
as the tasks that a call writes agree with a filing, so do the stored tasks, and the index of
briefs lists each of them under its brief.  To agree with a filing is a policy.
-/

namespace Agamemnon

open Program Orchestrator

/-- The brief and the parent of the task with an identifier. -/
structure Filing where
  brief : String → String
  parent : String → String

namespace Filing

/-- The task has the brief and the parent of its identifier. -/
def Fits (f : Filing) (t : HmasTask) : Prop :=
  t.briefId = f.brief t.id ∧ t.parentTaskId = f.parent t.id

/-- The filing `g` for the identifiers of `new`, and `f` for the others. -/
noncomputable def override (f g : Filing) (new : String → Prop) : Filing :=
  open Classical in
  { brief := fun id => if new id then g.brief id else f.brief id
    parent := fun id => if new id then g.parent id else f.parent id }

variable {f g : Filing} {new : String → Prop} {id : String} {t t' : HmasTask}

theorem brief_override_of_new (h : new id) :
  (f.override g new).brief id = g.brief id
  := if_pos h

theorem brief_override_of_old (h : ¬ new id) :
  (f.override g new).brief id = f.brief id
  := if_neg h

theorem parent_override_of_new (h : new id) :
  (f.override g new).parent id = g.parent id
  := if_pos h

theorem parent_override_of_old (h : ¬ new id) :
  (f.override g new).parent id = f.parent id
  := if_neg h

theorem Fits.override_of_new (ht : g.Fits t) (h : new t.id) :
  (f.override g new).Fits t
  := by
  rw [Fits, brief_override_of_new h, parent_override_of_new h]
  exact ht

theorem Fits.override_of_old (ht : f.Fits t) (h : ¬ new t.id) :
  (f.override g new).Fits t
  := by
  rw [Fits, brief_override_of_old h, parent_override_of_old h]
  exact ht

/-- A task with the identifier, the brief and the parent of another one. -/
theorem Fits.of_eq (ht : f.Fits t) (hid : t'.id = t.id) (hbrief : t'.briefId = t.briefId)
    (hparent : t'.parentTaskId = t.parentTaskId) :
  f.Fits t'
  := by
  rw [Fits, hid, hbrief, hparent]
  exact ht

end Filing

/-! ### Operations -/

variable (f : Filing) (new : String → Prop)

/-- The operation writes a task that fits, and makes new tasks only. -/
def Op.Files : Op → Prop
  | .createHmasTask t => f.Fits t ∧ new t.id
  | .updateHmasTask t => f.Fits t
  | _ => True

/-- The operation answers with a task that fits. -/
def Op.Finds : (op : Op) → op.Res → Prop
  | .getHmasTask id, r => ∀ t, r = some t → t.id = id ∧ f.Fits t
  | _, _ => True

/-- The stored tasks fit, and the index lists each of them under its brief. -/
structure Memory.Filed (m : Memory) : Prop where
  id : ∀ {id t}, m.hmasTasks.lookup id = some t → t.id = id
  fits : ∀ {id t}, m.hmasTasks.lookup id = some t → f.Fits t
  listed : ∀ {b id}, id ∈ m.listed b ↔ b ≠ "" ∧ id ∈ m.hmasTasks ∧ f.brief id = b

/-- Since `m₀`, no task and no brief has been lost, and only tasks of `new` have been stored. -/
structure Memory.Grown (m₀ m : Memory) : Prop extends m.Filed f where
  stays : ∀ id ∈ m₀.hmasTasks, id ∈ m.hmasTasks
  grown : ∀ id ∈ m.hmasTasks, id ∈ m₀.hmasTasks ∨ new id
  briefs : ∀ id ∈ m₀.taskBriefs, id ∈ m.taskBriefs

variable {f new} {m₀ m : Memory} {t : HmasTask}

theorem lookup_insert_cases {tasks : StringMap HmasTask} {id : String} {u : HmasTask}
    (h : (tasks.insert t.id t).lookup id = some u) :
  u = t ∧ id = t.id ∨ tasks.lookup id = some u
  := by
  by_cases hid : id = t.id
  · rw [hid, Finmap.lookup_insert] at h
    exact Or.inl ⟨(Option.some.inj h).symm, hid⟩
  · rw [Finmap.lookup_insert_of_ne _ hid] at h
    exact Or.inr h

/-- A task that fits is written. -/
theorem Memory.Filed.insert (h : m.Filed f) (ht : f.Fits t) {m' : Memory}
    (htasks : m'.hmasTasks = m.hmasTasks.insert t.id t)
    (hlisted : ∀ {b id}, id ∈ m'.listed b
      ↔ id ∈ m.listed b ∨ id = t.id ∧ b = t.briefId ∧ b ≠ "") :
  m'.Filed f
  where
  id := by
    intro id u hu
    rw [htasks] at hu
    rcases lookup_insert_cases hu with ⟨rfl, hid⟩ | hu
    · exact hid.symm
    · exact h.id hu
  fits := by
    intro id u hu
    rw [htasks] at hu
    rcases lookup_insert_cases hu with ⟨rfl, -⟩ | hu
    · exact ht
    · exact h.fits hu
  listed := by
    intro b id
    rw [hlisted, h.listed, htasks, Finmap.mem_insert]
    constructor
    · rintro (⟨hb, hid, hbrief⟩ | ⟨rfl, hbrief, hb⟩)
      · exact ⟨hb, Or.inr hid, hbrief⟩
      · exact ⟨hb, Or.inl rfl, ht.1.symm.trans hbrief.symm⟩
    · rintro ⟨hb, rfl | hid, hbrief⟩
      · exact Or.inr ⟨rfl, hbrief.symm.trans ht.1.symm, hb⟩
      · exact Or.inl ⟨hb, hid, hbrief⟩

theorem Memory.Grown.createHmasTask (h : m₀.Grown f new m) (ht : f.Fits t) (hnew : new t.id) :
  m₀.Grown f new (m.createHmasTask t)
  where
  toFiled := by
    apply h.toFiled.insert ht rfl
    intro b id
    have hpush : (m.createHmasTask t).listed b
        = if b = t.briefId ∧ t.briefId ≠ "" then m.listed b ++ [t.id] else m.listed b
      := Memory.lookup_pushToBrief m.hmasTasksByBrief t.briefId t.id b
    rw [hpush]
    split
    · rename_i hb
      simp only [List.mem_append, List.mem_singleton, hb.1, ne_eq, hb.2, not_false_eq_true,
        and_self, and_true]
    · rename_i hb
      have hnot : ¬ (b = t.briefId ∧ b ≠ "") := by
        rintro ⟨rfl, hne⟩
        exact hb ⟨rfl, hne⟩
      simp only [hnot, and_false, or_false]
  stays := fun id hid => Finmap.mem_insert.mpr (Or.inr (h.stays id hid))
  grown := by
    intro id hid
    rcases Finmap.mem_insert.mp hid with rfl | hid
    · exact Or.inr hnew
    · exact h.grown id hid
  briefs := h.briefs

theorem Memory.Grown.updateHmasTask (h : m₀.Grown f new m) (ht : f.Fits t) :
  m₀.Grown f new (m.updateHmasTask t).2
  := by
  rw [Memory.updateHmasTask]
  cases hold : m.hmasTasks.lookup t.id with
  | none => exact h
  | some old =>
    have hmem : t.id ∈ m.hmasTasks := Finmap.mem_of_lookup_eq_some hold
    have hbrief : old.briefId = t.briefId := by rw [(h.fits hold).1, h.id hold, ht.1]
    simp only [hbrief, if_true]
    constructor
    · apply h.toFiled.insert ht rfl
      intro b id
      constructor
      · exact Or.inl
      · rintro (hid | ⟨rfl, hb, hne⟩)
        · exact hid
        · exact h.listed.mpr ⟨hne, hmem, hb ▸ ht.1.symm⟩
    · exact fun id hid => Finmap.mem_insert.mpr (Or.inr (h.stays id hid))
    · intro id hid
      rcases Finmap.mem_insert.mp hid with rfl | hid
      · exact h.grown _ hmem
      · exact h.grown id hid
    · exact h.briefs

/-- The operations that file their tasks find tasks that are filed. -/
theorem grown_handle (w : World) (op : Op) (h : m₀.Grown f new w.store) (hop : op.Files f new) :
  op.Finds f (World.handle w op).1 ∧ m₀.Grown f new (World.handle w op).2.store
  := by
  cases op with
  | getHmasTask id =>
    refine ⟨?_, h⟩
    intro t ht
    exact ⟨h.id ht, h.fits ht⟩
  | updateHmasTask t => exact ⟨trivial, h.updateHmasTask hop⟩
  | createHmasTask t => exact ⟨trivial, h.createHmasTask hop.1 hop.2⟩
  | createTaskBrief b =>
    refine ⟨trivial, ⟨h.id, h.fits, h.listed⟩, h.stays, h.grown, ?_⟩
    intro id hid
    exact Finmap.mem_insert.mpr (Or.inr (h.briefs id hid))
  | markTaskCompleted now id =>
    refine ⟨trivial, ?_⟩
    rw [World.handle, Memory.markTaskCompleted]
    cases Memory.markCompleted now id w.store.tasks with
    | error e => exact h
    | ok tasks => exact ⟨⟨h.id, h.fits, h.listed⟩, h.stays, h.grown, h.briefs⟩
  | dispatched t | publish subject payload | publishLog subject level message metadata =>
    exact ⟨trivial, h⟩

theorem grown_exec {α : Type} {p : Prog α} (hp : Guards (Op.Finds f) (Op.Files f new) p)
    {w : World} (h : m₀.Grown f new w.store) :
  m₀.Grown f new (exec World.handle p w).2.store
  := hp.exec_invariant (h := World.handle) (I := fun w => m₀.Grown f new w.store) grown_handle w h

/-! ### Programs -/

/-- The calls write tasks back where they are filed. -/
theorem filing_policy (f : Filing) (new : String → Prop) :
  Policy f.Fits (Op.Finds f) (Op.Files f new)
  where
  kept := Filing.Fits.of_eq
  found := fun ht => (ht _ rfl).2
  silent := by
    intro op hop
    cases op with
    | createHmasTask t => exact hop.elim
    | updateHmasTask t => exact hop.elim
    | _ => trivial
  update := fun ht => ht

end Agamemnon
