import Agamemnon.Orchestrator.Filing
import Agamemnon.Server.Handlers

/-!
# One root for each brief

Whatever the calls, the tasks of a brief have one task without a parent among them, as long as no
such task is split: the remainders of a split are filed beside the original, so those of a root
are roots themselves.  The plan of a brief then shows its root.
-/

namespace Agamemnon

open Program Orchestrator World Filing Handling

/-! ### Filings of whole plans -/

namespace Filing

/-- The brief and the parent that the tasks of a list have. -/
def ofTasks (ts : List HmasTask) : Filing where
  brief := fun id => ((ts.find? (·.id = id)).map (·.briefId)).getD ""
  parent := fun id => ((ts.find? (·.id = id)).map (·.parentTaskId)).getD ""

variable {t : HmasTask} {ts : List HmasTask}

theorem find?_of_mem (hnodup : (ts.map (·.id)).Nodup) (ht : t ∈ ts) :
  ts.find? (·.id = t.id) = some t
  := by
  induction ts with
  | nil => contradiction
  | cons u ts ih =>
    obtain ⟨hu, hnodup⟩ := List.nodup_cons.mp hnodup
    rcases List.mem_cons.mp ht with rfl | ht
    · simp
    · rw [List.find?_cons_of_neg, ih hnodup ht]
      intro heq
      apply hu
      exact List.mem_map.mpr ⟨t, ht, (of_decide_eq_true heq).symm⟩

theorem fits_ofTasks (hnodup : (ts.map (·.id)).Nodup) (ht : t ∈ ts) :
  (ofTasks ts).Fits t
  := by
  simp only [Fits, ofTasks, find?_of_mem hnodup ht, Option.map_some, Option.getD_some, and_self]

/-- A filing, with the tasks of a list filed as they are. -/
noncomputable def adding (f : Filing) (ts : List HmasTask) : Filing :=
  f.override (ofTasks ts) (· ∈ ts.map (·.id))

theorem fits_adding (f : Filing) (hnodup : (ts.map (·.id)).Nodup) (ht : t ∈ ts) :
  (f.adding ts).Fits t
  := (fits_ofTasks hnodup ht).override_of_new (List.mem_map_of_mem ht)

end Filing

/-! ### Roots -/

/-- The stored tasks are filed under stored briefs, and each brief has one task without a
parent. -/
structure Memory.Rooted (f : Filing) (m : Memory) : Prop extends m.Filed f where
  brief : ∀ id ∈ m.hmasTasks, f.brief id ≠ "" ∧ f.brief id ∈ m.taskBriefs
  root : ∀ id ∈ m.hmasTasks, ∃ r ∈ m.hmasTasks, f.brief r = f.brief id ∧ f.parent r = ""
  unique : ∀ r ∈ m.hmasTasks, ∀ r' ∈ m.hmasTasks, f.brief r = f.brief r' → f.parent r = "" →
    f.parent r' = "" → r = r'

variable {f g : Filing} {new : String → Prop}

section Rooted

variable {m m' : Memory}

/-- The stored tasks are filed as they were. -/
theorem Memory.Filed.override (h : m.Filed f) (hunused : ∀ id, new id → id ∉ m.hmasTasks) :
  m.Filed (f.override g new)
  where
  id := h.id
  fits := by
    intro id t ht
    apply (h.fits ht).override_of_old
    intro hnew
    rw [h.id ht] at hnew
    exact hunused id hnew (Finmap.mem_of_lookup_eq_some ht)
  listed := by
    intro b id
    rw [h.listed]
    apply and_congr_right
    intro _
    apply and_congr_right
    intro hid
    rw [brief_override_of_old fun hnew => hunused id hnew hid]

theorem Memory.Filed.grown (h : m.Filed f) :
  m.Grown f new m
  where
  toFiled := h
  stays := fun _ hid => hid
  grown := fun _ hid => Or.inl hid
  briefs := fun _ hid => hid

/-- Tasks that are not roots are added to briefs that have tasks. -/
theorem Memory.Rooted.graft (h : m.Rooted f) (hunused : ∀ id, new id → id ∉ m.hmasTasks)
    (hgrown : m.Grown (f.override g new) new m')
    (hbeside : ∀ id, new id → g.parent id ≠ "" ∧ ∃ o ∈ m.hmasTasks, f.brief o = g.brief id) :
  m'.Rooted (f.override g new)
  := by
  have hold : ∀ id ∈ m.hmasTasks, ¬ new id := fun id hid hnew => hunused id hnew hid
  -- every task is filed with one that was stored before
  have hwith : ∀ id ∈ m'.hmasTasks, ∃ o ∈ m.hmasTasks, (f.override g new).brief id = f.brief o := by
    intro id hid
    rcases hgrown.grown id hid with hid | hnew
    · exact ⟨id, hid, brief_override_of_old (hold id hid)⟩
    · obtain ⟨-, o, ho, hbrief⟩ := hbeside id hnew
      exact ⟨o, ho, (brief_override_of_new hnew).trans hbrief.symm⟩
  have hroots : ∀ r ∈ m'.hmasTasks, (f.override g new).parent r = "" →
      r ∈ m.hmasTasks ∧ f.parent r = "" := by
    intro r hr hparent
    rcases hgrown.grown r hr with hr | hnew
    · exact ⟨hr, (parent_override_of_old (hold r hr)).symm.trans hparent⟩
    · exact absurd ((parent_override_of_new hnew).symm.trans hparent) (hbeside r hnew).1
  refine ⟨hgrown.toFiled, ?_, ?_, ?_⟩
  · intro id hid
    obtain ⟨o, ho, hbrief⟩ := hwith id hid
    rw [hbrief]
    exact ⟨(h.brief o ho).1, hgrown.briefs _ (h.brief o ho).2⟩
  · intro id hid
    obtain ⟨o, ho, hbrief⟩ := hwith id hid
    obtain ⟨r, hr, hrbrief, hparent⟩ := h.root o ho
    refine ⟨r, hgrown.stays r hr, ?_, ?_⟩
    · rw [brief_override_of_old (hold r hr), hbrief, hrbrief]
    · rw [parent_override_of_old (hold r hr), hparent]
  · intro r hr r' hr' hbrief hparent hparent'
    obtain ⟨hr, hparent⟩ := hroots r hr hparent
    obtain ⟨hr', hparent'⟩ := hroots r' hr' hparent'
    rw [brief_override_of_old (hold r hr), brief_override_of_old (hold r' hr')]
      at hbrief
    exact h.unique r hr r' hr' hbrief hparent hparent'

/-- The tasks of a new brief are added, with their root. -/
theorem Memory.Rooted.plant (h : m.Rooted f) {ts : List HmasTask} {briefId : String}
    {root : HmasTask} (hnodup : (ts.map (·.id)).Nodup) (hunused : ∀ t ∈ ts, t.id ∉ m.hmasTasks)
    (hgrown : m.Grown (f.adding ts) (· ∈ ts.map (·.id)) m') (hbrief : ∀ t ∈ ts, t.briefId = briefId)
    (hne : briefId ≠ "") (hnew : briefId ∉ m.taskBriefs) (hstored : briefId ∈ m'.taskBriefs)
    (hroot : root ∈ ts) (hparent : ∀ t ∈ ts, t.parentTaskId = "" ↔ t = root)
    (hplanted : root.id ∈ m'.hmasTasks) :
  m'.Rooted (f.adding ts)
  := by
  have hfits : ∀ t ∈ ts, (f.adding ts).Fits t := fun t ht => fits_adding f hnodup ht
  have hold : ∀ id ∈ m.hmasTasks, (f.adding ts).brief id = f.brief id
      ∧ (f.adding ts).parent id = f.parent id := by
    intro id hid
    have hmem : id ∉ ts.map (·.id) := by
      intro hmem
      obtain ⟨t, ht, rfl⟩ := List.mem_map.mp hmem
      exact hunused t ht hid
    exact ⟨brief_override_of_old hmem, parent_override_of_old hmem⟩
  have hcases : ∀ id ∈ m'.hmasTasks, id ∈ m.hmasTasks ∨ ∃ t ∈ ts, t.id = id := by
    intro id hid
    exact (hgrown.grown id hid).imp_right List.mem_map.mp
  have hapart : ∀ id ∈ m.hmasTasks, ∀ t ∈ ts, (f.adding ts).brief id ≠ (f.adding ts).brief t.id
    := by
    intro id hid t ht heq
    rw [(hold id hid).1, ← (hfits t ht).1, hbrief t ht] at heq
    exact hnew (heq ▸ (h.brief id hid).2)
  refine ⟨hgrown.toFiled, ?_, ?_, ?_⟩
  · intro id hid
    rcases hcases id hid with hid | ⟨t, ht, rfl⟩
    · rw [(hold id hid).1]
      exact ⟨(h.brief id hid).1, hgrown.briefs _ (h.brief id hid).2⟩
    · rw [← (hfits t ht).1, hbrief t ht]
      exact ⟨hne, hstored⟩
  · intro id hid
    rcases hcases id hid with hid | ⟨t, ht, rfl⟩
    · obtain ⟨r, hr, hrbrief, hrparent⟩ := h.root id hid
      refine ⟨r, hgrown.stays r hr, ?_, ?_⟩
      · rw [(hold r hr).1, (hold id hid).1, hrbrief]
      · rw [(hold r hr).2, hrparent]
    · refine ⟨root.id, hplanted, ?_, ?_⟩
      · rw [← (hfits root hroot).1, ← (hfits t ht).1, hbrief root hroot, hbrief t ht]
      · rw [← (hfits root hroot).2]
        exact (hparent root hroot).mpr rfl
  · intro r hr r' hr' heq hrparent hrparent'
    rcases hcases r hr with hr | ⟨t, ht, rfl⟩
    · rcases hcases r' hr' with hr' | ⟨t', ht', rfl⟩
      · rw [(hold r hr).1, (hold r' hr').1] at heq
        rw [(hold r hr).2] at hrparent
        rw [(hold r' hr').2] at hrparent'
        exact h.unique r hr r' hr' heq hrparent hrparent'
      · exact absurd heq (hapart r hr t' ht')
    · rcases hcases r' hr' with hr' | ⟨t', ht', rfl⟩
      · exact absurd heq.symm (hapart r' hr' t ht)
      · rw [← (hfits t ht).2, hparent t ht] at hrparent
        rw [← (hfits t' ht').2, hparent t' ht'] at hrparent'
        rw [hrparent, hrparent']

end Rooted

/-! ### Calls -/

section Calls

variable {parse : String → Option Json} {env : Env} {w : World}

variable {α : Type}

/-- A program that makes no task keeps the roots. -/
theorem rooted_exec {p : Prog α} (h : w.store.Rooted f)
    (hp : ∀ f', Guards (Op.Finds f') (Op.Files f' fun _ => False) p) :
  ∃ f', (exec handle p w).2.store.Rooted f'
  := by
  have hunused : ∀ id, False → id ∉ w.store.hmasTasks := fun _ hfalse => hfalse.elim
  have hgrown : w.store.Grown (f.override f fun _ => False) (fun _ => False)
      (exec handle p w).2.store := grown_exec (hp _) (h.toFiled.override hunused).grown
  refine ⟨_, h.graft hunused hgrown ?_⟩
  intro id hfalse
  contradiction

theorem exec_found_bind (id : String) (k : Option HmasTask → Prog α) (w : World) :
  exec handle (getHmasTask id >>= k) w = exec handle (k (w.store.getHmasTask id)) w
  := rfl

/-- The identifiers of a call are not in use. -/
theorem not_mem_of_fresh (hfresh : env.Fresh w.board) (n : ℕ) :
  env.uuid n ∉ w.store.hmasTasks
  := Finmap.lookup_eq_none.mp (hfresh.unused n)

/-- A split of a task that has a parent keeps the roots. -/
theorem rooted_split (h : w.store.Rooted f) (hfresh : env.Fresh w.board) {id : String}
    (hparent : ∀ t, w.store.getHmasTask id = some t → t.parentTaskId ≠ "") (subtasks : Json) :
  ∃ f', (exec handle (Call.program parse env (.splitTask id subtasks)) w).2.store.Rooted f'
  := by
  cases ht : w.store.getHmasTask id with
  | none =>
    have hexec : (exec handle (Call.program parse env (.splitTask id subtasks)) w).2 = w := by
      rw [Call.program, splitTask, exec_bind, exec_found_bind, ht]
      rfl
    rw [hexec]
    exact ⟨f, h⟩
  | some t =>
    let g : Filing := ⟨fun _ => t.briefId, fun _ => t.parentTaskId⟩
    let new : String → Prop := fun x => ∃ n, env.uuid n = x
    have hid : id ∈ w.store.hmasTasks := Finmap.mem_of_lookup_eq_some ht
    have hfits : t.briefId = f.brief id ∧ t.parentTaskId = f.parent id := by
      rw [← h.id ht]
      exact h.fits ht
    have hunused : ∀ x, new x → x ∉ w.store.hmasTasks := by
      rintro _ ⟨n, rfl⟩
      exact not_mem_of_fresh hfresh n
    have hold : ¬ new id := fun hnew => hunused id hnew hid
    have hgrown : w.store.Grown (f.override g new) new
        (exec handle (Call.program parse env (.splitTask id subtasks)) w).2.store := by
      apply grown_exec _ (h.toFiled.override hunused).grown
      apply Policy.guards_reply
      apply (filing_policy _ _).guards_splitTask
      intro original horiginal n child hchild hbrief hparent'
      obtain ⟨hid', hbeside⟩ := horiginal original rfl
      rw [Filing.Fits, hid', brief_override_of_old hold,
        parent_override_of_old hold] at hbeside
      have hchildNew : new child.id := ⟨n, hchild.symm⟩
      refine ⟨Filing.Fits.override_of_new ?_ hchildNew, hchildNew⟩
      exact ⟨by rw [hbrief, hbeside.1, ← hfits.1], by rw [hparent', hbeside.2, ← hfits.2]⟩
    refine ⟨_, h.graft hunused hgrown ?_⟩
    intro x _
    exact ⟨hparent t ht, id, hid, hfits.1.symm⟩

/-- A program that stores a new brief and then its tasks, among them one root, keeps the roots. -/
theorem rooted_brief {b : TaskBrief} {k : Unit → Prog α} (ts : List HmasTask) {root : HmasTask}
    (h : w.store.Rooted f) (hne : b.id ≠ "") (hnew : b.id ∉ w.store.taskBriefs)
    (hnodup : (ts.map (·.id)).Nodup) (hunused : ∀ t ∈ ts, t.id ∉ w.store.hmasTasks)
    (hbrief : ∀ t ∈ ts, t.briefId = b.id) (hroot : root ∈ ts)
    (hparent : ∀ t ∈ ts, t.parentTaskId = "" ↔ t = root) (hk : (∀ t ∈ ts, (f.adding ts).Fits t) →
      Guards (Op.Finds (f.adding ts)) (Op.Files (f.adding ts) (· ∈ ts.map (·.id))) (k ()))
    (hplanted : root.id ∈ (exec handle (createTaskBrief b >>= k) w).2.store.hmasTasks) :
  ∃ f', (exec handle (createTaskBrief b >>= k) w).2.store.Rooted f'
  := by
  have hguards := hk fun t ht => fits_adding f hnodup ht
  have hfiled : w.store.Filed (f.adding ts) := by
    apply h.toFiled.override
    intro id hid
    obtain ⟨t, ht, rfl⟩ := List.mem_map.mp hid
    exact hunused t ht
  have hgrown : w.store.Grown (f.adding ts) (· ∈ ts.map (·.id))
      (exec handle (createTaskBrief b >>= k) w).2.store
    := grown_exec (p := createTaskBrief b >>= k) ⟨trivial, fun _ _ => hguards⟩ hfiled.grown
  -- the brief is there before anything else happens, and stays
  let w₁ : World := { w with store := w.store.createTaskBrief b }
  have hfiled₁ : w₁.store.Filed (f.adding ts) := ⟨hfiled.id, hfiled.fits, hfiled.listed⟩
  have hgrown₁ : w₁.store.Grown (f.adding ts) (· ∈ ts.map (·.id))
      (exec handle (k ()) w₁).2.store := grown_exec hguards hfiled₁.grown
  have hstored : b.id ∈ (exec handle (k ()) w₁).2.store.taskBriefs
    := hgrown₁.briefs _ (Finmap.mem_insert.mpr (Or.inl rfl))
  exact ⟨_, h.plant hnodup hunused hgrown hbrief hne hnew hstored hroot hparent hplanted⟩

variable {t : HmasTask} {ts : String} {brief : TaskBrief} {uuid : ℕ → String}

theorem briefId_plan (ht : t ∈ brief.plan uuid ts) :
  t.briefId = brief.id
  := by
  obtain ⟨c, -, rfl⟩ := List.mem_map.mp ht
  cases c <;> rfl

/-- The root is the only task of a plan without a parent. -/
theorem parentless_plan (hids : IdSupply uuid) (hfit : brief.NumbersFit)
    (ht : t ∈ brief.plan uuid ts) :
  t.parentTaskId = "" ↔ t = brief.planTask uuid ts .l0
  := by
  have hshape : Shape brief (brief.plan uuid ts) := TaskBrief.shape_plan hids hfit
  constructor
  · intro hparent
    obtain ⟨i, hi⟩ := List.mem_iff_getElem?.mp ht
    rw [(hshape.parentless i t hi).mp hparent] at hi
    exact (Option.some.inj hi).symm
  · rintro rfl
    rfl

/-- The root of a brief is stored. -/
theorem mem_root_exec (hw : w.board.Keyed) (hids : IdSupply env.uuid) (hfit : brief.NumbersFit) :
  (brief.planTask env.uuid env.ts .l0).id
    ∈ (exec handle (submitBrief env brief) w).2.store.hmasTasks
  := by
  have hboard : (exec handle (submitBrief env brief) w).2.board = w.board.submit env brief
    := by rw [← exec_submitBrief brief hw, exec_hom board_hom]
  have hlookup : (exec handle (submitBrief env brief) w).2.board.lookup
      (brief.planTask env.uuid env.ts .l0).id
      = some ((brief.planTask env.uuid env.ts .l0).withState .delegated) := by
    rw [hboard, Board.submit_eq hids hfit]
    exact Board.lookup_put_self _ ((brief.planTask env.uuid env.ts .l0).withState .delegated)
  exact Finmap.mem_of_lookup_eq_some hlookup

/-- A new brief is stored with the tasks of its plan, among them its root. -/
theorem rooted_submit (h : w.store.Rooted f) (hfresh : env.Fresh w.board) (hne : brief.id ≠ "")
    (hnew : brief.id ∉ w.store.taskBriefs) :
  ∃ f', (exec handle (submitBrief env brief) w).2.store.Rooted f'
  := by
  have hids := hfresh.toIdSupply
  by_cases hfit : brief.NumbersFit
  · have hunused : ∀ t ∈ brief.plan env.uuid env.ts, t.id ∉ w.store.hmasTasks
      := fun t ht => Finmap.lookup_eq_none.mp (Board.lookup_plan_of_fresh hfresh ht)
    have hkeyed : w.board.Keyed := fun _ _ ht => h.id ht
    apply rooted_brief _ h hne hnew (TaskBrief.shape_plan hids hfit).nodup_ids hunused
      (fun t ht => briefId_plan ht) List.mem_cons_self
      (fun t ht => parentless_plan hids hfit ht) _ (mem_root_exec hkeyed hids hfit)
    intro hfits
    have hguards : Guards (Op.Finds (f.adding (brief.plan env.uuid env.ts)))
        (Op.Files (f.adding (brief.plan env.uuid env.ts))
          (· ∈ (brief.plan env.uuid env.ts).map (·.id))) (submitBrief env brief) := by
      apply (filing_policy _ _).guards_submitBrief
      intro tasks htasks t ht
      rw [(TaskBrief.decompose_eq_ok hids htasks).2] at ht
      exact ⟨hfits t ht, List.mem_map_of_mem ht⟩
    exact hguards.2 () trivial
  · apply rooted_exec h
    intro f'
    apply (filing_policy _ _).guards_submitBrief
    intro tasks htasks
    exact absurd (TaskBrief.decompose_eq_ok hids htasks).1 hfit

/-- An epic is stored with its root. -/
theorem rooted_register (h : w.store.Rooted f) (hfresh : env.Fresh w.board)
    (hbriefs : ∀ n, env.uuid n ∉ w.store.taskBriefs) (msg epic : Json) (repo key : String)
    (issue : ℤ) :
  ∃ f', (exec handle (registerEpic env msg epic repo key issue) w).2.store.Rooted f'
  := by
  let root := epicRoot env (epicBrief env repo key issue) repo issue
  have honly : ∀ t ∈ [root], t = root := fun t ht => List.mem_singleton.mp ht
  have hboard : (exec handle (registerEpic env msg epic repo key issue) w).2.board
      = w.board.register env msg root := by rw [← exec_registerEpic, exec_hom board_hom]
  have hstored : (w.board.register env msg root).lookup root.id
      = some (advance env.ts .submit root) := by
    rw [Board.register]
    split
    · exact Board.lookup_put_of_eq _ (advance_id _ _ _)
    · exact Board.lookup_put_of_eq _ (advance_id _ _ _)
  refine rooted_brief [root] h (hfresh.ne_empty 0) (hbriefs 0) (List.nodup_singleton root.id) ?_ ?_
    (List.mem_singleton_self root) ?_ ?_ ?_
  · intro t ht
    rw [honly t ht]
    exact not_mem_of_fresh hfresh 1
  · intro t ht
    rw [honly t ht]
    rfl
  · intro t ht
    rw [honly t ht]
    exact ⟨fun _ => rfl, fun _ => rfl⟩
  · intro hfits
    have hroot := hfits root (List.mem_singleton_self root)
    have hguards := (filing_policy _ _).guards_registerEpic env msg epic hroot
      ⟨hroot, List.mem_singleton_self root.id⟩
    exact hguards.2 () trivial
  · apply Finmap.mem_of_lookup_eq_some (b := advance env.ts .submit root)
    exact (congrArg (fun b : Board => b.lookup root.id) hboard).trans hstored

end Calls

/-! ### Runs -/

namespace Orchestrator

/-- The worlds reached by calls, one after the other, that meet `P` in the world before them.
Every call draws identifiers that are not in use, for tasks or for briefs, and a brief that is
submitted has none or a new one. -/
inductive Reached (parse : String → Option Json) (P : World → Call → Prop) : World → Prop
  | empty : Reached parse P empty
  | call {w : World} (env : Env) (call : Call) (reached : Reached parse P w)
      (fresh : env.Fresh w.board) (unused : ∀ n, w.store.taskBriefs.lookup (env.uuid n) = none)
      (newBrief : ∀ brief, call = .submit brief →
        brief.id = "" ∨ w.store.taskBriefs.lookup brief.id = none)
      (meets : P w call) : Reached parse P (exec handle (call.program parse env) w).2

/-- The call does not split a task without a parent. -/
def SparesRoots (w : World) (call : Call) : Prop :=
  ∀ id subtasks t, call = .splitTask id subtasks → w.store.getHmasTask id = some t →
    t.parentTaskId ≠ ""

variable {parse : String → Option Json}

variable {w : World}

/-- A call that does not split a root keeps the roots. -/
theorem rooted_call {f : Filing} (h : w.store.Rooted f) {env : Env} (hfresh : env.Fresh w.board)
    (hbriefs : ∀ n, w.store.taskBriefs.lookup (env.uuid n) = none) {call : Call}
    (hnew : ∀ brief, call = .submit brief →
      brief.id = "" ∨ w.store.taskBriefs.lookup brief.id = none) (hspares : SparesRoots w call) :
  ∃ f', (exec handle (call.program parse env) w).2.store.Rooted f'
  := by
  have hunused : ∀ n, env.uuid n ∉ w.store.taskBriefs
    := fun n => Finmap.lookup_eq_none.mp (hbriefs n)
  cases call with
  | submit brief =>
    rw [Call.program, exec_bind_pure_snd, submit]
    split
    · exact rooted_submit h (hfresh.skip 1) (hfresh.ne_empty 0) (hunused 0)
    · rename_i hne
      apply rooted_submit h hfresh hne
      exact Finmap.lookup_eq_none.mp ((hnew brief rfl).resolve_left hne)
  | onEpicRegistered payload =>
    rw [Call.program, exec_bind_pure_snd, onEpicRegistered, exec_tryCatch_ret_snd]
    cases parsePayload parse payload with
    | error e => exact ⟨f, h⟩
    | ok msg =>
      rw [exec_ok_bind]
      cases epicFields msg with
      | error e => exact ⟨f, h⟩
      | ok fields =>
        obtain ⟨epic, repo, key, issue⟩ := fields
        rw [exec_ok_bind]
        simp only
        split
        · exact ⟨f, h⟩
        · apply rooted_register h hfresh hunused
  | splitTask id subtasks =>
    apply rooted_split h hfresh
    intro t ht
    exact hspares id subtasks t rfl ht
  | _ =>
    apply rooted_exec h
    intro f'
    exact (filing_policy f' _).guards_quiet parse env (by trivial) fun _ _ _ _ _ _ => trivial

theorem rooted_empty :
  Memory.empty.Rooted ⟨fun _ => "", fun _ => ""⟩
  := by
  have hnone : ∀ id, id ∉ Memory.empty.hmasTasks := fun _ => Finmap.notMem_empty
  refine ⟨⟨?_, ?_, ?_⟩, ?_, ?_, ?_⟩
  · intro id t ht
    contradiction
  · intro id t ht
    contradiction
  · intro b id
    constructor
    · intro hid
      contradiction
    · rintro ⟨-, hid, -⟩
      exact absurd hid (hnone id)
  · exact fun id hid => absurd hid (hnone id)
  · exact fun id hid => absurd hid (hnone id)
  · exact fun id hid => absurd hid (hnone id)

/-- Along a run that splits no root, every brief has one. -/
theorem Reached.rooted (h : Reached parse SparesRoots w) :
  ∃ f, w.store.Rooted f
  := by
  induction h with
  | empty => exact ⟨_, rooted_empty⟩
  | call env call _ fresh unused newBrief meets ih =>
    obtain ⟨f, hf⟩ := ih
    apply rooted_call hf fresh unused newBrief meets

end Orchestrator

/-! ### Plans -/

/-- A server without a client that holds the store of a world. -/
def World.server (w : World) : Server where
  store := { memory := w.store, hmasTaskIssueNumbers := ∅, briefIssueNumbers := ∅,
             loaded := fun _ => true }
  published := w.published
  logs := w.logs

/-- Every brief that has tasks has one task without a parent, and its plan shows that task as
the root. -/
def World.OneRoot (parse : String → Option Json) (w : World) : Prop :=
  ∀ id t, w.store.getHmasTask id = some t →
    ∃ root, w.store.getHmasTask root.id = some root ∧ root.briefId = t.briefId
      ∧ root.parentTaskId = ""
      ∧ (∀ id' u, w.store.getHmasTask id' = some u → u.briefId = t.briefId →
        u.parentTaskId = "" → u = root)
      ∧ ∃ plan, Attempt.exec (getPlan parse none t.briefId) w.server
          = (.ok plan, w.server) ∧ plan.get? "root" = some (hmasTaskToJson root)

/-- The tasks of a brief, in the order of the index. -/
def Memory.tasksOf (m : Memory) (briefId : String) : List HmasTask :=
  (m.listed briefId).filterMap m.hmasTasks.lookup

variable {briefId : String}

theorem exec_getPlan (parse : String → Option Json) (w : World) (h : w.store.tasksOf briefId ≠ []) :
  Attempt.exec (getPlan parse none briefId) w.server
    = (.ok (planJson briefId (w.store.tasksOf briefId) none), w.server)
  := by
  have hload : Attempt.exec (onStore (Operation.load parse none .hmasTasks)) w.server
      = (.ok (), w.server) := by
    rw [onStore, Attempt.exec_focus, Operation.exec_load_of_loaded rfl]
  rw [getPlan, Attempt.exec_bind, hload]
  dsimp only
  rw [Attempt.exec_get_bind]
  exact congrArg (fun x => Attempt.exec x w.server) (if_pos h)

/-- The plan shows the only task without a parent. -/
theorem root_planJson {tasks : List HmasTask} {root : HmasTask} (hroot : root ∈ tasks)
    (hparent : root.parentTaskId = "") (hunique : ∀ t ∈ tasks, t.parentTaskId = "" → t = root) :
  (planJson briefId tasks none).get? "root" = some (hmasTaskToJson root)
  := by
  have hlast : (tasks.filter (·.parentTaskId = "")).getLast? = some root := by
    cases hlast : (tasks.filter (·.parentTaskId = "")).getLast? with
    | none =>
      have hmem : root ∈ tasks.filter (·.parentTaskId = "")
        := List.mem_filter.mpr ⟨hroot, decide_eq_true hparent⟩
      rw [List.getLast?_eq_none_iff.mp hlast] at hmem
      contradiction
    | some t =>
      obtain ⟨ht, htparent⟩ := List.mem_filter.mp (List.mem_of_getLast? hlast)
      rw [hunique t ht (of_decide_eq_true htparent)]
  cases tasks with
  | nil => contradiction
  | cons t ts =>
    unfold planJson
    rw [hlast]
    dsimp only
    rw [Json.get?_ofMembers (by simp)]
    simp [Lists.lookup_cons]

/-- If no root is split, every brief that has tasks has one root, and its plan shows it. -/
theorem oneRoot_of_reached {parse : String → Option Json} {w : World}
    (h : Reached parse SparesRoots w) :
  w.OneRoot parse
  := by
  obtain ⟨f, hf⟩ := h.rooted
  intro id t ht
  have hid : id ∈ w.store.hmasTasks := Finmap.mem_of_lookup_eq_some ht
  have hfile : ∀ {id u}, w.store.getHmasTask id = some u →
      u.briefId = f.brief id ∧ u.parentTaskId = f.parent id := by
    intro id u hu
    rw [← hf.id hu]
    exact hf.fits hu
  obtain ⟨r, hr, hbrief, hparent⟩ := hf.root id hid
  obtain ⟨root, hroot⟩ := Finmap.mem_iff.mp hr
  have hunique : ∀ id' u, w.store.getHmasTask id' = some u → u.briefId = t.briefId →
      u.parentTaskId = "" → u = root := by
    intro id' u hu hubrief huparent
    rw [(hfile hu).1, (hfile ht).1, ← hbrief] at hubrief
    rw [(hfile hu).2] at huparent
    have hsame : id' = r
      := hf.unique id' (Finmap.mem_of_lookup_eq_some hu) r hr hubrief huparent hparent
    rw [hsame] at hu
    exact Option.some.inj (hu.symm.trans hroot)
  have hrootBrief : root.briefId = t.briefId := by rw [(hfile hroot).1, (hfile ht).1, hbrief]
  have hrootParent : root.parentTaskId = "" := by rw [(hfile hroot).2, hparent]
  have hlisted : r ∈ w.store.listed t.briefId := by
    rw [hf.listed, (hfile ht).1]
    exact ⟨(hf.brief id hid).1, hr, hbrief⟩
  have hmem : root ∈ w.store.tasksOf t.briefId := List.mem_filterMap.mpr ⟨r, hlisted, hroot⟩
  have hlistedBrief : ∀ u ∈ w.store.tasksOf t.briefId, u.parentTaskId = "" → u = root := by
    intro u hu huparent
    obtain ⟨x, hx, hlookup⟩ := List.mem_filterMap.mp hu
    apply hunique x u hlookup _ huparent
    rw [(hfile hlookup).1, (hf.listed.mp hx).2.2]
  refine ⟨root, hf.id hroot ▸ hroot, hrootBrief, hrootParent, hunique, _,
    exec_getPlan parse w (List.ne_nil_of_mem hmem), ?_⟩
  exact root_planJson hmem hrootParent hlistedBrief

theorem reached_submitted {P : World → Call → Prop} (hP : P empty (.submit (moduleBrief []))) :
  Reached Json.read P submitted
  := by
  apply Reached.call firstEnv _ .empty firstEnv_fresh (fun _ => rfl) _ hP
  intro brief _
  exact Or.inr rfl

/-- The plan of a brief that has been submitted shows its root. -/
theorem oneRoot_submitted :
  Reached Json.read SparesRoots submitted ∧ submitted.OneRoot Json.read
  := by
  have hspares : SparesRoots empty (.submit (moduleBrief [])) := by
    intro id subtasks t hcall
    contradiction
  exact ⟨reached_submitted hspares, oneRoot_of_reached (reached_submitted hspares)⟩

/-- The same store after a split of the root. -/
def rootSplit : World :=
  (exec handle (Call.program Json.read secondEnv (.splitTask "|"
    (.array [.object [("title", .string "a")]]))) submitted).2

theorem reached_rootSplit :
  Reached Json.read (fun _ _ => True) rootSplit
  := by
  apply Reached.call secondEnv _ (reached_submitted trivial) secondEnv_fresh _ _ trivial
  · intro n
    have hbriefs : submitted.store.taskBriefs
        = (∅ : StringMap TaskBrief).insert "b" (moduleBrief []) := rfl
    rw [hbriefs, Finmap.lookup_insert_of_ne]
    · rfl
    · exact strokes_ne (by decide) _
  · intro brief hcall
    contradiction

/-- After a split of the root, two tasks of the brief have no parent. -/
theorem not_oneRoot_rootSplit :
  Reached Json.read (fun _ _ => True) rootSplit ∧ ¬ rootSplit.OneRoot Json.read
  := by
  have hroot : ∃ t, rootSplit.store.getHmasTask "|" = some t ∧ t.id = "|" ∧ t.briefId = "b"
      ∧ t.parentTaskId = "" := ⟨_, rfl, rfl, rfl, rfl⟩
  have hremainder : ∃ t, rootSplit.store.getHmasTask "|||||" = some t ∧ t.id = "|||||"
      ∧ t.briefId = "b" ∧ t.parentTaskId = "" := ⟨_, rfl, rfl, rfl, rfl⟩
  refine ⟨reached_rootSplit, ?_⟩
  intro h
  obtain ⟨t, ht, htid, htbrief, htparent⟩ := hroot
  obtain ⟨u, hu, huid, hubrief, huparent⟩ := hremainder
  obtain ⟨root, -, -, -, hunique, -⟩ := h "|" t ht
  have htroot := hunique "|" t ht rfl htparent
  have huroot := hunique "|||||" u hu (hubrief.trans htbrief.symm) huparent
  rw [htroot, ← huroot, huid] at htid
  contradiction

end Agamemnon
