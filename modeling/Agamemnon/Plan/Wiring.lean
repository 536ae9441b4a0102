import Agamemnon.Plan.Layout

/-!
# The last pass of the breakdown

Once all places have been visited, the last pass goes over them once more and adds the
annotated dependencies.  Its state is a function `D` that gives the annotated blockers
added so far; the tasks depend on `D` alone.  Together with the loops this makes the
list of tasks `decompose` returns the plan of the outline, `decompose_eq`.
-/

namespace Agamemnon

open Lists

namespace TaskBrief

variable (uuid : ℕ → String) (ts : String) (brief : TaskBrief)

/-- The tasks once the annotated blockers `D` have been added. -/
def wired (D : Node → List Node) : List HmasTask :=
  brief.nodes.map (brief.taskAt uuid ts (fun c => brief.defaultBlockers c ++ D c)
    fun c => brief.childrenOf c ++ brief.nodes.filter fun d => c ∈ D d)

/-- The annotated blockers of a task at `c` after one more number. -/
def addDep (c : Node) (acc : List Node) (n : ℤ) : List Node :=
  match brief.resolve n with
  | none => acc
  | some b => if b = c then acc else pushNew acc b

/-- The annotated blockers added once the places up to position `i` are done. -/
def wiredUpTo (i : ℕ) (c : Node) : List Node :=
  if brief.nodes.idxOf c < i then brief.annotatedBlockers c else []

variable {uuid ts brief}

variable {c : Node}

theorem foldl_addDep (h : (brief.refOf c).issue ≠ 0) :
  (brief.refOf c).dependsOn.foldl (brief.addDep c) [] = brief.annotatedBlockers c
  := by
  rw [annotatedBlockers, if_neg h, firsts, List.foldl_filter, List.foldl_filterMap]
  congr 1
  funext acc n
  rw [addDep]
  cases brief.resolve n with
  | none => rfl
  | some b => by_cases hb : b = c <;> simp [hb]

/-! ### Finding a task by its issue -/

theorem lookup_issueToIdx (B C : Node → List Node) {n : ℤ} (hn : n ≠ 0) :
  ∀ (ns : List Node) (i : ℕ),
    (issueToIdx i (ns.map (brief.taskAt uuid ts B C))).lookup n
      = (ns.findIdx? fun c => (brief.refOf c).issue = n).map (· + i)
  | [], _ => rfl
  | c :: ns, i => by
      have ih := lookup_issueToIdx B C hn ns (i + 1)
      rw [List.map_cons, issueToIdx, taskAt_layer, taskAt_issue, List.findIdx?_cons]
      by_cases hc : (brief.refOf c).issue = n
      · obtain ⟨r, m, k, rfl⟩ := exists_l3_of_issue (hc ▸ hn)
        simp [Node.layer, hc, hn]
      · have hshift : ((· + i) ∘ fun j => j + 1) = (· + (i + 1)) := by
          funext j
          simp only [Function.comp_apply]
          omega
        have hfalse : ¬ decide ((brief.refOf c).issue = n) = true := by simpa using hc
        rw [if_neg hfalse, Option.map_map, hshift, ← ih]
        split
        · rw [lookup_cons, if_neg (Ne.symm hc)]
        · rfl

theorem lookup_issueToIdx_zero :
  ∀ (tasks : List HmasTask) (i : ℕ), (issueToIdx i tasks).lookup 0 = none
  | [], _ => rfl
  | t :: tasks, i => by
      rw [issueToIdx]
      split
      · rename_i ht
        rw [lookup_cons, if_neg (Ne.symm ht.2), lookup_issueToIdx_zero]
      · apply lookup_issueToIdx_zero

variable {n : ℤ}

/-- A number that stands for no place is not found. -/
theorem lookup_of_resolve_none (h : brief.resolve n = none) :
  (issueToIdx 0 (brief.visited uuid ts brief.nodes)).lookup n = none
  := by
  rw [resolve] at h
  split at h
  · subst n
    apply lookup_issueToIdx_zero
  · rename_i hn
    rw [visited, lookup_issueToIdx _ _ hn]
    simpa using h

variable {b : Node}

/-- A number that stands for a place is found at the position of that place. -/
theorem lookup_of_resolve_some (h : brief.resolve n = some b) :
  ∃ i, (issueToIdx 0 (brief.visited uuid ts brief.nodes)).lookup n = some i
    ∧ brief.nodes[i]? = some b
  := by
  obtain ⟨-, -, hn⟩ := resolve_eq_some h
  rw [resolve, if_neg hn, List.find?_eq_bind_findIdx?_getElem?, Option.bind_eq_some_iff] at h
  obtain ⟨i, hi, hb⟩ := h
  use i
  rw [visited, lookup_issueToIdx _ _ hn, hi]
  use rfl

/-! ### One dependency -/

variable {D : Node → List Node} {i : ℕ}

/-- Adding an annotated blocker `b` to the last place `c` that has any. -/
theorem pushDep {j : ℕ} (hc : brief.nodes[i]? = some c) (hb : brief.nodes[j]? = some b)
    (hlast : ∀ d ∈ brief.nodes.drop (i + 1), D d = []) (hnew : b ∉ D c) :
  pushChild (pushBlocker (brief.wired uuid ts D) i (brief.idOf uuid b)) j (brief.idOf uuid c)
    = brief.wired uuid ts (Function.update D c (D c ++ [b]))
  := by
  rw [wired, pushBlocker_map brief.nodup_nodes hc, pushChild_map brief.nodup_nodes hb, wired]
  congr 2
  · funext d
    by_cases hd : d = c
    · subst hd
      simp
    · simp [hd]
  · funext d
    by_cases hd : d = b
    · subst hd
      rw [if_pos rfl, List.append_assoc]
      congr 1
      symm
      apply filter_append_of_last brief.nodup_nodes hc
      · intro e he
        simp [he]
      · simp
      · simpa using hnew
      · intro e he
        simp [hlast e he]
    · rw [if_neg hd]
      congr 1
      apply List.filter_congr
      intro e _
      by_cases he : e = c
      · subst he
        simp [hd]
      · simp [he]

theorem getElem?_wired (D : Node → List Node) (hc : brief.nodes[i]? = some c) :
  (brief.wired uuid ts D)[i]?
    = some (brief.taskAt uuid ts (fun c => brief.defaultBlockers c ++ D c)
        (fun c => brief.childrenOf c ++ brief.nodes.filter fun d => c ∈ D d) c)
  := by
  rw [wired, List.getElem?_map, hc]
  rfl

/-- Whether an identifier is in a list of identifiers of places. -/
theorem idOf_mem_map (huuid : Function.Injective uuid) (hb : b ∈ brief.nodes) (bs : List Node) :
  brief.idOf uuid b ∈ bs.map (brief.idOf uuid) ↔ b ∈ bs
  := by
  constructor
  · intro h
    obtain ⟨d, hd, heq⟩ := List.mem_map.mp h
    obtain rfl := idOf_injOn huuid hb heq.symm
    apply hd
  · apply List.mem_map_of_mem

/-- Nothing lies below an implementation task. -/
theorem childrenOf_l3 (r m k : ℕ) :
  brief.childrenOf (.l3 r m k) = []
  := by
  apply List.filter_eq_nil_iff.mpr
  intro d _
  simp [Node.parent_ne_l3]

/-- One number of the annotation of an implementation task. -/
theorem wireDep_eq (huuid : Function.Injective uuid) {r m k : ℕ}
    (hc : brief.nodes[i]? = some (.l3 r m k))
    (hdefault : brief.defaultBlockers (.l3 r m k) = [.l2 r m])
    (hlast : ∀ d ∈ brief.nodes.drop (i + 1), D d = []) (n : ℤ) :
  wireDep (issueToIdx 0 (brief.visited uuid ts brief.nodes)) i (brief.wired uuid ts D) n
    = brief.wired uuid ts
        (Function.update D (.l3 r m k) (brief.addDep (.l3 r m k) (D (.l3 r m k)) n))
  := by
  rw [wireDep, addDep]
  cases hn : brief.resolve n with
  | none => rw [lookup_of_resolve_none hn, Function.update_eq_self]
  | some b =>
    obtain ⟨hbmem, hissue, hne⟩ := resolve_eq_some hn
    obtain ⟨r', m', k', rfl⟩ := exists_l3_of_issue (hissue ▸ hne)
    obtain ⟨j, hlookup, hb⟩ : ∃ j, (issueToIdx 0 (brief.visited uuid ts brief.nodes)).lookup n
        = some j ∧ brief.nodes[j]? = some (.l3 r' m' k') := lookup_of_resolve_some hn
    have hcmem : .l3 r m k ∈ brief.nodes := List.mem_of_getElem? hc
    simp only [hlookup, getElem?_wired D hc, getElem?_wired D hb, taskAt_id, taskAt_blockedBy,
      taskAt_childTaskIds, idOf_mem_map huuid hbmem, idOf_mem_map huuid hcmem, hdefault,
      childrenOf_l3]
    by_cases hself : Node.l3 r' m' k' = .l3 r m k
    · rw [if_pos (by rw [hself]), if_pos hself, Function.update_eq_self]
    · have hid : brief.idOf uuid (.l3 r' m' k') ≠ brief.idOf uuid (.l3 r m k) := by
        intro h
        apply hself (idOf_injOn huuid hbmem h)
      rw [if_neg hid, if_neg hself, pushNew]
      by_cases hold : Node.l3 r' m' k' ∈ D (.l3 r m k)
      · simp [hold, hcmem]
      · rw [if_neg hold, ← pushDep hc hb hlast hold]
        simp [hold]

/-- The annotation of an implementation task. -/
theorem wireDep_loop (huuid : Function.Injective uuid) {i r m k : ℕ}
    (hc : brief.nodes[i]? = some (.l3 r m k))
    (hdefault : brief.defaultBlockers (.l3 r m k) = [.l2 r m]) :
  ∀ (deps : List ℤ) (D : Node → List Node), (∀ d ∈ brief.nodes.drop (i + 1), D d = []) →
    deps.foldl (wireDep (issueToIdx 0 (brief.visited uuid ts brief.nodes)) i)
        (brief.wired uuid ts D)
      = brief.wired uuid ts
          (Function.update D (.l3 r m k) (deps.foldl (brief.addDep (.l3 r m k)) (D (.l3 r m k))))
  | [], D, _ => by rw [List.foldl_nil, List.foldl_nil, Function.update_eq_self]
  | n :: deps, D, hlast => by
      have hnot : .l3 r m k ∉ brief.nodes.drop (i + 1) :=
        (split_of_getElem? brief.nodup_nodes hc).2.2
      rw [List.foldl_cons, wireDep_eq huuid hc hdefault hlast, wireDep_loop huuid hc hdefault,
        Function.update_self, Function.update_idem, List.foldl_cons]
      intro d hd
      rw [Function.update_of_ne (by rintro rfl; apply hnot hd), hlast d hd]

/-! ### The whole pass -/

/-- From position `i` to the next, the place there gets its annotated blockers. -/
theorem wiredUpTo_succ (hc : brief.nodes[i]? = some c) :
  brief.wiredUpTo (i + 1) = Function.update (brief.wiredUpTo i) c (brief.annotatedBlockers c)
  := by
  funext d
  have hidx : brief.nodes.idxOf c = i := idxOf_of_getElem? brief.nodup_nodes hc
  by_cases hd : d = c
  · subst hd
    simp [wiredUpTo, hidx]
  · have hne : brief.nodes.idxOf d ≠ i := by
      intro h
      apply hd
      symm
      apply (List.idxOf_inj (List.mem_of_getElem? hc)).mp (hidx.trans h.symm)
    have hiff : brief.nodes.idxOf d < i + 1 ↔ brief.nodes.idxOf d < i := by omega
    rw [Function.update_of_ne hd, wiredUpTo, wiredUpTo]
    simp only [hiff]

theorem wiredUpTo_self (hc : brief.nodes[i]? = some c) :
  brief.wiredUpTo i c = []
  := by
  simp [wiredUpTo, idxOf_of_getElem? brief.nodup_nodes hc]

theorem wiredUpTo_of_mem_drop {d : Node} (hd : d ∈ brief.nodes.drop (i + 1)) :
  brief.wiredUpTo i d = []
  := by
  obtain ⟨j, hj⟩ := List.mem_iff_getElem?.mp hd
  rw [List.getElem?_drop] at hj
  rw [wiredUpTo, if_neg]
  rw [idxOf_of_getElem? brief.nodup_nodes hj]
  omega

theorem wiredUpTo_length (hc : c ∈ brief.nodes) :
  brief.wiredUpTo (List.range brief.nodes.length).length c = brief.annotatedBlockers c
  := by
  rw [wiredUpTo, List.length_range, if_pos (List.idxOf_lt_length_of_mem hc)]

/-- One iteration of the last pass. -/
theorem wireTask_eq (huuid : Function.Injective uuid) (hfit : brief.NumbersFit)
    (hi : i < brief.nodes.length) :
  wireTask (issueToIdx 0 (brief.visited uuid ts brief.nodes))
      (brief.wired uuid ts (brief.wiredUpTo i)) i
    = .ok (brief.wired uuid ts (brief.wiredUpTo (i + 1)))
  := by
  obtain ⟨c, hc⟩ : ∃ c, brief.nodes[i]? = some c := ⟨_, List.getElem?_eq_getElem hi⟩
  simp only [wireTask, getElem?_wired _ hc, taskAt_layer, taskAt_issue, wiredUpTo_succ hc]
  by_cases hissue : (brief.refOf c).issue = 0
  · have hnone : brief.annotatedBlockers c = brief.wiredUpTo i c := by
      rw [annotatedBlockers, if_pos hissue, wiredUpTo_self hc]
    rw [if_pos (Or.inr hissue), hnone, Function.update_eq_self]
  · obtain ⟨r, m, k, rfl⟩ := exists_l3_of_issue hissue
    have hlayer : ¬ ((Node.l3 r m k).layer ≠ .l3TaskAgent
        ∨ (brief.refOf (.l3 r m k)).issue = 0) := by
      simp [Node.layer, hissue]
    have hparse := brief.parse_implAt hfit (List.mem_of_getElem? hc)
    have hwire : (brief.refAt r m k).dependsOn.foldl
          (wireDep (issueToIdx 0 (brief.visited uuid ts brief.nodes)) i)
          (brief.wired uuid ts (brief.wiredUpTo i))
        = brief.wired uuid ts (Function.update (brief.wiredUpTo i) (.l3 r m k)
            (brief.annotatedBlockers (.l3 r m k))) := by
      rw [← foldl_addDep hissue, refOf]
      cases hdeps : (brief.refAt r m k).dependsOn with
      | nil =>
        have hself := wiredUpTo_self hc
        rw [List.foldl_nil, List.foldl_nil, ← hself, Function.update_eq_self]
      | cons n deps =>
        have hdefault : brief.defaultBlockers (.l3 r m k) = [.l2 r m] := by
          apply defaultBlockers_of_dependsOn (n := n)
          simp [hdeps]
        rw [wireDep_loop huuid hc hdefault _ _ fun d hd => wiredUpTo_of_mem_drop hd,
          wiredUpTo_self hc]
    rw [if_neg hlayer, ← hwire]
    simp only [taskAt, bareTask, hparse]
    rfl

/-- The last pass adds all annotated dependencies. -/
theorem wireDeps_eq (huuid : Function.Injective uuid) (hfit : brief.NumbersFit) :
  wireDeps (brief.visited uuid ts brief.nodes) = .ok (brief.plan uuid ts)
  := by
  have hstart : brief.visited uuid ts brief.nodes = brief.wired uuid ts (brief.wiredUpTo 0) := by
    simp [visited, wired, wiredUpTo, childrenOf]
  have hend : brief.plan uuid ts
      = brief.wired uuid ts (brief.wiredUpTo (List.range brief.nodes.length).length) := by
    apply List.map_congr_left
    intro c hc
    apply taskAt_congr
    · rw [wiredUpTo_length hc]
      rfl
    · congr 1
      apply List.filter_congr
      intro d hd
      rw [wiredUpTo_length hd]
  rw [wireDeps, length_visited, hend]
  nth_rewrite 2 [hstart]
  apply foldlM_ok_of_step _ fun i => brief.wired uuid ts (brief.wiredUpTo i)
  intro i hi
  rw [List.length_range] at hi
  rw [List.getElem_range]
  apply wireTask_eq huuid hfit hi

/-! ### The breakdown as a whole -/

/-- The breakdown parses every implementation task; once that has thrown nothing, it
returns the plan. -/
theorem decompose_eq (hids : IdSupply uuid) :
  decompose uuid ts brief = (do
    brief.checkImpls
    return brief.plan uuid ts)
  := by
  rw [decompose, decomposeRepo_loop hids.ne_empty]
  cases hcheck : brief.checkImpls with
  | error e => rfl
  | ok u => apply wireDeps_eq hids.injective (checkImpls_eq_ok.mp hcheck)

/-- Where all issue numbers fit, the breakdown returns the plan. -/
theorem decompose_of_numbersFit (hids : IdSupply uuid) (hfit : brief.NumbersFit) :
  decompose uuid ts brief = .ok (brief.plan uuid ts)
  := by
  rw [decompose_eq hids, checkImpls_eq_ok.mpr hfit]
  rfl

/-- The breakdown returns the plan, where it returns. -/
theorem decompose_eq_ok (hids : IdSupply uuid) {tasks : List HmasTask}
    (h : decompose uuid ts brief = .ok tasks) :
  brief.NumbersFit ∧ tasks = brief.plan uuid ts
  := by
  rw [decompose_eq hids] at h
  obtain ⟨u, hcheck, h⟩ := exists_of_bind_eq_ok h
  use checkImpls_eq_ok.mp hcheck
  symm
  apply Except.ok.inj h

end TaskBrief

end Agamemnon
