import Agamemnon.Plan.Wiring

/-!
# The shape of a decomposition

What the breakdown returns, described by the returned tasks and the brief only: a tree
of four layers with its child lists, the dependents of the implementation tasks, and the
number of tasks.  All of it is read off the plan of the outline.
-/

namespace Agamemnon

/-! ### The description -/

/-- The task a number in an annotation resolves to: the first implementation task with
that issue, if the number is not zero. -/
def resolveIssue (tasks : List HmasTask) (n : ℤ) : Option HmasTask :=
  if n = 0 then none else tasks.find? fun t => t.layer = .l3TaskAgent ∧ t.issue = n

/-- The annotation of the task `d` names a number that resolves to another task `b`. -/
def ExplicitDep (tasks : List HmasTask) (d b : HmasTask) : Prop :=
  d ∈ tasks ∧ d.layer = .l3TaskAgent ∧ d.id ≠ b.id
    ∧ ∃ ref, ImplRef.parse d.subject.toList = .ok ref
      ∧ ∃ n ∈ ref.dependsOn, resolveIssue tasks n = some b

/-- The number of tasks of a brief. -/
def TaskBrief.numTasks (brief : TaskBrief) : ℕ :=
  1 + (brief.repos.map fun repo =>
    1 + ((brief.modulesOf repo).map fun mod =>
      1 + max 1 (((brief.impls.lookup repo).bind (·.lookup mod)).getD []).length).sum).sum

/-- The shape of a decomposition. -/
structure Shape (brief : TaskBrief) (tasks : List HmasTask) : Prop where
  /-- The first task is the root. -/
  root : ∃ t, tasks[0]? = some t ∧ t.layer = .l0ChiefArchitect
  /-- The first task is the only one without a parent. -/
  parentless : ∀ i t, tasks[i]? = some t → (t.parentTaskId = "" ↔ i = 0)
  /-- The parent of any other task is an earlier task one layer above. -/
  parent : ∀ i t, tasks[i]? = some t → i ≠ 0 → ∃ j p, j < i ∧ tasks[j]? = some p
    ∧ t.parentTaskId = p.id ∧ t.layer.toNat = p.layer.toNat + 1
  /-- Distinct tasks have distinct identifiers. -/
  nodup_ids : (tasks.map (·.id)).Nodup
  /-- A task above the implementation tasks lists the tasks that name it as parent. -/
  children : ∀ t ∈ tasks, t.layer ≠ .l3TaskAgent →
    t.childTaskIds = (tasks.filter fun c => c.parentTaskId = t.id).map (·.id)
  /-- An implementation task lists no task twice. -/
  nodup_dependents : ∀ t ∈ tasks, t.layer = .l3TaskAgent → t.childTaskIds.Nodup
  /-- An implementation task lists the tasks with an issue that depend on it. -/
  dependents : ∀ t ∈ tasks, t.layer = .l3TaskAgent → ∀ x, x ∈ t.childTaskIds ↔
    ∃ d, d.id = x ∧ d.issue ≠ 0 ∧ ExplicitDep tasks d t
  /-- No task is blocked by the same task twice. -/
  nodup_blockers : ∀ t ∈ tasks, t.blockedBy.Nodup
  /-- Every blocker is a returned task. -/
  blockers : ∀ t ∈ tasks, ∀ x ∈ t.blockedBy, ∃ b ∈ tasks, b.id = x
  /-- The number of tasks. -/
  length : tasks.length = brief.numTasks

namespace TaskBrief

variable {uuid : ℕ → String} {ts : String} {brief : TaskBrief}

/-! ### The tree -/

theorem taskAt_parentTaskId (B C : Node → List Node) (c : Node) :
  (brief.taskAt uuid ts B C c).parentTaskId = (c.parent.map (brief.idOf uuid)).getD ""
  := by
  cases c <;> rfl

/-- A place comes after the place above it. -/
theorem idxOf_parent_lt {c p : Node} (hc : c ∈ brief.nodes) (h : c.parent = some p) :
  brief.nodes.idxOf p < brief.nodes.idxOf c
  := by
  cases c with
  | l0 => simp [Node.parent] at h
  | l1 r =>
    obtain rfl := Option.some.inj h
    apply Lists.idxOf_lt_of_isPrefix brief.nodup_nodes
      (beforeRepo_succ_isPrefix (brief.l1_mem_nodes.mp hc))
    simp [beforeRepo]
  | l2 r m =>
    obtain rfl := Option.some.inj h
    obtain ⟨hr, hm⟩ := brief.l2_mem_nodes.mp hc
    apply Lists.idxOf_lt_of_isPrefix brief.nodup_nodes (beforeModule_succ_isPrefix hr hm)
    simp [beforeModule]
  | l3 r m k =>
    obtain rfl := Option.some.inj h
    obtain ⟨hr, hm, hk⟩ := brief.l3_mem_nodes.mp hc
    apply Lists.idxOf_lt_of_isPrefix brief.nodup_nodes (beforeImpl_succ_isPrefix hr hm hk)
    simp [beforeImpl]

/-- A task names the task of a listed place as parent when its place is below it. -/
theorem parentTaskId_eq_idOf (hids : IdSupply uuid) {c : Node} (hc : c ∈ brief.nodes)
    (B C : Node → List Node) (d : Node) :
  (brief.taskAt uuid ts B C d).parentTaskId = brief.idOf uuid c ↔ d.parent = some c
  := by
  rw [taskAt_parentTaskId]
  cases hd : d.parent with
  | none => simp [idOf, Ne.symm (hids.ne_empty _)]
  | some p =>
    rw [Option.map_some, Option.getD_some, Option.some.injEq]
    constructor
    · intro h
      symm
      apply idOf_injOn hids.injective hc h.symm
    · rintro rfl
      rfl

/-- Only implementation tasks have dependents. -/
theorem dependentsOf_of_layer {c : Node} (hc : c.layer ≠ .l3TaskAgent) :
  brief.dependentsOf c = []
  := by
  apply List.filter_eq_nil_iff.mpr
  intro d _ h
  obtain ⟨-, r, m, k, rfl⟩ := annotatedBlocker_mem_nodes (by simpa using h)
  apply hc rfl

theorem planTask_childTaskIds (c : Node) :
  (brief.planTask uuid ts c).childTaskIds
    = (brief.childrenOf c ++ brief.dependentsOf c).map (brief.idOf uuid)
  := rfl

/-- The child list above the implementation tasks. -/
theorem plan_children (hids : IdSupply uuid) {c : Node} (hc : c ∈ brief.nodes)
    (hlayer : c.layer ≠ .l3TaskAgent) :
  (brief.planTask uuid ts c).childTaskIds
    = ((brief.plan uuid ts).filter fun t =>
        t.parentTaskId = (brief.planTask uuid ts c).id).map (·.id)
  := by
  rw [planTask_childTaskIds, dependentsOf_of_layer hlayer, List.append_nil, plan,
    List.filter_map, List.map_map, childrenOf]
  have hfilter : brief.nodes.filter (fun d => d.parent = some c)
      = brief.nodes.filter ((fun t : HmasTask => decide
          (t.parentTaskId = (brief.planTask uuid ts c).id)) ∘ brief.planTask uuid ts) := by
    apply List.filter_congr
    intro d _
    simp only [Function.comp_apply, planTask, taskAt_id, parentTaskId_eq_idOf hids hc]
  rw [hfilter]
  apply List.map_congr_left
  intro d _
  simp [planTask]

/-! ### The dependents -/

theorem planTask_subject (r m k : ℕ) :
  (brief.planTask uuid ts (.l3 r m k)).subject = brief.implAt r m k
  := rfl

/-- A number resolves in the plan as it does in the outline. -/
theorem resolveIssue_plan (n : ℤ) :
  resolveIssue (brief.plan uuid ts) n = (brief.resolve n).map (brief.planTask uuid ts)
  := by
  rw [resolveIssue, resolve]
  split
  · rfl
  · rename_i hn
    rw [plan, List.find?_map]
    congr 2
    funext c
    simp only [Function.comp_apply, planTask, taskAt_layer, taskAt_issue, decide_eq_decide]
    constructor
    · intro h
      apply h.2
    · intro h
      obtain ⟨r, m, k, rfl⟩ := exists_l3_of_issue (h ▸ hn)
      use rfl, h

/-- The explicit dependencies of the plan are those of the outline. -/
theorem explicitDep_plan (hids : IdSupply uuid) (hfit : brief.NumbersFit) {d b : Node}
    (hd : d ∈ brief.nodes) (hb : b ∈ brief.nodes) :
  (brief.planTask uuid ts d).issue ≠ 0
      ∧ ExplicitDep (brief.plan uuid ts) (brief.planTask uuid ts d) (brief.planTask uuid ts b)
    ↔ b ∈ brief.annotatedBlockers d
  := by
  have hresolve : ∀ n, resolveIssue (brief.plan uuid ts) n = some (brief.planTask uuid ts b)
      ↔ brief.resolve n = some b := by
    intro n
    rw [resolveIssue_plan, Option.map_eq_some_iff]
    constructor
    · rintro ⟨b', hb', heq⟩
      have hid : brief.idOf uuid b = brief.idOf uuid b' := by
        simpa [planTask] using congrArg HmasTask.id heq.symm
      rw [hb', idOf_injOn hids.injective hb hid]
    · intro h
      use b
  have hne : (brief.planTask uuid ts d).id ≠ (brief.planTask uuid ts b).id ↔ b ≠ d := by
    rw [planTask, taskAt_id, taskAt_id]
    constructor
    · rintro h rfl
      apply h rfl
    · intro h heq
      apply h (idOf_injOn hids.injective hb heq.symm)
  have hmem : brief.planTask uuid ts d ∈ brief.plan uuid ts := List.mem_map_of_mem hd
  rw [mem_annotatedBlockers, ExplicitDep]
  simp only [hresolve, hne, hmem, true_and]
  rw [planTask, taskAt_issue, taskAt_layer]
  apply and_congr_right
  intro hissue
  obtain ⟨r, m, k, rfl⟩ := exists_l3_of_issue hissue
  have hparse : ∀ ref, ImplRef.parse
      (brief.planTask uuid ts (.l3 r m k)).subject.toList = .ok ref
        ↔ ref = brief.refOf (.l3 r m k) := by
    intro ref
    rw [planTask_subject, brief.parse_implAt hfit hd, refOf, Except.ok.injEq, eq_comm]
  rw [← planTask]
  simp [Node.layer, hparse]

/-- The child list of an implementation task. -/
theorem mem_plan_dependents (hids : IdSupply uuid) (hfit : brief.NumbersFit) {c : Node}
    (hc : c ∈ brief.nodes) (hlayer : c.layer = .l3TaskAgent) (x : String) :
  x ∈ (brief.planTask uuid ts c).childTaskIds
    ↔ ∃ d, d.id = x ∧ d.issue ≠ 0
      ∧ ExplicitDep (brief.plan uuid ts) d (brief.planTask uuid ts c)
  := by
  have hchildren : brief.childrenOf c = [] := by
    cases c with
    | l3 r m k => apply childrenOf_l3
    | l0 | l1 r | l2 r m => simp [Node.layer] at hlayer
  rw [planTask_childTaskIds, hchildren, List.nil_append, List.mem_map]
  constructor
  · rintro ⟨d, hd, rfl⟩
    simp only [dependentsOf, List.mem_filter, decide_eq_true_eq] at hd
    use brief.planTask uuid ts d
    use by rw [planTask, taskAt_id]
    apply (explicitDep_plan hids hfit hd.1 hc).mpr hd.2
  · rintro ⟨t, rfl, hdep⟩
    obtain ⟨d, hd, rfl⟩ := List.mem_map.mp hdep.2.1
    use d
    constructor
    · simp only [dependentsOf, List.mem_filter, decide_eq_true_eq]
      use hd
      apply (explicitDep_plan hids hfit hd hc).mp hdep
    · rw [planTask, taskAt_id]

/-! ### Blockers and numbers of tasks -/

theorem nodup_defaultBlockers (c : Node) :
  (brief.defaultBlockers c).Nodup
  := by
  cases c with
  | l0 | l1 r => simp [defaultBlockers]
  | l2 r m => cases m <;> simp [defaultBlockers]
  | l3 r m k =>
    cases k with
    | zero => simp [defaultBlockers]
    | succ k =>
      rw [defaultBlockers]
      split <;> simp

/-- No place is blocked by the same place twice. -/
theorem nodup_blockers (c : Node) :
  (brief.blockers c).Nodup
  := by
  apply List.nodup_append.mpr
  use nodup_defaultBlockers c
  constructor
  · rw [annotatedBlockers]
    split
    · simp
    · apply Lists.nodup_firsts
  · rintro a ha b hb rfl
    obtain ⟨hissue, -, n, hn, -⟩ := mem_annotatedBlockers.mp hb
    obtain ⟨-, r', m', k', rfl⟩ := annotatedBlocker_mem_nodes hb
    obtain ⟨r, m, k, rfl⟩ := exists_l3_of_issue hissue
    rw [defaultBlockers_of_dependsOn hn] at ha
    simp at ha

/-- Identifiers of distinct listed places are distinct. -/
theorem nodup_map_idOf (hids : IdSupply uuid) {cs : List Node} (hcs : cs.Nodup)
    (hmem : ∀ c ∈ cs, c ∈ brief.nodes) :
  (cs.map (brief.idOf uuid)).Nodup
  := by
  apply List.Nodup.map_on _ hcs
  intro c hc d _ h
  apply idOf_injOn hids.injective (hmem c hc) h

theorem numImpls_eq (r m : ℕ) :
  brief.numImpls r m = max 1 (((brief.impls.lookup (brief.repoAt r)).bind
    (·.lookup (brief.moduleAt r m))).getD []).length
  := by
  rw [numImpls, implsOf]
  cases ((brief.impls.lookup (brief.repoAt r)).bind (·.lookup (brief.moduleAt r m))).getD []
    with
  | nil => rfl
  | cons d ds => simp

/-- The number of places. -/
theorem length_nodes :
  brief.nodes.length = brief.numTasks
  := by
  have hmodule : ∀ r, ((List.range (brief.numModules r)).map fun m =>
      (brief.moduleNodes r m).length).sum
      = ((brief.modulesOf (brief.repoAt r)).map fun mod => 1 + max 1 (((brief.impls.lookup
          (brief.repoAt r)).bind (·.lookup mod)).getD []).length).sum := by
    intro r
    rw [← Lists.map_range_getElem? _ "", ← numModules]
    congr 2
    funext m
    rw [moduleNodes, implNodes, List.length_cons, List.length_map, List.length_range,
      numImpls_eq, moduleAt, Nat.add_comm]
  rw [nodes, List.length_cons, List.length_flatMap, numTasks, Nat.add_comm,
    ← Lists.map_range_getElem? brief.repos ""]
  congr 3
  funext r
  rw [repoNodes, List.length_cons, List.length_flatMap, hmodule, Nat.add_comm]
  rfl

/-! ### The decomposition -/

theorem getElem?_plan {i : ℕ} {t : HmasTask} (h : (brief.plan uuid ts)[i]? = some t) :
  ∃ c, brief.nodes[i]? = some c ∧ brief.planTask uuid ts c = t
  := by
  rw [plan, List.getElem?_map] at h
  apply Option.map_eq_some_iff.mp h

/-- Only the root has no place above, and it comes first. -/
theorem parent_eq_none_iff {i : ℕ} {c : Node} (hc : brief.nodes[i]? = some c) :
  c.parent = none ↔ i = 0
  := by
  constructor
  · intro h
    obtain rfl : c = .l0 := by cases c <;> simp_all [Node.parent]
    rw [← Lists.idxOf_of_getElem? brief.nodup_nodes hc]
    simp [nodes]
  · rintro rfl
    obtain rfl := Option.some.inj hc
    rfl

/-- The plan has the shape of a decomposition. -/
theorem shape_plan (hids : IdSupply uuid) (hfit : brief.NumbersFit) :
  Shape brief (brief.plan uuid ts)
  where
  root := ⟨brief.planTask uuid ts .l0, rfl, rfl⟩
  parentless := by
    intro i t h
    obtain ⟨c, hc, rfl⟩ := getElem?_plan h
    rw [← parent_eq_none_iff hc, planTask, taskAt_parentTaskId]
    cases c.parent with
    | none => simp
    | some p => simp [idOf, hids.ne_empty]
  parent := by
    intro i t h hi
    obtain ⟨c, hc, rfl⟩ := getElem?_plan h
    have hmem := List.mem_of_getElem? hc
    obtain ⟨p, hp⟩ := Option.ne_none_iff_exists'.mp (mt (parent_eq_none_iff hc).mp hi)
    have hlt := idxOf_parent_lt hmem hp
    have hpmem := brief.parent_mem_nodes hmem hp
    rw [Lists.idxOf_of_getElem? brief.nodup_nodes hc] at hlt
    use brief.nodes.idxOf p, brief.planTask uuid ts p, hlt
    rw [plan, List.getElem?_map, List.getElem?_idxOf hpmem]
    use rfl
    rw [planTask, taskAt_parentTaskId, hp, taskAt_id, taskAt_layer, taskAt_layer]
    use rfl
    apply Node.layer_parent hp
  nodup_ids := by
    rw [plan, List.map_map]
    apply List.Nodup.map_on _ brief.nodup_nodes
    intro c hc d _ h
    simp only [Function.comp_apply, planTask, taskAt_id] at h
    apply idOf_injOn hids.injective hc h
  children := by
    intro t ht hlayer
    obtain ⟨c, hc, rfl⟩ := List.mem_map.mp ht
    rw [planTask, taskAt_layer] at hlayer
    apply plan_children hids hc hlayer
  nodup_dependents := by
    intro t ht hlayer
    obtain ⟨c, hc, rfl⟩ := List.mem_map.mp ht
    rw [planTask_childTaskIds]
    apply nodup_map_idOf hids
    · apply List.nodup_append.mpr
      use brief.nodup_nodes.filter _, brief.nodup_nodes.filter _
      rintro a ha b hb rfl
      simp only [childrenOf, dependentsOf, List.mem_filter, decide_eq_true_eq] at ha hb
      obtain ⟨-, r, m, k, rfl⟩ := annotatedBlocker_mem_nodes hb.2
      apply a.parent_ne_l3 r m k ha.2
    · intro d hd
      obtain hd | hd := List.mem_append.mp hd
      · apply (List.mem_filter.mp hd).1
      · apply (List.mem_filter.mp hd).1
  dependents := by
    intro t ht hlayer x
    obtain ⟨c, hc, rfl⟩ := List.mem_map.mp ht
    rw [planTask, taskAt_layer] at hlayer
    apply mem_plan_dependents hids hfit hc hlayer
  nodup_blockers := by
    intro t ht
    obtain ⟨c, hc, rfl⟩ := List.mem_map.mp ht
    rw [planTask, taskAt_blockedBy]
    apply nodup_map_idOf hids (nodup_blockers c)
    intro b hb
    apply blocker_mem_nodes hc hb
  blockers := by
    intro t ht x hx
    obtain ⟨c, hc, rfl⟩ := List.mem_map.mp ht
    rw [planTask, taskAt_blockedBy] at hx
    obtain ⟨b, hb, rfl⟩ := List.mem_map.mp hx
    use brief.planTask uuid ts b, List.mem_map_of_mem (blocker_mem_nodes hc hb)
    rw [planTask, taskAt_id]
  length := by
    rw [plan, List.length_map, length_nodes]

end TaskBrief

/-- Where the issue numbers fit, the breakdown returns, and what it returns has the shape
of a decomposition. -/
theorem decompose_shape {uuid : ℕ → String} {ts : String} {brief : TaskBrief}
    (hids : IdSupply uuid) (hfit : brief.NumbersFit) :
  ∃ tasks, decompose uuid ts brief = .ok tasks ∧ Shape brief tasks
  := by
  use brief.plan uuid ts
  use TaskBrief.decompose_of_numbersFit hids hfit
  apply TaskBrief.shape_plan hids hfit

/-! ### A task without an issue -/

/-- Identifiers made of strokes. -/
def strokes (n : ℕ) : String :=
  String.ofList (List.replicate (n + 1) '|')

theorem strokes_supply :
  IdSupply strokes
  where
  ne_empty := by
    intro n h
    simpa [strokes] using congrArg String.toList h
  injective := by
    intro i j h
    simpa [strokes] using congrArg (List.length ∘ String.toList) h

theorem strokes_ne {s : String} (h : s.toList.head? ≠ some '|') (n : ℕ) :
  strokes n ≠ s
  := by
  rintro rfl
  apply h
  rw [strokes, String.toList_ofList, List.replicate_succ]
  rfl

/-- A brief with one module and the given implementation tasks. -/
def moduleBrief (impls : List String) : TaskBrief where
  id := "b"
  title := "t"
  description := ""
  repos := ["r"]
  modules := Finmap.singleton "r" ["m"]
  impls := Finmap.singleton "r" (Finmap.singleton "m" impls)

/-- A brief whose second task depends on the first but has the issue `#0`. -/
def zeroBrief : TaskBrief :=
  moduleBrief ["#5", "#0 (depends on: #5)"]

theorem decompose_shape_zeroBrief :
  IdSupply strokes ∧ zeroBrief.NumbersFit
    ∧ ∃ tasks, decompose strokes "" zeroBrief = .ok tasks ∧ Shape zeroBrief tasks
  := by
  have hfit : zeroBrief.NumbersFit := by decide
  use strokes_supply, hfit
  apply decompose_shape strokes_supply hfit

/-- An annotation on a task with the issue `#0` is dropped: the task it names does not
list the annotated task. -/
theorem dependents_of_zero_issue :
  IdSupply strokes ∧ zeroBrief.NumbersFit
    ∧ ∃ tasks, decompose strokes "" zeroBrief = .ok tasks
      ∧ ∃ t ∈ tasks, t.layer = .l3TaskAgent
        ∧ ∃ d ∈ tasks, ExplicitDep tasks d t ∧ d.id ∉ t.childTaskIds
  := by
  have hfit : zeroBrief.NumbersFit := by decide
  use strokes_supply, hfit
  use zeroBrief.plan strokes "", TaskBrief.decompose_of_numbersFit strokes_supply hfit
  use zeroBrief.planTask strokes "" (.l3 0 0 0), List.mem_map_of_mem (by decide), rfl
  have hmem : zeroBrief.planTask strokes "" (.l3 0 0 1) ∈ zeroBrief.plan strokes "" :=
    List.mem_map_of_mem (by decide)
  use zeroBrief.planTask strokes "" (.l3 0 0 1), hmem
  constructor
  · use hmem, rfl, by decide
    use { issue := 0, dependsOn := [5], hasExplicitDeps := true }, by decide
    use 5, by decide
    rw [TaskBrief.resolveIssue_plan]
    have hresolve : zeroBrief.resolve 5 = some (.l3 0 0 0) := by decide
    rw [hresolve]
    rfl
  · decide

end Agamemnon
