import Agamemnon.Plan.Outline

/-!
# The breakdown lays out the outline

The list of tasks `decompose` returns is the list of places of the outline of the brief,
each with the links the outline gives it.  A loop of the breakdown goes from the places
visited before an entry to the places visited before the next one; the last pass goes
from the default blockers to all blockers, one annotated dependency at a time.
-/

namespace Agamemnon

namespace TaskBrief

variable (uuid : ℕ → String) (ts : String) (brief : TaskBrief) {c : Node}

/-- The identifier of the task at a place: the one drawn when the place is visited. -/
def idOf (c : Node) : String :=
  uuid (brief.nodes.idxOf c)

/-- The task at a place, without its links to other tasks. -/
def bareTask : Node → HmasTask
  | .l0 =>
      { blankTask with
        id := brief.idOf uuid .l0
        briefId := brief.id
        layer := .l0ChiefArchitect
        subject := brief.title
        description := brief.description
        createdAt := ts }
  | .l1 r =>
      { blankTask with
        id := brief.idOf uuid (.l1 r)
        briefId := brief.id
        parentTaskId := brief.idOf uuid .l0
        layer := .l1ComponentLead
        repo := brief.repoAt r
        subject := brief.title ++ " [" ++ brief.repoAt r ++ "]"
        description := "Coordinate implementation for repo: " ++ brief.repoAt r
        createdAt := ts }
  | .l2 r m =>
      { blankTask with
        id := brief.idOf uuid (.l2 r m)
        briefId := brief.id
        parentTaskId := brief.idOf uuid (.l1 r)
        layer := .l2ModuleLead
        repo := brief.repoAt r
        module := brief.moduleAt r m
        subject := brief.title ++ " [" ++ brief.repoAt r ++ "/" ++ brief.moduleAt r m ++ "]"
        description :=
          "Lead module implementation: " ++ brief.moduleAt r m ++ " in " ++ brief.repoAt r
        createdAt := ts }
  | .l3 r m k =>
      { blankTask with
        id := brief.idOf uuid (.l3 r m k)
        briefId := brief.id
        parentTaskId := brief.idOf uuid (.l2 r m)
        layer := .l3TaskAgent
        repo := brief.repoAt r
        module := brief.moduleAt r m
        subject := brief.implAt r m k
        description := brief.implAt r m k
        issue := (brief.refAt r m k).issue
        createdAt := ts }

/-- The task at a place that is blocked by `blockers` and lists `children`. -/
def taskAt (blockers children : Node → List Node) (c : Node) : HmasTask :=
  { bareTask uuid ts brief c with
    blockedBy := (blockers c).map (brief.idOf uuid)
    childTaskIds := (children c).map (brief.idOf uuid) }

/-- The tasks of the outline. -/
def planTask : Node → HmasTask :=
  brief.taskAt uuid ts brief.blockers fun c => brief.childrenOf c ++ brief.dependentsOf c

/-- The list of the tasks of the outline. -/
def plan : List HmasTask :=
  brief.nodes.map (brief.planTask uuid ts)

variable {brief} (B C : Node → List Node) (c)

@[simp]
theorem taskAt_id :
  (brief.taskAt uuid ts B C c).id = brief.idOf uuid c
  := by
  cases c <;> rfl

@[simp]
theorem taskAt_layer :
  (brief.taskAt uuid ts B C c).layer = c.layer
  := by
  cases c <;> rfl

@[simp]
theorem taskAt_issue :
  (brief.taskAt uuid ts B C c).issue = (brief.refOf c).issue
  := by
  cases c <;> rfl

@[simp]
theorem taskAt_blockedBy :
  (brief.taskAt uuid ts B C c).blockedBy = (B c).map (brief.idOf uuid)
  := rfl

@[simp]
theorem taskAt_childTaskIds :
  (brief.taskAt uuid ts B C c).childTaskIds = (C c).map (brief.idOf uuid)
  := rfl

variable {uuid ts c}

/-- The task at a place has the links of that place only. -/
theorem taskAt_congr {B B' C C' : Node → List Node} (hB : B c = B' c) (hC : C c = C' c) :
  brief.taskAt uuid ts B C c = brief.taskAt uuid ts B' C' c
  := by
  rw [taskAt, taskAt, hB, hC]

/-- Distinct listed places have distinct identifiers. -/
theorem idOf_injOn (huuid : Function.Injective uuid) {d : Node} (hc : c ∈ brief.nodes)
    (h : brief.idOf uuid c = brief.idOf uuid d) :
  c = d
  := List.idxOf_inj hc |>.mp (huuid h)

variable {ns : List Node} {p : Node} {i : ℕ}

/-- Appending to the child list of `p`. -/
theorem pushChild_map (hns : ns.Nodup) (hi : ns[i]? = some p) (B C : Node → List Node) (c : Node) :
  pushChild (ns.map (brief.taskAt uuid ts B C)) i (brief.idOf uuid c)
    = ns.map (brief.taskAt uuid ts B fun d => if d = p then C d ++ [c] else C d)
  := by
  rw [pushChild, Lists.map_modify hns hi]
  apply List.map_congr_left
  intro d _
  split
  · simp [taskAt, *]
  · simp [taskAt, *]

/-- Appending to the blockers of `p`. -/
theorem pushBlocker_map (hns : ns.Nodup) (hi : ns[i]? = some p) (B C : Node → List Node)
    (b : Node) :
  pushBlocker (ns.map (brief.taskAt uuid ts B C)) i (brief.idOf uuid b)
    = ns.map (brief.taskAt uuid ts (fun d => if d = p then B d ++ [b] else B d) C)
  := by
  rw [pushBlocker, Lists.map_modify hns hi]
  apply List.map_congr_left
  intro d _
  split
  · simp [taskAt, *]
  · simp [taskAt, *]

/-! ### Visiting the places -/

variable {r m : ℕ}

variable (uuid ts brief)

/-- The tasks once the places `done` have been visited. -/
def visited (done : List Node) : List HmasTask :=
  done.map (brief.taskAt uuid ts brief.defaultBlockers
    fun c => done.filter fun d => d.parent = some c)

variable {brief}

@[simp]
theorem length_visited (done : List Node) :
  (brief.visited uuid ts done).length = done.length
  := List.length_map _

variable {done : List Node}

/-- Visiting the place `c` below `p` appends it to the child list of `p`. -/
theorem visited_append (hdone : done ++ [c] <+: brief.nodes) (hp : c.parent = some p)
    (hi : done[i]? = some p) (hc : ∀ d ∈ done, d.parent ≠ some c) :
  brief.visited uuid ts (done ++ [c])
    = pushChild (brief.visited uuid ts done) i (brief.idOf uuid c)
        ++ [brief.taskAt uuid ts brief.defaultBlockers (fun _ => []) c]
  := by
  have hnodup : done.Nodup :=
    (hdone.sublist.nodup brief.nodup_nodes).sublist (List.sublist_append_left _ _)
  rw [visited, visited, pushChild_map hnodup hi, List.map_append]
  congr 1
  · apply List.map_congr_left
    intro d _
    have hchildren : (done ++ [c]).filter (fun e => e.parent = some d)
        = if d = p then done.filter (fun e => e.parent = some d) ++ [c]
          else done.filter (fun e => e.parent = some d) := by
      rw [List.filter_append]
      split
      · simp_all
      · have hne : c.parent ≠ some d := by
          rw [hp]
          intro h
          simp_all
        simp [hne]
    simp [taskAt, hchildren]
  · have hnone : (done ++ [c]).filter (fun e => e.parent = some c) = [] := by
      rw [List.filter_append, List.append_eq_nil_iff]
      constructor
      · apply List.filter_eq_nil_iff.mpr
        intro d hd
        simpa using hc d hd
      · simp [Node.parent_ne_self]
    simp only [List.map_cons, List.map_nil, taskAt, hnone]

theorem not_mem_beforeRepo (h : c.repoPosition = some r) :
  c ∉ brief.beforeRepo r
  := by
  intro hc
  simp only [beforeRepo, List.mem_cons, List.mem_flatMap, List.mem_range] at hc
  obtain rfl | ⟨r', hr', hc⟩ := hc
  · simp [Node.repoPosition] at h
  · rw [brief.repoPosition_of_mem hc, Option.some.injEq] at h
    omega

theorem not_mem_beforeModule (hr : c.repoPosition = some r) (hm : c.modulePosition = some m) :
  c ∉ brief.beforeModule r m
  := by
  intro hc
  simp only [beforeModule, List.mem_append, List.mem_cons, List.mem_flatMap,
    List.mem_range] at hc
  obtain hc | rfl | ⟨m', hm', hc⟩ := hc
  · apply not_mem_beforeRepo hr hc
  · simp [Node.modulePosition] at hm
  · rw [brief.modulePosition_of_mem hc, Option.some.injEq] at hm
    omega

variable {uuid ts}

/-- The next identifier drawn is the identifier of the next place. -/
theorem idOf_next (h : done ++ [c] <+: brief.nodes) :
  uuid (brief.visited uuid ts done).length = brief.idOf uuid c
  := by
  rw [length_visited, idOf, Lists.idxOf_of_isPrefix brief.nodup_nodes h]

theorem beforeImpl_succ_isPrefix {k : ℕ} (hr : r < brief.repos.length) (hm : m < brief.numModules r)
    (hk : k < brief.numImpls r m) :
  brief.beforeImpl r m k ++ [.l3 r m k] <+: brief.nodes
  := by
  rw [← beforeImpl_succ]
  apply (brief.beforeImpl_isPrefix hk).trans
  apply (brief.beforeModule_isPrefix hm).trans
  apply brief.beforeRepo_isPrefix hr

theorem beforeModule_succ_isPrefix (hr : r < brief.repos.length) (hm : m < brief.numModules r) :
  brief.beforeModule r m ++ [.l2 r m] <+: brief.nodes
  := by
  apply List.IsPrefix.trans _ (beforeImpl_succ_isPrefix hr hm (brief.numImpls_pos r m))
  simp [beforeImpl]

theorem beforeRepo_succ_isPrefix (hr : r < brief.repos.length) :
  brief.beforeRepo r ++ [.l1 r] <+: brief.nodes
  := by
  apply List.IsPrefix.trans _ (beforeModule_succ_isPrefix hr (brief.numModules_pos r))
  simp [beforeModule]

/-! ### The loops -/

variable (uuid ts brief)

/-- Parse an implementation task for its exceptions only. -/
def checkImpl (implDesc : String) : Except Exn PUnit := do
  let _ ← ImplRef.parse implDesc.toList

/-- Parse the implementation tasks of a module in turn. -/
def checkModule (repo mod : String) : Except Exn PUnit :=
  forM (brief.implsOf repo mod) checkImpl

/-- Parse the implementation tasks of a repository in turn. -/
def checkRepo (repo : String) : Except Exn PUnit :=
  forM (brief.modulesOf repo) (brief.checkModule repo)

/-- Parse the implementation tasks of a brief in turn. -/
def checkImpls : Except Exn PUnit :=
  forM brief.repos brief.checkRepo

/-- The identifier of the module before a module, empty for the first. -/
def prevL2Id (r : ℕ) : ℕ → String
  | 0 => ""
  | m + 1 => brief.idOf uuid (.l2 r m)

/-- The identifier of the implementation task before an implementation task, empty for
the first. -/
def prevL3Id (r m : ℕ) : ℕ → String
  | 0 => ""
  | k + 1 => brief.idOf uuid (.l3 r m k)

variable {uuid ts brief}

variable {k : ℕ}

theorem implAt_eq (hk : k < (brief.implsOf (brief.repoAt r) (brief.moduleAt r m)).length) :
  (brief.implsOf (brief.repoAt r) (brief.moduleAt r m))[k] = brief.implAt r m k
  := by
  simp [implAt, hk]

theorem moduleAt_eq (hm : m < (brief.modulesOf (brief.repoAt r)).length) :
  (brief.modulesOf (brief.repoAt r))[m] = brief.moduleAt r m
  := by
  simp [moduleAt, hm]

theorem repoAt_eq (hr : r < brief.repos.length) :
  brief.repos[r] = brief.repoAt r
  := by
  simp [repoAt, hr]

theorem checkImpl_eq_ok (implDesc : String) :
  checkImpl implDesc = .ok ⟨⟩ ↔ ImplRef.NumbersFit implDesc.toList
  := by
  rw [← ImplRef.parse_isOk, checkImpl]
  cases ImplRef.parse implDesc.toList <;>
    simp [bind, Except.bind, pure, Except.pure, Except.isOk, Except.toBool]

/-- Parsing the implementation tasks throws nothing when all issue numbers fit. -/
theorem checkImpls_eq_ok :
  brief.checkImpls = .ok ⟨⟩ ↔ brief.NumbersFit
  := by
  simp only [checkImpls, checkRepo, checkModule, NumbersFit, Lists.forM_eq_ok, checkImpl_eq_ok]

/-! The task pushed for a place is the task at that place. -/

theorem l1Task_eq (r : ℕ) :
  l1Task ts brief (brief.idOf uuid .l0) (brief.repoAt r) (brief.idOf uuid (.l1 r))
    = brief.taskAt uuid ts brief.defaultBlockers (fun _ => []) (.l1 r)
  := rfl

variable (huuid : ∀ n, uuid n ≠ "") (hr : r < brief.repos.length)
include huuid

theorem l2Task_eq (r m : ℕ) :
  l2Task ts brief (brief.repoAt r) (brief.moduleAt r m) (brief.idOf uuid (.l1 r))
      (brief.idOf uuid (.l2 r m)) (brief.prevL2Id uuid r m)
    = brief.taskAt uuid ts brief.defaultBlockers (fun _ => []) (.l2 r m)
  := by
  cases m with
  | zero => simp [l2Task, taskAt, bareTask, blankTask, defaultBlockers, prevL2Id]
  | succ m => simp [l2Task, taskAt, bareTask, blankTask, defaultBlockers, prevL2Id, idOf, huuid]

theorem l3Task_eq (r m k : ℕ) :
  l3Task ts brief (brief.repoAt r) (brief.moduleAt r m) (brief.implAt r m k)
      (brief.idOf uuid (.l2 r m)) (brief.idOf uuid (.l3 r m k)) (brief.prevL3Id uuid r m k)
      (brief.refAt r m k)
    = brief.taskAt uuid ts brief.defaultBlockers (fun _ => []) (.l3 r m k)
  := by
  cases k with
  | zero => simp [l3Task, taskAt, bareTask, blankTask, defaultBlockers, prevL3Id]
  | succ k =>
    cases hexplicit : (brief.refAt r m (k + 1)).hasExplicitDeps with
    | true => simp [l3Task, taskAt, bareTask, blankTask, defaultBlockers, hexplicit]
    | false =>
      simp [l3Task, taskAt, bareTask, blankTask, defaultBlockers, prevL3Id, hexplicit, idOf,
        huuid]

include hr

/-- One iteration of the loop over the implementation tasks of a module. -/
theorem decomposeImpl_eq (hm : m < brief.numModules r) (hk : k < brief.numImpls r m) :
  decomposeImpl uuid ts brief (brief.repoAt r) (brief.moduleAt r m) (brief.idOf uuid (.l2 r m))
      (brief.beforeModule r m).length
      (brief.visited uuid ts (brief.beforeImpl r m k), brief.prevL3Id uuid r m k)
      (brief.implAt r m k)
    = (do
        checkImpl (brief.implAt r m k)
        return (brief.visited uuid ts (brief.beforeImpl r m (k + 1)),
          brief.prevL3Id uuid r m (k + 1)))
  := by
  have hdone := beforeImpl_succ_isPrefix hr hm hk
  have hl2 : (brief.beforeImpl r m k)[(brief.beforeModule r m).length]? = some (.l2 r m) := by
    simp [beforeImpl]
  have hpush := visited_append uuid ts hdone rfl hl2 fun d _ => d.parent_ne_l3 r m k
  cases hparse : ImplRef.parse (brief.implAt r m k).toList with
  | error e => simp [decomposeImpl, checkImpl, hparse, bind, Except.bind]
  | ok ref =>
    have href : ref = brief.refAt r m k := by simp [refAt, hparse, Except.toOption]
    simp only [decomposeImpl, checkImpl, hparse, bind, Except.bind, pure, Except.pure]
    simp only [idOf_next hdone, beforeImpl_succ, hpush, href, l3Task_eq huuid, taskAt_id]
    rfl

/-- The loop over the implementation tasks of a module. -/
theorem decomposeImpl_loop (hm : m < brief.numModules r) :
  (brief.implsOf (brief.repoAt r) (brief.moduleAt r m)).foldlM
      (decomposeImpl uuid ts brief (brief.repoAt r) (brief.moduleAt r m)
        (brief.idOf uuid (.l2 r m)) (brief.beforeModule r m).length)
      (brief.visited uuid ts (brief.beforeModule r m ++ [.l2 r m]), "")
    = (do
        brief.checkModule (brief.repoAt r) (brief.moduleAt r m)
        return (brief.visited uuid ts (brief.beforeModule r (m + 1)),
          brief.prevL3Id uuid r m (brief.numImpls r m)))
  := by
  rw [beforeModule_succ]
  apply Lists.foldlM_eq_of_step _ fun k =>
    (brief.visited uuid ts (brief.beforeImpl r m k), brief.prevL3Id uuid r m k)
  intro k hk
  rw [implAt_eq hk]
  apply decomposeImpl_eq huuid hr hm hk

/-- One iteration of the loop over the modules of a repository. -/
theorem decomposeModule_eq (hm : m < brief.numModules r) :
  decomposeModule uuid ts brief (brief.repoAt r) (brief.idOf uuid (.l1 r))
      (brief.beforeRepo r).length
      (brief.visited uuid ts (brief.beforeModule r m), brief.prevL2Id uuid r m)
      (brief.moduleAt r m)
    = (do
        brief.checkModule (brief.repoAt r) (brief.moduleAt r m)
        return (brief.visited uuid ts (brief.beforeModule r (m + 1)),
          brief.prevL2Id uuid r (m + 1)))
  := by
  have hdone := beforeModule_succ_isPrefix hr hm
  have hl1 : (brief.beforeModule r m)[(brief.beforeRepo r).length]? = some (.l1 r) := by
    simp [beforeModule]
  have hchild : ∀ d ∈ brief.beforeModule r m, d.parent ≠ some (.l2 r m) := by
    intro d hd h
    apply not_mem_beforeModule (Node.repoPosition_of_parent h rfl)
      (Node.modulePosition_of_parent h rfl) hd
  have hpush := visited_append uuid ts hdone rfl hl1 hchild
  simp only [decomposeModule, idOf_next hdone, l2Task_eq huuid, taskAt_id, ← hpush]
  rw [length_visited, decomposeImpl_loop huuid hr hm]
  simp [prevL2Id]

/-- The loop over the modules of a repository. -/
theorem decomposeModule_loop :
  (brief.modulesOf (brief.repoAt r)).foldlM
      (decomposeModule uuid ts brief (brief.repoAt r) (brief.idOf uuid (.l1 r))
        (brief.beforeRepo r).length)
      (brief.visited uuid ts (brief.beforeRepo r ++ [.l1 r]), "")
    = (do
        brief.checkRepo (brief.repoAt r)
        return (brief.visited uuid ts (brief.beforeRepo (r + 1)),
          brief.prevL2Id uuid r (brief.numModules r)))
  := by
  rw [beforeRepo_succ]
  apply Lists.foldlM_eq_of_step _ fun m =>
    (brief.visited uuid ts (brief.beforeModule r m), brief.prevL2Id uuid r m)
  intro m hm
  rw [moduleAt_eq hm]
  apply decomposeModule_eq huuid hr hm

/-- One iteration of the loop over the repositories of a brief. -/
theorem decomposeRepo_eq :
  decomposeRepo uuid ts brief (brief.idOf uuid .l0)
      (brief.visited uuid ts (brief.beforeRepo r)) (brief.repoAt r)
    = (do
        brief.checkRepo (brief.repoAt r)
        return brief.visited uuid ts (brief.beforeRepo (r + 1)))
  := by
  have hdone := beforeRepo_succ_isPrefix hr
  have hl0 : (brief.beforeRepo r)[0]? = some .l0 := rfl
  have hchild : ∀ d ∈ brief.beforeRepo r, d.parent ≠ some (.l1 r) := by
    intro d hd h
    apply not_mem_beforeRepo (Node.repoPosition_of_parent h rfl) hd
  have hpush := visited_append uuid ts hdone rfl hl0 hchild
  simp only [decomposeRepo, idOf_next hdone, l1Task_eq, taskAt_id, ← hpush]
  rw [length_visited, decomposeModule_loop huuid hr]
  simp

omit hr in
/-- The loops of the breakdown visit all places. -/
theorem decomposeRepo_loop :
  brief.repos.foldlM (decomposeRepo uuid ts brief (rootTask uuid ts brief).id)
      [rootTask uuid ts brief]
    = (do
        brief.checkImpls
        return brief.visited uuid ts brief.nodes)
  := by
  apply Lists.foldlM_eq_of_step _ fun r => brief.visited uuid ts (brief.beforeRepo r)
  intro r hr
  rw [repoAt_eq hr]
  apply decomposeRepo_eq huuid hr

end TaskBrief

end Agamemnon
