import Agamemnon.Lib.Graph
import Agamemnon.Plan.Shape
import Mathlib.Data.Prod.Lex

/-!
# The order a decomposition imposes

The blockers of a plan are of three kinds: the place above, the place before, and the
places an annotation names.  A path of blockers goes up the layers and never comes back,
so whatever happens between two implementation tasks happens among the implementation
tasks: between the tasks an annotation names and the tasks that follow each other
without one.
-/

namespace Agamemnon

open Relation TransGen TaskBrief

/-- The task `b` is a blocker of the task `t`. -/
def BlockedBy (tasks : List HmasTask) (t b : HmasTask) : Prop :=
  t ∈ tasks ∧ b ∈ tasks ∧ b.id ∈ t.blockedBy

namespace TaskBrief

variable (brief : TaskBrief)

/-- A listed place waits for another. -/
def Waits (c b : Node) : Prop :=
  c ∈ brief.nodes ∧ b ∈ brief.blockers c

/-- An implementation task waits for one that its annotation names, or, without an
annotation, for the one before it in its module. -/
inductive ImplWaits : Node → Node → Prop
  | annotated {c b : Node} (hc : c ∈ brief.nodes) (hb : b ∈ brief.annotatedBlockers c) :
      ImplWaits c b
  | previous {r m k : ℕ} (hc : .l3 r m (k + 1) ∈ brief.nodes)
      (hplain : (brief.refAt r m (k + 1)).hasExplicitDeps = false) :
      ImplWaits (.l3 r m (k + 1)) (.l3 r m k)

variable {brief}

theorem ImplWaits.waits {c b : Node} (h : brief.ImplWaits c b) :
  brief.Waits c b
  := by
  cases h with
  | annotated hc hb => exact ⟨hc, List.mem_append_right _ hb⟩
  | previous hc hplain =>
    use hc
    apply List.mem_append_left
    simp [defaultBlockers, hplain]

/-- The layer of a place and, for modules, the position. -/
def rank : Node → ℕ ×ₗ ℕ
  | .l0 => toLex (0, 0)
  | .l1 _ => toLex (1, 0)
  | .l2 _ m => toLex (2, m)
  | .l3 _ _ _ => toLex (3, 0)

/-- A place waits for a place of smaller rank, or both are implementation tasks. -/
theorem Waits.rank {c b : Node} (h : brief.Waits c b) :
  rank b < rank c ∨ rank b = rank c ∧ brief.ImplWaits c b
  := by
  obtain ⟨hc, hb⟩ := h
  obtain hb | hb := List.mem_append.mp hb
  · cases c with
    | l0 => simp [defaultBlockers] at hb
    | l1 r =>
      obtain rfl := List.mem_singleton.mp hb
      left
      apply Prod.Lex.toLex_lt_toLex.mpr
      simp
    | l2 r m =>
      left
      cases m with
      | zero =>
        obtain rfl := List.mem_singleton.mp hb
        apply Prod.Lex.toLex_lt_toLex.mpr
        simp
      | succ m =>
        simp only [defaultBlockers, List.mem_cons, List.not_mem_nil, or_false] at hb
        obtain rfl | rfl := hb
        · apply Prod.Lex.toLex_lt_toLex.mpr
          simp
        · apply Prod.Lex.toLex_lt_toLex.mpr
          simp
    | l3 r m k =>
      have hl2 : TaskBrief.rank (.l2 r m) < TaskBrief.rank (.l3 r m k) := by
        apply Prod.Lex.toLex_lt_toLex.mpr
        simp
      cases k with
      | zero =>
        obtain rfl := List.mem_singleton.mp hb
        apply Or.inl hl2
      | succ k =>
        rw [defaultBlockers] at hb
        split at hb
        · obtain rfl := List.mem_singleton.mp hb
          apply Or.inl hl2
        · rename_i hplain
          simp only [List.mem_cons, List.not_mem_nil, or_false] at hb
          obtain rfl | rfl := hb
          · apply Or.inl hl2
          · apply Or.inr ⟨rfl, ImplWaits.previous hc (by simpa using hplain)⟩
  · right
    obtain ⟨-, r', m', k', rfl⟩ := annotatedBlocker_mem_nodes hb
    obtain ⟨r, m, k, rfl⟩ := exists_l3_of_issue (mem_annotatedBlockers.mp hb).1
    use rfl
    apply ImplWaits.annotated hc hb

/-- A path from an implementation task to an implementation task passes through
implementation tasks only. -/
theorem path_iff_implPath {r m k r' m' k' : ℕ} :
  TransGen brief.Waits (.l3 r m k) (.l3 r' m' k')
    ↔ TransGen brief.ImplWaits (.l3 r m k) (.l3 r' m' k')
  := by
  constructor
  · intro h
    rcases Graph.rank_of_path rank (fun _ _ => Waits.rank) h with hlt | ⟨-, hpath⟩
    · exact absurd hlt (lt_irrefl _)
    · apply hpath
  · intro h
    apply mono (fun _ _ hcb => hcb.waits) _ _ h

theorem acyclic_waits_iff :
  Graph.Acyclic brief.Waits ↔ Graph.Acyclic brief.ImplWaits
  := by
  constructor
  · intro h
    apply h.of_path
    intro c b hcb
    apply single hcb.waits
  · intro h
    apply h.of_rank rank
    intro c b
    apply Waits.rank

/-! ### Runs of tasks without an annotation -/

variable (brief)

/-- The position of the task that heads the run of the task at position `k`: the nearest
one, from `k` backwards, that is annotated or first in its module. -/
def runHead (r m : ℕ) : ℕ → ℕ
  | 0 => 0
  | k + 1 => if (brief.refAt r m (k + 1)).hasExplicitDeps then k + 1 else runHead r m k

/-- The head of the run of an implementation task. -/
def headOf : Node → Node
  | .l3 r m k => .l3 r m (brief.runHead r m k)
  | c => c

/-- The annotation of `c` names a task of the run that `h` heads. -/
def RunWaits (c h : Node) : Prop :=
  c ∈ brief.nodes ∧ ∃ b ∈ brief.annotatedBlockers c, brief.headOf b = h

/-- The position of an implementation task in its module. -/
def implPosition : Node → ℕ
  | .l3 _ _ k => k
  | _ => 0

variable {brief}

/-- An annotated task heads its run. -/
theorem headOf_of_annotated {c b : Node} (h : b ∈ brief.annotatedBlockers c) :
  brief.headOf c = c
  := by
  obtain ⟨hissue, -, n, hn, -⟩ := mem_annotatedBlockers.mp h
  obtain ⟨r, m, k, rfl⟩ := exists_l3_of_issue hissue
  cases k with
  | zero => rfl
  | succ k =>
    have hexplicit : (brief.refAt r m (k + 1)).hasExplicitDeps = true := by
      have hdefault : brief.defaultBlockers (.l3 r m (k + 1)) = [.l2 r m] :=
        defaultBlockers_of_dependsOn hn
      rw [defaultBlockers] at hdefault
      by_contra hplain
      simp [hplain] at hdefault
    rw [headOf, runHead, if_pos hexplicit]

/-- A task waits for the head of its run, unless it is the head. -/
theorem reflPath_headOf {r m : ℕ} :
  ∀ {k : ℕ}, .l3 r m k ∈ brief.nodes →
    ReflTransGen brief.ImplWaits (.l3 r m k) (.l3 r m (brief.runHead r m k))
  | 0, _ => ReflTransGen.refl
  | k + 1, hc => by
      rw [runHead]
      split
      · apply ReflTransGen.refl
      · rename_i hplain
        have hprev : .l3 r m k ∈ brief.nodes := by
          obtain ⟨hr, hm, hk⟩ := brief.l3_mem_nodes.mp hc
          apply brief.l3_mem_nodes.mpr ⟨hr, hm, by omega⟩
        apply ReflTransGen.head (ImplWaits.previous hc (by simpa using hplain))
        apply reflPath_headOf hprev

/-- The implementation tasks wait for each other in a cycle when the annotations make runs
wait for each other in a cycle. -/
theorem acyclic_implWaits_iff :
  Graph.Acyclic brief.ImplWaits ↔ Graph.Acyclic brief.RunWaits
  := by
  constructor
  · intro h
    apply h.of_path
    rintro c _ ⟨hc, b, hb, rfl⟩
    obtain ⟨hbmem, r, m, k, rfl⟩ := annotatedBlocker_mem_nodes hb
    apply head' (ImplWaits.annotated hc hb)
    apply reflPath_headOf hbmem
  · intro h
    apply h.of_map brief.headOf implPosition
    intro c b hcb
    cases hcb with
    | annotated hc hb =>
      left
      rw [headOf_of_annotated hb]
      exact ⟨hc, b, hb, rfl⟩
    | previous hc hplain =>
      right
      simp [headOf, runHead, hplain, implPosition]

/-! ### Back to the tasks -/

variable {uuid : ℕ → String} {ts : String}

theorem planTask_injOn (hids : IdSupply uuid) {c d : Node} (hc : c ∈ brief.nodes)
    (h : brief.planTask uuid ts c = brief.planTask uuid ts d) :
  c = d
  := by
  apply idOf_injOn hids.injective hc
  simpa [planTask] using congrArg HmasTask.id h

/-- The blockers of the task at a listed place. -/
theorem blockedBy_plan (hids : IdSupply uuid) {c : Node} {b : HmasTask} :
  BlockedBy (brief.plan uuid ts) (brief.planTask uuid ts c) b
    ↔ ∃ d, brief.planTask uuid ts d = b ∧ brief.Waits c d
  := by
  constructor
  · rintro ⟨hc, hb, hid⟩
    obtain ⟨c', hc', heq⟩ := List.mem_map.mp hc
    obtain rfl := planTask_injOn hids hc' heq
    obtain ⟨d, hd, rfl⟩ := List.mem_map.mp hb
    rw [planTask, taskAt_id, taskAt_blockedBy, idOf_mem_map hids.injective hd] at hid
    exact ⟨d, rfl, hc', hid⟩
  · rintro ⟨d, rfl, hc, hd⟩
    have hdmem := blocker_mem_nodes hc hd
    use List.mem_map_of_mem hc, List.mem_map_of_mem hdmem
    rw [planTask, taskAt_id, taskAt_blockedBy, idOf_mem_map hids.injective hdmem]
    apply hd

/-- The paths of blockers from the task at a listed place. -/
theorem path_plan (hids : IdSupply uuid) {c d : Node} (hd : d ∈ brief.nodes) :
  TransGen (BlockedBy (brief.plan uuid ts)) (brief.planTask uuid ts c)
      (brief.planTask uuid ts d)
    ↔ TransGen brief.Waits c d
  := by
  constructor
  · intro h
    obtain ⟨d', heq, hpath⟩ := Graph.path_of_image
      (fun _ _ h => (blockedBy_plan hids).mp h) h
    rwa [planTask_injOn hids hd heq.symm]
  · intro h
    apply lift (brief.planTask uuid ts) _ _ _ h
    intro a b hab
    apply (blockedBy_plan hids).mpr ⟨b, rfl, hab⟩

theorem acyclic_plan (hids : IdSupply uuid) :
  Graph.Acyclic (BlockedBy (brief.plan uuid ts)) ↔ Graph.Acyclic brief.Waits
  := by
  constructor
  · intro h c hcc
    obtain ⟨-, ⟨hc, -⟩, -⟩ := head'_iff.mp hcc
    apply h _ ((path_plan hids hc).mpr hcc)
  · intro h t htt
    obtain ⟨-, ⟨ht, -⟩, -⟩ := head'_iff.mp htt
    obtain ⟨c, hc, rfl⟩ := List.mem_map.mp ht
    apply h c ((path_plan hids hc).mp htt)

end TaskBrief

/-! ### Cycles -/

/-- The blockers of a decomposition are acyclic exactly when the annotations, read as
edges from the annotated tasks to the heads of the runs of the tasks they name, are. -/
theorem decompose_acyclic_iff {uuid : ℕ → String} {ts : String} {brief : TaskBrief}
    {tasks : List HmasTask} (hids : IdSupply uuid) (h : decompose uuid ts brief = .ok tasks) :
  Graph.Acyclic (BlockedBy tasks) ↔ Graph.Acyclic brief.RunWaits
  := by
  obtain ⟨-, rfl⟩ := decompose_eq_ok hids h
  rw [acyclic_plan hids, acyclic_waits_iff,
    acyclic_implWaits_iff]

/-- A brief with a task that depends on the task behind it, which has no annotation. -/
def loopBrief : TaskBrief :=
  moduleBrief ["#1 (depends on: #2)", "#2"]

theorem loopBrief_decompose :
  decompose strokes "" loopBrief = .ok (loopBrief.plan strokes "")
  := decompose_of_numbersFit strokes_supply (by decide)

theorem decompose_acyclic_iff_loopBrief :
  IdSupply strokes ∧ decompose strokes "" loopBrief = .ok (loopBrief.plan strokes "")
    ∧ (Graph.Acyclic (BlockedBy (loopBrief.plan strokes ""))
      ↔ Graph.Acyclic loopBrief.RunWaits)
  := by
  use strokes_supply, loopBrief_decompose
  apply decompose_acyclic_iff strokes_supply loopBrief_decompose

/-- The first task of `loopBrief` names the second, and the second names none. -/
theorem explicitDep_loopBrief {d b : HmasTask} (h : ExplicitDep (loopBrief.plan strokes "") d b) :
  d.issue = 1 ∧ b.issue = 2
  := by
  have hall : ∀ d ∈ loopBrief.plan strokes "", d.layer = .l3TaskAgent →
      ∀ ref ∈ (ImplRef.parse d.subject.toList).toOption, ∀ n ∈ ref.dependsOn,
        ∀ b ∈ resolveIssue (loopBrief.plan strokes "") n, d.issue = 1 ∧ b.issue = 2
    := by decide +kernel
  obtain ⟨hd, hlayer, -, ref, hparse, n, hn, hresolve⟩ := h
  apply hall d hd hlayer ref _ n hn b hresolve
  rw [hparse]
  rfl

/-- The annotations of `loopBrief` are acyclic, but its blockers are not. -/
theorem loopBrief_cycle :
  IdSupply strokes ∧ ∃ tasks, decompose strokes "" loopBrief = .ok tasks
    ∧ Graph.Acyclic (ExplicitDep tasks) ∧ ¬ Graph.Acyclic (BlockedBy tasks)
  := by
  use strokes_supply, loopBrief.plan strokes "", loopBrief_decompose
  constructor
  · intro t htt
    obtain ⟨b, hb, -⟩ := head'_iff.mp htt
    obtain ⟨d, -, hd⟩ := tail'_iff.mp htt
    have hone := (explicitDep_loopBrief hb).1
    have htwo := (explicitDep_loopBrief hd).2
    omega
  · rw [acyclic_plan strokes_supply, acyclic_waits_iff,
      acyclic_implWaits_iff]
    intro h
    apply h (.l3 0 0 0)
    apply single
    use by decide
    use .l3 0 0 1
    decide

/-! ### Modules in a row -/

/-- Of two modules in a row in the child list of a repository, every implementation task
of the first is a transitive blocker of every implementation task of the second. -/
def ModulesSerialised (tasks : List HmasTask) : Prop :=
  ∀ p ∈ tasks, p.layer = .l1ComponentLead → ∀ a b, [a, b] <:+: p.childTaskIds →
    ∀ s ∈ tasks, s.layer = .l3TaskAgent → s.parentTaskId = a →
    ∀ t ∈ tasks, t.layer = .l3TaskAgent → t.parentTaskId = b →
      TransGen (BlockedBy tasks) t s

namespace TaskBrief

/-- Of two modules in a row, every implementation task of the second leads to every
implementation task of the first by annotations and by steps back from tasks without
one. -/
def ImplsSerialised (brief : TaskBrief) : Prop :=
  ∀ r m k k', .l3 r m k ∈ brief.nodes → .l3 r (m + 1) k' ∈ brief.nodes →
    TransGen brief.ImplWaits (.l3 r (m + 1) k') (.l3 r m k)

variable {brief : TaskBrief} {uuid : ℕ → String} {ts : String}

/-- The modules of a repository, in order. -/
theorem childrenOf_l1 {r : ℕ} (hr : r < brief.repos.length) :
  brief.childrenOf (.l1 r) = (List.range (brief.numModules r)).map (.l2 r)
  := by
  have hnone : ∀ y ∈ List.range brief.repos.length, y ≠ r →
      (brief.repoNodes y).filter (fun d => d.parent = some (.l1 r)) = [] := by
    intro y _ hy
    apply List.filter_eq_nil_iff.mpr
    intro d hd
    simp only [decide_eq_true_eq]
    intro h
    have hpos := Node.repoPosition_of_parent h rfl
    rw [brief.repoPosition_of_mem hd, Option.some.injEq] at hpos
    apply hy hpos
  have hmodule : ∀ m, (brief.moduleNodes r m).filter (fun d => d.parent = some (.l1 r))
      = [.l2 r m] := by
    intro m
    rw [moduleNodes, List.filter_cons_of_pos (by simp [Node.parent]), implNodes,
      List.filter_map]
    simp [Function.comp_def, Node.parent]
  rw [childrenOf, nodes, List.filter_cons_of_neg (by simp [Node.parent]), List.filter_flatMap,
    Lists.flatMap_of_single List.nodup_range (List.mem_range.mpr hr) hnone, repoNodes,
    List.filter_cons_of_neg (by simp [Node.parent]), List.filter_flatMap]
  simp only [hmodule]
  rw [List.map_eq_flatMap]

/-- Two modules in a row in the child list of a repository. -/
theorem pair_infix_l1 {r : ℕ} (hr : r < brief.repos.length) {a b : String} :
  [a, b] <:+: (brief.planTask uuid ts (.l1 r)).childTaskIds
    ↔ ∃ m, m + 1 < brief.numModules r
      ∧ a = brief.idOf uuid (.l2 r m) ∧ b = brief.idOf uuid (.l2 r (m + 1))
  := by
  rw [planTask_childTaskIds, dependentsOf_of_layer (by simp [Node.layer]), List.append_nil,
    childrenOf_l1 hr, List.map_map, Lists.pair_infix_map_range]
  rfl

/-- The implementation tasks of a module are the tasks that name it as parent. -/
theorem exists_l3_of_parentTaskId (hids : IdSupply uuid) {r m : ℕ}
    (hm : .l2 r m ∈ brief.nodes) {t : HmasTask} (ht : t ∈ brief.plan uuid ts)
    (hparent : t.parentTaskId = brief.idOf uuid (.l2 r m)) :
  ∃ k, .l3 r m k ∈ brief.nodes ∧ t = brief.planTask uuid ts (.l3 r m k)
  := by
  obtain ⟨d, hd, rfl⟩ := List.mem_map.mp ht
  rw [planTask, parentTaskId_eq_idOf hids hm] at hparent
  cases d with
  | l0 | l1 r | l2 r m => simp [Node.parent] at hparent
  | l3 r' m' k =>
    obtain ⟨rfl, rfl⟩ := Node.l2.inj (Option.some.inj hparent)
    exact ⟨k, hd, rfl⟩

end TaskBrief

/-- A decomposition serialises the modules of every repository exactly when the
annotations and the order of the implementation tasks do: the edges between the modules
themselves do not help. -/
theorem decompose_serialised_iff {uuid : ℕ → String} {ts : String} {brief : TaskBrief}
    {tasks : List HmasTask} (hids : IdSupply uuid) (h : decompose uuid ts brief = .ok tasks) :
  ModulesSerialised tasks ↔ brief.ImplsSerialised
  := by
  obtain ⟨-, rfl⟩ := decompose_eq_ok hids h
  constructor
  · intro hser r m k k' hk hk'
    obtain ⟨hr, hm, -⟩ := brief.l3_mem_nodes.mp hk
    obtain ⟨-, hm', -⟩ := brief.l3_mem_nodes.mp hk'
    apply path_iff_implPath.mp
    apply (path_plan hids hk).mp
    apply hser (brief.planTask uuid ts (.l1 r))
    · apply List.mem_map_of_mem (brief.l1_mem_nodes.mpr hr)
    · rfl
    · apply (pair_infix_l1 hr).mpr ⟨m, hm', rfl, rfl⟩
    · apply List.mem_map_of_mem hk
    · rfl
    · rfl
    · apply List.mem_map_of_mem hk'
    · rfl
    · rfl
  · intro hser p hp hlayer a b hab s hs _ hsa t ht _ htb
    obtain ⟨c, hc, rfl⟩ := List.mem_map.mp hp
    rw [planTask, taskAt_layer] at hlayer
    cases c with
    | l0 | l2 r m | l3 r m k => simp [Node.layer] at hlayer
    | l1 r =>
      have hr := brief.l1_mem_nodes.mp hc
      obtain ⟨m, hm, rfl, rfl⟩ := (pair_infix_l1 hr).mp hab
      obtain ⟨k, hk, rfl⟩ := exists_l3_of_parentTaskId hids
        (brief.l2_mem_nodes.mpr ⟨hr, by omega⟩) hs hsa
      obtain ⟨k', hk', rfl⟩ := exists_l3_of_parentTaskId hids
        (brief.l2_mem_nodes.mpr ⟨hr, hm⟩) ht htb
      apply (path_plan hids hk).mpr
      apply path_iff_implPath.mpr (hser r m k k' hk hk')

/-- A brief with two modules and the default implementation tasks. -/
def twoModuleBrief : TaskBrief where
  id := "b"
  title := "t"
  description := ""
  repos := ["r"]
  modules := Finmap.singleton "r" ["m", "n"]
  impls := ∅

theorem twoModuleBrief_decompose :
  decompose strokes "" twoModuleBrief = .ok (twoModuleBrief.plan strokes "")
  := decompose_of_numbersFit strokes_supply (by decide)

theorem decompose_serialised_iff_twoModuleBrief :
  IdSupply strokes
    ∧ decompose strokes "" twoModuleBrief = .ok (twoModuleBrief.plan strokes "")
    ∧ (ModulesSerialised (twoModuleBrief.plan strokes "")
      ↔ twoModuleBrief.ImplsSerialised)
  := by
  use strokes_supply, twoModuleBrief_decompose
  apply decompose_serialised_iff strokes_supply twoModuleBrief_decompose

/-- The implementation task of the second module of `twoModuleBrief` waits for its module
only. -/
theorem twoModuleBrief_parallel :
  IdSupply strokes ∧ ∃ tasks, decompose strokes "" twoModuleBrief = .ok tasks
    ∧ ¬ ModulesSerialised tasks
  := by
  use strokes_supply, twoModuleBrief.plan strokes "", twoModuleBrief_decompose
  intro hser
  have hpath := hser (twoModuleBrief.planTask strokes "" (.l1 0))
    (List.mem_map_of_mem (by decide)) rfl
    (twoModuleBrief.idOf strokes (.l2 0 0)) (twoModuleBrief.idOf strokes (.l2 0 1)) (by decide)
    (twoModuleBrief.planTask strokes "" (.l3 0 0 0)) (List.mem_map_of_mem (by decide)) rfl rfl
    (twoModuleBrief.planTask strokes "" (.l3 0 1 0)) (List.mem_map_of_mem (by decide)) rfl rfl
  rw [path_plan strokes_supply (by decide), path_iff_implPath] at hpath
  obtain ⟨b, hb, -⟩ := head'_iff.mp hpath
  cases hb with
  | annotated hc hb =>
    have hnone : twoModuleBrief.annotatedBlockers (.l3 0 1 0) = [] := by decide
    rw [hnone] at hb
    simp at hb

end Agamemnon
