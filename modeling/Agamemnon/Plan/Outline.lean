import Agamemnon.Lib.Lists
import Agamemnon.Plan.Breakdown
import Mathlib.Data.List.Nodup
import Mathlib.Data.List.Range

/-!
# The outline of a brief

A brief describes a tree of depth three: the root, the repositories, the modules of a
repository, the implementation tasks of a module.  `Node` names the places of that tree
by their positions, `TaskBrief.nodes` lists them in the order in which the breakdown
visits them, and `Blocks` is the dependency the breakdown is to install between them.
Nothing here mentions identifiers or the list of tasks.
-/

namespace Agamemnon

/-- A place in the tree a brief describes. -/
inductive Node where
  | l0
  | l1 (r : ℕ)
  | l2 (r m : ℕ)
  | l3 (r m k : ℕ)
deriving DecidableEq, Repr

namespace Node

/-- The layer of a place. -/
def layer : Node → HmasLayer
  | l0 => .l0ChiefArchitect
  | l1 _ => .l1ComponentLead
  | l2 _ _ => .l2ModuleLead
  | l3 _ _ _ => .l3TaskAgent

/-- The place above. -/
def parent : Node → Option Node
  | l0 => none
  | l1 _ => some l0
  | l2 r _ => some (l1 r)
  | l3 r m _ => some (l2 r m)

/-- The position of the repository a place belongs to. -/
def repoPosition : Node → Option ℕ
  | l0 => none
  | l1 r => some r
  | l2 r _ => some r
  | l3 r _ _ => some r

/-- The position of the module a place belongs to. -/
def modulePosition : Node → Option ℕ
  | l0 => none
  | l1 _ => none
  | l2 _ m => some m
  | l3 _ m _ => some m

variable {c p : Node}

/-- The layer of the place above is the layer just before. -/
theorem layer_parent (h : c.parent = some p) :
  c.layer.toNat = p.layer.toNat + 1
  := by
  cases c with
  | l0 => simp [parent] at h
  | l1 r | l2 r m | l3 r m k => obtain rfl := Option.some.inj h; rfl

theorem parent_ne_self (c : Node) :
  c.parent ≠ some c
  := by
  intro h
  have := layer_parent h
  omega

theorem parent_ne_l3 (c : Node) (r m k : ℕ) :
  c.parent ≠ some (l3 r m k)
  := by
  cases c <;> simp [parent]

theorem repoPosition_of_parent {r : ℕ} (h : c.parent = some p) (hp : p.repoPosition = some r) :
  c.repoPosition = some r
  := by
  cases c <;> simp [parent] at h <;> subst h <;> simp_all [repoPosition]

theorem modulePosition_of_parent {m : ℕ} (h : c.parent = some p) (hp : p.modulePosition = some m) :
  c.modulePosition = some m
  := by
  cases c <;> simp [parent] at h <;> subst h <;> simp_all [modulePosition]

end Node

namespace TaskBrief

variable (brief : TaskBrief)

/-! ### What stands at a place -/

/-- The repository at position `r`. -/
def repoAt (r : ℕ) : String :=
  brief.repos[r]?.getD ""

/-- The module at position `m` of the repository at position `r`. -/
def moduleAt (r m : ℕ) : String :=
  (brief.modulesOf (brief.repoAt r))[m]?.getD ""

/-- The implementation task at position `k` of a module. -/
def implAt (r m k : ℕ) : String :=
  (brief.implsOf (brief.repoAt r) (brief.moduleAt r m))[k]?.getD ""

/-- The number of modules of the repository at position `r`. -/
def numModules (r : ℕ) : ℕ :=
  (brief.modulesOf (brief.repoAt r)).length

/-- The number of implementation tasks of a module. -/
def numImpls (r m : ℕ) : ℕ :=
  (brief.implsOf (brief.repoAt r) (brief.moduleAt r m)).length

/-- The issue reference of an implementation task; the empty one where it does not
parse. -/
def refAt (r m k : ℕ) : ImplRef :=
  (ImplRef.parse (brief.implAt r m k).toList).toOption.getD {}

theorem numModules_pos (r : ℕ) :
  0 < brief.numModules r
  := by
  rw [numModules, modulesOf]
  split
  · simp
  · rename_i h
    apply List.length_pos_iff.mpr h

theorem numImpls_pos (r m : ℕ) :
  0 < brief.numImpls r m
  := by
  rw [numImpls, implsOf]
  split
  · simp
  · rename_i h
    apply List.length_pos_iff.mpr h

/-- Every issue number in the implementation tasks fits an `int`. -/
def NumbersFit : Prop :=
  ∀ repo ∈ brief.repos, ∀ mod ∈ brief.modulesOf repo, ∀ implDesc ∈ brief.implsOf repo mod,
    ImplRef.NumbersFit implDesc.toList

instance : Decidable brief.NumbersFit :=
  inferInstanceAs (Decidable (∀ repo ∈ brief.repos, ∀ mod ∈ brief.modulesOf repo,
    ∀ implDesc ∈ brief.implsOf repo mod, ImplRef.NumbersFit implDesc.toList))

/-! ### The places in order -/

/-- The places of a module below the module itself. -/
def implNodes (r m : ℕ) : List Node :=
  (List.range (brief.numImpls r m)).map (.l3 r m)

/-- A module with its implementation tasks. -/
def moduleNodes (r m : ℕ) : List Node :=
  .l2 r m :: brief.implNodes r m

/-- A repository with its modules. -/
def repoNodes (r : ℕ) : List Node :=
  .l1 r :: (List.range (brief.numModules r)).flatMap (brief.moduleNodes r)

/-- All places, in the order in which the breakdown visits them. -/
def nodes : List Node :=
  .l0 :: (List.range brief.repos.length).flatMap brief.repoNodes

/-- The places visited before the repository at position `r`. -/
def beforeRepo (r : ℕ) : List Node :=
  .l0 :: (List.range r).flatMap brief.repoNodes

/-- The places visited before a module. -/
def beforeModule (r m : ℕ) : List Node :=
  brief.beforeRepo r ++ .l1 r :: (List.range m).flatMap (brief.moduleNodes r)

/-- The places visited before an implementation task. -/
def beforeImpl (r m k : ℕ) : List Node :=
  brief.beforeModule r m ++ .l2 r m :: (List.range k).map (.l3 r m)

theorem beforeRepo_succ (r : ℕ) :
  brief.beforeRepo (r + 1) = brief.beforeModule r (brief.numModules r)
  := by
  simp [beforeRepo, beforeModule, repoNodes, List.range_succ]

theorem beforeModule_succ (r m : ℕ) :
  brief.beforeModule r (m + 1) = brief.beforeImpl r m (brief.numImpls r m)
  := by
  simp [beforeModule, beforeImpl, moduleNodes, implNodes, List.range_succ]

theorem beforeImpl_succ (r m k : ℕ) :
  brief.beforeImpl r m (k + 1) = brief.beforeImpl r m k ++ [.l3 r m k]
  := by
  simp [beforeImpl, List.range_succ]

/-! ### Membership -/

theorem l0_mem_nodes :
  .l0 ∈ brief.nodes
  := by
  simp [nodes]

variable {r : ℕ}

theorem l1_mem_nodes :
  .l1 r ∈ brief.nodes ↔ r < brief.repos.length
  := by
  simp [nodes, repoNodes, moduleNodes, implNodes]

variable {m : ℕ}

theorem l2_mem_nodes :
  .l2 r m ∈ brief.nodes ↔ r < brief.repos.length ∧ m < brief.numModules r
  := by
  simp only [nodes, repoNodes, moduleNodes, implNodes, List.mem_cons, List.mem_flatMap,
    List.mem_range, List.mem_map, reduceCtorEq, false_or, Node.l2.injEq, and_false,
    exists_false, or_false]
  constructor
  · rintro ⟨_, hr, _, hm, rfl, rfl⟩
    exact ⟨hr, hm⟩
  · rintro ⟨hr, hm⟩
    exact ⟨r, hr, m, hm, rfl, rfl⟩

variable {k : ℕ}

theorem l3_mem_nodes :
  .l3 r m k ∈ brief.nodes
    ↔ r < brief.repos.length ∧ m < brief.numModules r ∧ k < brief.numImpls r m
  := by
  simp only [nodes, repoNodes, moduleNodes, implNodes, List.mem_cons, List.mem_flatMap,
    List.mem_range, List.mem_map, reduceCtorEq, false_or, Node.l3.injEq]
  constructor
  · rintro ⟨_, hr, _, hm, _, hk, rfl, rfl, rfl⟩
    exact ⟨hr, hm, hk⟩
  · rintro ⟨hr, hm, hk⟩
    exact ⟨r, hr, m, hm, k, hk, rfl, rfl, rfl⟩

variable {c : Node}

/-- With a place, the place above it is listed. -/
theorem parent_mem_nodes {p : Node} (hc : c ∈ brief.nodes) (h : c.parent = some p) :
  p ∈ brief.nodes
  := by
  cases c with
  | l0 => simp [Node.parent] at h
  | l1 r =>
      obtain rfl := Option.some.inj h
      apply l0_mem_nodes
  | l2 r m =>
      obtain rfl := Option.some.inj h
      apply brief.l1_mem_nodes.mpr (brief.l2_mem_nodes.mp hc).1
  | l3 r m k =>
      obtain rfl := Option.some.inj h
      obtain ⟨hr, hm, -⟩ := brief.l3_mem_nodes.mp hc
      apply brief.l2_mem_nodes.mpr ⟨hr, hm⟩

theorem repoPosition_of_mem (h : c ∈ brief.repoNodes r) :
  c.repoPosition = some r
  := by
  simp only [repoNodes, moduleNodes, implNodes, List.mem_cons, List.mem_flatMap,
    List.mem_map] at h
  obtain rfl | ⟨m, -, rfl | ⟨k, -, rfl⟩⟩ := h <;> rfl

theorem modulePosition_of_mem (h : c ∈ brief.moduleNodes r m) :
  c.modulePosition = some m
  := by
  simp only [moduleNodes, implNodes, List.mem_cons, List.mem_map] at h
  obtain rfl | ⟨k, -, rfl⟩ := h <;> rfl

theorem nodup_moduleNodes (r m : ℕ) :
  (brief.moduleNodes r m).Nodup
  := by
  apply List.nodup_cons.mpr
  constructor
  · simp [implNodes]
  · apply List.Nodup.map _ List.nodup_range
    intro a b h
    apply (Node.l3.inj h).2.2

theorem nodup_repoNodes (r : ℕ) :
  (brief.repoNodes r).Nodup
  := by
  apply List.nodup_cons.mpr
  constructor
  · simp [moduleNodes, implNodes]
  · apply List.nodup_flatMap.mpr
    constructor
    · intro m _
      apply nodup_moduleNodes
    · apply List.nodup_range.imp
      intro a b hab
      apply List.disjoint_left.mpr
      intro c ha hb
      apply hab
      apply Option.some.inj
      rw [← brief.modulePosition_of_mem ha, brief.modulePosition_of_mem hb]

/-- No place is listed twice. -/
theorem nodup_nodes :
  brief.nodes.Nodup
  := by
  apply List.nodup_cons.mpr
  constructor
  · simp [repoNodes, moduleNodes, implNodes]
  · apply List.nodup_flatMap.mpr
    constructor
    · intro r _
      apply nodup_repoNodes
    · apply List.nodup_range.imp
      intro a b hab
      apply List.disjoint_left.mpr
      intro c ha hb
      apply hab
      apply Option.some.inj
      rw [← brief.repoPosition_of_mem ha, brief.repoPosition_of_mem hb]

/-! What stands at a listed place is an entry of the brief. -/

theorem repoAt_mem (hr : r < brief.repos.length) :
  brief.repoAt r ∈ brief.repos
  := by
  simp [repoAt, hr]

theorem moduleAt_mem (hm : m < brief.numModules r) :
  brief.moduleAt r m ∈ brief.modulesOf (brief.repoAt r)
  := by
  rw [numModules] at hm
  simp [moduleAt, hm]

theorem implAt_mem (hk : k < brief.numImpls r m) :
  brief.implAt r m k ∈ brief.implsOf (brief.repoAt r) (brief.moduleAt r m)
  := by
  rw [numImpls] at hk
  simp [implAt, hk]

/-- Where the issue numbers fit, a listed implementation task parses. -/
theorem parse_implAt (h : brief.NumbersFit) (hc : .l3 r m k ∈ brief.nodes) :
  ImplRef.parse (brief.implAt r m k).toList = .ok (brief.refAt r m k)
  := by
  obtain ⟨hr, hm, hk⟩ := brief.l3_mem_nodes.mp hc
  have hfit := h _ (brief.repoAt_mem hr) _ (brief.moduleAt_mem hm) _ (brief.implAt_mem hk)
  rw [refAt]
  cases hparse : ImplRef.parse (brief.implAt r m k).toList with
  | error e =>
    rw [← ImplRef.parse_isOk, hparse] at hfit
    simp [Except.isOk, Except.toBool] at hfit
  | ok ref => rfl

/-! ### Positions in the order -/

theorem beforeRepo_isPrefix (h : r ≤ brief.repos.length) :
  brief.beforeRepo r <+: brief.nodes
  := by
  obtain ⟨n, hn⟩ := Nat.exists_eq_add_of_le h
  rw [nodes, hn, List.range_add, List.flatMap_append]
  exact ⟨_, rfl⟩

theorem beforeModule_isPrefix (h : m ≤ brief.numModules r) :
  brief.beforeModule r m <+: brief.beforeRepo (r + 1)
  := by
  obtain ⟨n, hn⟩ := Nat.exists_eq_add_of_le h
  rw [beforeRepo_succ, hn, beforeModule, beforeModule, List.range_add, List.flatMap_append]
  use ((List.range n).map (m + ·)).flatMap (brief.moduleNodes r)
  simp

theorem beforeImpl_isPrefix (h : k ≤ brief.numImpls r m) :
  brief.beforeImpl r m k <+: brief.beforeModule r (m + 1)
  := by
  obtain ⟨n, hn⟩ := Nat.exists_eq_add_of_le h
  rw [beforeModule_succ, hn, beforeImpl, beforeImpl, List.range_add, List.map_append]
  use ((List.range n).map (k + ·)).map (.l3 r m)
  simp

/-! ### Dependencies -/

/-- The issue reference of a place; only implementation tasks have one. -/
def refOf : Node → ImplRef
  | .l3 r m k => brief.refAt r m k
  | _ => {}

/-- The place a number in an annotation stands for: the first implementation task with
that issue. -/
def resolve (n : ℤ) : Option Node :=
  if n = 0 then none else brief.nodes.find? fun c => (brief.refOf c).issue = n

/-- The places a place is blocked by without any annotation: the place above, and the
place before it among the modules of a repository and among the implementation tasks of
a module, unless the task is annotated. -/
def defaultBlockers : Node → List Node
  | .l0 => []
  | .l1 _ => [.l0]
  | .l2 r 0 => [.l1 r]
  | .l2 r (m + 1) => [.l1 r, .l2 r m]
  | .l3 r m 0 => [.l2 r m]
  | .l3 r m (k + 1) =>
      if (brief.refAt r m (k + 1)).hasExplicitDeps then [.l2 r m] else [.l2 r m, .l3 r m k]

/-- The places an annotation names as blockers, each once; a task does not block
itself. -/
def annotatedBlockers (c : Node) : List Node :=
  if (brief.refOf c).issue = 0 then []
  else Lists.firsts (((brief.refOf c).dependsOn.filterMap brief.resolve).filter (· ≠ c))

/-- All places a place is blocked by. -/
def blockers (c : Node) : List Node :=
  brief.defaultBlockers c ++ brief.annotatedBlockers c

/-- The places below a place, in order. -/
def childrenOf (c : Node) : List Node :=
  brief.nodes.filter fun d => d.parent = some c

/-- The places an annotation makes wait for a place, in order. -/
def dependentsOf (c : Node) : List Node :=
  brief.nodes.filter fun d => c ∈ brief.annotatedBlockers d

variable {brief}

variable {b : Node}

theorem mem_annotatedBlockers :
  b ∈ brief.annotatedBlockers c
    ↔ (brief.refOf c).issue ≠ 0 ∧ b ≠ c
      ∧ ∃ n ∈ (brief.refOf c).dependsOn, brief.resolve n = some b
  := by
  rw [annotatedBlockers]
  split
  · simp_all
  · simp_all
    tauto

variable {n : ℤ}

theorem resolve_eq_some (h : brief.resolve n = some b) :
  b ∈ brief.nodes ∧ (brief.refOf b).issue = n ∧ n ≠ 0
  := by
  rw [resolve] at h
  split at h
  · simp at h
  · rename_i hn
    use List.mem_of_find?_eq_some h
    use by simpa using List.find?_some h

/-- A place with an issue is an implementation task. -/
theorem exists_l3_of_issue (h : (brief.refOf c).issue ≠ 0) :
  ∃ r m k, c = .l3 r m k
  := by
  cases c with
  | l0 | l1 r | l2 r m => simp [refOf] at h
  | l3 r m k => exact ⟨r, m, k, rfl⟩

/-- An annotated blocker is an implementation task that is listed. -/
theorem annotatedBlocker_mem_nodes (h : b ∈ brief.annotatedBlockers c) :
  b ∈ brief.nodes ∧ ∃ r m k, b = .l3 r m k
  := by
  obtain ⟨-, -, n, -, hn⟩ := mem_annotatedBlockers.mp h
  obtain ⟨hb, hissue, hne⟩ := resolve_eq_some hn
  use hb
  apply exists_l3_of_issue (hissue ▸ hne)

/-- An implementation task with numbers in its annotation is blocked, by default, by its
module only. -/
theorem defaultBlockers_of_dependsOn (h : n ∈ (brief.refAt r m k).dependsOn) :
  brief.defaultBlockers (.l3 r m k) = [.l2 r m]
  := by
  cases k with
  | zero => rfl
  | succ k =>
    have hexplicit : (brief.refAt r m (k + 1)).hasExplicitDeps = true := by
      rw [refAt] at h ⊢
      cases hparse : ImplRef.parse (brief.implAt r m (k + 1)).toList with
      | error e => simp [hparse, Except.toOption] at h
      | ok ref =>
        rw [hparse] at h
        apply ImplRef.hasExplicitDeps_of_dependsOn hparse h
    rw [defaultBlockers, if_pos hexplicit]

/-- The blockers of a listed place are listed. -/
theorem blocker_mem_nodes (hc : c ∈ brief.nodes) (h : b ∈ brief.blockers c) :
  b ∈ brief.nodes
  := by
  obtain h | h := List.mem_append.mp h
  · cases c with
    | l0 => simp [defaultBlockers] at h
    | l1 r =>
      obtain rfl := List.mem_singleton.mp h
      apply l0_mem_nodes
    | l2 r m =>
      obtain ⟨hr, hm⟩ := brief.l2_mem_nodes.mp hc
      cases m with
      | zero =>
        obtain rfl := List.mem_singleton.mp h
        apply brief.l1_mem_nodes.mpr hr
      | succ m =>
        simp only [defaultBlockers, List.mem_cons, List.not_mem_nil, or_false] at h
        obtain rfl | rfl := h
        · apply brief.l1_mem_nodes.mpr hr
        · apply brief.l2_mem_nodes.mpr ⟨hr, by omega⟩
    | l3 r m k =>
      obtain ⟨hr, hm, hk⟩ := brief.l3_mem_nodes.mp hc
      cases k with
      | zero =>
        obtain rfl := List.mem_singleton.mp h
        apply brief.l2_mem_nodes.mpr ⟨hr, hm⟩
      | succ k =>
        rw [defaultBlockers] at h
        split at h
        · obtain rfl := List.mem_singleton.mp h
          apply brief.l2_mem_nodes.mpr ⟨hr, hm⟩
        · simp only [List.mem_cons, List.not_mem_nil, or_false] at h
          obtain rfl | rfl := h
          · apply brief.l2_mem_nodes.mpr ⟨hr, hm⟩
          · apply brief.l3_mem_nodes.mpr ⟨hr, hm, by omega⟩
  · apply (annotatedBlocker_mem_nodes h).1

end TaskBrief

end Agamemnon
