import Agamemnon.Lib.Schedule
import Agamemnon.Plan.Order

/-!
# The network of a brief

The places of a brief with their blockers and the places they list as children form a
network.  A place is notified by the place above it and by the places its annotation
names, but not by the place before it in a chain: `Chained` places are the late ones.
-/

namespace Agamemnon

open Relation

namespace TaskBrief

variable (brief : TaskBrief)

/-- The blockers of a place, and the places it lists as children. -/
def network : Schedule.Net Node where
  blockers := brief.blockers
  watchers := fun c => brief.childrenOf c ++ brief.dependentsOf c

/-- The place is blocked by the place before it. -/
def Chained : Node → Prop
  | .l2 _ (_ + 1) => True
  | .l3 r m (k + 1) => (brief.refAt r m (k + 1)).hasExplicitDeps = false
  | _ => False

variable {brief}

variable {a c : Node}

theorem mem_watchers :
  c ∈ brief.network.watchers a
    ↔ c ∈ brief.nodes ∧ (c.parent = some a ∨ a ∈ brief.annotatedBlockers c)
  := by
  simp only [network, childrenOf, dependentsOf, List.mem_append, List.mem_filter,
    decide_eq_true_eq]
  tauto

/-- The place above is a blocker. -/
theorem parent_mem_blockers (h : c.parent = some a) :
  a ∈ brief.blockers c
  := by
  apply List.mem_append_left
  cases c with
  | l0 => simp [Node.parent] at h
  | l1 r =>
    obtain rfl := Option.some.inj h
    apply List.mem_singleton_self
  | l2 r m =>
    obtain rfl := Option.some.inj h
    cases m with
    | zero => apply List.mem_singleton_self
    | succ m => apply List.mem_cons_self
  | l3 r m k =>
    obtain rfl := Option.some.inj h
    cases k with
    | zero => apply List.mem_singleton_self
    | succ k =>
      rw [defaultBlockers]
      split
      · apply List.mem_singleton_self
      · apply List.mem_cons_self

/-- A place that is not chained has no blockers but the place above and the places its
annotation names. -/
theorem mem_blockers_of_not_chained (hc : ¬ brief.Chained c) (ha : a ∈ brief.blockers c) :
  c.parent = some a ∨ a ∈ brief.annotatedBlockers c
  := by
  rcases List.mem_append.mp ha with ha | ha
  · left
    cases c with
    | l0 => simp [defaultBlockers] at ha
    | l1 r =>
      obtain rfl := List.mem_singleton.mp ha
      rfl
    | l2 r m =>
      cases m with
      | zero =>
        obtain rfl := List.mem_singleton.mp ha
        rfl
      | succ m => exact absurd trivial hc
    | l3 r m k =>
      cases k with
      | zero =>
        obtain rfl := List.mem_singleton.mp ha
        rfl
      | succ k =>
        rw [defaultBlockers, if_pos (by simpa [Chained] using hc)] at ha
        obtain rfl := List.mem_singleton.mp ha
        rfl
  · right
    apply ha

/-- A chained place is not annotated. -/
theorem annotatedBlockers_of_chained (hc : brief.Chained c) :
  brief.annotatedBlockers c = []
  := by
  apply List.eq_nil_iff_forall_not_mem.mpr
  intro b hb
  obtain ⟨hissue, -, n, hn, -⟩ := mem_annotatedBlockers.mp hb
  obtain ⟨r, m, k, rfl⟩ := exists_l3_of_issue hissue
  cases k with
  | zero => apply hc
  | succ k =>
    have hdefault := defaultBlockers_of_dependsOn hn
    rw [defaultBlockers, if_neg (by simpa [Chained] using hc)] at hdefault
    simp at hdefault

/-- A chained place has a blocker beside it that does not list it. -/
theorem exists_previous (hc : brief.Chained c) :
  ∃ y ∈ brief.blockers c, c.parent ≠ some y ∧ y.parent = c.parent
  := by
  cases c with
  | l0 | l1 r => exact absurd hc (by simp [Chained])
  | l2 r m =>
    cases m with
    | zero => exact absurd hc (by simp [Chained])
    | succ m =>
      use .l2 r m
      simp [blockers, defaultBlockers, Node.parent]
  | l3 r m k =>
    cases k with
    | zero => exact absurd hc (by simp [Chained])
    | succ k =>
      use .l3 r m k
      rw [Chained] at hc
      simp [blockers, defaultBlockers, Node.parent, hc]

theorem late_of_chained (hc : brief.Chained c) :
  brief.network.Late c
  := by
  obtain ⟨y, hy, hparent, hsame⟩ := exists_previous hc
  use y, hy
  constructor
  · intro h
    rcases (mem_watchers.mp h).2 with h | h
    · apply hparent h
    · rw [annotatedBlockers_of_chained hc] at h
      contradiction
  · intro x hx
    rcases (mem_watchers.mp hx).2 with h | h
    · apply parent_mem_blockers
      rw [hsame, h]
    · rw [annotatedBlockers_of_chained hc] at h
      contradiction

theorem clean_of_not_chained (hmem : c ∈ brief.nodes) (hc : ¬ brief.Chained c) :
  brief.network.Clean c
  := by
  intro x hx
  apply mem_watchers.mpr ⟨hmem, mem_blockers_of_not_chained hc hx⟩

theorem not_clean_of_chained (hc : brief.Chained c) :
  ¬ brief.network.Clean c
  := by
  intro hclean
  obtain ⟨y, hy, hquiet, -⟩ := late_of_chained hc
  apply hquiet (hclean y hy)

theorem network_rooted :
  brief.network.Rooted .l0
  where
  root := rfl
  blocked := by
    intro a c h
    rcases (mem_watchers.mp h).2 with h | h
    · apply parent_mem_blockers h
    · apply List.mem_append_right _ h
  dichotomy := by
    intro a c h
    by_cases hc : brief.Chained c
    · right
      apply late_of_chained hc
    · left
      apply clean_of_not_chained (mem_watchers.mp h).1 hc

/-! ### Briefs without chains -/

/-- The implementation task is annotated. -/
def annotated (implDesc : String) : Bool :=
  match ImplRef.parse implDesc.toList with
  | .ok ref => ref.hasExplicitDeps
  | .error _ => false

variable (brief)

/-- No repository has two modules, and all implementation tasks but the first of their
module are annotated. -/
def Unchained : Prop :=
  ∀ repo ∈ brief.repos, (brief.modulesOf repo).length ≤ 1
    ∧ ∀ mod ∈ brief.modulesOf repo, ∀ implDesc ∈ (brief.implsOf repo mod).tail,
        annotated implDesc = true

instance : Decidable brief.Unchained :=
  inferInstanceAs (Decidable (∀ repo ∈ brief.repos, (brief.modulesOf repo).length ≤ 1
    ∧ ∀ mod ∈ brief.modulesOf repo, ∀ implDesc ∈ (brief.implsOf repo mod).tail,
        annotated implDesc = true))

/-- The issue `n` of an implementation task is annotated with the issue `n'`. -/
def IssueWaits (n n' : ℤ) : Prop :=
  n ≠ 0 ∧ n' ≠ 0 ∧ ∃ repo ∈ brief.repos, ∃ mod ∈ brief.modulesOf repo,
    ∃ implDesc ∈ brief.implsOf repo mod, ∃ ref, ImplRef.parse implDesc.toList = .ok ref
      ∧ ref.issue = n ∧ n' ∈ ref.dependsOn

variable {brief}

theorem exists_repoAt {repo : String} (h : repo ∈ brief.repos) :
  ∃ r < brief.repos.length, brief.repoAt r = repo
  := by
  obtain ⟨r, hr, rfl⟩ := List.mem_iff_getElem.mp h
  use r, hr
  simp [repoAt, hr]

variable {r : ℕ}

theorem exists_moduleAt {mod : String} (h : mod ∈ brief.modulesOf (brief.repoAt r)) :
  ∃ m < brief.numModules r, brief.moduleAt r m = mod
  := by
  obtain ⟨m, hm, rfl⟩ := List.mem_iff_getElem.mp h
  use m, hm
  simp [moduleAt, hm]

variable {m : ℕ}

theorem annotated_implAt (hfit : brief.NumbersFit) {k : ℕ} (h : .l3 r m k ∈ brief.nodes) :
  annotated (brief.implAt r m k) = (brief.refAt r m k).hasExplicitDeps
  := by
  rw [annotated, brief.parse_implAt hfit h]

/-- The implementation tasks but the first of a module. -/
theorem mem_tail_implsOf {implDesc : String} :
  implDesc ∈ (brief.implsOf (brief.repoAt r) (brief.moduleAt r m)).tail
    ↔ ∃ k, k + 1 < brief.numImpls r m ∧ brief.implAt r m (k + 1) = implDesc
  := by
  rw [List.mem_iff_getElem]
  constructor
  · rintro ⟨k, hk, rfl⟩
    rw [List.length_tail] at hk
    use k
    constructor
    · rw [numImpls]
      omega
    · rw [implAt, List.getElem_tail, List.getElem?_eq_getElem]
      rfl
  · rintro ⟨k, hk, rfl⟩
    rw [numImpls] at hk
    have hk' : k < (brief.implsOf (brief.repoAt r) (brief.moduleAt r m)).tail.length := by
      rw [List.length_tail]
      omega
    use k, hk'
    rw [implAt, List.getElem_tail, List.getElem?_eq_getElem hk]
    rfl

/-- A brief is unchained when none of its places is chained. -/
theorem unchained_iff (hfit : brief.NumbersFit) :
  brief.Unchained ↔ ∀ c ∈ brief.nodes, ¬ brief.Chained c
  := by
  constructor
  · intro h c hc hchained
    cases c with
    | l0 => apply hchained
    | l1 r => apply hchained
    | l2 r m =>
      obtain ⟨hr, hm⟩ := brief.l2_mem_nodes.mp hc
      have hone := (h _ (brief.repoAt_mem hr)).1
      cases m with
      | zero => apply hchained
      | succ m =>
        rw [numModules] at hm
        omega
    | l3 r m k =>
      obtain ⟨hr, hm, hk⟩ := brief.l3_mem_nodes.mp hc
      cases k with
      | zero => apply hchained
      | succ k =>
        have hannotated := (h _ (brief.repoAt_mem hr)).2 _ (brief.moduleAt_mem hm) _
          (mem_tail_implsOf.mpr ⟨k, hk, rfl⟩)
        rw [annotated_implAt hfit hc] at hannotated
        rw [Chained, hannotated] at hchained
        contradiction
  · intro h repo hrepo
    obtain ⟨r, hr, rfl⟩ := exists_repoAt hrepo
    constructor
    · by_contra hmany
      apply h (.l2 r 1) _ trivial
      apply brief.l2_mem_nodes.mpr ⟨hr, _⟩
      rw [numModules]
      omega
    · intro mod hmod implDesc himpl
      obtain ⟨m, hm, rfl⟩ := exists_moduleAt hmod
      obtain ⟨k, hk, rfl⟩ := mem_tail_implsOf.mp himpl
      have hc : .l3 r m (k + 1) ∈ brief.nodes := brief.l3_mem_nodes.mpr ⟨hr, hm, hk⟩
      rw [annotated_implAt hfit hc]
      have hplain := h _ hc
      rw [Chained] at hplain
      simpa using hplain

/-- An annotation that is resolved is one between issues. -/
theorem issueWaits_of_annotated {b : Node} (hc : c ∈ brief.nodes)
    (h : b ∈ brief.annotatedBlockers c) :
  brief.IssueWaits (brief.refOf c).issue (brief.refOf b).issue
  := by
  obtain ⟨hissue, -, n, hn, hresolve⟩ := mem_annotatedBlockers.mp h
  obtain ⟨-, rfl, hne⟩ := resolve_eq_some hresolve
  obtain ⟨r, m, k, rfl⟩ := exists_l3_of_issue hissue
  obtain ⟨hr, hm, hk⟩ := brief.l3_mem_nodes.mp hc
  use hissue, hne
  use brief.repoAt r, brief.repoAt_mem hr, brief.moduleAt r m, brief.moduleAt_mem hm
  use brief.implAt r m k, brief.implAt_mem hk, brief.refAt r m k
  constructor
  · rw [refOf, refAt] at hissue
    rw [refAt]
    cases hparse : ImplRef.parse (brief.implAt r m k).toList with
    | error e => simp [hparse, Except.toOption] at hissue
    | ok ref => rfl
  · exact ⟨rfl, hn⟩

/-- Issues that are annotated with smaller ones do not depend on each other in a cycle. -/
theorem acyclic_issueWaits
    (h : ∀ repo ∈ brief.repos, ∀ mod ∈ brief.modulesOf repo,
      ∀ implDesc ∈ brief.implsOf repo mod, ∀ ref ∈ (ImplRef.parse implDesc.toList).toOption,
        ∀ n ∈ ref.dependsOn, n < ref.issue) :
  Graph.Acyclic brief.IssueWaits
  := by
  have hnone : Graph.Acyclic fun _ _ : ℤ => False := by
    intro n hn
    obtain ⟨_, hfalse, -⟩ := TransGen.head'_iff.mp hn
    apply hfalse
  apply hnone.of_rank fun n => n
  rintro _ n ⟨-, -, repo, hrepo, mod, hmod, implDesc, himpl, ref, hparse, rfl, hn⟩
  left
  apply h repo hrepo mod hmod implDesc himpl ref _ n hn
  rw [hparse]
  rfl

/-- Without chains, the blockers are acyclic if the issues are. -/
theorem acyclic_waits_of_unchained (hchained : ∀ c ∈ brief.nodes, ¬ brief.Chained c)
    (hissues : Graph.Acyclic brief.IssueWaits) :
  Graph.Acyclic brief.Waits
  := by
  apply acyclic_waits_iff.mpr
  apply hissues.of_map (fun c => (brief.refOf c).issue) fun _ => 0
  intro c b h
  left
  cases h with
  | annotated hc hb => apply issueWaits_of_annotated hc hb
  | previous hc hplain => apply absurd hplain (hchained _ hc)

/-- Without chains, every place is reached if nothing fails. -/
theorem runs_of_unchained (hchained : ∀ c ∈ brief.nodes, ¬ brief.Chained c)
    (hissues : Graph.Acyclic brief.IssueWaits) :
  ∀ c ∈ brief.nodes, brief.network.Runs (fun _ => true) .l0 c
  := by
  refine (acyclic_waits_of_unchained hchained hissues).induction
    (P := brief.network.Runs (fun _ => true) .l0) ?_
  intro c hc ih
  cases hparent : c.parent with
  | none =>
    cases c with
    | l0 => apply Schedule.Net.Runs.root
    | l1 r | l2 r m | l3 r m k => simp [Node.parent] at hparent
  | some p =>
    apply Schedule.Net.Runs.step (clean_of_not_chained hc (hchained c hc))
    · apply List.ne_nil_of_mem (parent_mem_blockers hparent)
    · intro x hx
      apply ih x (blocker_mem_nodes hc hx) ⟨hc, hx⟩
    · intro x _
      rfl

/-- A chained place is not reached. -/
theorem not_runs_of_chained {ok : Node → Bool} (hc : brief.Chained c) :
  ¬ brief.network.Runs ok .l0 c
  := by
  intro h
  cases h with
  | root => apply hc
  | step clean => apply not_clean_of_chained hc clean

end TaskBrief

end Agamemnon
