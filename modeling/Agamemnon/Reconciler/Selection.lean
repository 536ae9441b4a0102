import Agamemnon.Lib.Lists
import Agamemnon.Reconciler.Apply

/-!
# The files that a run selects

The loops of the script stop early: at a file that cannot be read, at a member of a fleet that
cannot be resolved.  Here it is said of each file of the repository whether the options select it
(`Selected`), and proved that the loops print these files and no others (`mem_yamlFiles`).
-/

namespace Agamemnon.Reconciler

open Lists

variable (repo : Repo)

namespace Repo

/-! ### Members of fleets -/

/-- A member of a fleet that has a file, or can be given one. -/
def Resolves (fleet : String) (m : Member) : Prop :=
  (m.ref ≠ "" ∧ repo.isFile (repo.refPath m.ref) = true)
    ∨ (m.ref = "" ∧ m.name ≠ "" ∧ repo.writable fleet m.name = true)

/-- The first member that does not resolve has a name, and its file cannot be written. -/
def Removed (fleet : String) (y : Yaml) : Prop :=
  First (repo.Resolves fleet)
    (fun m => m.ref = "" ∧ m.name ≠ "" ∧ repo.writable fleet m.name = false) y.agents

/-- The path of a member. -/
def memberPath (fleet : String) (m : Member) : Path :=
  if m.ref ≠ "" then .file (repo.refPath m.ref) else .inline fleet m.name

/-- A member, up to the first that does not resolve, has this path. -/
def InFleet (fleet : String) (y : Yaml) (path : Path) : Prop :=
  First (repo.Resolves fleet)
    (fun m => repo.Resolves fleet m ∧ path = repo.memberPath fleet m) y.agents

open Classical in
/-- What is read at a path.  The temporary files of a fleet may have been removed. -/
noncomputable def readAt : Path → Option Yaml
  | .file text => repo.read text
  | .inline fleet name =>
      (repo.read fleet).bind fun y =>
        if repo.Removed fleet y then none else some ⟨"Agent", some name, y.host, []⟩

/-- The entry for a path. -/
noncomputable def entryAt (path : Path) : Entry :=
  ⟨path, repo.readAt path⟩

/-- The list has the entries for these paths. -/
def Prints (S : Path → Prop) (entries : List Entry) : Prop :=
  ∀ e, e ∈ entries ↔ ∃ path, S path ∧ e = repo.entryAt path

/-- A file that is not a fleet. -/
def IsAgent (text : String) : Prop :=
  ∃ y, repo.read text = some y ∧ y.kind ≠ "Fleet"

/-- A fleet, of the host if one is given. -/
def IsFleet (host text : String) (y : Yaml) : Prop :=
  repo.read text = some y ∧ y.kind = "Fleet" ∧ (host = "" ∨ y.host = host)

/-- The file has the name of the fleet. -/
def HasFleetName (name text : String) (y : Yaml) : Prop :=
  repo.read text = some y ∧ captured (y.name.getD "") = name

/-- The files below `agents/`, or below the directory of a host, without the templates. -/
def agentPaths (host : String) : List String :=
  (repo.find (if host = "" then "agents" else "agents/" ++ host)).filter fun path =>
    !isTemplate path

/-- The path is one of those that a host and a fleet select. -/
def SelectedBy (host fleet : String) (path : Path) : Prop :=
  validHost host = true ∧
    if fleet ≠ "" then
      First (fun text => ¬ ∃ y, repo.HasFleetName fleet text y)
        (fun text => ∃ y, repo.HasFleetName fleet text y ∧ repo.InFleet text y path)
        (repo.find "fleets")
    else
      First (fun text => repo.read text ≠ none) (fun text => repo.IsAgent text ∧ path = .file text)
        (repo.agentPaths host)
      ∨ (∀ text ∈ repo.agentPaths host, repo.read text ≠ none)
        ∧ First (fun text => repo.read text ≠ none)
          (fun text => ∃ y, repo.IsFleet host text y ∧ repo.InFleet text y path)
          ((repo.find "fleets").mergeSort (· ≤ ·))

end Repo

/-- A file with this name. -/
def Repo.HasName (name text : String) : Prop :=
  ∃ y, repo.read text = some y ∧ y.managedName = name

/-- A file with another name. -/
def Repo.HasOther (name text : String) : Prop :=
  ∃ y, repo.read text = some y ∧ y.managedName ≠ name

/-- The path is the first of the failed files with this name. -/
def Repo.IsFirst (failed : List String) (name : String) (path : Path) : Prop :=
  First (repo.HasOther name) (fun text => repo.HasName name text ∧ path = .file text) failed

variable (o : Options) (failed : List String) (names : Option (List String))

/-- The options select the file: with `--retry` it is among those that failed, and its name stands in
the retry file if there is one. -/
def Selected (path : Path) : Prop :=
  if o.retry then
    match names with
    | none => ∃ text ∈ failed, path = .file text
    | some names => ∃ name ∈ names, name ≠ "" ∧ repo.IsFirst failed name path
  else repo.SelectedBy o.host o.fleet path

/-- Some file failed, and each name of the retry file is found among those, or all of them can be
read. -/
def Searched : Prop :=
  o.retry = true → failed ≠ [] ∧ ∀ names' ∈ names, ∀ name ∈ names', name ≠ "" →
    (∃ path, repo.IsFirst failed name path) ∨ ∀ text ∈ failed, repo.HasOther name text

variable {repo o failed names}

/-! ### The loops -/

section Loops

variable {e : Entry} {S : Path → Prop} {entries : List Entry} {name fleet host : String}

/-- The search for a name ends at the first failed file that has it. -/
theorem findNamed_iff :
  ∀ failed : List String,
    (∀ e, findNamed name (failed.map fun text => ⟨.file text, repo.read text⟩) = some (some e)
      ↔ ∃ path, repo.IsFirst failed name path ∧ e = repo.entryAt path)
    ∧ (findNamed name (failed.map fun text => ⟨.file text, repo.read text⟩) = some none
      ↔ ∀ text ∈ failed, repo.HasOther name text)
  | [] => by simp [findNamed, Repo.IsFirst, not_first_nil]
  | text :: failed => by
      obtain ⟨hfound, hnone⟩ := findNamed_iff failed
      have hfirst : ∀ path, repo.IsFirst (text :: failed) name path
          ↔ (repo.HasName name text ∧ path = .file text)
            ∨ repo.HasOther name text ∧ repo.IsFirst failed name path := fun _ => first_cons
      simp only [List.map_cons, findNamed, hfirst, List.forall_mem_cons]
      cases hread : repo.read text with
      | none => simp [Repo.HasName, Repo.HasOther, hread]
      | some y =>
        by_cases hname : y.managedName = name
        · simp [Repo.HasName, Repo.HasOther, hread, hname, Repo.entryAt, Repo.readAt, eq_comm]
        · simp [Repo.HasName, Repo.HasOther, hread, hname, hfound, hnone]

/-- The search ends at a file with the name, or at the end of the list. -/
theorem findNamed_ne_none_iff (failed : List String) :
  findNamed name (failed.map fun text => ⟨.file text, repo.read text⟩) ≠ none
    ↔ (∃ path, repo.IsFirst failed name path) ∨ ∀ text ∈ failed, repo.HasOther name text
  := by
  obtain ⟨hfound, hnone⟩ := @findNamed_iff repo name failed
  rw [← hnone]
  cases hresult : findNamed name (failed.map fun text => ⟨.file text, repo.read text⟩) with
  | none =>
    simp only [reduceCtorEq, ne_eq, not_true_eq_false, or_false, false_iff]
    rintro ⟨path, hpath⟩
    cases hresult.symm.trans ((hfound _).mpr ⟨path, hpath, rfl⟩)
  | some found =>
    cases found with
    | none => simp
    | some e =>
      obtain ⟨path, hpath, -⟩ := (hfound e).mp hresult
      simpa using ⟨path, hpath⟩

/-- The names of a retry file are searched for one after the other. -/
theorem retryFiles_iff :
  ∀ names : List String,
    ((∃ found, retryFiles entries names = some found)
      ↔ ∀ name ∈ names, name ≠ "" → findNamed name entries ≠ none)
    ∧ ∀ found, retryFiles entries names = some found → ∀ e, e ∈ found
      ↔ ∃ name ∈ names, name ≠ "" ∧ findNamed name entries = some (some e)
  | [] => by
      constructor
      · simp [retryFiles]
      · rintro found ⟨⟩
        simp
  | name :: names => by
      obtain ⟨hreturns, hmem⟩ := retryFiles_iff names
      rw [retryFiles, List.forall_mem_cons]
      simp only [List.exists_mem_cons_iff]
      split_ifs with hempty
      · simpa [hempty] using ⟨hreturns, hmem⟩
      · cases hfound : findNamed name entries with
        | none => simp [hempty]
        | some found =>
          constructor
          · simp [hempty, ← hreturns]
          · intro all hall e
            obtain ⟨rest, hrest, rfl⟩ := Option.map_eq_some_iff.mp hall
            rw [List.mem_append, hmem rest hrest]
            simp [hempty, eq_comm]

/-- The agent files are printed up to the first one that cannot be read. -/
theorem directFiles_iff :
  ∀ texts : List String,
    repo.Prints (fun path => First (fun text => repo.read text ≠ none)
      (fun text => repo.IsAgent text ∧ path = .file text) texts) (repo.directFiles texts).1
    ∧ ((repo.directFiles texts).2 = true ↔ ∀ text ∈ texts, repo.read text ≠ none)
  | [] => by simp [Repo.directFiles, Repo.Prints, not_first_nil]
  | text :: texts => by
      obtain ⟨hprints, hall⟩ := directFiles_iff texts
      unfold Repo.Prints at hprints ⊢
      simp only [Repo.directFiles, first_cons, List.forall_mem_cons]
      cases hread : repo.read text with
      | none => simp [Repo.IsAgent, hread]
      | some y =>
        by_cases hkind : y.kind = "Fleet"
        · simp [Repo.IsAgent, hread, hkind, hprints, hall]
        · simp [Repo.IsAgent, hread, hkind, hprints, hall, or_and_right, exists_or, Repo.entryAt,
            Repo.readAt]

/-- The members of a fleet are printed up to the first one that cannot be resolved. -/
theorem resolveMembers_iff (y : Yaml) (hy : repo.read fleet = some y) :
  ∀ members : List Member,
    (∀ e, e ∈ (repo.resolveMembers fleet y.host members).1
      ↔ ∃ m, First (repo.Resolves fleet) (fun m' => repo.Resolves fleet m' ∧ m' = m) members
        ∧ e = if m.ref ≠ "" then repo.entryAt (repo.memberPath fleet m)
          else ⟨repo.memberPath fleet m, some ⟨"Agent", some m.name, y.host, []⟩⟩)
    ∧ ((repo.resolveMembers fleet y.host members).2 = true
      ↔ First (repo.Resolves fleet)
        (fun m => m.ref = "" ∧ m.name ≠ "" ∧ repo.writable fleet m.name = false) members)
  | [] => by simp [Repo.resolveMembers, not_first_nil]
  | m :: members => by
      obtain ⟨hmem, hremoved⟩ := resolveMembers_iff y hy members
      simp only [Repo.resolveMembers, first_cons]
      by_cases href : m.ref = ""
      · by_cases hname : m.name = ""
        · simp [href, hname, Repo.Resolves]
        · cases hwritable : repo.writable fleet m.name with
          | true =>
            simp [href, hname, hwritable, Repo.Resolves, hmem, hremoved, or_and_right, exists_or,
              Repo.memberPath]
          | false => simp [href, hname, hwritable, Repo.Resolves]
      · cases hfile : repo.isFile (repo.refPath m.ref) with
        | true =>
          simp [href, hfile, Repo.Resolves, hmem, hremoved, or_and_right, exists_or,
            Repo.memberPath, Repo.entryAt, Repo.readAt]
        | false => simp [href, hfile, Repo.Resolves]

theorem prints_inFleet {y : Yaml}
    (h : ∀ e, e ∈ entries ↔ ∃ m, First (repo.Resolves fleet)
      (fun m' => repo.Resolves fleet m' ∧ m' = m) y.agents
        ∧ e = repo.entryAt (repo.memberPath fleet m)) :
  repo.Prints (repo.InFleet fleet y) entries
  := by
  intro e
  rw [h]
  constructor
  · rintro ⟨_, ⟨before, m, after, hsplit, hbefore, hm, rfl⟩, he⟩
    exact ⟨_, ⟨before, m, after, hsplit, hbefore, hm, rfl⟩, he⟩
  · rintro ⟨_, ⟨before, m, after, hsplit, hbefore, hm, rfl⟩, he⟩
    exact ⟨m, ⟨before, m, after, hsplit, hbefore, hm, rfl⟩, he⟩

/-- What is printed for a fleet. -/
theorem resolveFleetFiles_iff {y : Yaml} (hy : repo.read fleet = some y) :
  repo.Prints (repo.InFleet fleet y) (repo.resolveFleetFiles fleet y)
  := by
  obtain ⟨hmem, hremoved⟩ := resolveMembers_iff y hy y.agents
  rw [Repo.resolveFleetFiles]
  generalize repo.resolveMembers fleet y.host y.agents = resolved at hmem hremoved
  obtain ⟨entries, removed⟩ := resolved
  apply prints_inFleet
  intro e
  cases removed with
  | false =>
    have hkept : ¬ repo.Removed fleet y := fun h => Bool.false_ne_true (hremoved.mpr h)
    rw [hmem]
    apply exists_congr
    intro m
    by_cases href : m.ref = "" <;> simp [href, Repo.entryAt, Repo.readAt, Repo.memberPath, hy, hkept]
  | true =>
    have hgone : repo.Removed fleet y := hremoved.mp rfl
    simp only [List.mem_map, hmem]
    constructor
    · rintro ⟨_, ⟨m, hm, rfl⟩, rfl⟩
      refine ⟨m, hm, ?_⟩
      by_cases href : m.ref = "" <;>
        simp [href, Repo.entryAt, Repo.readAt, Repo.memberPath, hy, hgone]
    · rintro ⟨m, hm, rfl⟩
      refine ⟨_, ⟨m, hm, rfl⟩, ?_⟩
      by_cases href : m.ref = "" <;>
        simp [href, Repo.entryAt, Repo.readAt, Repo.memberPath, hy, hgone]

/-- The fleets are resolved up to the first file that cannot be read. -/
theorem fleetFiles_iff :
  ∀ texts : List String,
    repo.Prints (fun path => First (fun text => repo.read text ≠ none)
      (fun text => ∃ y, repo.IsFleet host text y ∧ repo.InFleet text y path) texts)
      (repo.fleetFiles host texts)
  | [] => by simp [Repo.fleetFiles, Repo.Prints, not_first_nil]
  | text :: texts => by
      have hrest := fleetFiles_iff texts
      unfold Repo.Prints at hrest ⊢
      intro e
      simp only [Repo.fleetFiles, first_cons]
      cases hread : repo.read text with
      | none => simp [Repo.IsFleet, hread]
      | some y =>
        have hfleet := resolveFleetFiles_iff hread e
        by_cases hkind : y.kind = "Fleet"
        · by_cases hhost : host = "" ∨ y.host = host
          · have hskip : ¬ (host ≠ "" ∧ y.host ≠ host) := by tauto
            simp [Repo.IsFleet, hread, hkind, hhost, hskip, hrest, hfleet, or_and_right, exists_or]
          · have hskip : host ≠ "" ∧ y.host ≠ host := not_or.mp hhost
            simp [Repo.IsFleet, hread, hkind, hskip, hrest]
        · simp [Repo.IsFleet, hread, hkind, hrest]

theorem mem_of_mem_dedup :
  ∀ {seen : List Path} {entries : List Entry}, e ∈ Repo.dedup seen entries → e ∈ entries
  | seen, e' :: entries, h => by
      rw [Repo.dedup] at h
      split_ifs at h
      · exact List.mem_cons_of_mem _ (mem_of_mem_dedup h)
      · rcases List.mem_cons.mp h with rfl | h
        · exact List.mem_cons_self
        · exact List.mem_cons_of_mem _ (mem_of_mem_dedup h)

/-- Every path is kept once. -/
theorem exists_mem_dedup :
  ∀ {seen : List Path} {entries : List Entry}, e ∈ entries → e.path ∉ seen →
    ∃ e' ∈ Repo.dedup seen entries, e'.path = e.path
  | seen, e' :: entries, h, hseen => by
      rw [Repo.dedup]
      by_cases heq : e'.path = e.path
      · rw [if_neg (heq ▸ hseen)]
        exact ⟨e', List.mem_cons_self, heq⟩
      · have hrest : e ∈ entries := (List.mem_cons.mp h).resolve_left fun h => heq (h ▸ rfl)
        split_ifs
        · exact exists_mem_dedup hrest hseen
        · obtain ⟨e'', hmem, hpath⟩ := @exists_mem_dedup (e'.path :: seen) entries hrest
            (by simp [hseen, Ne.symm heq])
          exact ⟨e'', List.mem_cons_of_mem _ hmem, hpath⟩

/-- Printing every path once changes nothing, as what is read depends on the path only. -/
theorem prints_dedup (h : repo.Prints S entries) :
  repo.Prints S (Repo.dedup [] entries)
  := by
  intro e
  rw [← h]
  refine ⟨mem_of_mem_dedup, ?_⟩
  intro he
  obtain ⟨e', he', hpath⟩ := @exists_mem_dedup e [] entries he (by simp)
  obtain ⟨path, -, rfl⟩ := (h e).mp he
  obtain ⟨path', -, rfl⟩ := (h e').mp (mem_of_mem_dedup he')
  obtain rfl : path' = path := hpath
  exact he'

theorem prints_append {T : Path → Prop} {entries' : List Entry} (h : repo.Prints S entries)
    (h' : repo.Prints T entries') :
  repo.Prints (fun path => S path ∨ T path) (entries ++ entries')
  := by
  intro e
  rw [List.mem_append, h, h']
  simp [or_and_right, exists_or]

/-- The fleet is that of the first file with its name. -/
theorem findFleetFile_iff {text : String} {y : Yaml} :
  repo.findFleetFile name = some (text, y)
    ↔ First (fun text => ¬ ∃ y, repo.HasFleetName name text y)
      (fun text' => repo.HasFleetName name text' y ∧ text' = text) (repo.find "fleets")
  := by
  let step (text : String) : Option (String × Yaml) :=
    (repo.read text).bind fun y =>
      if captured (y.name.getD "") = name then some (text, y) else none
  have hstep : ∀ text r, step text = some r ↔ repo.HasFleetName name text r.2 ∧ text = r.1 := by
    rintro text ⟨text', y'⟩
    simp only [step, Repo.HasFleetName, Option.bind_eq_some_iff, Option.ite_none_right_eq_some,
      Option.some.injEq, Prod.mk.injEq]
    constructor
    · rintro ⟨y, hread, hname, rfl, rfl⟩
      exact ⟨⟨hread, hname⟩, rfl⟩
    · rintro ⟨⟨hread, hname⟩, rfl⟩
      exact ⟨y', hread, hname, rfl, rfl⟩
  have hnone : ∀ text, step text = none ↔ ¬ ∃ y, repo.HasFleetName name text y := by
    intro text
    rw [Option.eq_none_iff_forall_not_mem]
    simp only [Option.mem_def, hstep, Prod.forall, not_and, not_exists]
    exact ⟨fun h y hy => h text y hy rfl, fun h _ y hy => absurd hy (h y)⟩
  have hfind : repo.findFleetFile name = (repo.find "fleets").findSome? step := by
    rw [Repo.findFleetFile]
    congr 1
    funext text
    simp only [step]
    cases repo.read text <;> rfl
  rw [hfind, List.findSome?_eq_some_iff]
  simp only [hstep, hnone, First]
  constructor
  · rintro ⟨before, text', after, hsplit, hname, hbefore⟩
    exact ⟨before, text', after, hsplit, hbefore, hname⟩
  · rintro ⟨before, text', after, hsplit, hbefore, hname⟩
    exact ⟨before, text', after, hsplit, hname, hbefore⟩

/-- With a fleet, the selected files are its members. -/
theorem selectedBy_fleet_iff {path : Path} (hhost : Repo.validHost host = true)
    (hfleet : fleet ≠ "") :
  repo.SelectedBy host fleet path
    ↔ ∃ text y, repo.findFleetFile fleet = some (text, y) ∧ repo.InFleet text y path
  := by
  rw [Repo.SelectedBy, if_pos hfleet, and_iff_right hhost]
  simp only [findFleetFile_iff]
  constructor
  · rintro ⟨before, text, after, hsplit, hbefore, y, hname, hpath⟩
    exact ⟨text, y, ⟨before, text, after, hsplit, hbefore, hname, rfl⟩, hpath⟩
  · rintro ⟨text, y, ⟨before, _, after, hsplit, hbefore, hname, rfl⟩, hpath⟩
    exact ⟨before, _, after, hsplit, hbefore, y, hname, hpath⟩

/-- `get_agent_files` prints the files that the options select. -/
theorem prints_getAgentFiles (host fleet : String) :
  repo.Prints (repo.SelectedBy host fleet) (repo.getAgentFiles host fleet)
  := by
  intro e
  rw [Repo.getAgentFiles]
  by_cases hhost : Repo.validHost host
  · rw [if_neg (not_not.mpr hhost)]
    by_cases hfleet : fleet = ""
    · obtain ⟨hdirect, hall⟩ := @directFiles_iff repo (repo.agentPaths host)
      have hfleets := @fleetFiles_iff repo host ((repo.find "fleets").mergeSort (· ≤ ·))
      simp only [Repo.SelectedBy, hhost, hfleet, ne_eq, not_true_eq_false, if_false, true_and]
      rw [← Repo.agentPaths]
      generalize repo.directFiles (repo.agentPaths host) = direct at hdirect hall ⊢
      obtain ⟨entries, completed⟩ := direct
      cases completed with
      | false =>
        have hcut : ¬ ∀ text ∈ repo.agentPaths host, repo.read text ≠ none
          := fun h => Bool.false_ne_true (hall.mpr h)
        simpa only [hcut, false_and, or_false] using prints_dedup hdirect e
      | true =>
        simp only [and_iff_right (hall.mp rfl)]
        exact prints_dedup (prints_append hdirect hfleets) e
    · simp only [selectedBy_fleet_iff hhost hfleet, if_pos hfleet]
      cases hfound : repo.findFleetFile fleet with
      | none => simp
      | some found =>
        obtain ⟨_, _, _, -, -, ⟨hread, -⟩, rfl⟩ := findFleetFile_iff.mp hfound
        have hprints := resolveFleetFiles_iff hread e
        rw [hprints]
        simp [Prod.ext_iff]
  · rw [if_pos hhost]
    simp [Repo.SelectedBy, hhost]

end Loops

/-- The array `yaml_files` is filled if the names of the retry file can be searched for, and then it
has the files that are selected. -/
theorem yamlFiles_iff (s : Session) :
  ((∃ entries, yamlFiles o repo s = some entries)
      ↔ Searched repo o s.failedAgents s.retryNames)
    ∧ ∀ entries, yamlFiles o repo s = some entries →
      repo.Prints (Selected repo o s.failedAgents s.retryNames) entries
  := by
  have hfound := fun name => @findNamed_iff repo name s.failedAgents
  rw [yamlFiles, Searched]
  unfold Repo.Prints Selected
  by_cases hretry : o.retry
  · simp only [hretry, if_true, true_imp_iff]
    by_cases hfailed : s.failedAgents = []
    · simp [hfailed]
    rw [if_neg hfailed]
    cases s.retryNames with
    | none =>
      constructor
      · simp [hfailed]
      · rintro entries ⟨⟩ e
        simp only [List.mem_map]
        constructor
        · rintro ⟨text, htext, rfl⟩
          exact ⟨_, ⟨text, htext, rfl⟩, rfl⟩
        · rintro ⟨_, ⟨text, htext, rfl⟩, rfl⟩
          exact ⟨text, htext, rfl⟩
    | some names =>
      obtain ⟨hreturns, hmem⟩ := @retryFiles_iff
        (s.failedAgents.map fun text => ⟨.file text, repo.read text⟩) names
      constructor
      · rw [hreturns, and_iff_right hfailed]
        simp only [Option.mem_some_iff, forall_eq', findNamed_ne_none_iff]
      · intro entries hentries e
        rw [hmem entries hentries]
        simp only [(hfound _).1]
        constructor
        · rintro ⟨name, hname, hempty, path, hpath, rfl⟩
          exact ⟨path, ⟨name, hname, hempty, hpath⟩, rfl⟩
        · rintro ⟨path, ⟨name, hname, hempty, hpath⟩, rfl⟩
          exact ⟨name, hname, hempty, path, hpath, rfl⟩
  · simp only [hretry, if_false, Bool.false_eq_true, false_imp_iff, iff_true]
    refine ⟨⟨_, rfl⟩, ?_⟩
    rintro entries ⟨⟩
    exact prints_getAgentFiles o.host o.fleet

end Agamemnon.Reconciler
