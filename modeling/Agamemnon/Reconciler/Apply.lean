import Agamemnon.Lib.Lists
import Mathlib.Data.List.DropRight
import Mathlib.Data.List.Infix
import Mathlib.Data.Nat.Notation

/-!
# The reconciler

The script `apply.sh` reads agent files from a repository, applies them one after the other to
the agents of the server, and with `--prune` deletes the agents that no file asks for.  Files
are given by what `yq` prints of them, and the server by its replies.  The script stops at the
first command that fails; what a process substitution has printed by then is still used.
-/

namespace Agamemnon.Reconciler

/-- A member of a fleet: a reference to an agent file, or an agent with a name. -/
structure Member where
  ref : String
  name : String

/-- What is read of a file. -/
structure Yaml where
  /-- `.kind // ""` -/
  kind : String
  /-- `.metadata.name`, if there is one -/
  name : Option String
  /-- `.metadata.host // ""` -/
  host : String
  /-- `.spec.agents` -/
  agents : List Member

/-- What is left of an output that is captured by `$(...)`. -/
def captured (text : String) : String :=
  String.ofList (text.toList.rdropWhile (· = '\n'))

/-- What `yq eval '.metadata.name'` prints. -/
def Yaml.printedName (y : Yaml) : String :=
  y.name.getD "null"

/-- The name under which a file manages an agent. -/
def Yaml.managedName (y : Yaml) : String :=
  captured y.printedName

/-- The lines of a text. -/
def lines (text : String) : List String :=
  (text.toList.splitOnP (· = '\n')).map String.ofList

/-- A file of the repository, or the temporary file of an agent of a fleet. -/
inductive Path where
  | file (text : String)
  | inline (fleet name : String)
  deriving DecidableEq

/-- A path that is printed for an agent file, and what is read there, if anything. -/
structure Entry where
  path : Path
  yaml : Option Yaml

/-- A repository. -/
structure Repo where
  root : String
  /-- The files `*.yaml`, in the order in which `find` prints them. -/
  files : List String
  read : String → Option Yaml
  isFile : String → Bool
  isDir : String → Bool
  /-- The temporary file for an agent of a fleet can be written. -/
  writable : String → String → Bool

namespace Repo

variable (repo : Repo)

/-- `find <dir> -name "*.yaml"` -/
def find (dir : String) : List String :=
  repo.files.filter fun path => (repo.root ++ "/" ++ dir ++ "/").toList.isPrefixOf path.toList

/-- The path matches `*/_templates/*`. -/
def isTemplate (path : String) : Bool :=
  "/_templates/".toList <:+: path.toList

/-- The loop over the files below `agents/`, and whether it gets to its end. -/
def directFiles : List String → List Entry × Bool
  | [] => ([], true)
  | path :: rest =>
      match repo.read path with
      | none => ([], false)
      | some y =>
          if y.kind = "Fleet" then directFiles rest
          else (⟨.file path, some y⟩ :: (directFiles rest).1, (directFiles rest).2)

/-- The file `agents/<host>/<name>.yaml` of a reference `<host>/<name>`. -/
def refPath (ref : String) : String :=
  let host := ref.toList.takeWhile (· ≠ '/')
  let name := if '/' ∈ ref.toList then (ref.toList.dropWhile (· ≠ '/')).drop 1 else ref.toList
  repo.root ++ "/agents/" ++ String.ofList host ++ "/" ++ String.ofList name ++ ".yaml"

/-- The loop over the members of a fleet, and whether a file could not be written. -/
def resolveMembers (fleet host : String) : List Member → List Entry × Bool
  | [] => ([], false)
  | member :: rest =>
      if member.ref ≠ "" then
        let path := repo.refPath member.ref
        if repo.isFile path then
          (⟨.file path, repo.read path⟩ :: (resolveMembers fleet host rest).1,
            (resolveMembers fleet host rest).2)
        else ([], false)
      else if member.name = "" then ([], false)
      else if repo.writable fleet member.name then
        (⟨.inline fleet member.name, some ⟨"Agent", some member.name, host, []⟩⟩
          :: (resolveMembers fleet host rest).1, (resolveMembers fleet host rest).2)
      else ([], true)

/-- `resolve_fleet_files`.  If a temporary file cannot be written, then all of them are
removed. -/
def resolveFleetFiles (fleet : String) (y : Yaml) : List Entry :=
  match repo.resolveMembers fleet y.host y.agents with
  | (entries, false) => entries
  | (entries, true) => entries.map fun e =>
      match e.path with
      | .file _ => e
      | .inline _ _ => { e with yaml := none }

/-- The loop over the fleets, for one host or for all. -/
def fleetFiles (host : String) : List String → List Entry
  | [] => []
  | fleet :: rest =>
      match repo.read fleet with
      | none => []
      | some y =>
          if y.kind ≠ "Fleet" then fleetFiles host rest
          else if host ≠ "" ∧ y.host ≠ host then fleetFiles host rest
          else repo.resolveFleetFiles fleet y ++ fleetFiles host rest

/-- `find_fleet_file`; the name of a file that cannot be read is empty. -/
def findFleetFile (name : String) : Option (String × Yaml) :=
  (repo.find "fleets").findSome? fun path =>
    match repo.read path with
    | none => none
    | some y => if captured (y.name.getD "") = name then some (path, y) else none

/-- Print every path once. -/
def dedup : List Path → List Entry → List Entry
  | _, [] => []
  | seen, e :: rest =>
      if e.path ∈ seen then dedup seen rest else e :: dedup (e.path :: seen) rest

/-- `validate_host` -/
def validHost (host : String) : Bool :=
  host.toList.all fun c => c.isAlphanum || c = '-' || c = '_'

/-- `get_agent_files` -/
def getAgentFiles (host fleet : String) : List Entry :=
  if ¬ validHost host then []
  else if fleet ≠ "" then
    match repo.findFleetFile fleet with
    | none => []
    | some (path, y) => repo.resolveFleetFiles path y
  else
    let dir := if host = "" then "agents" else "agents/" ++ host
    match repo.directFiles ((repo.find dir).filter fun path => !isTemplate path) with
    | (entries, false) => dedup [] entries
    | (entries, true) =>
        dedup [] (entries ++ repo.fleetFiles host ((repo.find "fleets").mergeSort (· ≤ ·)))

end Repo

/-- The arguments of the script. -/
structure Options where
  host : String
  fleet : String
  prune : Bool
  dryRun : Bool
  failFast : Bool
  retry : Bool
  yes : Bool

/-- An agent in the reply of the server. -/
structure Agent where
  id : String
  name : String
  deriving DecidableEq

/-- How the application of one file ends. -/
inductive Applied where
  | ok
  | failed
  | aborted
  deriving DecidableEq

/-- What happens around the script in one run. -/
structure Session where
  /-- The tools are there, the server answers, and the lock is free. -/
  ready : Bool
  confirmPrune : Bool
  /-- The replies to the requests for all agents. -/
  listing : ℕ → Option (List Agent)
  snapshot : Bool
  /-- The lines of the file of failed agents, if there is one. -/
  failedAgents : List String
  /-- The lines of the retry file, if there is one. -/
  retryNames : Option (List String)
  confirmChanges : Bool
  applied : ℕ → Applied

variable (o : Options) (repo : Repo) (s : Session)

/-- The first file with this name, unless one before it cannot be read. -/
def findNamed (name : String) : List Entry → Option (Option Entry)
  | [] => some none
  | e :: rest =>
      match e.yaml with
      | none => none
      | some y => if y.managedName = name then some (some e) else findNamed name rest

/-- The files whose names stand in the retry file. -/
def retryFiles (entries : List Entry) : List String → Option (List Entry)
  | [] => some []
  | name :: rest =>
      if name = "" then retryFiles entries rest
      else
        match findNamed name entries with
        | none => none
        | some found => (retryFiles entries rest).map (found.toList ++ ·)

/-- The array `yaml_files`. -/
def yamlFiles : Option (List Entry) :=
  if o.retry then
    if s.failedAgents = [] then none
    else
      let entries := s.failedAgents.map fun path => ⟨.file path, repo.read path⟩
      match s.retryNames with
      | none => some entries
      | some names => retryFiles entries names
  else some (repo.getAgentFiles o.host o.fleet)

/-- The loop over the files, from the file number `i` on: the last list of agents. -/
def applyAll (failFast : Bool) : ℕ → ℕ → Bool → List Agent → Option (List Agent)
  | _, 0, _, agents => some agents
  | i, n + 1, errors, agents =>
      if s.applied i = .aborted then none
      else
        let errors := errors || s.applied i = .failed
        if failFast && errors then some agents
        else
          match s.listing (i + 1) with
          | none => none
          | some agents => applyAll failFast (i + 1) n errors agents

/-- `main` up to the call of `handle_unmanaged`: the files that are considered and the last list
of agents. -/
def considered : Option (List Yaml × List Agent) := do
  guard (o.host = "" ∨ repo.isDir ("agents/" ++ o.host))
  guard (o.dryRun = false)
  guard s.ready
  guard (repo.isDir "agents/" ∨ repo.isDir "fleets/")
  guard (o.prune = true → o.yes = true ∨ s.confirmPrune = true)
  let agents ← s.listing 0
  guard s.snapshot
  let entries ← yamlFiles o repo s
  guard (¬ entries.isEmpty)
  -- the names are read before anything is applied
  let files ← entries.mapM (·.yaml)
  guard (o.yes ∨ s.confirmChanges)
  let agents ← applyAll s o.failFast 0 files.length false agents
  return (files, agents)

/-- With `--fleet`, only agents with a name of the fleet are looked at. -/
def scopedAgents (files : List Yaml) (agents : List Agent) : List Agent :=
  if o.fleet = "" then agents
  else
    let names := (files.flatMap fun y => lines y.printedName).filter (· ≠ "")
    agents.filter fun a => a.name ∈ names

/-- The agents that are deleted for these lines.  A request is sent for the identifiers of all
agents with the name; `deletes` says which requests succeed. -/
def pruneAll (deletes : String → Bool) (agents : List Agent) : List String → List Agent
  | [] => []
  | line :: rest =>
      let found := agents.filter (·.name = line)
      if deletes (String.intercalate "\n" (found.map (·.id))) then
        -- a request for no agent or for several at once deletes none
        (if found.length = 1 then found else []) ++ pruneAll deletes agents rest
      else []

/-- `handle_unmanaged`: the agents that are deleted. -/
def handleUnmanaged (deletes : String → Bool) (agents : List Agent) (files : List Yaml) :
    List Agent :=
  let managed := files.map Yaml.managedName
  let unmanaged := (agents.flatMap fun a => lines a.name).filter (· ∉ managed)
  if o.prune then pruneAll deletes agents unmanaged else []

/-- A run of the script: the agents that are deleted. -/
def main (deletes : String → Bool) : List Agent :=
  match considered o repo s with
  | none => []
  | some (files, agents) => handleUnmanaged o deletes (scopedAgents o files agents) files

/-! ### Lines -/

theorem not_newline_of_mem_lines {text line : String} (h : line ∈ lines text) :
  '\n' ∉ line.toList
  := by
  obtain ⟨part, hpart, rfl⟩ := List.mem_map.mp h
  intro hmem
  rw [String.toList_ofList] at hmem
  simpa using Lists.not_of_mem_splitOnP hpart '\n' hmem

theorem lines_of_not_newline {text : String} (h : '\n' ∉ text.toList) :
  lines text = [text]
  := by
  have hsplit : text.toList.splitOnP (· = '\n') = [text.toList] := by
    apply List.splitOnP_eq_singleton
    intro c hc
    rw [decide_eq_false_iff_not]
    rintro rfl
    exact h hc
  rw [lines, hsplit, List.map_singleton, String.ofList_toList]

end Agamemnon.Reconciler
