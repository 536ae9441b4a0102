import Agamemnon.Reconciler.Apply
import Agamemnon.Store.Operations

/-!
# The drift of an agent

The scripts read an agent file with `yq` and the agents of the server with `jq`, and compare the
two field by field.  Every text that is compared has gone through `$(...)`, so a line break at
its end is not seen.
-/

namespace Agamemnon.Reconciler

/-! ### The shell -/

/-- What the scripts take from the machine.  A command prints texts, each on a line of its
own. -/
structure Shell where
  home : String
  /-- The order in which `sort` puts lines. -/
  collate : String → String → Bool
  /-- What `jq` prints of a value other than a string. -/
  print : Json → String
  /-- What `sort | join(",")` prints of a value other than an array of strings. -/
  printTags : Json → List String
  /-- What `.type // "local"` prints of a value other than an object. -/
  printType : Json → List String

/-- What `$(...)` leaves of the texts that a command prints. -/
def substituted (output : List String) : String :=
  captured (String.ofList (("\n".intercalate output).toList.filter (· ≠ '\x00')))

/-- The text is taken for options by `echo`. -/
def isEchoOption (text : String) : Bool :=
  match text.toList with
  | '-' :: c :: cs => (c :: cs).all fun c => c = 'n' || c = 'e' || c = 'E'
  | _ => false

/-- What `echo` prints of a text. -/
def echo (text : String) : List String :=
  if isEchoOption text then if 'n' ∈ text.toList then [] else [""]
  else lines text

/-- The parts of a text between commas. -/
def commaParts (text : String) : List String :=
  (text.toList.splitOnP (· = ',')).map String.ofList

/-- `${p/#\~/$HOME}` -/
def expandHome (home path : String) : String :=
  match path.toList with
  | '~' :: rest => home ++ String.ofList rest
  | _ => path

/-- `normalize_path` -/
def normalizePath (home path : String) : String :=
  substituted (echo (expandHome home path))

/-! ### Agent files -/

/-- A scalar of a file: absent, false, or something that is printed as a text. -/
inductive Scalar where
  | null
  | no
  | text (s : String)

/-- What `yq` prints of a scalar. -/
def Scalar.print : Scalar → String
  | null => "null"
  | no => "false"
  | text s => s

/-- What `yq` prints of a scalar with the alternative `// d`. -/
def Scalar.orElse (d : String) : Scalar → String
  | text s => s
  | _ => d

/-- What is read of the file of an agent. -/
structure AgentYaml where
  name : Scalar
  host : Scalar
  label : Scalar
  program : Scalar
  model : Scalar
  workingDirectory : Scalar
  programArgs : Scalar
  taskDescription : Scalar
  tags : List String
  owner : Scalar
  role : Scalar
  deploymentType : Scalar
  dockerImage : Scalar
  dockerCpus : Scalar
  dockerMemory : Scalar
  desiredState : Scalar

/-- The variables of a script that has read a file. -/
structure Desired where
  name : String
  state : String
  label : String
  program : String
  workdir : String
  args : String
  desc : String
  tags : String
  model : String
  owner : String
  role : String
  deployType : String

/-- The variables of `apply_agent`. -/
def AgentYaml.applied (y : AgentYaml) : Desired where
  name := substituted [y.name.print]
  state := substituted [y.desiredState.orElse "active"]
  label := substituted [y.label.orElse ""]
  program := substituted [y.program.orElse "claude-code"]
  workdir := substituted [y.workingDirectory.orElse ""]
  args := substituted [y.programArgs.orElse ""]
  desc := substituted [y.taskDescription.orElse ""]
  tags := substituted [",".intercalate y.tags]
  model := substituted [y.model.orElse ""]
  owner := substituted [y.owner.orElse ""]
  role := substituted [y.role.orElse "member"]
  deployType := substituted [y.deploymentType.orElse "local"]

/-! ### Agents of the server -/

/-- The value of a `jq` expression with an alternative. -/
def alternative (v : Option Json) (d : Json) : Json :=
  match v with
  | none | some .null | some (.boolean false) => d
  | some v => v

/-- The strings of an array that has nothing else. -/
def stringsOf : Json → Option (List String)
  | .array vs => vs.mapM fun
      | .string s => some s
      | _ => none
  | _ => none

namespace Shell

variable (sh : Shell)

/-- What `jq -r` prints of a value. -/
def text : Json → String
  | .string s => s
  | v => sh.print v

/-- `.k // "d"`, for every agent that was found. -/
def field (docs : List Json) (k d : String) : String :=
  substituted (docs.map fun a => sh.text (alternative (a.get? k) (.string d)))

/-- `.id` -/
def id (docs : List Json) : String :=
  substituted (docs.map fun a => sh.text ((a.get? "id").getD .null))

/-- `.tags // [] | sort | join(",")` -/
def tags (docs : List Json) : String :=
  substituted <| docs.flatMap fun a =>
    let v := alternative (a.get? "tags") (.array [])
    match stringsOf v with
    | some ss => [",".intercalate (ss.mergeSort (· ≤ ·))]
    | none => sh.printTags v

/-- `.deployment.type // "local"` -/
def deployType (docs : List Json) : String :=
  substituted <| docs.flatMap fun a =>
    match a.get? "deployment" with
    | none | some .null => ["local"]
    | some (.object ms) => [sh.text (alternative (ms.lookup "type") (.string "local"))]
    | some v => sh.printType v

/-- The tags of a file in the order of `sort`. -/
def sortedTags (csv : String) : String :=
  if csv = "" then ""
  else substituted [",".intercalate (((echo csv).flatMap commaParts).mergeSort sh.collate)]

end Shell

/-! ### The comparison -/

/-- What a script does with an agent. -/
inductive Action where
  | create
  | wake
  | hibernate
  | update (fields : List String)
  | unchanged
  deriving DecidableEq

/-- A field, with what is found and what is asked for. -/
structure Comparison where
  field : String
  actual : String
  desired : String

section Drift

variable (sh : Shell) (d : Desired) (docs : List Json)

/-- The type of the deployment that is asked for. -/
def Desired.deployTypeOrLocal : String :=
  if d.deployType = "" then "local" else d.deployType

/-- The comparisons of `compute_drift`. -/
def comparisons : List Comparison :=
  [⟨"label", sh.field docs "label" "", d.label⟩,
    ⟨"program", sh.field docs "program" "", d.program⟩,
    ⟨"workingDirectory", normalizePath sh.home (sh.field docs "workingDirectory" ""),
      normalizePath sh.home d.workdir⟩,
    ⟨"programArgs", sh.field docs "programArgs" "", d.args⟩,
    ⟨"taskDescription", sh.field docs "taskDescription" "", d.desc⟩,
    ⟨"tags", sh.tags docs, sh.sortedTags d.tags⟩,
    ⟨"model", sh.field docs "model" "", d.model⟩,
    ⟨"owner", sh.field docs "owner" "", d.owner⟩,
    ⟨"role", sh.field docs "role" "", d.role⟩,
    ⟨"deploymentType", sh.deployType docs, d.deployTypeOrLocal⟩]

/-- The fields that differ. -/
def driftedFields : List String :=
  ((comparisons sh d docs).filter fun c => c.actual ≠ c.desired).map (·.field)

/-- `compute_drift` -/
def computeDrift : Action :=
  let status := sh.field docs "status" "unknown"
  if d.state = "active" ∧ status = "offline" then .wake
  else if d.state = "hibernated" ∧ (status = "active" ∨ status = "online") then .hibernate
  else
    match driftedFields sh d docs with
    | [] => .unchanged
    | fields => .update fields

/-- The agents with a name. -/
def named (agents : List Json) (name : String) : List Json :=
  agents.filter fun a => (a.get? "name").any (·.isString name)

end Drift

/-! ### Texts that have been captured -/

/-- A text that has been captured stays as it is. -/
theorem substituted_substituted (output : List String) :
  substituted [substituted output] = substituted output
  := by
  have hfilter : ∀ cs : List Char,
      (((cs.filter (· ≠ '\x00')).rdropWhile (· = '\n')).filter (· ≠ '\x00'))
        = (cs.filter (· ≠ '\x00')).rdropWhile (· = '\n') := by
    intro cs
    rw [List.filter_eq_self]
    intro c hc
    exact (List.mem_filter.mp ((List.rdropWhile_prefix _ _).mem hc)).2
  simp only [substituted, captured, String.intercalate_singleton, String.toList_ofList, hfilter,
    List.rdropWhile_idempotent]

/-! ### Agents without drift -/

variable {sh : Shell} {d : Desired} {docs : List Json}

theorem driftedFields_eq_nil :
  driftedFields sh d docs = [] ↔ ∀ c ∈ comparisons sh d docs, c.actual = c.desired
  := by
  simp [driftedFields]

/-- The run state calls for no action. -/
def StateFits (d : Desired) (status : String) : Prop :=
  ¬ (d.state = "active" ∧ status = "offline")
    ∧ ¬ (d.state = "hibernated" ∧ (status = "active" ∨ status = "online"))

theorem computeDrift_eq_unchanged :
  computeDrift sh d docs = .unchanged
    ↔ StateFits d (sh.field docs "status" "unknown") ∧ driftedFields sh d docs = []
  := by
  rw [computeDrift, StateFits]
  split
  · simp [*]
  · split
    · simp [*]
    · cases driftedFields sh d docs <;> simp [*]

end Agamemnon.Reconciler
