import Agamemnon.Hmas.Types
import Agamemnon.Plan.ImplRef

/-!
# The planning breakdown

`decompose` turns a brief into the flat list of its tasks: the root, one task for each
repository, one for each module of the repository, one for each implementation task of
the module, and a last pass that wires the annotated dependencies.

The loops of the source are folds over the list of tasks built so far.  As
`generate_uuid` is called once before every `push_back`, the task pushed at position
`i` carries the identifier drawn as number `i`.
-/

namespace Agamemnon

/-- What the breakdown relies on of the identifiers it draws: `generate_uuid` never
returns the empty string, and no identifier is drawn twice. -/
structure IdSupply (uuid : ℕ → String) : Prop where
  ne_empty : ∀ n, uuid n ≠ ""
  injective : Function.Injective uuid

/-- The identifiers after the first `n`. -/
theorem IdSupply.skip {uuid : ℕ → String} (h : IdSupply uuid) (n : ℕ) :
  IdSupply fun i => uuid (n + i)
  where
  ne_empty := fun i => h.ne_empty (n + i)
  injective := fun _ _ heq => Nat.add_left_cancel (h.injective heq)

/-- A task with every field empty. -/
def blankTask : HmasTask where
  id := ""
  briefId := ""
  parentTaskId := ""
  layer := .l0ChiefArchitect
  state := .pending
  subject := ""
  description := ""
  repo := ""
  module := ""
  issue := 0
  assignedLeadId := ""
  blockedBy := []
  childTaskIds := []
  escalations := []
  createdAt := ""
  completedAt := ""

/-- The modules of a repository, `core` when none is listed. -/
def TaskBrief.modulesOf (brief : TaskBrief) (repo : String) : List String :=
  match (brief.modules.lookup repo).getD [] with
  | [] => ["core"]
  | modules => modules

/-- The implementation tasks of a module, a default one when none is listed. -/
def TaskBrief.implsOf (brief : TaskBrief) (repo mod : String) : List String :=
  match ((brief.impls.lookup repo).bind (·.lookup mod)).getD [] with
  | [] => ["Implement " ++ mod]
  | impls => impls

/-- `tasks[idx].child_task_ids.push_back(id)`. -/
def pushChild (tasks : List HmasTask) (idx : ℕ) (id : String) : List HmasTask :=
  tasks.modify idx fun t => { t with childTaskIds := t.childTaskIds ++ [id] }

/-- `tasks[idx].blocked_by.push_back(id)`. -/
def pushBlocker (tasks : List HmasTask) (idx : ℕ) (id : String) : List HmasTask :=
  tasks.modify idx fun t => { t with blockedBy := t.blockedBy ++ [id] }

section Loops

variable (uuid : ℕ → String) (ts : String) (brief : TaskBrief)

/-- The root task. -/
def rootTask : HmasTask :=
  { blankTask with
    id := uuid 0
    briefId := brief.id
    layer := .l0ChiefArchitect
    state := .pending
    subject := brief.title
    description := brief.description
    createdAt := ts }

/-- The task of a repository. -/
def l1Task (rootId repo id : String) : HmasTask :=
  { blankTask with
    id := id
    briefId := brief.id
    parentTaskId := rootId
    layer := .l1ComponentLead
    state := .pending
    repo := repo
    subject := brief.title ++ " [" ++ repo ++ "]"
    description := "Coordinate implementation for repo: " ++ repo
    createdAt := ts
    blockedBy := [rootId] }

/-- The task of a module; it waits for the module before it, if there is one. -/
def l2Task (repo mod l1Id id prevL2Id : String) : HmasTask :=
  { blankTask with
    id := id
    briefId := brief.id
    parentTaskId := l1Id
    layer := .l2ModuleLead
    state := .pending
    repo := repo
    module := mod
    subject := brief.title ++ " [" ++ repo ++ "/" ++ mod ++ "]"
    description := "Lead module implementation: " ++ mod ++ " in " ++ repo
    createdAt := ts
    blockedBy := [l1Id] ++ if prevL2Id ≠ "" then [prevL2Id] else [] }

/-- An implementation task; without an annotation it waits for the one before it, if
there is one. -/
def l3Task (repo mod implDesc l2Id id prevL3Id : String) (ref : ImplRef) : HmasTask :=
  { blankTask with
    id := id
    briefId := brief.id
    parentTaskId := l2Id
    layer := .l3TaskAgent
    state := .pending
    repo := repo
    module := mod
    subject := implDesc
    description := implDesc
    createdAt := ts
    issue := ref.issue
    blockedBy :=
      [l2Id] ++ if !ref.hasExplicitDeps && prevL3Id ≠ "" then [prevL3Id] else [] }

/-- The body of the loop over the implementation tasks of a module; the second
component is the identifier of the previous one, empty at first. -/
def decomposeImpl (repo mod l2Id : String) (l2Idx : ℕ)
    (acc : List HmasTask × String) (implDesc : String) :
    Except Exn (List HmasTask × String) := do
  let (tasks, prevL3Id) := acc
  let ref ← ImplRef.parse implDesc.toList
  let l3 := l3Task ts brief repo mod implDesc l2Id (uuid tasks.length) prevL3Id ref
  return (pushChild tasks l2Idx l3.id ++ [l3], l3.id)

/-- The body of the loop over the modules of a repository; the second component is the
identifier of the previous one, empty at first. -/
def decomposeModule (repo l1Id : String) (l1Idx : ℕ)
    (acc : List HmasTask × String) (mod : String) :
    Except Exn (List HmasTask × String) := do
  let (tasks, prevL2Id) := acc
  let l2 := l2Task ts brief repo mod l1Id (uuid tasks.length) prevL2Id
  let l2Idx := tasks.length
  let (tasks, _) ← (brief.implsOf repo mod).foldlM
    (decomposeImpl uuid ts brief repo mod l2.id l2Idx)
    (pushChild tasks l1Idx l2.id ++ [l2], "")
  return (tasks, l2.id)

/-- The body of the loop over the repositories of a brief. -/
def decomposeRepo (rootId : String) (tasks : List HmasTask) (repo : String) :
    Except Exn (List HmasTask) := do
  let l1 := l1Task ts brief rootId repo (uuid tasks.length)
  let l1Idx := tasks.length
  let (tasks, _) ← (brief.modulesOf repo).foldlM
    (decomposeModule uuid ts brief repo l1.id l1Idx)
    (pushChild tasks 0 l1.id ++ [l1], "")
  return tasks

end Loops

/-! ### Wiring the annotated dependencies -/

/-- `issue_to_idx`: the issue and the position of every implementation task that has an
issue, in order; `emplace` keeps the first entry of an issue, which is the one a lookup
finds. -/
def issueToIdx : ℕ → List HmasTask → List (ℤ × ℕ)
  | _, [] => []
  | idx, t :: rest =>
      if t.layer = .l3TaskAgent ∧ t.issue ≠ 0 then (t.issue, idx) :: issueToIdx (idx + 1) rest
      else issueToIdx (idx + 1) rest

/-- Wire one dependency of the task at position `tIdx`. -/
def wireDep (index : List (ℤ × ℕ)) (tIdx : ℕ) (tasks : List HmasTask) (depIssue : ℤ) :
    List HmasTask :=
  match index.lookup depIssue with
  | none => tasks
  | some bIdx =>
      match tasks[tIdx]?, tasks[bIdx]? with
      | some t, some blocker =>
          if blocker.id = t.id then tasks
          else
            let tasks :=
              if blocker.id ∈ t.blockedBy then tasks else pushBlocker tasks tIdx blocker.id
            if t.id ∈ blocker.childTaskIds then tasks else pushChild tasks bIdx t.id
      | _, _ => tasks

/-- Wire the dependencies of the task at position `tIdx`. -/
def wireTask (index : List (ℤ × ℕ)) (tasks : List HmasTask) (tIdx : ℕ) :
    Except Exn (List HmasTask) :=
  match tasks[tIdx]? with
  | none => .ok tasks
  | some t =>
      if t.layer ≠ .l3TaskAgent ∨ t.issue = 0 then .ok tasks
      else do
        let ref ← ImplRef.parse t.subject.toList
        return ref.dependsOn.foldl (wireDep index tIdx) tasks

/-- The pass over all tasks that adds the annotated dependencies. -/
def wireDeps (tasks : List HmasTask) : Except Exn (List HmasTask) :=
  (List.range tasks.length).foldlM (wireTask (issueToIdx 0 tasks)) tasks

/-- `PlanningBreakdown::decompose`, drawing identifiers from `uuid` and with `ts` for
`now_iso8601()`. -/
def decompose (uuid : ℕ → String) (ts : String) (brief : TaskBrief) :
    Except Exn (List HmasTask) := do
  let root := rootTask uuid ts brief
  let tasks ← brief.repos.foldlM (decomposeRepo uuid ts brief root.id) [root]
  wireDeps tasks

end Agamemnon
