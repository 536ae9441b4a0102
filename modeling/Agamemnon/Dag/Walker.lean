import Agamemnon.Lib.Graph
import Agamemnon.Lib.Lists
import Mathlib.Logic.Function.Basic

/-!
# The walker of the task graph

Before it assigns tasks to agents, the walker looks for a cycle of dependencies by an iterative
depth-first search with three colours.  The loops of the search are not bounded by the source;
here each of them runs for at most `limit` turns, and `none` says that one of them has not
ended by then.
-/

namespace Agamemnon.Dag

/-- A task of the walker. -/
structure Task where
  id : String
  dependencies : List String

/-- The exception that is raised for an unknown dependency. -/
structure ValueError where
  message : String

/-- The colours of the search. -/
inductive Color where
  | white
  | gray
  | black
  deriving DecidableEq

/-- The variables `color`, `parent` and `stack` of the search.  The dictionaries have all
identifiers of tasks for keys, and only these are looked up. -/
structure Search where
  color : String → Color
  parent : String → Option String
  stack : List (String × Bool)

/-- The dictionary `adj`, in which the last of several tasks with one identifier counts. -/
def adj (tasks : List Task) (id : String) : List String :=
  match tasks.reverse.find? fun t => t.id = id with
  | some t => t.dependencies
  | none => []

/-- Every dependency has to be a task.  The function `repr` is the one of Python. -/
def validate (repr : String → String) (tasks : List Task) : Except ValueError PUnit.{1} :=
  forM tasks fun t => forM t.dependencies fun dep =>
    if dep ∈ tasks.map (·.id) then pure ⟨⟩
    else throw ⟨"Unknown dependency " ++ repr dep ++ " referenced by task " ++ repr t.id⟩

/-- The nodes from `cur` up to `node`, each the parent of the one before. -/
def climb (parent : String → Option String) (node : String) :
    ℕ → Option String → Option (List String)
  | _, none => some []
  | limit, some cur =>
      if cur = node then some []
      else match limit with
        | 0 => none
        | limit + 1 => (climb parent node limit (parent cur)).map (cur :: ·)

/-- The cycle from `node` to itself along the parents of `cur`. -/
def closeCycle (parent : String → Option String) (limit : ℕ) (node : String)
    (cur : Option String) : Option (List String) :=
  (climb parent node limit cur).map fun path => ([node] ++ path ++ [node]).reverse

/-- A part of the search returns a cycle from the whole search or goes on. -/
inductive Outcome where
  | cycle (path : List String)
  | next (s : Search)

/-- The loop over the neighbours of a node. -/
def pushNeighbors (limit : ℕ) (node : String) : List String → Search → Option Outcome
  | [], s => some (.next s)
  | neighbor :: rest, s =>
      match s.color neighbor with
      | .gray => (closeCycle s.parent limit neighbor (some node)).map .cycle
      | .white => pushNeighbors limit node rest
          { s with
            parent := Function.update s.parent neighbor (some node)
            stack := (neighbor, false) :: s.stack }
      | .black => pushNeighbors limit node rest s

/-- One turn of the loop, for the entry that has been popped. -/
def visit (adj : String → List String) (limit : ℕ) (s : Search) :
    String × Bool → Option Outcome
  | (node, true) => some (.next { s with color := Function.update s.color node .black })
  | (node, false) =>
      match s.color node with
      | .gray => (closeCycle s.parent limit node (s.parent node)).map .cycle
      | .black => some (.next s)
      | .white => pushNeighbors limit node (adj node)
          { s with
            color := Function.update s.color node .gray
            stack := (node, true) :: s.stack }

/-- The loop that empties the stack, for `fuel` turns. -/
def drain (adj : String → List String) (limit : ℕ) : ℕ → Search → Option Outcome
  | fuel, s =>
      match s.stack with
      | [] => some (.next s)
      | entry :: rest =>
          match fuel with
          | 0 => none
          | fuel + 1 =>
              match visit adj limit { s with stack := rest } entry with
              | some (.next s') => drain adj limit fuel s'
              | outcome => outcome

/-- The loop over the starting nodes. -/
def searchAll (adj : String → List String) (limit : ℕ) :
    List String → Search → Option (List String)
  | [], _ => some []
  | start :: rest, s =>
      if s.color start = .white then
        match drain adj limit limit { s with stack := [(start, false)] } with
        | none => none
        | some (.cycle path) => some path
        | some (.next s') => searchAll adj limit rest s'
      else searchAll adj limit rest s

/-- `_find_cycle_path`.  The starting nodes are the set of identifiers, in the order in which it
is iterated. -/
def findCyclePath (repr : String → String) (starts : List String) (limit : ℕ)
    (tasks : List Task) : Option (Except ValueError (List String)) :=
  match validate repr tasks with
  | .error e => some (.error e)
  | .ok _ => (searchAll (adj tasks) limit starts
      { color := fun _ => .white, parent := fun _ => none, stack := [] }).map .ok

/-- `validate_no_cycles`. -/
def validateNoCycles (repr : String → String) (starts : List String) (limit : ℕ)
    (tasks : List Task) : Option (Except ValueError Bool) :=
  (findCyclePath repr starts limit tasks).map fun outcome => outcome.map fun path => path.length = 0

end Agamemnon.Dag
