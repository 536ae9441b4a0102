import Agamemnon.Dag.Walker
import Agamemnon.Lib.Machine

/-!
# Assigning tasks to agents

`advance_dag` looks for a cycle, asks its client for the agents, takes the lists of the ready tasks
and of the available agents, and then assigns the ones to the others in turn.  It waits for its
client when it asks for the agents and at each assignment; between these points it is not
disturbed.  Here two calls run on one walker, and an action takes one of them from one of these
points to the next.
-/

namespace Agamemnon.Dag

/-- A task, with what a scan reads and writes. -/
structure ScanTask extends Task where
  status : String
  assignedAgentId : Option String

structure Agent where
  id : String
  status : String
  sessionStatus : String
  currentTaskId : Option String

def terminalStatuses : List String :=
  ["completed", "failed", "error", "cancelled"]

/-- `DAGWalker`.  The lists hold references to objects; an object that the client creates has a
reference that nothing else holds. -/
structure Walker where
  tasks : List ℕ
  task : ℕ → ScanTask
  agents : List ℕ
  agent : ℕ → Agent

namespace Walker

def getAvailableAgents (w : Walker) : List ℕ :=
  w.agents.filter fun a =>
    (w.agent a).status = "active" && (w.agent a).sessionStatus = "online"
      && (w.agent a).currentTaskId.isNone

def completedIds (w : Walker) : List String :=
  (w.tasks.filter fun t => (w.task t).status ∈ terminalStatuses).map fun t => (w.task t).id

def getReadyTasks (w : Walker) : List ℕ :=
  w.tasks.filter fun t =>
    (w.task t).status = "pending" && (w.task t).assignedAgentId.isNone
      && (w.task t).dependencies.all (· ∈ w.completedIds)

/-- Mark the agent busy and the task assigned. -/
def assign (w : Walker) (t a : ℕ) : Walker :=
  { w with
    agent := Function.update w.agent a { w.agent a with currentTaskId := some (w.task t).id }
    task := Function.update w.task t { w.task t with assignedAgentId := some (w.agent a).id } }

/-- The arguments of `assign_task`. -/
def arguments (w : Walker) (t a : ℕ) : String × String :=
  ((w.task t).id, (w.agent a).id)

end Walker

/-- Whether there is a client, and whether it has `get_agents`. -/
inductive Client where
  | absent
  | assigning
  | refreshing
  deriving DecidableEq

/-- What the calls share: the client, the function `repr` of Python, the order in which the set of
identifiers is iterated, and a bound for the loops of the search for a cycle. -/
structure Settings where
  client : Client
  repr : String → String
  starts : List String
  limit : ℕ

/-- Where a call of `advance_dag` is.  While it waits for an assignment it holds what is left of
its two lists, and the assignments that it is going to return. -/
inductive Call where
  | idle
  | fetching
  | assigning (current : ℕ × ℕ) (ready available : List ℕ) (assignments : List (ℕ × ℕ))
  | returned (assignments : List (ℕ × ℕ))
  | raised (message : String)

/-- Two calls on one walker.  The calls of `assign_task` are recorded in their order and for each
call of `advance_dag`, as is what a call was going to do when it took its lists. -/
structure Scans where
  walker : Walker
  call : Fin 2 → Call
  log : List (String × String)
  made : Fin 2 → List (String × String)
  plan : Fin 2 → List (String × String)

/-- The answer of `get_agents`. -/
inductive AgentsReply where
  | fresh (agents : List ℕ)
  | nothing
  | failed

/-- A call starts, or the client answers. -/
inductive ScanAction where
  | start (i : Fin 2)
  | agents (i : Fin 2) (reply : AgentsReply)
  | assigned (i : Fin 2)
  | assignmentFailed (i : Fin 2) (message : String)

namespace Scans

/-- Two calls that have not started. -/
def initial (w : Walker) : Scans where
  walker := w
  call := fun _ => .idle
  log := []
  made := fun _ => []
  plan := fun _ => []

def setCall (s : Scans) (i : Fin 2) (call : Call) : Scans :=
  { s with call := Function.update s.call i call }

/-- The loop up to the next point where it waits, or to its end. -/
def proceed (client : Client) (i : Fin 2) :
    List ℕ → List ℕ → List (ℕ × ℕ) → Scans → Scans
  | t :: ready, a :: available, assignments, s =>
      let s' := { s with walker := s.walker.assign t a }
      if client = .absent then
        proceed client i ready available (assignments ++ [(t, a)]) s'
      else
        { s'.setCall i (.assigning (t, a) ready available assignments) with
          log := s.log ++ [s.walker.arguments t a]
          made := Function.update s.made i (s.made i ++ [s.walker.arguments t a]) }
  | _, _, assignments, s => s.setCall i (.returned assignments)

/-- Take the two lists and enter the loop. -/
def scan (client : Client) (i : Fin 2) (s : Scans) : Scans :=
  let available := s.walker.getAvailableAgents
  let ready := s.walker.getReadyTasks
  let plan := if client = .absent then [] else List.zipWith s.walker.arguments ready available
  proceed client i ready available [] { s with plan := Function.update s.plan i plan }

/-- The start of a call. -/
def start (settings : Settings) (i : Fin 2) (s : Scans) : Option Scans :=
  match findCyclePath settings.repr settings.starts settings.limit
    (s.walker.tasks.map fun t => (s.walker.task t).toTask) with
  | none => none
  | some (.error e) => some (s.setCall i (.raised e.message))
  | some (.ok []) =>
      match settings.client with
      | .refreshing => some (s.setCall i .fetching)
      | client => some (s.scan client i)
  | some (.ok path) => some (s.setCall i (.raised
      ("Cycle detected in task DAG: [" ++ String.intercalate ", " (path.map settings.repr) ++ "]")))

/-- What an action does; `none` if the call does not wait for it. -/
def act (settings : Settings) (s : Scans) : ScanAction → Option Scans
  | .start i =>
      match s.call i with
      | .idle => s.start settings i
      | _ => none
  | .agents i reply =>
      match s.call i with
      | .fetching =>
          match reply with
          | .fresh agents => some
              (scan settings.client i { s with walker := { s.walker with agents := agents } })
          | _ => some (scan settings.client i s)
      | _ => none
  | .assigned i =>
      match s.call i with
      | .assigning current ready available assignments => some
          (s.proceed settings.client i ready available (assignments ++ [current]))
      | _ => none
  | .assignmentFailed i message =>
      match s.call i with
      | .assigning _ _ _ _ => some (s.setCall i (.raised message))
      | _ => none

end Scans

end Agamemnon.Dag
