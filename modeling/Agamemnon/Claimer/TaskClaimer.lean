import Agamemnon.Lib.Machine
import Mathlib.Data.Finset.Basic
import Mathlib.Logic.Function.Basic

/-!
# Claiming the tasks of a team

`advance_dag` fetches the tasks of a team and claims them one after the other.  While it does so
the team is in the set `advancing` and the call has the lock of the team; a call for a team in the
set is skipped.  The locks are created when they are needed, and `cleanup_idle_teams` removes those
of the teams that are not in the set.

The calls are coroutines of one thread.  A call is not disturbed between two points at which it
waits, and an action takes it from one of these points to the next.
-/

namespace Agamemnon

namespace Claimer

/-- `asyncio.Lock`: whether it is taken, and the calls that wait for it, each with whether it has
been woken up.  A call that is cancelled while it waits leaves the list at once. -/
structure Lock where
  locked : Bool
  waiters : List (ℕ × Bool)

namespace Lock

def new : Lock where
  locked := false
  waiters := []

/-- Whether `acquire` takes the lock without waiting. -/
def isFree (lock : Lock) : Bool :=
  !lock.locked && lock.waiters.isEmpty

def wakeUpFirst (lock : Lock) : Lock :=
  match lock.waiters with
  | [] => lock
  | (i, _) :: rest => { lock with waiters := (i, true) :: rest }

def release (lock : Lock) : Lock :=
  { lock with locked := false }.wakeUpFirst

end Lock

/-- What is raised in a call. -/
inductive Failure where
  /-- by `task["id"]` -/
  | keyError
  /-- by the release of a lock that is not taken -/
  | notAcquired
  /-- by a callback -/
  | raised (message : String)
  | cancelled

/-- Where a call is.  While it claims a task it holds the rest of the tasks, each as what
`task["id"]` gives, and the tasks that it has claimed. -/
inductive Call where
  | waiting (lock : ℕ)
  | fetching (lock : ℕ)
  | claiming (lock : ℕ) (taskId : String) (rest : List (Option String)) (claimed : List String)
  | returned (claimed : List String)
  | raised (failure : Failure)

/-- The lock that a call has. -/
def Call.held : Call → Option ℕ
  | fetching lock => some lock
  | claiming lock _ _ _ => some lock
  | _ => none

/-- A call is made, or it calls `get_tasks`. -/
inductive Event where
  | called (i : ℕ) (team : String)
  | fetches (i : ℕ) (team : String)
  deriving DecidableEq

/-- `TaskClaimer`, with the calls and a record of what has happened.  A lock is an object, to which
`teamLocks` refers. -/
structure TaskClaimer where
  locks : ℕ → Lock
  nextLock : ℕ
  teamLocks : List (String × ℕ)
  advancing : Finset String
  coalescedCount : String → ℕ
  calls : ℕ → Option (String × Call)
  history : List Event

inductive Action where
  /-- a new call -/
  | call (i : ℕ) (team : String)
  /-- a call that has been woken up takes the lock -/
  | acquired (i : ℕ)
  /-- `get_tasks` returns -/
  | fetched (i : ℕ) (tasks : List (Option String))
  /-- `claim_task` returns -/
  | claimed (i : ℕ) (ok : Bool)
  /-- something is raised where a call waits -/
  | raises (i : ℕ) (failure : Failure)
  | cleanup

namespace TaskClaimer

def initial : TaskClaimer where
  locks := fun _ => .new
  nextLock := 0
  teamLocks := []
  advancing := ∅
  coalescedCount := fun _ => 0
  calls := fun _ => none
  history := []

def setCall (s : TaskClaimer) (i : ℕ) (team : String) (call : Call) : TaskClaimer :=
  { s with calls := Function.update s.calls i (some (team, call)) }

def setLock (s : TaskClaimer) (lock : ℕ) (value : Lock) : TaskClaimer :=
  { s with locks := Function.update s.locks lock value }

def record (s : TaskClaimer) (event : Event) : TaskClaimer :=
  { s with history := s.history ++ [event] }

/-- The lock of a team, which is created if there is none. -/
def getTeamLock (s : TaskClaimer) (team : String) : ℕ × TaskClaimer :=
  match s.teamLocks.lookup team with
  | some lock => (lock, s)
  | none =>
      (s.nextLock,
        { s.setLock s.nextLock .new with
          nextLock := s.nextLock + 1
          teamLocks := s.teamLocks ++ [(team, s.nextLock)] })

/-- The teams whose locks are removed, and the claimer without them. -/
def cleanupIdleTeams (s : TaskClaimer) : List String × TaskClaimer :=
  ((s.teamLocks.filter fun e => e.1 ∉ s.advancing).map (·.1),
    { s with teamLocks := s.teamLocks.filter fun e => e.1 ∈ s.advancing })

/-- The call has the lock and calls `get_tasks`. -/
def fetch (s : TaskClaimer) (i : ℕ) (team : String) (lock : ℕ) : TaskClaimer :=
  (s.setCall i team (.fetching lock)).record (.fetches i team)

/-- Enter the block that is guarded by a lock. -/
def acquire (s : TaskClaimer) (i : ℕ) (team : String) (lock : ℕ) : TaskClaimer :=
  if (s.locks lock).isFree then
    (s.setLock lock { s.locks lock with locked := true }).fetch i team lock
  else
    (s.setLock lock { s.locks lock with waiters := (s.locks lock).waiters ++ [(i, false)] }).setCall
      i team (.waiting lock)

/-- The `finally` block, and the end of the call. -/
def finish (s : TaskClaimer) (i : ℕ) (team : String) (call : Call) : TaskClaimer :=
  { s with advancing := s.advancing.erase team }.setCall i team call

/-- Leave the block that is guarded by a lock, and the call. -/
def leave (s : TaskClaimer) (i : ℕ) (team : String) (lock : ℕ) (call : Call) : TaskClaimer :=
  if (s.locks lock).locked then (s.setLock lock (s.locks lock).release).finish i team call
  else s.finish i team (.raised .notAcquired)

/-- The loop over the tasks, up to the next call of `claim_task` or its end. -/
def claim (s : TaskClaimer) (i : ℕ) (team : String) (lock : ℕ) :
    List (Option String) → List String → TaskClaimer
  | [], claimed => s.leave i team lock (.returned claimed)
  | none :: _, _ => s.leave i team lock (.raised .keyError)
  | some taskId :: rest, claimed => s.setCall i team (.claiming lock taskId rest claimed)

/-- A call for a team that is being advanced. -/
def skip (s : TaskClaimer) (i : ℕ) (team : String) : TaskClaimer :=
  { s with
    coalescedCount := Function.update s.coalescedCount team (s.coalescedCount team + 1) }.setCall
      i team (.returned [])

/-- A call for another team. -/
def enter (s : TaskClaimer) (i : ℕ) (team : String) : TaskClaimer :=
  let (lock, s) := { s with advancing := insert team s.advancing }.getTeamLock team
  s.acquire i team lock

def advanceDag (s : TaskClaimer) (i : ℕ) (team : String) : TaskClaimer :=
  if team ∈ s.advancing then (s.record (.called i team)).skip i team
  else (s.record (.called i team)).enter i team

/-- What an action does; `none` if no call waits for it. -/
def act (s : TaskClaimer) : Action → Option TaskClaimer
  | .call i team =>
      match s.calls i with
      | none => some (s.advanceDag i team)
      | some _ => none
  | .acquired i =>
      match s.calls i with
      | some (team, .waiting lock) =>
          if (i, true) ∈ (s.locks lock).waiters then some
            ((s.setLock lock ⟨true, (s.locks lock).waiters.erase (i, true)⟩).fetch i team lock)
          else none
      | _ => none
  | .fetched i tasks =>
      match s.calls i with
      | some (team, .fetching lock) => some (s.claim i team lock tasks [])
      | _ => none
  | .claimed i ok =>
      match s.calls i with
      | some (team, .claiming lock taskId rest claimed) => some
          (s.claim i team lock rest (if ok then claimed ++ [taskId] else claimed))
      | _ => none
  | .raises i failure =>
      match s.calls i with
      | some (team, .waiting lock) =>
          let others : Lock :=
            { s.locks lock with waiters := (s.locks lock).waiters.filter (·.1 ≠ i) }
          some ((s.setLock lock (if others.locked then others else others.wakeUpFirst)).finish
            i team (.raised failure))
      | some (team, .fetching lock) => some (s.leave i team lock (.raised failure))
      | some (team, .claiming lock _ _ _) => some (s.leave i team lock (.raised failure))
      | _ => none
  | .cleanup => some s.cleanupIdleTeams.2

end TaskClaimer

end Claimer

end Agamemnon
