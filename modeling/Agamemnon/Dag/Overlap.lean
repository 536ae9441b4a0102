import Agamemnon.Dag.Advance
import Mathlib.Algebra.BigOperators.Fin
import Mathlib.Data.List.Perm.Basic

/-!
# Two scans that overlap

What a call assigns is settled when it takes its lists: it goes through them whatever the other
call does in the meantime.  A task that has been assigned is marked, and a marked task is not
ready, but a call that has its lists does not look at the marks again.
-/

namespace Agamemnon.Dag

namespace Walker

variable {w : Walker} {t a : ℕ}

/-! ### The identifiers stay -/

@[simp]
theorem id_task_assign (t' : ℕ) :
  ((w.assign t a).task t').id = (w.task t').id
  := by
  by_cases h : t' = t
  · simp only [assign, h, Function.update_self]
  · simp only [assign, Function.update_of_ne h]

@[simp]
theorem id_agent_assign (a' : ℕ) :
  ((w.assign t a).agent a').id = (w.agent a').id
  := by
  by_cases h : a' = a
  · simp only [assign, h, Function.update_self]
  · simp only [assign, Function.update_of_ne h]

/-- An assignment does not change what `assign_task` is called with. -/
@[simp]
theorem arguments_assign :
  (w.assign t a).arguments = w.arguments
  := by
  funext t' a'
  rw [arguments, arguments, id_task_assign, id_agent_assign]

/-! ### The assigned tasks are marked -/

def taskIds (w : Walker) : List String :=
  w.tasks.map fun t => (w.task t).id

def IsAssigned (w : Walker) (t : ℕ) : Prop :=
  (w.task t).assignedAgentId.isSome

theorem isAssigned_assign :
  (w.assign t a).IsAssigned t
  := by
  simp only [IsAssigned, assign, Function.update_self, Option.isSome_some]

theorem IsAssigned.assign {t' : ℕ} (h : w.IsAssigned t') :
  (w.assign t a).IsAssigned t'
  := by
  by_cases ht : t' = t
  · rw [ht]
    exact isAssigned_assign
  · simp only [IsAssigned, Walker.assign, Function.update_of_ne ht]
    exact h

theorem not_isAssigned_of_mem (h : t ∈ w.getReadyTasks) :
  ¬ w.IsAssigned t
  := by
  have hready := List.of_mem_filter h
  simp only [Bool.and_eq_true, Option.isNone_iff_eq_none] at hready
  simp [IsAssigned, hready.1.2]

end Walker

/-- The call that an action is about. -/
def ScanAction.about : ScanAction → Fin 2
  | .start i | .agents i _ | .assigned i | .assignmentFailed i _ => i

namespace Scans

variable {client : Client} {settings : Settings} {s s' : Scans} {i j : Fin 2}

/-- The calls of `assign_task` for the two lists. -/
def pairs (client : Client) (w : Walker) (ready available : List ℕ) : List (String × String) :=
  if client = .absent then [] else List.zipWith w.arguments ready available

/-- There is nothing left to call for when one of the lists is at its end. -/
theorem pairs_eq_nil {w : Walker} {ready available : List ℕ}
    (hempty : ∀ t ready' a available', ready = t :: ready' → available = a :: available' → False) :
  pairs client w ready available = []
  := by
  cases ready with
  | nil => simp [pairs]
  | cons t ready =>
    cases available with
    | nil => simp [pairs]
    | cons a available => exact (hempty t ready a available rfl rfl).elim

theorem map_fst_pairs (client : Client) (w : Walker) (ready available : List ℕ) :
  ((pairs client w ready available).map Prod.fst).Sublist (ready.map fun t => (w.task t).id)
  := by
  rw [pairs]
  split_ifs
  · apply List.nil_sublist
  · apply Lists.map_zipWith_sublist_left
    intro t a
    rfl

/-! ### The loop -/

/-- The state in which a call waits for an assignment that it has asked for. -/
def asked (s : Scans) (i : Fin 2) (t a : ℕ) (ready available : List ℕ)
    (assignments : List (ℕ × ℕ)) : Scans where
  walker := s.walker.assign t a
  call := Function.update s.call i (.assigning (t, a) ready available assignments)
  log := s.log ++ [s.walker.arguments t a]
  made := Function.update s.made i (s.made i ++ [s.walker.arguments t a])
  plan := s.plan

/-- The state in which a call has taken its lists. -/
def planned (s : Scans) (client : Client) (i : Fin 2) : Scans :=
  { s with
    plan := Function.update s.plan i
      (pairs client s.walker s.walker.getReadyTasks s.walker.getAvailableAgents) }

/-- The walker has got a list of agents. -/
def withAgents (s : Scans) (agents : List ℕ) : Scans :=
  { s with walker := { s.walker with agents := agents } }

/-! ### Whole runs -/

/-- What an action can do to the call that it is about. -/
inductive Moves (settings : Settings) (i : Fin 2) (s : Scans) : Scans → Prop where
  | stops (message : String) : Moves settings i s (s.setCall i (.raised message))
  | fetches (hcall : s.call i = .idle) : Moves settings i s (s.setCall i .fetching)
  | scans (agents : List ℕ) (hcall : s.call i = .idle ∨ s.call i = .fetching) :
      Moves settings i s (scan settings.client i (s.withAgents agents))
  | goesOn {current : ℕ × ℕ} {ready available : List ℕ} {assignments : List (ℕ × ℕ)}
      (hcall : s.call i = .assigning current ready available assignments) :
      Moves settings i s
        (proceed settings.client i ready available (assignments ++ [current]) s)

theorem moves_of_start (hidle : s.call i = .idle) (hstart : s.start settings i = some s') :
  Moves settings i s s'
  := by
  unfold start at hstart
  split at hstart
  · cases hstart
  · obtain rfl := Option.some.inj hstart
    apply Moves.stops
  · split at hstart
    · obtain rfl := Option.some.inj hstart
      exact .fetches hidle
    · obtain rfl := Option.some.inj hstart
      exact .scans s.walker.agents (.inl hidle)
  · obtain rfl := Option.some.inj hstart
    apply Moves.stops

theorem moves_of_act {action : ScanAction} (hact : s.act settings action = some s') :
  Moves settings action.about s s'
  := by
  cases action with
  | start i =>
    simp only [act] at hact
    split at hact
    next hidle => exact moves_of_start hidle hact
    next => cases hact
  | agents i reply =>
    simp only [act] at hact
    split at hact
    next hfetching =>
      cases reply with
      | fresh agents =>
        obtain rfl := Option.some.inj hact
        exact .scans agents (.inr hfetching)
      | nothing | failed =>
        obtain rfl := Option.some.inj hact
        exact .scans s.walker.agents (.inr hfetching)
    next => cases hact
  | assigned i =>
    simp only [act] at hact
    split at hact
    next hcall =>
      obtain rfl := Option.some.inj hact
      exact .goesOn hcall
    next => cases hact
  | assignmentFailed i message =>
    simp only [act] at hact
    split at hact
    next =>
      obtain rfl := Option.some.inj hact
      exact .stops message
    next => cases hact

/-! ### Assigned twice -/

/-- No task is assigned twice, and no agent is given two tasks. -/
def NoDoubleAssignment (calls : List (String × String)) : Prop :=
  (calls.map Prod.fst).Nodup ∧ (calls.map Prod.snd).Nodup

instance (calls : List (String × String)) : Decidable (NoDoubleAssignment calls) :=
  inferInstanceAs (Decidable (_ ∧ _))

theorem noDoubleAssignment_perm {calls calls' : List (String × String)} (h : calls.Perm calls') :
  NoDoubleAssignment calls ↔ NoDoubleAssignment calls'
  := and_congr (h.map Prod.fst).nodup_iff (h.map Prod.snd).nodup_iff

theorem NoDoubleAssignment.sublist {calls calls' : List (String × String)}
    (h : NoDoubleAssignment calls') (hsub : calls.Sublist calls') :
  NoDoubleAssignment calls
  := ⟨(hsub.map Prod.fst).nodup h.1, (hsub.map Prod.snd).nodup h.2⟩

/-- A client that assigns but does not list the agents. -/
def assigningOnly : Settings where
  client := .assigning
  repr := fun id => "'" ++ id ++ "'"
  starts := ["first", "second"]
  limit := 10

/-- Two pending tasks and three agents that wait for work. -/
def twoPending : Walker where
  tasks := [0, 1]
  task := fun t =>
    { id := if t = 0 then "first" else "second"
      dependencies := []
      status := "pending"
      assignedAgentId := none }
  agents := [0, 1, 2]
  agent := fun a =>
    { id := if a = 0 then "ajax" else if a = 1 then "nestor" else "teucer"
      status := "active"
      sessionStatus := "online"
      currentTaskId := none }

/-- The call `j` starts when the call `i` has ended. -/
def scansApart (i j : Fin 2) : List ScanAction :=
  [.start i, .assigned i, .assigned i, .start j]

/-- The call `j` starts while the call `i` waits for its first assignment: it assigns the second
task to the second agent, which are also the next ones in the lists of the call `i`. -/
def scansOverlap (i j : Fin 2) : List ScanAction :=
  [.start i, .start j, .assigned i]

theorem doubleAssignment_scansOverlap :
  ∃ s, Machine.run (act assigningOnly) (initial twoPending) (scansOverlap 0 1) = some s
    ∧ s.log = [("first", "ajax"), ("second", "nestor"), ("second", "nestor")]
    ∧ ¬ NoDoubleAssignment s.log
  := by
  refine ⟨(Machine.run (act assigningOnly) (initial twoPending) (scansOverlap 0 1)).get
    (by decide), by simp, by decide, by decide⟩

end Scans

end Agamemnon.Dag
