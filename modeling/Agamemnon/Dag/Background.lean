import Agamemnon.Dag.Clear

/-!
# The background scan

`_background_scan_loop` scans once in every interval and goes on when a scan fails, so that a later
scan can do what an earlier one did not.  A task whose assignment fails is not among what a later
scan can do.  `advance_dag` marks the task and the agent before it calls `assign_task`, and nothing
takes the marks back when the call raises: the task is never ready again.
-/

namespace Agamemnon.Dag

open Machine

/-! ### The loop -/

/-- What the client answers a call that waits for it. -/
inductive Answer where
  | agents (reply : AgentsReply)
  | assigned
  | failed (message : String)

/-- The answer to the call `i`. -/
def Answer.action (i : Fin 2) : Answer → ScanAction
  | .agents reply => .agents i reply
  | .assigned => .assigned i
  | .failed message => .assignmentFailed i message

/-- A call that has not started, or has ended. -/
def Call.isOver : Call → Bool
  | .idle | .returned _ | .raised _ => true
  | .fetching | .assigning _ _ _ _ => false

/-- The assignment that a call waits for. -/
def Call.current : Call → Option (ℕ × ℕ)
  | .assigning current _ _ _ => some current
  | _ => none

/-- The tasks that a call is assigning or still has to come to. -/
def Call.tasks : Call → List ℕ
  | .assigning current ready _ _ => current.1 :: ready
  | _ => []

/-- `_background_scan_loop`.  Its scans are calls with one number, one after the other; while there
is none, it waits for `stop_event`. -/
structure Background where
  scans : Scans
  stopEvent : Bool

/-- The wait for `stop_event` times out, `stop_event` is set, or the client answers a scan. -/
inductive BackgroundAction where
  | timeout
  | stop
  | answer (answer : Answer)

namespace Background

def initial (w : Walker) : Background where
  scans := Scans.initial w
  stopEvent := false

/-- What an action does when the scans are the calls with the number `i`; `none` if the loop does
not wait for the action.  A scan that has raised an exception is over like one that has returned. -/
def act (settings : Settings) (i : Fin 2) (b : Background) : BackgroundAction → Option Background
  | .timeout =>
      if b.stopEvent = false ∧ (b.scans.call i).isOver then
        ((Scans.initial b.scans.walker).act settings (.start i)).map fun s => { b with scans := s }
      else none
  | .stop => some { b with stopEvent := true }
  | .answer answer =>
      (b.scans.act settings (answer.action i)).map fun s => { b with scans := s }

end Background

/-! ### The marks of an assignment -/

namespace Walker

variable {w : Walker} {t a : ℕ}

def IsBusy (w : Walker) (a : ℕ) : Prop :=
  (w.agent a).currentTaskId.isSome

theorem isBusy_assign :
  (w.assign t a).IsBusy a
  := by
  simp only [IsBusy, assign, Function.update_self, Option.isSome_some]

theorem IsBusy.assign {a' : ℕ} (h : w.IsBusy a') :
  (w.assign t a).IsBusy a'
  := by
  by_cases ha : a' = a
  · rw [ha]
    exact isBusy_assign
  · simp only [IsBusy, Walker.assign, Function.update_of_ne ha]
    exact h

theorem not_isBusy_of_mem (h : a ∈ w.getAvailableAgents) :
  ¬ w.IsBusy a
  := by
  have havailable := List.of_mem_filter h
  simp only [Bool.and_eq_true, Option.isNone_iff_eq_none] at havailable
  simp [IsBusy, havailable.2]

/-- The task has been assigned, and the agent is busy. -/
structure MarkedPair (w : Walker) (p : ℕ × ℕ) : Prop where
  task : w.IsAssigned p.1
  agent : w.IsBusy p.2

theorem MarkedPair.assign {p : ℕ × ℕ} (h : w.MarkedPair p) :
  (w.assign t a).MarkedPair p
  := ⟨h.task.assign, h.agent.assign⟩

end Walker

namespace Scans

variable {settings : Settings} {client : Client} {s s' : Scans} {i : Fin 2} {t : ℕ}

/-! ### What a call waits for is marked -/

def CurrentMarked (s : Scans) : Prop :=
  ∀ (i : Fin 2) (p : ℕ × ℕ), (s.call i).current = some p → s.walker.MarkedPair p

theorem currentMarked_initial (w : Walker) :
  CurrentMarked (initial w)
  := nofun

variable {call : Call}

theorem CurrentMarked.setCall (h : CurrentMarked s) (hcall : call.current = none) :
  CurrentMarked (s.setCall i call)
  := by
  intro j p hp
  by_cases hj : j = i
  · simp only [Scans.setCall, hj, Function.update_self, hcall] at hp
    contradiction
  · simp only [Scans.setCall, Function.update_of_ne hj] at hp
    exact h j p hp

variable {assignments : List (ℕ × ℕ)} {ready available : List ℕ} {a : ℕ}

theorem CurrentMarked.asked (h : CurrentMarked s) :
  CurrentMarked (s.asked i t a ready available assignments)
  := by
  intro j p hp
  by_cases hj : j = i
  · simp only [Scans.asked, hj, Function.update_self, Call.current] at hp
    obtain rfl := Option.some.inj hp
    exact ⟨Walker.isAssigned_assign, Walker.isBusy_assign⟩
  · simp only [Scans.asked, Function.update_of_ne hj] at hp
    exact (h j p hp).assign

theorem CurrentMarked.proceed (h : CurrentMarked s) (client : Client) (i : Fin 2)
    (ready available : List ℕ) (assignments : List (ℕ × ℕ)) :
  CurrentMarked (proceed client i ready available assignments s)
  := by
  fun_induction Scans.proceed client i ready available assignments s with
  | case1 t ready a available assignments s s' hclient ih =>
    apply ih
    intro j p hp
    exact (h j p hp).assign
  | case2 t ready a available assignments s s' hclient => exact h.asked
  | case3 ready available assignments s hempty => exact h.setCall rfl

theorem CurrentMarked.moves (h : CurrentMarked s) (hmoves : Moves settings i s s') :
  CurrentMarked s'
  := by
  cases hmoves with
  | stops message | fetches hidle => exact h.setCall rfl
  | scans agents hcall =>
    have hplanned : CurrentMarked ((s.withAgents agents).planned settings.client i)
      := fun j p hp => ⟨(h j p hp).task, (h j p hp).agent⟩
    exact hplanned.proceed _ _ _ _ _
  | goesOn hcall => exact h.proceed _ _ _ _ _

theorem currentMarked_run {w : Walker} {actions : List ScanAction}
    (hrun : run (act settings) (initial w) actions = some s) :
  CurrentMarked s
  := by
  apply run_invariant _ (currentMarked_initial w) hrun
  intro s action s' h hact
  exact h.moves (moves_of_act hact)

/-! ### A task that has been assigned is not tried again -/

/-- The task has been assigned, and the call does not hold it. -/
structure Lost (t : ℕ) (i : Fin 2) (s : Scans) : Prop where
  assigned : s.walker.IsAssigned t
  dropped : t ∉ (s.call i).tasks

theorem lost_setCall (hassigned : s.walker.IsAssigned t) (hcall : t ∉ call.tasks) :
  Lost t i (s.setCall i call)
  where
  assigned := hassigned
  dropped := by simpa only [setCall, Function.update_self] using hcall

theorem lost_asked (hassigned : s.walker.IsAssigned t) {t' : ℕ} (hready : t ∉ t' :: ready) :
  Lost t i (s.asked i t' a ready available assignments)
  where
  assigned := hassigned.assign
  dropped := by simpa only [asked, Function.update_self, Call.tasks] using hready

theorem lost_proceed (hassigned : s.walker.IsAssigned t) (hready : t ∉ ready) :
  Lost t i (proceed client i ready available assignments s)
  := by
  fun_induction proceed client i ready available assignments s with
  | case1 t' ready a available assignments s s' hclient ih =>
    exact ih hassigned.assign (List.not_mem_of_not_mem_cons hready)
  | case2 t' ready a available assignments s s' hclient => exact lost_asked hassigned hready
  | case3 ready available assignments s hempty => exact lost_setCall hassigned List.not_mem_nil

theorem Lost.moves (h : Lost t i s) (hmoves : Moves settings i s s') :
  Lost t i s'
  := by
  cases hmoves with
  | stops message | fetches hidle => exact lost_setCall h.assigned List.not_mem_nil
  | scans agents hcall =>
    apply lost_proceed
    · exact h.assigned
    · intro hready
      exact Walker.not_isAssigned_of_mem hready h.assigned
  | goesOn hcall =>
    have hdropped := h.dropped
    rw [hcall] at hdropped
    exact lost_proceed h.assigned (List.not_mem_of_not_mem_cons hdropped)

end Scans

namespace Background

variable {settings : Settings} {i : Fin 2} {b b' : Background} {t : ℕ}

/-- The scan of the loop waits for an assignment of the task. -/
def Tries (b : Background) (i : Fin 2) (t : ℕ) : Prop :=
  ∃ a, (b.scans.call i).current = some (t, a)

theorem lost_act (h : Scans.Lost t i b.scans) {action : BackgroundAction}
    (hact : b.act settings i action = some b') :
  Scans.Lost t i b'.scans
  := by
  cases action with
  | timeout =>
    rw [act, Option.ite_none_right_eq_some] at hact
    obtain ⟨s, hs, rfl⟩ := Option.map_eq_some_iff.mp hact.2
    have hinitial : Scans.Lost t i (Scans.initial b.scans.walker) := ⟨h.assigned, List.not_mem_nil⟩
    exact hinitial.moves (Scans.moves_of_act hs)
  | stop =>
    obtain rfl := Option.some.inj hact
    exact ⟨h.assigned, h.dropped⟩
  | answer answer =>
    obtain ⟨s, hs, rfl⟩ := Option.map_eq_some_iff.mp hact
    have hmoves := Scans.moves_of_act hs
    cases answer with
    | agents | assigned | failed => exact h.moves hmoves

theorem lost_run {w : Walker} {actions : List BackgroundAction} (h : w.IsAssigned t)
    (hrun : run (act settings i) (initial w) actions = some b) :
  Scans.Lost t i b.scans
  := by
  apply run_invariant (P := fun b => Scans.Lost t i b.scans) _ ⟨h, List.not_mem_nil⟩ hrun
  intro b action b' hlost hact
  exact lost_act hlost hact

theorem not_tries_of_lost (h : Scans.Lost t i b.scans) :
  ¬ b.Tries i t
  := by
  rintro ⟨a, hcurrent⟩
  apply h.dropped
  cases hcall : b.scans.call i with
  | assigning current ready available assignments =>
    rw [hcall] at hcurrent
    obtain rfl := Option.some.inj hcurrent
    exact List.mem_cons_self
  | idle | fetching | returned | raised =>
    rw [hcall] at hcurrent
    contradiction

end Background

namespace Scans

/-- An assignment that fails leaves the walker as it is. -/
theorem walker_assignmentFailed {settings : Settings} {s s' : Scans} {i : Fin 2} {message : String}
    (hfails : s.act settings (.assignmentFailed i message) = some s') :
  s'.walker = s.walker
  := by
  simp only [act] at hfails
  split at hfails
  next =>
    obtain rfl := Option.some.inj hfails
    rfl
  next => contradiction

/-- Whatever the tasks and the agents are, and wherever two calls are when `assign_task` raises, the
task is not ready afterwards, the agent is not available, and no later scan of the loop tries to
assign the task. -/
theorem not_retried (settings : Settings) (w : Walker) (actions : List ScanAction) (s s' : Scans)
    (i : Fin 2) (t a : ℕ) (message : String)
    (hrun : run (act settings) (initial w) actions = some s)
    (hcurrent : (s.call i).current = some (t, a))
    (hfails : s.act settings (.assignmentFailed i message) = some s') :
  t ∉ s'.walker.getReadyTasks ∧ a ∉ s'.walker.getAvailableAgents
    ∧ ∀ (j : Fin 2) (later : List BackgroundAction) (b : Background),
      run (Background.act settings j) (Background.initial s'.walker) later = some b →
      t ∉ b.scans.walker.getReadyTasks ∧ ¬ b.Tries j t
  := by
  have hmarked : s'.walker.MarkedPair (t, a) := by
    rw [walker_assignmentFailed hfails]
    exact currentMarked_run hrun i (t, a) hcurrent
  refine ⟨fun hready => Walker.not_isAssigned_of_mem hready hmarked.task,
    fun havailable => Walker.not_isBusy_of_mem havailable hmarked.agent, ?_⟩
  intro j later b hlater
  have hlost := Background.lost_run hmarked.task hlater
  use fun hready => Walker.not_isAssigned_of_mem hready hlost.assigned
  exact Background.not_tries_of_lost hlost

/-- The first assignment fails, and the loop scans again. -/
theorem not_retried_twoPending :
  ∃ s s' b, run (act assigningOnly) (initial twoPending) [.start 0] = some s
    ∧ s.act assigningOnly (.assignmentFailed 0 "timeout") = some s'
    ∧ run (Background.act assigningOnly 0) (Background.initial s'.walker) [.timeout]
      = some b
    ∧ 0 ∉ b.scans.walker.getReadyTasks ∧ ¬ b.Tries 0 0
  := by
  refine ⟨_, _, _, rfl, rfl, rfl, ?_⟩
  have hlater := not_retried assigningOnly twoPending [.start 0] _ _ 0 0 0 "timeout" rfl rfl rfl
  exact hlater.2.2 0 [.timeout] _ rfl

/-- The task is ready before the call and not after it, and the agent is available before the call
and not after it. -/
theorem lost_twoPending :
  0 ∈ twoPending.getReadyTasks ∧ 0 ∈ twoPending.getAvailableAgents
    ∧ ∃ s, run (act assigningOnly) (initial twoPending)
        [.start 0, .assignmentFailed 0 "timeout"] = some s
      ∧ s.log = [("first", "ajax")]
      ∧ ¬ (0 ∈ s.walker.getReadyTasks ∧ 0 ∈ s.walker.getAvailableAgents)
  := by
  exact ⟨by decide, by decide, _, rfl, rfl, by decide⟩

end Scans

end Agamemnon.Dag
