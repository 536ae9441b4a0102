import Agamemnon.Claimer.Exclusion
import Mathlib.Data.List.Induction

/-!
# Calls that are skipped

A call that is skipped relies on the call that is in progress.  But that call has started to fetch
the tasks before.  So a call is followed by a fetch only if it is not skipped itself, or if a later
call for the team is not.
-/

namespace Agamemnon

open Machine

namespace Claimer

namespace TaskClaimer

variable {s s' : TaskClaimer} {i : ℕ} {team team' : String} {lock : ℕ} {call : Call}
  {action : Action} {actions : List Action} {history : List Event}

/-! ### What is recorded -/

theorem history_leave :
  (s.leave i team lock call).history = s.history
  := by
  rw [leave]
  split_ifs <;> rfl

theorem history_claim (tasks : List (Option String)) (claimed : List String) :
  (s.claim i team lock tasks claimed).history = s.history
  := by
  match tasks with
  | [] => exact history_leave
  | none :: rest => exact history_leave
  | some taskId :: rest => rfl

theorem history_getTeamLock :
  (s.getTeamLock team).2.history = s.history
  := by
  rw [getTeamLock]
  split <;> rfl

theorem history_advanceDag (h : Inv s) :
  (s.advanceDag i team).history
    = s.history ++ .called i team :: if team ∈ s.advancing then [] else [.fetches i team]
  := by
  rw [advanceDag]
  split_ifs with hteam
  · rfl
  · rw [enter_eq (inv_record h _) hteam]
    have hget : ((s.record (.called i team)).getTeamLock team).2.history
        = s.history ++ [.called i team] := history_getTeamLock
    simp only [entered, fetch, record, setCall, setLock] at hget ⊢
    rw [hget, List.append_assoc, List.singleton_append]

/-- An action that is not a call leaves no record. -/
theorem history_moves (h : Inv s) (hmoves : Moves s action s')
    (haction : ∀ i team, action ≠ .call i team) :
  s'.history = s.history
  := by
  cases hmoves with
  | calls hfresh => exact absurd rfl (haction _ _)
  | acquires hcall | givesUp hcall => exact absurd hcall h.waits
  | fetched hholds | claimed hholds => apply history_claim
  | fails hholds => apply history_leave
  | cleanup => rfl

/-! ### The last call -/

/-- A call for the team is not followed by a fetch. -/
def Pending (team : String) (history : List Event) : Prop :=
  Lists.Lasting (fun _ event => ∃ i, event = .called i team)
    (fun event => ∃ j, event = .fetches j team) history

/-- The last call for the team has been made while another one was in progress. -/
def LastSkipped (team : String) (actions : List Action) : Prop :=
  Lists.Lasting
    (fun before action => (∃ i, action = .call i team)
      ∧ ∃ s, run act initial before = some s ∧ ∃ j, s.InProgress j team)
    (fun action => ∃ j, action = .call j team) actions

theorem pending_called_self :
  Pending team (history ++ [.called i team])
  := Lists.lasting_snoc.mpr (.inl ⟨i, rfl⟩)

theorem not_pending_fetches_self :
  ¬ Pending team (history ++ [.fetches i team])
  := by
  rw [Pending, Lists.lasting_snoc]
  simp

theorem pending_called_of_ne (hteam : team' ≠ team) :
  Pending team (history ++ [.called i team']) ↔ Pending team history
  := by
  rw [Pending, Lists.lasting_snoc]
  simp [hteam, Pending]

theorem pending_fetches_of_ne (hteam : team' ≠ team) :
  Pending team (history ++ [.fetches i team']) ↔ Pending team history
  := by
  rw [Pending, Lists.lasting_snoc]
  simp [hteam, Pending]

theorem lastSkipped_of_not_call (haction : ∀ i, action ≠ .call i team) :
  LastSkipped team (actions ++ [action]) ↔ LastSkipped team actions
  := by
  rw [LastSkipped, Lists.lasting_snoc]
  simp [haction, LastSkipped]

theorem lastSkipped_call (hinv : Inv s) (hrun : run act initial actions = some s) :
  LastSkipped team (actions ++ [.call i team]) ↔ team ∈ s.advancing
  := by
  rw [LastSkipped, Lists.lasting_snoc, hinv.advancing]
  simp [hrun, InProgress]

/-- A call leaves the calls for its team pending exactly if it is skipped. -/
theorem pending_advanceDag (h : Inv s) :
  Pending team (s.advanceDag i team).history ↔ team ∈ s.advancing
  := by
  rw [history_advanceDag h]
  split_ifs with hteam
  · simp only [hteam, iff_true]
    exact pending_called_self
  · simp only [hteam, iff_false]
    rw [← List.singleton_append, ← List.append_assoc]
    exact not_pending_fetches_self

theorem pending_advanceDag_of_ne (h : Inv s) (hteam : team' ≠ team) :
  Pending team (s.advanceDag i team').history ↔ Pending team s.history
  := by
  rw [history_advanceDag h]
  split_ifs
  · exact pending_called_of_ne hteam
  · rw [← List.singleton_append, ← List.append_assoc, pending_fetches_of_ne hteam,
      pending_called_of_ne hteam]

theorem pending_iff_lastSkipped (hrun : run act initial actions = some s) :
  Pending team s.history ↔ LastSkipped team actions
  := by
  induction actions using List.reverseRecOn generalizing s with
  | nil =>
    obtain rfl := Option.some.inj hrun
    exact iff_of_false Lists.not_lasting_nil Lists.not_lasting_nil
  | append_singleton actions action ih =>
    obtain ⟨s₁, hbefore, hlast⟩ := run_append.mp hrun
    obtain ⟨s₂, hact, hend⟩ := run_cons.mp hlast
    obtain rfl := Option.some.inj hend
    have hinv := inv_run hbefore
    have hmoves := moves_of_act hact
    by_cases haction : ∀ i team, action ≠ .call i team
    · rw [history_moves hinv hmoves haction, ih hbefore,
        lastSkipped_of_not_call fun i => haction i team]
    · push Not at haction
      obtain ⟨i, team', rfl⟩ := haction
      cases hmoves with
      | calls hfresh =>
        obtain rfl | hteam := eq_or_ne team' team
        · rw [pending_advanceDag hinv, lastSkipped_call hinv hbefore]
        · rw [pending_advanceDag_of_ne hinv hteam, ih hbefore, lastSkipped_of_not_call]
          rintro j ⟨⟩
          exact hteam rfl

/-! ### Wake-ups -/

/-- Every call is followed by a fetch of the tasks of its team. -/
def Woken (history : List Event) : Prop :=
  ∀ before i team after, history = before ++ .called i team :: after →
    ∃ j, .fetches j team ∈ after

theorem woken_iff_not_pending :
  Woken history ↔ ∀ team, ¬ Pending team history
  := by
  constructor
  · rintro h team ⟨before, _, after, hhistory, ⟨i, rfl⟩, hafter⟩
    obtain ⟨j, hj⟩ := h before i team after hhistory
    exact hafter _ hj ⟨j, rfl⟩
  · intro h before i team after hhistory
    by_contra hnone
    apply h team
    refine ⟨before, _, after, hhistory, ⟨i, rfl⟩, ?_⟩
    rintro event hevent ⟨j, rfl⟩
    exact hnone ⟨j, hevent⟩

/-- The last call for each team is made when no call for the team is in progress. -/
def LastCallsEnter (actions : List Action) : Prop :=
  ∀ before i team after s, actions = before ++ .call i team :: after →
    (∀ j, .call j team ∉ after) → run act initial before = some s →
      ∀ j, ¬ s.InProgress j team

theorem lastCallsEnter_iff :
  LastCallsEnter actions ↔ ∀ team, ¬ LastSkipped team actions
  := by
  constructor
  · rintro h team ⟨before, _, after, hactions, ⟨⟨i, rfl⟩, s, hrun, j, hj⟩, hafter⟩
    refine h before i team after s hactions ?_ hrun j hj
    intro k hk
    exact hafter _ hk ⟨k, rfl⟩
  · intro h before i team after s hactions hafter hrun j hj
    apply h team
    refine ⟨before, _, after, hactions, ⟨⟨i, rfl⟩, s, hrun, j, hj⟩, ?_⟩
    rintro action haction ⟨k, rfl⟩
    exact hafter k haction

/-- The calls are followed by fetches exactly if the last call for each team is not skipped. -/
theorem woken_iff (actions : List Action) (s : TaskClaimer)
    (hrun : run act initial actions = some s) :
  Woken s.history ↔ LastCallsEnter actions
  := by
  rw [woken_iff_not_pending, lastCallsEnter_iff]
  apply forall_congr'
  intro team
  rw [pending_iff_lastSkipped hrun]

/-- A call while another one claims a task, which returns then. -/
def skippedCall (team : String) : List Action :=
  [.call 0 team, .fetched 0 [some "a"], .call 1 team, .claimed 0 true]

/-- The second call is not followed by a fetch, and all calls have returned. -/
theorem not_woken_skippedCall :
  ∃ s, run act initial (skippedCall "t") = some s
    ∧ s.calls 0 = some ("t", .returned ["a"]) ∧ s.calls 1 = some ("t", .returned [])
    ∧ ¬ Woken s.history
  := by
  refine ⟨(run act initial (skippedCall "t")).get (by decide), by simp, rfl, rfl, ?_⟩
  intro h
  obtain ⟨j, hj⟩ := h [.called 0 "t", .fetches 0 "t"] 1 "t" [] rfl
  cases hj

theorem lastCallsEnter_laterCall :
  ∃ s, run act initial (skippedCall "t" ++ [.call 2 "t"]) = some s
    ∧ LastCallsEnter (skippedCall "t" ++ [.call 2 "t"])
  := by
  have hrun : run act initial (skippedCall "t" ++ [.call 2 "t"])
      = some ((run act initial (skippedCall "t" ++ [.call 2 "t"])).get (by decide))
    := by simp
  refine ⟨_, hrun, ?_⟩
  apply (woken_iff _ _ hrun).mp
  apply woken_iff_not_pending.mpr
  intro team
  change ¬ Pending team ([.called 0 "t", .fetches 0 "t", .called 1 "t", .called 2 "t"]
    ++ [.fetches 2 "t"])
  obtain rfl | hteam := eq_or_ne "t" team
  · exact not_pending_fetches_self
  · rintro ⟨before, _, after, hhistory, ⟨i, rfl⟩, -⟩
    have hmem : .called i team ∈ before ++ .called i team :: after
      := List.mem_append_right before List.mem_cons_self
    rw [← hhistory] at hmem
    simp [hteam.symm] at hmem

end TaskClaimer

end Claimer

end Agamemnon
