import Agamemnon.Claimer.TaskClaimer
import Agamemnon.Lib.Lists

/-!
# One call at a time for a team

A team is in the set `advancing` exactly while a call for it has the lock of the team.  So a call
that is not skipped finds the lock free, and it never waits.
-/

namespace Agamemnon

namespace Claimer

namespace TaskClaimer

/-- The call is for the team and has the lock: it is between its `get_tasks` and its last
`claim_task`. -/
def Holds (s : TaskClaimer) (i : ℕ) (team : String) (lock : ℕ) : Prop :=
  ∃ call, s.calls i = some (team, call) ∧ call.held = some lock

def lockOf (s : TaskClaimer) (team : String) : Option ℕ :=
  s.teamLocks.lookup team

/-! ### What an action does -/

/-- What an action can do. -/
inductive Moves (s : TaskClaimer) : Action → TaskClaimer → Prop where
  | calls {i : ℕ} {team : String} (hfresh : s.calls i = none) :
      Moves s (.call i team) (s.advanceDag i team)
  | acquires {i : ℕ} {team : String} {lock : ℕ} {value : Lock}
      (hcall : s.calls i = some (team, .waiting lock)) :
      Moves s (.acquired i) ((s.setLock lock value).fetch i team lock)
  | fetched {i : ℕ} {team : String} {lock : ℕ} {tasks : List (Option String)}
      (hholds : s.Holds i team lock) :
      Moves s (.fetched i tasks) (s.claim i team lock tasks [])
  | claimed {i : ℕ} {team : String} {lock : ℕ} {ok : Bool} {rest : List (Option String)}
      {claimed : List String} (hholds : s.Holds i team lock) :
      Moves s (.claimed i ok) (s.claim i team lock rest claimed)
  | givesUp {i : ℕ} {team : String} {lock : ℕ} {failure : Failure} {value : Lock}
      (hcall : s.calls i = some (team, .waiting lock)) :
      Moves s (.raises i failure) ((s.setLock lock value).finish i team (.raised failure))
  | fails {i : ℕ} {team : String} {lock : ℕ} {failure : Failure}
      (hholds : s.Holds i team lock) :
      Moves s (.raises i failure) (s.leave i team lock (.raised failure))
  | cleanup : Moves s .cleanup s.cleanupIdleTeams.2

variable {s s' : TaskClaimer} {i j : ℕ} {team team' : String} {lock lock' : ℕ} {call : Call}
  {action : Action}

theorem moves_of_act (hact : s.act action = some s') :
  Moves s action s'
  := by
  cases action with
  | call i team =>
    simp only [act] at hact
    split at hact
    next hfresh =>
      obtain rfl := Option.some.inj hact
      exact .calls hfresh
    next => cases hact
  | acquired i =>
    simp only [act] at hact
    split at hact
    next team lock hcall =>
      split_ifs at hact
      obtain rfl := Option.some.inj hact
      exact .acquires hcall
    next => cases hact
  | fetched i tasks =>
    simp only [act] at hact
    split at hact
    next team lock hcall =>
      obtain rfl := Option.some.inj hact
      exact .fetched ⟨_, hcall, rfl⟩
    next => cases hact
  | claimed i ok =>
    simp only [act] at hact
    split at hact
    next team lock taskId rest claimed hcall =>
      obtain rfl := Option.some.inj hact
      exact .claimed ⟨_, hcall, rfl⟩
    next => cases hact
  | raises i failure =>
    simp only [act] at hact
    split at hact
    next team lock hcall =>
      obtain rfl := Option.some.inj hact
      exact .givesUp hcall
    next team lock hcall =>
      obtain rfl := Option.some.inj hact
      exact .fails ⟨_, hcall, rfl⟩
    next team lock _ _ _ hcall =>
      obtain rfl := Option.some.inj hact
      exact .fails ⟨_, hcall, rfl⟩
    next => cases hact
  | cleanup =>
    obtain rfl := Option.some.inj hact
    exact .cleanup

/-! ### The invariant -/

structure Inv (s : TaskClaimer) : Prop where
  waits : ∀ {i team lock}, s.calls i ≠ some (team, .waiting lock)
  waiters : ∀ lock, (s.locks lock).waiters = []
  advancing : ∀ team, team ∈ s.advancing ↔ ∃ i lock, s.Holds i team lock
  alone : ∀ {i j team lock lock'}, s.Holds i team lock → s.Holds j team lock' → i = j
  holds : ∀ {i team lock}, s.Holds i team lock → s.lockOf team = some lock
  locked : ∀ {team lock}, s.lockOf team = some lock →
    ((s.locks lock).locked = true ↔ team ∈ s.advancing)
  own : ∀ {team team' lock}, s.lockOf team = some lock → s.lockOf team' = some lock →
    team = team'
  made : ∀ {team lock}, s.lockOf team = some lock → lock < s.nextLock

theorem inv_initial :
  Inv initial
  where
  waits := nofun
  waiters := fun _ => rfl
  advancing := by simp [initial, Holds]
  alone := nofun
  holds := nofun
  locked := nofun
  own := nofun
  made := nofun

theorem holds_setCall :
  (s.setCall i team call).Holds j team' lock ↔
    if j = i then team' = team ∧ call.held = some lock else s.Holds j team' lock
  := by
  split_ifs with hj
  · simp only [Holds, setCall, hj, Function.update_self, Option.some.injEq, Prod.mk.injEq]
    constructor
    · rintro ⟨call', ⟨rfl, rfl⟩, hheld⟩
      exact ⟨rfl, hheld⟩
    · rintro ⟨rfl, hheld⟩
      exact ⟨call, ⟨rfl, rfl⟩, hheld⟩
  · simp only [Holds, setCall, Function.update_of_ne hj]

theorem waits_setCall (h : ∀ {j team lock}, s.calls j ≠ some (team, .waiting lock))
    (hcall : ∀ lock, call ≠ .waiting lock) :
  (s.setCall i team call).calls j ≠ some (team', .waiting lock)
  := by
  by_cases hj : j = i
  · simp only [setCall, hj, Function.update_self]
    rintro ⟨⟩
    exact hcall lock rfl
  · simp only [setCall, Function.update_of_ne hj]
    apply h

theorem inv_record (h : Inv s) (event : Event) :
  Inv (s.record event)
  := ⟨h.waits, h.waiters, h.advancing, h.alone, h.holds, h.locked, h.own, h.made⟩

/-- A call that goes on with the lock that it has, or without one. -/
theorem inv_setCall (h : Inv s) (hcall : ∀ lock, call ≠ .waiting lock)
    (hholds : ∀ team' lock, s.Holds i team' lock ↔ team' = team ∧ call.held = some lock) :
  Inv (s.setCall i team call)
  := by
  have hsame : ∀ {j team' lock}, (s.setCall i team call).Holds j team' lock
      ↔ s.Holds j team' lock := by
    intro j team' lock
    rw [holds_setCall]
    split_ifs with hj
    · rw [hj, hholds]
    · rfl
  constructor
  · exact waits_setCall h.waits hcall
  · exact h.waiters
  · intro team'
    simp only [hsame]
    exact h.advancing team'
  · intro i j team' lock lock' hi hj
    exact h.alone (hsame.mp hi) (hsame.mp hj)
  · intro i team' lock hi
    exact h.holds (hsame.mp hi)
  · exact h.locked
  · exact h.own
  · exact h.made

/-! ### A call that is skipped -/

theorem not_holds_of_fresh (hfresh : s.calls i = none) :
  ¬ s.Holds i team lock
  := by
  rintro ⟨call, hcall, -⟩
  rw [hfresh] at hcall
  cases hcall

theorem inv_skip (h : Inv s) (hfresh : s.calls i = none) :
  Inv (s.skip i team)
  := by
  have hcounted : Inv { s with
      coalescedCount := Function.update s.coalescedCount team (s.coalescedCount team + 1) }
    := ⟨h.waits, h.waiters, h.advancing, h.alone, h.holds, h.locked, h.own, h.made⟩
  apply inv_setCall hcounted (by simp)
  intro team' lock
  simp only [Call.held, reduceCtorEq, and_false, iff_false]
  exact not_holds_of_fresh hfresh

/-! ### A call that gets the lock -/

/-- A team that is being advanced has a lock. -/
theorem not_mem_advancing (h : Inv s) (hnone : s.lockOf team = none) :
  team ∉ s.advancing
  := by
  intro hmem
  obtain ⟨i, lock, hholds⟩ := (h.advancing team).mp hmem
  have hlock := h.holds hholds
  rw [hnone] at hlock
  cases hlock

theorem lockOf_append (hnone : s.lockOf team = none) :
  (s.teamLocks ++ [(team, s.nextLock)]).lookup team' = some lock ↔
    s.lockOf team' = some lock ∨ team' = team ∧ lock = s.nextLock
  := by
  rw [List.lookup_append, Lists.lookup_cons, List.lookup_nil, lockOf]
  rw [lockOf] at hnone
  by_cases hteam : team' = team
  · simp [hteam, hnone, eq_comm]
  · simp [hteam]

theorem inv_getTeamLock (h : Inv s) (team : String) :
  Inv (s.getTeamLock team).2
  := by
  rw [getTeamLock]
  split
  next lock hlock => exact h
  next hnone =>
    have hold : ∀ {team lock}, s.lockOf team = some lock →
        Function.update s.locks s.nextLock .new lock = s.locks lock
      := fun hlock => Function.update_of_ne (h.made hlock).ne _ _
    constructor
    · exact h.waits
    · intro lock
      simp only [setLock]
      by_cases hlock : lock = s.nextLock
      · rw [hlock, Function.update_self, Lock.new]
      · rw [Function.update_of_ne hlock, h.waiters]
    · exact h.advancing
    · exact h.alone
    · intro i team' lock hholds
      exact (lockOf_append hnone).mpr (.inl (h.holds hholds))
    · intro team' lock hlock
      simp only [setLock]
      obtain hlock | ⟨rfl, rfl⟩ := (lockOf_append hnone).mp hlock
      · rw [hold hlock]
        exact h.locked hlock
      · rw [Function.update_self]
        simp [Lock.new, not_mem_advancing h hnone]
    · intro team₁ team₂ lock h₁ h₂
      obtain hold₁ | ⟨rfl, hnew₁⟩ := (lockOf_append hnone).mp h₁
      · obtain hold₂ | ⟨-, hnew₂⟩ := (lockOf_append hnone).mp h₂
        · exact h.own hold₁ hold₂
        · exact absurd hnew₂ (h.made hold₁).ne
      · obtain hold₂ | ⟨rfl, -⟩ := (lockOf_append hnone).mp h₂
        · exact absurd hnew₁ (h.made hold₂).ne
        · rfl
    · intro team' lock hlock
      obtain hlock | ⟨-, rfl⟩ := (lockOf_append hnone).mp hlock
      · exact Nat.lt_succ_of_lt (h.made hlock)
      · exact Nat.lt_succ_self _

theorem lockOf_getTeamLock (s : TaskClaimer) (team : String) :
  (s.getTeamLock team).2.lockOf team = some (s.getTeamLock team).1
  := by
  rw [getTeamLock]
  split
  next lock hlock => exact hlock
  next hnone => exact (lockOf_append hnone).mpr (.inr ⟨rfl, rfl⟩)

theorem frame_getTeamLock (s : TaskClaimer) (team : String) :
  (s.getTeamLock team).2.advancing = s.advancing ∧ (s.getTeamLock team).2.calls = s.calls
  := by
  rw [getTeamLock]
  split <;> exact ⟨rfl, rfl⟩

/-- The claimer when a call has got the lock of its team. -/
def entered (s : TaskClaimer) (i : ℕ) (team : String) (lock : ℕ) : TaskClaimer :=
  ({ s with advancing := insert team s.advancing }.setLock lock ⟨true, []⟩).fetch i team lock

theorem inv_entered (h : Inv s) (hfresh : s.calls i = none) (hlock : s.lockOf team = some lock)
    (hteam : team ∉ s.advancing) :
  Inv (s.entered i team lock)
  := by
  have hholds : ∀ {j team' lock'}, (s.entered i team lock).Holds j team' lock' ↔
      if j = i then team' = team ∧ lock = lock' else s.Holds j team' lock' := by
    intro j team' lock'
    apply holds_setCall.trans
    simp only [Call.held, Option.some.injEq]
    rfl
  have hothers : ∀ {j lock'}, ¬ s.Holds j team lock'
    := fun hj => hteam ((h.advancing team).mpr ⟨_, _, hj⟩)
  constructor
  · exact waits_setCall h.waits (by simp)
  · intro lock'
    simp only [entered, fetch, record, setCall, setLock]
    by_cases hsame : lock' = lock
    · rw [hsame, Function.update_self]
    · rw [Function.update_of_ne hsame, h.waiters]
  · intro team'
    simp only [hholds]
    simp only [entered, fetch, record, setCall, setLock, Finset.mem_insert]
    constructor
    · rintro (rfl | hmem)
      · exact ⟨i, lock, by simp⟩
      · obtain ⟨j, lock', hj⟩ := (h.advancing team').mp hmem
        have hne : j ≠ i := by
          rintro rfl
          exact not_holds_of_fresh hfresh hj
        exact ⟨j, lock', by rwa [if_neg hne]⟩
    · rintro ⟨j, lock', hj⟩
      split_ifs at hj
      · exact .inl hj.1
      · exact .inr ((h.advancing team').mpr ⟨j, lock', hj⟩)
  · intro j k team' lock₁ lock₂ hj hk
    rw [hholds] at hj hk
    split_ifs at hj with hji
    · obtain ⟨rfl, -⟩ := hj
      split_ifs at hk with hki
      · rw [hji, hki]
      · exact absurd hk hothers
    · split_ifs at hk with hki
      · obtain ⟨rfl, -⟩ := hk
        exact absurd hj hothers
      · exact h.alone hj hk
  · intro j team' lock' hj
    rw [hholds] at hj
    split_ifs at hj
    · obtain ⟨rfl, rfl⟩ := hj
      exact hlock
    · exact h.holds hj
  · intro team' lock' hlock'
    simp only [entered, fetch, record, setCall, setLock, Finset.mem_insert]
    by_cases hsame : lock' = lock
    · rw [hsame, Function.update_self]
      simp [h.own (hsame ▸ hlock') hlock]
    · have hother : team' ≠ team := by
        rintro rfl
        exact hsame (Option.some.inj (hlock'.symm.trans hlock))
      rw [Function.update_of_ne hsame]
      simp only [hother, false_or]
      exact h.locked hlock'
  · exact h.own
  · exact h.made

/-- A call that is not skipped gets the lock at once. -/
theorem enter_eq (h : Inv s) (hteam : team ∉ s.advancing) :
  s.enter i team = (s.getTeamLock team).2.entered i team (s.getTeamLock team).1
  := by
  have hget : ({ s with advancing := insert team s.advancing }).getTeamLock team
      = ((s.getTeamLock team).1,
        { (s.getTeamLock team).2 with advancing := insert team (s.getTeamLock team).2.advancing })
    := by
    simp only [getTeamLock]
    split <;> rfl
  have hinv := inv_getTeamLock h team
  have hunlocked : ((s.getTeamLock team).2.locks (s.getTeamLock team).1).locked = false := by
    rw [← Bool.not_eq_true, hinv.locked (lockOf_getTeamLock s team), (frame_getTeamLock s team).1]
    exact hteam
  have hlock : (s.getTeamLock team).2.locks (s.getTeamLock team).1 = .new := by
    have hwaiters := hinv.waiters (s.getTeamLock team).1
    rw [Lock.new, ← hunlocked, ← hwaiters]
  rw [enter, hget]
  simp only [acquire, hlock]
  rfl

theorem inv_enter (h : Inv s) (hfresh : s.calls i = none) (hteam : team ∉ s.advancing) :
  Inv (s.enter i team)
  := by
  obtain ⟨hadvancing, hcalls⟩ := frame_getTeamLock s team
  rw [enter_eq h hteam]
  apply inv_entered (inv_getTeamLock h team) _ (lockOf_getTeamLock s team)
  · rwa [hadvancing]
  · rwa [hcalls]

/-! ### A call that ends -/

theorem Holds.team_eq (h : s.Holds i team lock) (h' : s.Holds i team' lock') :
  team' = team
  := by
  obtain ⟨call, hcall, -⟩ := h
  obtain ⟨call', hcall', -⟩ := h'
  rw [hcall] at hcall'
  cases hcall'
  rfl

/-- The claimer when a call that had the lock of its team has ended. -/
def left (s : TaskClaimer) (i : ℕ) (team : String) (lock : ℕ) (call : Call) : TaskClaimer :=
  (s.setLock lock .new).finish i team call

theorem leave_eq (h : Inv s) (hholds : s.Holds i team lock) :
  s.leave i team lock call = s.left i team lock call
  := by
  have hlocked : (s.locks lock).locked = true
    := (h.locked (h.holds hholds)).mpr ((h.advancing team).mpr ⟨i, lock, hholds⟩)
  have hrelease : (s.locks lock).release = .new := by
    rw [Lock.release, Lock.wakeUpFirst]
    simp only [h.waiters lock]
    rfl
  rw [leave, if_pos hlocked, hrelease, left]

theorem holds_left (hheld : call.held = none) :
  (s.left i team lock call).Holds j team' lock' ↔ j ≠ i ∧ s.Holds j team' lock'
  := by
  apply holds_setCall.trans
  split_ifs with hj
  · simp [hheld, hj]
  · simp only [ne_eq, hj, not_false_eq_true, true_and]
    rfl

theorem inv_left (h : Inv s) (hholds : s.Holds i team lock)
    (hcall : ∀ lock, call ≠ .waiting lock) (hheld : call.held = none) :
  Inv (s.left i team lock call)
  := by
  have hlock := h.holds hholds
  constructor
  · exact waits_setCall h.waits hcall
  · intro lock'
    simp only [left, finish, setCall, setLock]
    by_cases hsame : lock' = lock
    · rw [hsame, Function.update_self, Lock.new]
    · rw [Function.update_of_ne hsame, h.waiters]
  · intro team'
    simp only [holds_left hheld]
    simp only [left, finish, setCall, setLock, Finset.mem_erase, h.advancing]
    constructor
    · rintro ⟨hteam, j, lock', hj⟩
      have hne : j ≠ i := by
        rintro rfl
        exact hteam (hholds.team_eq hj)
      exact ⟨j, lock', hne, hj⟩
    · rintro ⟨j, lock', hne, hj⟩
      have hteam : team' ≠ team := by
        rintro rfl
        exact hne (h.alone hj hholds)
      exact ⟨hteam, j, lock', hj⟩
  · intro j k team' lock₁ lock₂ hj hk
    exact h.alone ((holds_left hheld).mp hj).2 ((holds_left hheld).mp hk).2
  · intro j team' lock' hj
    exact h.holds ((holds_left hheld).mp hj).2
  · intro team' lock' hlock'
    simp only [left, finish, setCall, setLock, Finset.mem_erase]
    by_cases hsame : lock' = lock
    · rw [hsame, Function.update_self]
      simp [Lock.new, h.own (hsame ▸ hlock') hlock]
    · have hother : team' ≠ team := by
        rintro rfl
        exact hsame (Option.some.inj (hlock'.symm.trans hlock))
      rw [Function.update_of_ne hsame]
      simp only [ne_eq, hother, not_false_eq_true, true_and]
      exact h.locked hlock'
  · exact h.own
  · exact h.made

theorem inv_leave (h : Inv s) (hholds : s.Holds i team lock)
    (hcall : ∀ lock, call ≠ .waiting lock) (hheld : call.held = none) :
  Inv (s.leave i team lock call)
  := by
  rw [leave_eq h hholds]
  exact inv_left h hholds hcall hheld

theorem inv_claim (h : Inv s) (hholds : s.Holds i team lock) (tasks : List (Option String))
    (claimed : List String) :
  Inv (s.claim i team lock tasks claimed)
  := by
  match tasks with
  | [] => exact inv_leave h hholds (by simp) rfl
  | none :: rest => exact inv_leave h hholds (by simp) rfl
  | some taskId :: rest =>
    apply inv_setCall h (by simp)
    intro team' lock'
    simp only [Call.held, Option.some.injEq]
    constructor
    · intro h'
      obtain rfl := hholds.team_eq h'
      exact ⟨rfl, Option.some.inj ((h.holds hholds).symm.trans (h.holds h'))⟩
    · rintro ⟨rfl, rfl⟩
      exact hholds

/-! ### Whole runs -/

theorem lockOf_cleanup :
  s.cleanupIdleTeams.2.lockOf team = if team ∈ s.advancing then s.lockOf team else none
  := by
  have hfilter := Lists.lookup_filter (fun team => decide (team ∈ s.advancing)) team s.teamLocks
  simp only [decide_eq_true_eq] at hfilter
  exact hfilter

/-- What is still found after a cleanup was there before. -/
theorem lockOf_of_cleanup (h : s.cleanupIdleTeams.2.lockOf team = some lock) :
  s.lockOf team = some lock
  := by
  rw [lockOf_cleanup] at h
  split_ifs at h
  exact h

theorem inv_cleanup (h : Inv s) :
  Inv s.cleanupIdleTeams.2
  := by
  constructor
  · exact h.waits
  · exact h.waiters
  · exact h.advancing
  · exact h.alone
  · intro i team lock hholds
    rw [lockOf_cleanup, if_pos ((h.advancing team).mpr ⟨i, lock, hholds⟩)]
    exact h.holds hholds
  · intro team lock hlock
    exact h.locked (lockOf_of_cleanup hlock)
  · intro team team' lock hlock hlock'
    exact h.own (lockOf_of_cleanup hlock) (lockOf_of_cleanup hlock')
  · intro team lock hlock
    exact h.made (lockOf_of_cleanup hlock)

theorem inv_advanceDag (h : Inv s) (hfresh : s.calls i = none) :
  Inv (s.advanceDag i team)
  := by
  have hrecord := inv_record h (.called i team)
  rw [advanceDag]
  split_ifs with hteam
  · exact inv_skip hrecord hfresh
  · exact inv_enter hrecord hfresh hteam

theorem inv_moves (h : Inv s) (hmoves : Moves s action s') :
  Inv s'
  := by
  cases hmoves with
  | calls hfresh => exact inv_advanceDag h hfresh
  | acquires hcall | givesUp hcall => exact absurd hcall h.waits
  | fetched hholds | claimed hholds => exact inv_claim h hholds _ _
  | fails hholds => exact inv_leave h hholds (by simp) rfl
  | cleanup => exact inv_cleanup h

theorem inv_run {actions : List Action} (hrun : Machine.run act initial actions = some s) :
  Inv s
  := Machine.run_invariant (fun h hact => inv_moves h (moves_of_act hact)) inv_initial hrun

/-! ### What the guard gives -/

def InProgress (s : TaskClaimer) (i : ℕ) (team : String) : Prop :=
  ∃ lock, s.Holds i team lock

/-- A call that was in progress is so still, or its team is no longer in the set. -/
def Followed (s : TaskClaimer) (i : ℕ) (team : String) : Prop :=
  s.InProgress i team ∨ team ∉ s.advancing

theorem inProgress_setCall_of_ne (hne : j ≠ i) (h : s.InProgress j team') :
  (s.setCall i team call).InProgress j team'
  := by
  obtain ⟨lock, hholds⟩ := h
  use lock
  rwa [holds_setCall, if_neg hne]

theorem followed_leave (h : Inv s) (hholds : s.Holds i team lock) (hheld : call.held = none)
    (hj : s.InProgress j team') :
  (s.leave i team lock call).Followed j team'
  := by
  obtain ⟨lock', hj⟩ := hj
  rw [leave_eq h hholds]
  obtain rfl | hne := eq_or_ne j i
  · right
    rw [hholds.team_eq hj]
    exact Finset.notMem_erase team s.advancing
  · left
    exact ⟨lock', (holds_left hheld).mpr ⟨hne, hj⟩⟩

theorem followed_claim (h : Inv s) (hholds : s.Holds i team lock) (tasks : List (Option String))
    (claimed : List String) (hj : s.InProgress j team') :
  (s.claim i team lock tasks claimed).Followed j team'
  := by
  match tasks with
  | [] => exact followed_leave h hholds rfl hj
  | none :: rest => exact followed_leave h hholds rfl hj
  | some taskId :: rest =>
    left
    obtain rfl | hne := eq_or_ne j i
    · obtain ⟨lock', hj⟩ := hj
      use lock
      rw [claim, holds_setCall, if_pos rfl]
      exact ⟨hholds.team_eq hj, rfl⟩
    · exact inProgress_setCall_of_ne hne hj

theorem followed_advanceDag (h : Inv s) (hfresh : s.calls i = none) (hj : s.InProgress j team') :
  (s.advanceDag i team).Followed j team'
  := by
  have hne : j ≠ i := by
    rintro rfl
    obtain ⟨lock, hholds⟩ := hj
    exact not_holds_of_fresh hfresh hholds
  left
  rw [advanceDag]
  split_ifs with hteam
  · exact inProgress_setCall_of_ne hne hj
  · obtain ⟨-, hcalls⟩ := frame_getTeamLock (s.record (.called i team)) team
    rw [enter_eq (inv_record h _) hteam]
    apply inProgress_setCall_of_ne hne
    obtain ⟨lock, call, hcall, hheld⟩ := hj
    exact ⟨lock, call, (congrFun hcalls j).trans hcall, hheld⟩

theorem followed_moves (h : Inv s) (hmoves : Moves s action s') (hj : s.InProgress j team') :
  s'.Followed j team'
  := by
  cases hmoves with
  | calls hfresh => exact followed_advanceDag h hfresh hj
  | acquires hcall | givesUp hcall => exact absurd hcall h.waits
  | fetched hholds | claimed hholds => exact followed_claim h hholds _ _ hj
  | fails hholds => exact followed_leave h hholds rfl hj
  | cleanup => exact .inl hj

/-- One call for a team at a time, which has the lock of the team as long as it is in progress, and
for which the team is in the set; no call waits for a lock, and a call that ends has removed its
team. -/
structure Guarded (s : TaskClaimer) : Prop where
  exclusive : ∀ i j team, s.InProgress i team → s.InProgress j team → i = j
  kept : ∀ i team lock, s.Holds i team lock → s.lockOf team = some lock
  neverWaits : ∀ i team lock, s.calls i ≠ some (team, .waiting lock)
  advancing : ∀ team, team ∈ s.advancing ↔ ∃ i, s.InProgress i team
  removed : ∀ action s', s.act action = some s' → ∀ i team, s.InProgress i team →
    s'.Followed i team

/-- Whatever the calls, their callbacks and the cleanups do, the claimer is guarded. -/
theorem guarded_of_run (actions : List Action) (s : TaskClaimer)
    (hrun : Machine.run act initial actions = some s) :
  Guarded s
  := by
  have hinv := inv_run hrun
  constructor
  · rintro i j team ⟨_, hi⟩ ⟨_, hj⟩
    exact hinv.alone hi hj
  · intro i team lock hholds
    exact hinv.holds hholds
  · intro i team lock
    exact hinv.waits
  · exact hinv.advancing
  · intro action s' hact i team hi
    exact followed_moves hinv (moves_of_act hact) hi

/-- Two calls for a team, the first of which fails when it claims a task; a cleanup in between. -/
def failingCalls (team : String) : List Action :=
  [.call 0 team, .fetched 0 [some "a", some "b"], .call 1 team, .cleanup, .claimed 0 true,
    .raises 0 .cancelled, .cleanup, .call 2 team]

theorem guarded_failingCalls :
  ∃ s, Machine.run act initial (failingCalls "t") = some s ∧ s.InProgress 2 "t" ∧ Guarded s
  := by
  have hrun : Machine.run act initial (failingCalls "t")
      = some ((Machine.run act initial (failingCalls "t")).get (by decide)) := by simp
  refine ⟨_, hrun, ?_, guarded_of_run _ _ hrun⟩
  exact ⟨1, .fetching 1, rfl, rfl⟩

end TaskClaimer

end Claimer

end Agamemnon
