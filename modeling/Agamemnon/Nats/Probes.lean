import Agamemnon.Lib.Machine
import Agamemnon.Nats.CircuitBreaker
import Mathlib.Data.Fintype.Card
import Mathlib.Logic.Function.Basic

/-!
# Threads that share a breaker

The fields of a breaker are atomic, and the threads that publish load and store them one step at a
time.  A thread that is granted an attempt records its outcome before it asks again.

While a breaker is half open every thread that asks is granted an attempt.  So the attempts that are
granted after the breaker has been open and before the next outcome is recorded are only bounded by
the number of threads.  There is at most one such attempt in a run in which no thread asks while one
is in progress and the breaker is half open.
-/

namespace Agamemnon

open Machine

namespace Nats

/-- Where a thread is in its calls of the breaker. -/
inductive Place where
  | idle
  /-- in `allow_attempt`, having read that the breaker is open -/
  | waiting
  /-- in `allow_attempt`, before it makes the breaker half open -/
  | probing
  /-- an attempt has been granted -/
  | attempting
  /-- in `record_success`, before it resets the count -/
  | resetting
  /-- in `record_success`, before it closes the breaker -/
  | closing
  /-- in `record_failure`, with the new count -/
  | failing (count : ℤ)
  /-- in `transition_to_open`, before it sets the time -/
  | stamping
  /-- in `transition_to_open`, before it opens the breaker -/
  | opening
  deriving DecidableEq

namespace Place

/-- The thread is not in a call, or in `allow_attempt`. -/
def asks : Place → Bool
  | .idle | .waiting | .probing => true
  | _ => false

/-- The thread is in `record_success` or `record_failure`. -/
def records : Place → Bool
  | .idle | .waiting | .probing | .attempting => false
  | _ => true

end Place

/-- A breaker and `n` threads.  If the breaker has been left open and no outcome has been recorded
since, then `granted` is the number of attempts that have been granted since. -/
structure Threads (n : ℕ) where
  breaker : CircuitBreaker
  place : Fin n → Place
  granted : Option ℕ

/-- A thread starts a call, or takes its next step; the time is the one that it reads. -/
inductive ThreadAction (n : ℕ) where
  | allowAttempt (i : Fin n)
  | recordSuccess (i : Fin n)
  | recordFailure (i : Fin n)
  | step (i : Fin n) (now : ℤ)

open ThreadAction

/-- The thread that acts. -/
def ThreadAction.thread {n : ℕ} : ThreadAction n → Fin n
  | .allowAttempt i => i
  | .recordSuccess i => i
  | .recordFailure i => i
  | .step i _ => i

namespace Threads

variable {n : ℕ}

def initial : Threads n where
  breaker := {}
  place := fun _ => .idle
  granted := none

def goto (s : Threads n) (i : Fin n) (place : Place) : Threads n :=
  { s with place := Function.update s.place i place }

/-- Store a state in the breaker. -/
def setState (s : Threads n) (state : BreakerState) : Threads n :=
  { s with
    breaker := { s.breaker with state }
    granted :=
      if s.breaker.state = .opened ∧ state ≠ .opened then some (s.granted.getD 0) else s.granted }

/-- An attempt is granted. -/
def grant (s : Threads n) (i : Fin n) : Threads n :=
  { s.goto i .attempting with granted := s.granted.map (· + 1) }

/-- A call that records an outcome begins. -/
def beginRecord (s : Threads n) (i : Fin n) (place : Place) : Threads n :=
  { s.goto i place with granted := none }

/-- The next step of a thread in a call. -/
def threadStep (cfg : BreakerConfig) (s : Threads n) (i : Fin n) (now : ℤ) : Option (Threads n) :=
  match s.place i with
  | .waiting =>
      if cfg.probeInterval ≤ now - s.breaker.openSinceMs then some (s.goto i .probing)
      else some (s.goto i .idle)
  | .probing => some ((s.setState .halfOpen).grant i)
  | .resetting => some
      { s.goto i .closing with breaker := { s.breaker with failureCount := 0 } }
  | .closing => some ((s.setState .closed).goto i .idle)
  | .failing count =>
      if CircuitBreaker.opens cfg s.breaker.state count then some (s.goto i .stamping)
      else some (s.goto i .idle)
  | .stamping => some
      { s.goto i .opening with breaker := { s.breaker with openSinceMs := now } }
  | .opening => some ((s.setState .opened).goto i .idle)
  | _ => none

/-- What an action does; `none` if the thread is not at the right place. -/
def act (cfg : BreakerConfig) (s : Threads n) : ThreadAction n → Option (Threads n)
  | .allowAttempt i =>
      match s.place i with
      | .idle => if s.breaker.state = .opened then some (s.goto i .waiting) else some (s.grant i)
      | _ => none
  | .recordSuccess i =>
      match s.place i with
      | .attempting => some (s.beginRecord i .resetting)
      | _ => none
  | .recordFailure i =>
      match s.place i with
      | .attempting => some
          { s.beginRecord i (.failing (s.breaker.failureCount + 1)) with
            breaker := { s.breaker with failureCount := s.breaker.failureCount + 1 } }
      | _ => none
  | .step i now => s.threadStep cfg i now

variable {cfg : BreakerConfig} {s s' : Threads n} {action : ThreadAction n}

/-! ### What a step does -/

/-- The ways in which a step changes the state. -/
inductive Change (s : Threads n) (i : Fin n) : Threads n → Prop where
  /-- in `allow_attempt`, without a decision or refused -/
  | ask {place : Place} (hfrom : (s.place i).asks = true) (hto : place.asks = true) :
      Change s i (s.goto i place)
  /-- a breaker that is not open grants an attempt -/
  | grant (hplace : s.place i = .idle) (hstate : s.breaker.state ≠ .opened) :
      Change s i (s.grant i)
  /-- the breaker becomes half open, and an attempt is granted -/
  | probe (hplace : s.place i = .probing) : Change s i ((s.setState .halfOpen).grant i)
  /-- a call that records an outcome begins -/
  | beginRecord {place : Place} {count : ℤ} (hplace : s.place i = .attempting)
      (hto : place.records = true) :
      Change s i
        { s.beginRecord i place with breaker := { s.breaker with failureCount := count } }
  /-- in a call that records an outcome, before the breaker is closed or opened -/
  | record {place : Place} {count openSinceMs : ℤ} (hplace : (s.place i).records = true)
      (hto : place ≠ .attempting) :
      Change s i
        { s.goto i place with breaker := { s.breaker with failureCount := count, openSinceMs } }
  | close (hplace : s.place i = .closing) : Change s i ((s.setState .closed).goto i .idle)
  | reopen (hplace : s.place i = .opening) : Change s i ((s.setState .opened).goto i .idle)

theorem change_of_threadStep {i : Fin n} {now : ℤ} (hstep : s.threadStep cfg i now = some s') :
  Change s i s'
  := by
  rw [threadStep] at hstep
  cases hplace : s.place i with
  | idle | attempting => simp [hplace] at hstep
  | waiting =>
    simp only [hplace] at hstep
    split_ifs at hstep <;> obtain rfl := Option.some.inj hstep
    · exact .ask (by rw [hplace]; rfl) rfl
    · exact .ask (by rw [hplace]; rfl) rfl
  | probing =>
    simp only [hplace, Option.some.injEq] at hstep
    exact hstep ▸ .probe hplace
  | resetting | stamping =>
    simp only [hplace, Option.some.injEq] at hstep
    exact hstep ▸ .record (by rw [hplace]; rfl) (by decide)
  | closing =>
    simp only [hplace, Option.some.injEq] at hstep
    exact hstep ▸ .close hplace
  | failing count =>
    simp only [hplace] at hstep
    split_ifs at hstep <;> obtain rfl := Option.some.inj hstep
    · exact .record (by rw [hplace]; rfl) (by decide)
    · exact .record (by rw [hplace]; rfl) (by decide)
  | opening =>
    simp only [hplace, Option.some.injEq] at hstep
    exact hstep ▸ .reopen hplace

theorem change_of_act (hact : s.act cfg action = some s') : Change s action.thread s'
  := by
  cases action with
  | allowAttempt i =>
    rw [act] at hact
    split at hact
    next hplace =>
      split_ifs at hact with hstate <;> obtain rfl := Option.some.inj hact
      · exact .ask (by rw [thread, hplace]; rfl) rfl
      · exact .grant hplace hstate
    next => cases hact
  | recordSuccess i | recordFailure i =>
    rw [act] at hact
    split at hact
    next hplace =>
      obtain rfl := Option.some.inj hact
      exact .beginRecord hplace rfl
    next => cases hact
  | step i now => exact change_of_threadStep hact

/-! ### A thread alone

Without a step of another thread in between, the steps of a call come to the function of
`CircuitBreaker`. -/

/-- Thread `i` gets from `s` to `s'` without a step of another thread. -/
def Alone (cfg : BreakerConfig) (i : Fin n) (s s' : Threads n) : Prop :=
  ∃ actions, (∀ action ∈ actions, action.thread = i) ∧ run (act cfg) s actions = some s'

section Alone

variable {i : Fin n} (cfg)

theorem exists_alone {P : Threads n → Prop} (actions : List (ThreadAction n))
    (hactions : ∀ action ∈ actions, action.thread = i)
    (hrun : ∃ s', run (act cfg) s actions = some s' ∧ P s') :
  ∃ s', Alone cfg i s s' ∧ P s'
  := by
  obtain ⟨s', hs', hP⟩ := hrun
  exact ⟨s', ⟨actions, hactions, hs'⟩, hP⟩

theorem alone_allowAttempt (hplace : s.place i = .idle) (now : ℤ) :
  ∃ s', Alone cfg i s s' ∧ s'.breaker = (s.breaker.allowAttempt cfg now).2
    ∧ s'.place i = if (s.breaker.allowAttempt cfg now).1 then .attempting else .idle
  := by
  cases hstate : s.breaker.state with
  | closed | halfOpen =>
    apply exists_alone cfg [.allowAttempt i] (by simp [thread])
    simp [run, act, hplace, hstate, CircuitBreaker.allowAttempt, grant, goto]
  | opened =>
    by_cases hprobe : cfg.probeInterval ≤ now - s.breaker.openSinceMs
    · apply exists_alone cfg [.allowAttempt i, .step i now, .step i now]
        (by simp [thread])
      simp [run, act, threadStep, hplace, hstate, hprobe, CircuitBreaker.allowAttempt,
        grant, goto, setState]
    · apply exists_alone cfg [.allowAttempt i, .step i now] (by simp [thread])
      simp [run, act, threadStep, hplace, hstate, hprobe, CircuitBreaker.allowAttempt,
        goto]

theorem alone_recordSuccess (hplace : s.place i = .attempting) :
  ∃ s', Alone cfg i s s' ∧ s'.breaker = s.breaker.recordSuccess ∧ s'.place i = .idle
  := by
  apply exists_alone cfg [.recordSuccess i, .step i 0, .step i 0] (by simp [thread])
  simp [run, act, threadStep, hplace, CircuitBreaker.recordSuccess, beginRecord, goto,
    setState]

theorem alone_recordFailure (hplace : s.place i = .attempting) (now : ℤ) :
  ∃ s', Alone cfg i s s' ∧ s'.breaker = s.breaker.recordFailure cfg now ∧ s'.place i = .idle
  := by
  by_cases hopens : CircuitBreaker.opens cfg s.breaker.state (s.breaker.failureCount + 1) = true
  · apply exists_alone cfg [.recordFailure i, .step i now, .step i now, .step i now]
      (by simp [thread])
    simp [run, act, threadStep, hplace, hopens, CircuitBreaker.recordFailure,
      CircuitBreaker.transitionToOpen, beginRecord, goto, setState]
  · apply exists_alone cfg [.recordFailure i, .step i now] (by simp [thread])
    simp [run, act, threadStep, hplace, hopens, CircuitBreaker.recordFailure,
      beginRecord, goto]

end Alone

/-! ### One probe -/

theorem ne_attempting_of_asks {place : Place} (h : place.asks = true) : place ≠ .attempting
  := by
  rintro rfl
  cases h

/-- At most one attempt has been granted since the breaker was open. -/
def OneProbe (s : Threads n) : Prop :=
  ∀ k, s.granted = some k → k ≤ 1

/-- What a thread has to meet before its next step: it does not ask while an attempt is in progress
and the breaker is half open, it does not make the breaker half open if the breaker is no longer
open or an outcome is being recorded, and it does not close the breaker while the breaker is
open. -/
structure Clear (s : Threads n) (action : ThreadAction n) : Prop where
  ask : s.place action.thread = .idle → s.breaker.state = .halfOpen → ∀ j, s.place j ≠ .attempting
  probe : s.place action.thread = .probing →
    s.breaker.state = .opened ∧ ∀ j, (s.place j).records = false
  close : s.place action.thread = .closing → s.breaker.state ≠ .opened

instance decidableClear (s : Threads n) (action : ThreadAction n) : Decidable (s.Clear action) :=
  decidable_of_iff
    ((s.place action.thread = .idle → s.breaker.state = .halfOpen → ∀ j, s.place j ≠ .attempting)
      ∧ (s.place action.thread = .probing →
        s.breaker.state = .opened ∧ ∀ j, (s.place j).records = false)
      ∧ (s.place action.thread = .closing → s.breaker.state ≠ .opened))
    ⟨fun ⟨ask, probe, close⟩ => ⟨ask, probe, close⟩, fun h => ⟨h.ask, h.probe, h.close⟩⟩

/-- If an attempt has been granted since the breaker was open, then it is the only one, the breaker
waits for its outcome, and no outcome is being recorded. -/
def AwaitsProbe (s : Threads n) : Prop :=
  ∀ k, s.granted = some k → k = 1 ∧ s.breaker.state = .halfOpen
    ∧ (∀ j, (s.place j).records = false) ∧ ∃ j, s.place j = .attempting

theorem awaitsProbe_of_granted_eq_none (h : s.granted = none) : s.AwaitsProbe
  := by
  intro k hk
  rw [h] at hk
  cases hk

theorem granted_eq_none_of_records (h : s.AwaitsProbe) {i : Fin n}
    (hi : (s.place i).records = true) :
  s.granted = none
  := by
  by_contra hgranted
  obtain ⟨k, hk⟩ := Option.ne_none_iff_exists'.mp hgranted
  obtain ⟨-, -, hrecords, -⟩ := h k hk
  rw [hrecords i] at hi
  cases hi

theorem awaitsProbe_goto (h : s.AwaitsProbe) {i : Fin n} {place : Place}
    (hfrom : s.place i ≠ .attempting) (hto : place.records = false) :
  (s.goto i place).AwaitsProbe
  := by
  intro k hk
  obtain ⟨hone, hstate, hrecords, j, hj⟩ := h k hk
  refine ⟨hone, hstate, fun l => ?_, j, ?_⟩
  · obtain rfl | hl := eq_or_ne l i
    · simpa only [goto, Function.update_self] using hto
    · simpa only [goto, Function.update_of_ne hl] using hrecords l
  · have hne : j ≠ i := by
      rintro rfl
      exact hfrom hj
    simpa only [goto, Function.update_of_ne hne] using hj

theorem awaitsProbe_act (hclear : s.Clear action) (h : s.AwaitsProbe)
    (hact : s.act cfg action = some s') :
  s'.AwaitsProbe
  := by
  cases change_of_act hact with
  | @ask place hfrom hto =>
    apply awaitsProbe_goto h (ne_attempting_of_asks hfrom)
    cases place <;> first | rfl | cases hto
  | grant hplace hstate =>
    -- had an attempt been granted since the breaker was open, it would be in progress
    apply awaitsProbe_of_granted_eq_none
    cases hgranted : s.granted with
    | none => simp only [grant, goto, hgranted, Option.map_none]
    | some k =>
      obtain ⟨-, hhalfOpen, -, j, hj⟩ := h k hgranted
      exact absurd hj (hclear.ask hplace hhalfOpen j)
  | probe hplace =>
    obtain ⟨hopened, hrecords⟩ := hclear.probe hplace
    have hgranted : s.granted = none := by
      by_contra hgranted
      obtain ⟨k, hk⟩ := Option.ne_none_iff_exists'.mp hgranted
      obtain ⟨-, hhalfOpen, -⟩ := h k hk
      rw [hopened] at hhalfOpen
      cases hhalfOpen
    intro k hk
    have hk : some 1 = some k := by
      simpa [grant, goto, setState, hopened, hgranted] using hk
    refine ⟨(Option.some.inj hk).symm, rfl, fun l => ?_, action.thread, ?_⟩
    · obtain rfl | hl := eq_or_ne l action.thread
      · simp only [grant, goto, Function.update_self]
        rfl
      · simpa only [grant, goto, setState, Function.update_of_ne hl] using hrecords l
    · simp only [grant, goto, Function.update_self]
  | beginRecord hplace hto => exact awaitsProbe_of_granted_eq_none rfl
  | record hplace hto =>
    have hnone := granted_eq_none_of_records h hplace
    exact awaitsProbe_of_granted_eq_none hnone
  | close hplace =>
    apply awaitsProbe_of_granted_eq_none
    have hnone := granted_eq_none_of_records h (i := action.thread) (by rw [hplace]; rfl)
    simp only [goto, setState, hnone, hclear.close hplace, false_and, if_false]
  | reopen hplace =>
    apply awaitsProbe_of_granted_eq_none
    have hnone := granted_eq_none_of_records h (i := action.thread) (by rw [hplace]; rfl)
    simp [goto, setState, hnone]

/-- At most one attempt is granted between the moment the breaker leaves the open state and the next
recorded outcome, in every interleaving in which the threads are clear before their steps. -/
theorem oneProbe_of_clear (n : ℕ) (cfg : BreakerConfig) (actions : List (ThreadAction n))
    (s : Threads n) (hrun : run (act cfg) initial actions = some s)
    (hclear : Machine.Along (act cfg) Clear initial actions) :
  s.OneProbe
  := by
  intro k hk
  have hawaits := run_invariant_along awaitsProbe_act
    (awaitsProbe_of_granted_eq_none rfl) hclear hrun
  obtain ⟨hone, -⟩ := hawaits k hk
  exact hone.le

/-- A thread fails, and is granted an attempt again as soon as the breaker may be half open. -/
def probeAfterFailure {n : ℕ} (i : Fin n) : List (ThreadAction n) :=
  [.allowAttempt i, .recordFailure i, .step i 0, .step i 0, .step i 0,
    .allowAttempt i, .step i 0, .step i 0]

/-- A breaker that one failure opens, and that is probed at once. -/
def hastyConfig : BreakerConfig where
  failureThreshold := 1
  probeInterval := 0

theorem oneProbe_probeAfterFailure :
  ∃ s : Threads 2, run (act hastyConfig) initial (probeAfterFailure 0) = some s
    ∧ s.granted = some 1 ∧ s.OneProbe
  := by
  have hrun : run (act hastyConfig) (initial : Threads 2) (probeAfterFailure 0)
      = some ((run (act hastyConfig) initial (probeAfterFailure 0)).get (by decide))
    := by simp
  exact ⟨_, hrun, by decide, oneProbe_of_clear 2 hastyConfig _ _ hrun (by decide)⟩

/-- While an attempt is in progress and the breaker is half open, another thread is granted one. -/
theorem not_oneProbe_secondThread :
  ∃ s : Threads 2,
    run (act hastyConfig) initial (probeAfterFailure 0 ++ [.allowAttempt 1]) = some s
      ∧ ¬ s.OneProbe
  := by
  have hrun : run (act hastyConfig) (initial : Threads 2)
        (probeAfterFailure 0 ++ [.allowAttempt 1])
      = some ((run (act hastyConfig) initial
        (probeAfterFailure 0 ++ [.allowAttempt 1])).get (by decide)) := by simp
  refine ⟨_, hrun, fun h => ?_⟩
  have := h 2 (by decide)
  omega

end Threads

end Nats

end Agamemnon
