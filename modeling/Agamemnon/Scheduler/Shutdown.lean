import Agamemnon.Scheduler.Workers
import Mathlib.Data.List.Count

/-!
# What is executed before `shutdown` returns

An item is in one place at a time: in a queue, in the hands of a worker, or among those that have
been executed, skipped or refused.  When `shutdown` has returned, all workers have exited, each
with an empty queue at that time.  Nobody looks at the queue of a worker that has exited, so an
item that comes there later may be lost (`lost_item`).  If every submission is to a worker that has
not exited, no item is lost (`executedOnce_of_heard`).
-/

namespace Agamemnon

open Machine

namespace Scheduler

variable {ι : Type} {n : ℕ}

namespace System

variable {s s' : System ι n} {w : Fin n} {item : WorkItem ι}

/-! ### Places -/

variable [DecidableEq ι]

/-- In how many places an item is. -/
def places (s : System ι n) (item : WorkItem ι) : ℕ :=
  ∑ w, (s.queues w).count item + ∑ w, (s.control w).held.count item
    + s.executed.count item + s.skipped.count item + s.refused.count item

theorem places_goto (s : System ι n) (w : Fin n) (item : WorkItem ι) (control : Control ι) :
  (s.goto w control).places item + (s.control w).held.count item
    = s.places item + control.held.count item
  := by
  have hsum := sum_update (fun c : Control ι => c.held.count item) s.control w control
  simp only [places, goto]
  omega

theorem places_take {victim : Fin n} {taken : WorkItem ι} {rest : List (WorkItem ι)}
    {draining : Bool} (hqueue : s.queues victim = taken :: rest)
    (hcontrol : (s.control w).held = []) :
  (s.take w victim taken rest draining).places item = s.places item
  := by
  have hmove := sum_update (fun c : Control ι => c.held.count item) s.control w
    (.taken taken draining)
  have hqueues := sum_update (fun q : List (WorkItem ι) => q.count item) s.queues victim
    rest
  have hheld : (Control.taken taken draining).held = [taken] := rfl
  simp only [hcontrol, hqueue, hheld, List.count_cons, List.count_nil] at hmove hqueues
  have hplaces : (s.take w victim taken rest draining).places item
      = ∑ v, (Function.update s.queues victim rest v).count item
        + ∑ v, (Function.update s.control w (.taken taken draining) v).held.count item
        + s.executed.count item + s.skipped.count item + s.refused.count item := by
    unfold take
    split_ifs <;> rfl
  rw [hplaces, places]
  omega

/-! ### Steps of a worker -/

/-- What only submissions and `shutdown` change. -/
def record (s : System ι n) :=
  (s.begun, s.submitted, s.refused, s.shutdown)

/-- What a step of a worker can do. -/
structure Works (w : Fin n) (s s' : System ι n) : Prop extends Frame s w s' where
  places : ∀ item, s'.places item = s.places item
  record : s'.record = s.record
  skipped : ∀ item ∈ s'.skipped, item ∈ s.skipped ∨ item.valid = false
  before : (s.control w).isExited = false
  after : (s'.control w).isExited = true → s'.queues w = []

theorem works_goto {control : Control ι} (hheld : control.held = (s.control w).held)
    (hbefore : (s.control w).isExited = false)
    (hafter : control.isExited = true → s.queues w = []) :
  Works w s (s.goto w control)
  := by
  refine ⟨frame_goto s w control, ?_, rfl, fun item h => .inl h, hbefore, ?_⟩
  · intro item
    have hplaces := places_goto s w item control
    rw [hheld] at hplaces
    exact Nat.add_right_cancel hplaces
  · rw [control_goto_self]
    exact hafter

theorem Works.setCorrelationId (h : Works w s s') (id : String) :
  Works w s (s'.setCorrelationId w id)
  := ⟨h.toFrame.setCorrelationId id, h.places, h.record, h.skipped, h.before, h.after⟩

/-- The worker is done with its item. -/
theorem works_finish (hframe : Frame s w s') (done : WorkItem ι) (draining : Bool)
    (hheld : (s.control w).held = [done]) (hbefore : (s.control w).isExited = false)
    (hcontrol : s'.control = (s.goto w (.resume draining)).control)
    (hqueues : s'.queues = s.queues) (hrecord : s'.record = s.record)
    (hskipped : ∀ item ∈ s'.skipped, item ∈ s.skipped ∨ item.valid = false)
    (hdone : ∀ item, s'.executed.count item + s'.skipped.count item
      = s.executed.count item + s.skipped.count item + [done].count item) :
  Works w s s'
  := by
  have hrefused : s'.refused = s.refused := congrArg (fun r => r.2.2.1) hrecord
  refine ⟨hframe, ?_, hrecord, hskipped, hbefore, ?_⟩
  · intro item
    have hmove := places_goto s w item (.resume draining)
    rw [hheld, Control.held_resume, List.count_nil] at hmove
    have hitem := hdone item
    simp only [places, hcontrol, hqueues, hrefused, goto] at hmove ⊢
    omega
  · rw [hcontrol, control_goto_self, Control.isExited_resume]
    intro h
    cases h

theorem works_of_moves (h : Moves s w s') (hbefore : (s.control w).isExited = false) :
  Works w s s'
  := by
  have hframe := h.frame
  cases h with
  | look control hfree hfree' hstays =>
    apply works_goto (hfree'.trans hfree.symm) hbefore
    rw [hstays]
    intro h
    cases h
  | take victim item rest draining hfree hqueue =>
    have hcontrol : (s.take w victim item rest draining).control w = .taken item draining := by
      unfold take
      split_ifs <;> exact control_goto_self s w _
    refine ⟨hframe, fun item => places_take hqueue hfree, ?_, ?_, hbefore, ?_⟩
    · unfold take
      split_ifs <;> rfl
    · intro item h
      left
      unfold take at h
      split_ifs at h <;> exact h
    · rw [hcontrol]
      intro h
      cases h
  | start item draining hcontrol =>
    apply Works.setCorrelationId
    refine works_goto ?_ hbefore (fun h => nomatch h)
    rw [hcontrol]
    rfl
  | skip item draining hcontrol hvalid =>
    apply works_finish hframe item draining _ hbefore rfl rfl rfl
    · intro other hother
      rcases List.mem_append.mp hother with hother | hother
      · exact .inl hother
      · rw [List.mem_singleton.mp hother]
        exact .inr hvalid
    · intro other
      rw [List.count_append]
      exact (Nat.add_assoc _ _ _).symm
    · rw [hcontrol]
      rfl
  | finish item previousId draining hcontrol =>
    apply works_finish hframe item draining _ hbefore rfl rfl rfl (fun other h => .inl h)
    · intro other
      rw [List.count_append]
      exact Nat.add_right_comm _ _ _
    · rw [hcontrol]
      rfl
  | exit hcontrol hqueue =>
    apply Works.setCorrelationId
    apply works_goto _ hbefore (fun _ => hqueue)
    rw [hcontrol]
    rfl

theorem works_workerStep (h : s.workerStep w = some s') :
  Works w s s'
  := by
  apply works_of_moves (moves_workerStep h)
  cases hcontrol : s.control w with
  | exited =>
    rw [workerStep, hcontrol] at h
    cases h
  | _ => rfl

/-! ### The invariant -/

/-- Every item is in one place, and the workers that have been joined have exited. -/
structure Inv (s : System ι n) : Prop where
  placed : ∀ item, s.places item = s.begun.count item
  numbered : ∀ item ∈ s.begun, item.number < s.begun.length
  nodup : s.begun.Nodup
  submitted : s.submitted ⊆ s.begun
  skipped : ∀ item ∈ s.skipped, item.valid = false
  joined : ∀ k, s.shutdown = .joining k → ∀ w : Fin n, w < k → (s.control w).isExited = true
  returned : s.shutdown = .returned → ∀ w, (s.control w).isExited = true

theorem inv_initial :
  Inv (initial : System ι n)
  := by
  refine ⟨?_, ?_, List.nodup_nil, List.Subset.refl _, ?_, ?_, ?_⟩
  · intro item
    simp [places, initial, Control.held]
  · intro item h
    cases h
  · intro item h
    cases h
  · intro k h
    cases h
  · intro h
    cases h

/-- A worker that has exited does not move. -/
theorem Works.exited (h : Works w s s') {v : Fin n} (hv : (s.control v).isExited = true) :
  (s'.control v).isExited = true
  := by
  by_cases hvw : v = w
  · rw [hvw, h.before] at hv
    cases hv
  · rw [h.control v hvw]
    exact hv

theorem Works.inv (h : Works w s s') (hs : Inv s) :
  Inv s'
  := by
  obtain ⟨hbegun, hsubmitted, -, hshutdown⟩ :
      s'.begun = s.begun ∧ s'.submitted = s.submitted ∧ s'.refused = s.refused
        ∧ s'.shutdown = s.shutdown := by
    simpa [System.record] using h.record
  refine ⟨?_, ?_, ?_, ?_, ?_, ?_, ?_⟩
  · intro item
    rw [h.places, hs.placed, hbegun]
  · rw [hbegun]
    exact hs.numbered
  · rw [hbegun]
    exact hs.nodup
  · rw [hsubmitted, hbegun]
    exact hs.submitted
  · intro item hitem
    rcases h.skipped item hitem with hitem | hvalid
    · exact hs.skipped item hitem
    · exact hvalid
  · intro k hk v hv
    exact h.exited (hs.joined k (hshutdown ▸ hk) v hv)
  · intro hreturned v
    exact h.exited (hs.returned (hshutdown ▸ hreturned) v)

theorem places_submitTo (currentId : String) (index : ℕ) (work : Option ι) :
  (s.submitTo currentId index work).places item
    = s.places item + [s.nextItem currentId work].count item
  := by
  unfold submitTo
  split_ifs with hindex
  · have hqueues := sum_update (fun q : List (WorkItem ι) => q.count item) s.queues
      ⟨index, hindex⟩ (s.queues ⟨index, hindex⟩ ++ [s.nextItem currentId work])
    simp only [List.count_append] at hqueues
    simp only [places]
    omega
  · simp only [places, List.count_append]
    omega

theorem inv_submitTo (hs : Inv s) (currentId : String) (index : ℕ) (work : Option ι) :
  Inv (s.submitTo currentId index work)
  := by
  have hnew : s.nextItem currentId work ∉ s.begun := fun h => Nat.lt_irrefl _ (hs.numbered _ h)
  have hrest : (s.submitTo currentId index work).submitted = s.submitted
      ∧ (s.submitTo currentId index work).skipped = s.skipped
      ∧ (s.submitTo currentId index work).shutdown = s.shutdown := by
    unfold submitTo
    split_ifs <;> exact ⟨rfl, rfl, rfl⟩
  obtain ⟨hsubmitted, hskipped, hshutdown⟩ := hrest
  refine ⟨?_, ?_, ?_, ?_, ?_, ?_, ?_⟩
  · intro item
    rw [places_submitTo, begun_submitTo, List.count_append, hs.placed]
  · rw [begun_submitTo, List.length_append, List.length_singleton]
    intro item hitem
    rcases List.mem_append.mp hitem with hitem | hitem
    · exact Nat.lt_succ_of_lt (hs.numbered item hitem)
    · rw [List.mem_singleton.mp hitem]
      exact Nat.lt_succ_self _
  · rw [begun_submitTo]
    exact hs.nodup.append (List.nodup_singleton _) (by simpa using hnew)
  · rw [begun_submitTo, hsubmitted]
    exact List.subset_append_of_subset_left _ hs.submitted
  · rw [hskipped]
    exact hs.skipped
  · rw [control_submitTo, hshutdown]
    exact hs.joined
  · rw [control_submitTo, hshutdown]
    exact hs.returned

theorem inv_shutdownStep (hs : Inv s) (h : s.shutdownStep = some s') :
  Inv s'
  := by
  cases hshutdown : s.shutdown with
  | idle =>
    simp only [shutdownStep, hshutdown, Option.some.injEq] at h
    subst h
    refine ⟨hs.placed, hs.numbered, hs.nodup, hs.submitted, hs.skipped, ?_, ?_⟩
    · intro k hk w hw
      cases hk
      exact absurd hw (Nat.not_lt_zero _)
    · intro h
      cases h
  | joining k =>
    simp only [shutdownStep, hshutdown] at h
    split_ifs at h with hk hexited
    · cases h
      refine ⟨hs.placed, hs.numbered, hs.nodup, hs.submitted, hs.skipped, ?_, (fun h => nomatch h)⟩
      intro k' hk' w hw
      cases hk'
      rcases Nat.lt_succ_iff_lt_or_eq.mp hw with hlt | heq
      · exact hs.joined k hshutdown w hlt
      · rw [show w = ⟨k, hk⟩ from Fin.ext heq]
        exact hexited
    · cases h
      refine ⟨hs.placed, hs.numbered, hs.nodup, hs.submitted, hs.skipped, (fun k h => nomatch h), ?_⟩
      intro _ w
      exact hs.joined k hshutdown w (Nat.lt_of_lt_of_le w.isLt (Nat.le_of_not_lt hk))
  | returned =>
    simp only [shutdownStep, hshutdown] at h
    cases h

theorem inv_act {a : Action ι n} (hs : Inv s) (h : s.act a = some s') :
  Inv s'
  := by
  cases a with
  | worker w => exact (works_workerStep h).inv hs
  | correlate w id =>
    simp only [act] at h
    split_ifs at h
    cases h
    exact ⟨hs.placed, hs.numbered, hs.nodup, hs.submitted, hs.skipped, hs.joined, hs.returned⟩
  | submit currentId index work =>
    simp only [act] at h
    split_ifs at h
    cases h
    exact inv_submitTo hs currentId index work
  | submitInside w index work =>
    simp only [act] at h
    split_ifs at h
    cases h
    exact inv_submitTo hs _ index work
  | submitReturns item =>
    simp only [act] at h
    split_ifs at h with hitem
    cases h
    refine ⟨hs.placed, hs.numbered, hs.nodup, ?_, hs.skipped, hs.joined, hs.returned⟩
    exact List.append_subset.mpr ⟨hs.submitted, by simpa using hitem.1⟩
  | shutdown => exact inv_shutdownStep hs h

/-- The invariant holds in every interleaving. -/
theorem inv_run {actions : List (Action ι n)} (hrun : run act initial actions = some s) :
  Inv s
  := run_invariant inv_act inv_initial hrun

/-! ### At the return -/

/-- Every valid item whose submission has returned has been executed exactly once. -/
def ExecutedOnce (s : System ι n) : Prop :=
  ∀ item ∈ s.submitted, item.valid = true → s.executed.count item = 1

/-- When `shutdown` has returned, a valid item has been executed, or it is left in a queue, or
it was refused. -/
theorem count_executed_of_returned {actions : List (Action ι n)}
    (hrun : run act initial actions = some s) (hreturned : s.shutdown = .returned)
    (hbegun : item ∈ s.begun) (hvalid : item.valid = true) :
  s.executed.count item = 1 ↔ item ∉ s.refused ∧ ∀ w, item ∉ s.queues w
  := by
  have hinv := inv_run hrun
  have hheld : ∀ w, (s.control w).held.count item = 0 := by
    intro w
    have hexited := hinv.returned hreturned w
    cases hcontrol : s.control w <;> simp_all [Control.isExited, Control.held]
  have hskipped : s.skipped.count item = 0 := by
    rw [List.count_eq_zero]
    intro h
    rw [hinv.skipped item h] at hvalid
    cases hvalid
  have hplaced := hinv.placed item
  rw [List.count_eq_one_of_mem hinv.nodup hbegun, places, hskipped,
    Finset.sum_eq_zero fun w _ => hheld w] at hplaced
  have hqueues : ∑ w, (s.queues w).count item = 0 ↔ ∀ w, item ∉ s.queues w := by
    simp [Finset.sum_eq_zero_iff, List.count_eq_zero]
  rw [← hqueues, ← List.count_eq_zero]
  omega

/-! ### Submissions to workers that have not exited -/

/-- There is such a worker, and it has not exited. -/
def Accepts (s : System ι n) (index : ℕ) : Prop :=
  ∃ h : index < n, (s.control ⟨index, h⟩).isExited = false

instance (s : System ι n) (index : ℕ) : Decidable (s.Accepts index) :=
  inferInstanceAs (Decidable (∃ _, _))

/-- Valid work is submitted to a worker that has not exited. -/
def Heard (s : System ι n) : Action ι n → Prop
  | .submit _ index work | .submitInside _ index work => work.isSome = true → s.Accepts index
  | _ => True

instance (s : System ι n) (a : Action ι n) : Decidable (s.Heard a) :=
  match a with
  | .submit .. | .submitInside .. => inferInstanceAs (Decidable (_ → _))
  | .worker _ | .correlate .. | .submitReturns _ | .shutdown => isTrue trivial

/-- No valid item has been refused or is left to a worker that has exited. -/
structure Kept (s : System ι n) : Prop where
  refused : ∀ item ∈ s.refused, item.valid = false
  exited : ∀ w, (s.control w).isExited = true → ∀ item ∈ s.queues w, item.valid = false

theorem Works.kept (h : Works w s s') (hs : Kept s) :
  Kept s'
  := by
  have hrefused : s'.refused = s.refused := congrArg (fun r => r.2.2.1) h.record
  constructor
  · rw [hrefused]
    exact hs.refused
  · intro v hv item hitem
    by_cases hvw : v = w
    · rw [hvw, h.after (hvw ▸ hv)] at hitem
      cases hitem
    · rw [h.control v hvw] at hv
      exact hs.exited v hv item (h.queues v hitem)

omit [DecidableEq ι] in
theorem kept_submitTo (hs : Kept s) (currentId : String) {index : ℕ} {work : Option ι}
    (hwork : work.isSome = true → s.Accepts index) :
  Kept (s.submitTo currentId index work)
  := by
  have hnew : ¬ s.Accepts index → (s.nextItem currentId work).valid = false := by
    intro h
    exact Bool.eq_false_iff.mpr (mt hwork h)
  unfold submitTo
  split_ifs with hindex
  · refine ⟨hs.refused, ?_⟩
    intro v hv item hitem
    by_cases hvw : v = ⟨index, hindex⟩
    · subst hvw
      simp only [Function.update_self] at hitem
      rcases List.mem_append.mp hitem with hitem | hitem
      · exact hs.exited _ hv item hitem
      · rw [List.mem_singleton.mp hitem]
        apply hnew
        rintro ⟨_, hstays⟩
        exact Bool.false_ne_true (hstays.symm.trans hv)
    · simp only [Function.update_of_ne hvw] at hitem
      exact hs.exited v hv item hitem
  · refine ⟨?_, hs.exited⟩
    intro item hitem
    rcases List.mem_append.mp hitem with hitem | hitem
    · exact hs.refused item hitem
    · rw [List.mem_singleton.mp hitem]
      apply hnew
      rintro ⟨h, -⟩
      exact hindex h

theorem kept_act {a : Action ι n} (ha : s.Heard a) (hs : Kept s) (h : s.act a = some s') :
  Kept s'
  := by
  cases a with
  | worker w => exact (works_workerStep h).kept hs
  | submit currentId index work | submitInside w index work =>
    simp only [act] at h
    split_ifs at h
    cases h
    exact kept_submitTo hs _ ha
  | correlate w id | submitReturns item =>
    simp only [act] at h
    split_ifs at h
    cases h
    exact ⟨hs.refused, hs.exited⟩
  | shutdown =>
    simp only [act, shutdownStep] at h
    split at h
    · cases h
      exact ⟨hs.refused, hs.exited⟩
    · split_ifs at h <;> cases h <;> exact ⟨hs.refused, hs.exited⟩
    · cases h

/-- In every run in which valid work is submitted only to workers that have not exited, every valid
item whose submission had returned has been executed exactly once when `shutdown` has returned. -/
theorem executedOnce_of_heard {ι : Type} [DecidableEq ι] {n : ℕ} (actions : List (Action ι n))
    (s : System ι n) (hrun : run act initial actions = some s)
    (hheard : Along act Heard initial actions) :
  s.shutdown = .returned → ExecutedOnce s
  := by
  intro hreturned item hsubmitted hvalid
  have hinv := inv_run hrun
  have hinitial : Kept (initial : System ι n) := by
    constructor
    · intro item h
      cases h
    · intro w h
      cases h
  have hkept : Kept s := run_invariant_along kept_act hinitial hheard hrun
  rw [count_executed_of_returned hrun hreturned (hinv.submitted hsubmitted) hvalid]
  constructor
  · intro hrefused
    exact Bool.false_ne_true ((hkept.refused item hrefused).symm.trans hvalid)
  · intro w hqueue
    have hexited := hinv.returned hreturned w
    exact Bool.false_ne_true ((hkept.exited w hexited item hqueue).symm.trans hvalid)

/-- Two workers; the second exits while an item runs on the first, and then the item submits
another one to the second worker. -/
def lostRun : List (Action Unit 2) :=
  [.submit "" 0 (some ()), .submitReturns ⟨0, some (), ""⟩, .worker 0, .worker 0, .worker 0,
    .shutdown, .worker 1, .worker 1, .submitInside 0 1 (some ()),
    .submitReturns ⟨1, some (), ""⟩, .worker 0, .worker 0, .worker 0, .shutdown, .shutdown,
    .shutdown]

theorem lost_item :
  ∃ s : System Unit 2, run act initial lostRun = some s ∧ s.shutdown = .returned
    ∧ ¬ ExecutedOnce s
  := by
  refine ⟨(run act initial lostRun).get (by decide), by simp, by decide, ?_⟩
  intro h
  exact absurd (h ⟨1, some (), ""⟩ (by decide) rfl) (by decide)

/-- Two workers.  An item that runs on the first one submits another to it after the second has
exited; the first worker drains its queue. -/
def drainedRun : List (Action Unit 2) :=
  [.submit "" 0 (some ()), .submitReturns ⟨0, some (), ""⟩, .worker 0, .worker 0, .worker 0,
    .shutdown, .worker 1, .worker 1, .submitInside 0 0 (some ()),
    .submitReturns ⟨1, some (), ""⟩, .worker 0, .worker 0, .worker 0, .worker 0, .worker 0,
    .worker 0, .shutdown, .shutdown, .shutdown]

theorem executedOnce_drainedRun :
  ∃ s : System Unit 2, run act initial drainedRun = some s ∧ Along act Heard initial drainedRun
    ∧ s.shutdown = .returned ∧ s.submitted.length = 2 ∧ ExecutedOnce s
  := by
  have hrun : run act initial drainedRun
      = some ((run act initial drainedRun).get (by decide)) := by simp
  have hheard : Along act Heard initial drainedRun := by decide
  refine ⟨_, hrun, hheard, by decide, by decide, ?_⟩
  exact executedOnce_of_heard drainedRun _ hrun hheard (by decide)

end System

end Scheduler

end Agamemnon
