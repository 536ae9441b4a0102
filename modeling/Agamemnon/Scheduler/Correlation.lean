import Agamemnon.Scheduler.Workers

/-!
# Correlation identifiers

An item should run with the identifier that was current on the thread that submitted it, and leave
the identifier of its worker as it was before.  A trace records, beside the system, what was current
at each submission, before a worker took its item, when an item started and when it had ended.

A worker that steals an item with an identifier makes this its own before it remembers what to
restore, so it keeps the identifier when the item has ended.  In a run without such thefts no
identifier leaks (`noLeak_of_along`).
-/

namespace Agamemnon

open Machine

namespace Scheduler

variable {ι : Type} {n : ℕ}

/-! ### Traces -/

/-- A system with a record of the identifiers. -/
structure Traced (ι : Type) (n : ℕ) where
  sys : System ι n
  /-- for each submission, the identifier of the submitting thread -/
  origins : List String
  /-- the identifier of a worker before it took the item that it has -/
  before : Fin n → String
  /-- for each item that has started, the identifier at its submission and that of the worker -/
  started : List (Option String × String)
  /-- for each item that has ended, the identifier of the worker before it and that after it -/
  ended : List (String × String)

namespace Traced

def initial : Traced ι n where
  sys := System.initial
  origins := []
  before := fun _ => ""
  started := []
  ended := []

/-- Record a step of a worker to the system `s'`. -/
def noteWorker (t : Traced ι n) (s' : System ι n) (w : Fin n) : Traced ι n :=
  match t.sys.control w with
  | .taken item _ =>
      if item.valid then
        { t with
          sys := s'
          started := t.started ++ [(t.origins[item.number]?, s'.correlationId w)] }
      else { t with sys := s', ended := t.ended ++ [(t.before w, s'.correlationId w)] }
  | .running _ _ _ => { t with sys := s', ended := t.ended ++ [(t.before w, s'.correlationId w)] }
  | _ => { t with sys := s', before := Function.update t.before w (t.sys.correlationId w) }

/-- Record an action that leads to the system `s'`. -/
def note (t : Traced ι n) (s' : System ι n) : Action ι n → Traced ι n
  | .worker w => t.noteWorker s' w
  | .submit currentId _ _ => { t with sys := s', origins := t.origins ++ [currentId] }
  | .submitInside w _ _ =>
      { t with sys := s', origins := t.origins ++ [t.sys.correlationId w] }
  | _ => { t with sys := s' }

def act [DecidableEq ι] (t : Traced ι n) (a : Action ι n) : Option (Traced ι n) :=
  (t.sys.act a).map fun s' => t.note s' a

/-- Items run with the identifier of their submission, and leave that of the worker as it was. -/
structure NoLeak (t : Traced ι n) : Prop where
  started : ∀ p ∈ t.started, p.1 = some p.2
  ended : ∀ p ∈ t.ended, p.1 = p.2

end Traced

namespace System

variable {s s' : System ι n} {w : Fin n} {item : WorkItem ι}

theorem correlationId_submitTo (s : System ι n) (currentId : String) (index : ℕ) (work : Option ι) :
  (s.submitTo currentId index work).correlationId = s.correlationId
  := by
  unfold submitTo
  split_ifs <;> rfl

/-- The queues get nothing but the new item. -/
theorem mem_queues_submitTo {currentId : String} {index : ℕ} {work : Option ι}
    (h : item ∈ (s.submitTo currentId index work).queues w) :
  item ∈ s.queues w ∨ item = s.nextItem currentId work
  := by
  unfold submitTo at h
  split_ifs at h with hindex
  · obtain rfl | hw := eq_or_ne w ⟨index, hindex⟩
    · simp only [Function.update_self, List.mem_append, List.mem_singleton] at h
      apply h
    · simp only [Function.update_of_ne hw] at h
      exact .inl h
  · exact .inl h

theorem shutdownStep_eq (h : s.shutdownStep = some s') :
  s'.begun = s.begun ∧ s'.queues = s.queues ∧ s'.control = s.control
    ∧ s'.correlationId = s.correlationId
  := by
  rw [shutdownStep] at h
  cases hshutdown : s.shutdown with
  | idle =>
    rw [hshutdown] at h
    cases h
    exact ⟨rfl, rfl, rfl, rfl⟩
  | joining k =>
    simp only [hshutdown] at h
    split_ifs at h
    · cases h
      exact ⟨rfl, rfl, rfl, rfl⟩
    · cases h
      exact ⟨rfl, rfl, rfl, rfl⟩
  | returned =>
    rw [hshutdown] at h
    cases h

end System

/-! ### Runs without thefts of identifiers -/

namespace Traced

/-- No item with an identifier is taken from the queue of another worker. -/
def NoTheft (t : Traced ι n) : Action ι n → Prop
  | .worker w => ∀ item ∈ t.sys.stolen w, item.correlationId = ""
  | _ => True

instance (t : Traced ι n) : (a : Action ι n) → Decidable (t.NoTheft a)
  | .worker w => inferInstanceAs (Decidable (∀ item ∈ t.sys.stolen w, item.correlationId = ""))
  | .correlate _ _ => isTrue trivial
  | .submit _ _ _ => isTrue trivial
  | .submitInside _ _ _ => isTrue trivial
  | .submitReturns _ => isTrue trivial
  | .shutdown => isTrue trivial

/-- The items that a worker has keep the identifiers of their submissions, and nothing is current on
it but while an item runs. -/
structure Tidy (origins : List String) (control : Control ι) (id before : String) : Prop where
  held : ∀ item ∈ control.held, origins[item.number]? = some item.correlationId
  idle : control.isRunning = false → id = ""
  before : control.held ≠ [] → before = ""
  previous : ∀ item previousId draining,
    control = .running item previousId draining → previousId = ""

/-- The invariant. -/
structure Clean (t : Traced ι n) : Prop where
  length : t.origins.length = t.sys.begun.length
  queued : ∀ w, ∀ item ∈ t.sys.queues w, t.origins[item.number]? = some item.correlationId
  tidy : ∀ w, Tidy t.origins (t.sys.control w) (t.sys.correlationId w) (t.before w)
  noLeak : NoLeak t

variable {t : Traced ι n} {s' : System ι n} {w : Fin n}

theorem clean_initial :
  Clean (initial : Traced ι n)
  where
  length := rfl
  queued := by
    intro w item hitem
    cases hitem
  tidy := by
    intro w
    refine ⟨?_, fun _ => rfl, fun _ => rfl, ?_⟩
    · intro item hitem
      cases hitem
    · intro item previousId draining h
      cases h
  noLeak := by
    constructor
    · intro p hp
      cases hp
    · intro p hp
      cases hp

/-- A worker that has no item is not recorded but for its identifier. -/
theorem noteWorker_of_free (h : (t.sys.control w).held = []) (s' : System ι n) :
  t.noteWorker s' w
    = { t with sys := s', before := Function.update t.before w (t.sys.correlationId w) }
  := by
  rw [noteWorker]
  cases hcontrol : t.sys.control w with
  | taken item draining | running item previousId draining =>
    rw [hcontrol] at h
    cases h
  | _ => rfl

variable {control : Control ι} {origins : List String}

theorem tidy_of_free {before : String} (h : control.held = []) :
  Tidy origins control "" before
  := by
  refine ⟨?_, fun _ => rfl, fun hheld => absurd h hheld, ?_⟩
  · intro item hitem
    rw [h] at hitem
    cases hitem
  · rintro item previousId draining rfl
    cases h

variable {t' : Traced ι n}

/-- What is to be shown for a step of a worker. -/
theorem Clean.of_frame (h : Clean t) (hsys : t'.sys = s') (hframe : t.sys.Frame w s')
    (horigins : t'.origins = t.origins) (hbefore : ∀ v, v ≠ w → t'.before v = t.before v)
    (htidy : Tidy t.origins (s'.control w) (s'.correlationId w) (t'.before w)) (hleak : NoLeak t') :
  Clean t'
  := by
  subst hsys
  refine ⟨?_, ?_, ?_, hleak⟩
  · rw [horigins, hframe.begun, h.length]
  · intro v item hitem
    rw [horigins]
    apply h.queued v item (hframe.queues v hitem)
  · intro v
    rw [horigins]
    obtain rfl | hv := eq_or_ne v w
    · apply htidy
    · rw [hframe.control v hv, hframe.correlationId v hv, hbefore v hv]
      apply h.tidy v

variable {id : String}

theorem NoLeak.start (h : NoLeak t) (s' : System ι n) (before : Fin n → String) :
  NoLeak { t with sys := s', before, started := t.started ++ [(some id, id)] }
  := by
  refine ⟨?_, h.ended⟩
  intro p hp
  rw [List.mem_append, List.mem_singleton] at hp
  rcases hp with hp | rfl
  · apply h.started p hp
  · rfl

theorem NoLeak.finish (h : NoLeak t) (s' : System ι n) (before : Fin n → String) :
  NoLeak { t with sys := s', before, ended := t.ended ++ [(id, id)] }
  := by
  refine ⟨h.started, ?_⟩
  intro p hp
  rw [List.mem_append, List.mem_singleton] at hp
  rcases hp with hp | rfl
  · apply h.ended p hp
  · rfl

theorem isRunning_of_free (h : control.held = []) :
  control.isRunning = false
  := by
  cases control with
  | running => cases h
  | _ => rfl

/-- A worker that has no item has no identifier. -/
theorem Clean.correlationId_eq (h : Clean t) (hfree : (t.sys.control w).held = []) :
  t.sys.correlationId w = ""
  := (h.tidy w).idle (isRunning_of_free hfree)

/-- A step of a worker that has no item. -/
theorem Clean.of_free (h : Clean t) (hfree : (t.sys.control w).held = [])
    (hframe : t.sys.Frame w s') (htidy : Tidy t.origins (s'.control w) (s'.correlationId w) "") :
  Clean (t.noteWorker s' w)
  := by
  rw [noteWorker_of_free hfree]
  refine h.of_frame rfl hframe rfl ?_ ?_ ?_
  · intro v hv
    apply Function.update_of_ne hv
  · simp only [Function.update_self, h.correlationId_eq hfree]
    apply htidy
  · exact ⟨h.noLeak.started, h.noLeak.ended⟩

/-- The end of an item, which was skipped or has been executed. -/
theorem Clean.of_ended (h : Clean t) (hheld : (t.sys.control w).held ≠ [])
    (hframe : t.sys.Frame w s') (hfree : (s'.control w).held = []) (hid : s'.correlationId w = "") :
  Clean { t with sys := s', ended := t.ended ++ [(t.before w, s'.correlationId w)] }
  := by
  have hbefore := (h.tidy w).before hheld
  rw [hbefore, hid]
  refine h.of_frame rfl hframe rfl (fun _ _ => rfl) ?_ ?_
  · rw [hid]
    apply tidy_of_free hfree
  · apply h.noLeak.finish

variable {item : WorkItem ι}

/-- A worker takes an item, which has no identifier if it is stolen. -/
theorem Clean.take (h : Clean t) {victim : Fin n} {rest : List (WorkItem ι)}
    (hfree : (t.sys.control w).held = []) (hqueue : t.sys.queues victim = item :: rest)
    (hsafe : victim = w ∨ item.correlationId = "") (draining : Bool) :
  Clean (t.noteWorker (t.sys.take w victim item rest draining) w)
  := by
  apply h.of_free hfree (System.frame_take hqueue draining)
  rw [System.take_eq hsafe]
  change Tidy _ ((t.sys.goto w (.taken item draining)).control w) (t.sys.correlationId w) _
  rw [System.control_goto_self, h.correlationId_eq hfree]
  refine ⟨?_, fun _ => rfl, fun _ => rfl, ?_⟩
  · intro other hother
    rw [Control.held, List.mem_singleton] at hother
    subst hother
    apply h.queued victim
    rw [hqueue]
    apply List.mem_cons_self
  · intro other previousId draining hrunning
    cases hrunning

/-- An item starts, with its own identifier. -/
theorem Clean.start (h : Clean t) {draining : Bool}
    (hcontrol : t.sys.control w = .taken item draining) (hvalid : item.valid = true)
    (hid : id = if item.correlationId = "" then t.sys.correlationId w else item.correlationId) :
  Clean (t.noteWorker
    ((t.sys.goto w (.running item (t.sys.correlationId w) draining)).setCorrelationId w id) w)
  := by
  have hheld : (t.sys.control w).held = [item] := by
    rw [hcontrol]
    rfl
  obtain ⟨horigin, hidle, hbefore, -⟩ := h.tidy w
  rw [hheld] at horigin hbefore
  replace horigin := horigin item List.mem_cons_self
  replace hidle := hidle (by rw [hcontrol]; rfl)
  have hitem : id = item.correlationId := by
    rw [hid, hidle]
    split_ifs with hempty
    · exact hempty.symm
    · rfl
  rw [Traced.noteWorker, hcontrol]
  simp only [hvalid, if_true, System.correlationId_setCorrelationId, horigin, hitem]
  have hframe := (System.frame_goto t.sys w
    (.running item (t.sys.correlationId w) draining)).setCorrelationId item.correlationId
  refine h.of_frame rfl hframe rfl (fun _ _ => rfl) ?_ ?_
  · change Tidy _ ((t.sys.goto w (.running item (t.sys.correlationId w) draining)).control w) _ _
    rw [System.control_goto_self]
    refine ⟨?_, ?_, fun _ => hbefore (List.cons_ne_nil _ _), ?_⟩
    · intro other hother
      rw [Control.held, List.mem_singleton] at hother
      subst hother
      apply horigin
    · intro hrunning
      cases hrunning
    · intro other previousId draining hrunning
      cases hrunning
      apply hidle
  · apply h.noLeak.start

theorem Clean.noteWorker (h : Clean t) (hmoves : t.sys.Moves w s') (hsafe : t.NoTheft (.worker w)) :
  Clean (t.noteWorker s' w)
  := by
  have hframe := hmoves.frame
  have hresume (draining : Bool) : ((t.sys.goto w (.resume draining)).control w).held = [] := by
    rw [System.control_goto_self, Control.held_resume]
  cases hmoves with
  | look control hfree hfree' =>
    apply h.of_free hfree hframe
    rw [System.control_goto_self]
    change Tidy _ _ (t.sys.correlationId w) _
    rw [h.correlationId_eq hfree]
    apply tidy_of_free hfree'
  | take victim item rest draining hfree hqueue howner =>
    apply h.take hfree hqueue (howner.imp_right (hsafe item))
  | start item draining hcontrol hvalid id hid => apply h.start hcontrol hvalid hid
  | skip item draining hcontrol hvalid =>
    have hheld : (t.sys.control w).held ≠ [] := by
      rw [hcontrol]
      apply List.cons_ne_nil
    have hidle : t.sys.correlationId w = "" := by
      apply (h.tidy w).idle
      rw [hcontrol]
      rfl
    rw [Traced.noteWorker, hcontrol]
    simp only [hvalid, Bool.false_eq_true, if_false]
    apply h.of_ended hheld hframe (hresume draining) hidle
  | finish item previousId draining hcontrol =>
    have hheld : (t.sys.control w).held ≠ [] := by
      rw [hcontrol]
      apply List.cons_ne_nil
    have hprevious : previousId = "" := (h.tidy w).previous item previousId draining hcontrol
    rw [Traced.noteWorker, hcontrol]
    apply h.of_ended hheld hframe (hresume draining)
    apply (Function.update_self ..).trans hprevious
  | exit hcontrol =>
    have hfree : (t.sys.control w).held = [] := by
      rw [hcontrol]
      rfl
    apply h.of_free hfree hframe
    rw [System.correlationId_setCorrelationId]
    apply tidy_of_free
    change ((t.sys.goto w .exited).control w).held = []
    rw [System.control_goto_self]
    rfl

theorem getElem?_append_of_eq_some {k : ℕ} (h : origins[k]? = some id) (ids : List String) :
  (origins ++ ids)[k]? = some id
  := by
  rw [List.getElem?_append_left, h]
  apply (List.getElem?_eq_some_iff.mp h).1

/-- A submission, with the identifier that is current on its thread. -/
theorem Clean.submitTo (h : Clean t) (currentId : String) (index : ℕ) (work : Option ι) :
  Clean { t with
    sys := t.sys.submitTo currentId index work
    origins := t.origins ++ [currentId] }
  where
  length := by
    rw [System.begun_submitTo, List.length_append, List.length_append, h.length]
    rfl
  queued := by
    intro w item hitem
    rcases System.mem_queues_submitTo hitem with hitem | rfl
    · apply getElem?_append_of_eq_some (h.queued w item hitem)
    · change (t.origins ++ [currentId])[t.sys.begun.length]? = some currentId
      rw [← h.length, List.getElem?_concat_length]
  tidy := by
    intro w
    obtain ⟨hheld, hidle, hbefore, hprevious⟩ := h.tidy w
    rw [System.control_submitTo, System.correlationId_submitTo]
    refine ⟨?_, hidle, hbefore, hprevious⟩
    intro item hitem
    apply getElem?_append_of_eq_some (hheld item hitem)
  noLeak := ⟨h.noLeak.started, h.noLeak.ended⟩

/-- Nothing but the items, the workers and the submissions matters. -/
theorem Clean.of_eq (h : Clean t) (hbegun : s'.begun = t.sys.begun)
    (hqueues : s'.queues = t.sys.queues) (hcontrol : s'.control = t.sys.control)
    (hid : s'.correlationId = t.sys.correlationId) :
  Clean { t with sys := s' }
  where
  length := by rw [hbegun, h.length]
  queued := by rw [hqueues]; exact h.queued
  tidy := by rw [hcontrol, hid]; exact h.tidy
  noLeak := ⟨h.noLeak.started, h.noLeak.ended⟩

theorem Clean.act [DecidableEq ι] {a : Action ι n} (hsafe : t.NoTheft a) (h : Clean t)
    (hact : t.act a = some t') :
  Clean t'
  := by
  rw [Traced.act, Option.map_eq_some_iff] at hact
  obtain ⟨s', hact, rfl⟩ := hact
  cases a with
  | worker w => apply h.noteWorker (System.moves_workerStep hact) hsafe
  | correlate w id =>
    rw [System.act] at hact
    split_ifs at hact with hrunning
    cases hact
    refine h.of_frame rfl ((System.frame_refl t.sys w).setCorrelationId id) rfl (fun _ _ => rfl) ?_
      ⟨h.noLeak.started, h.noLeak.ended⟩
    obtain ⟨hheld, -, hbefore, hprevious⟩ := h.tidy w
    refine ⟨hheld, ?_, hbefore, hprevious⟩
    intro hidle
    cases hrunning.symm.trans hidle
  | submit currentId index work | submitInside w index work =>
    rw [System.act] at hact
    split_ifs at hact
    cases hact
    apply h.submitTo
  | submitReturns item =>
    rw [System.act] at hact
    split_ifs at hact
    cases hact
    refine h.of_eq ?_ ?_ ?_ ?_ <;> rfl
  | shutdown =>
    obtain ⟨hbegun, hqueues, hcontrol, hid⟩ := System.shutdownStep_eq hact
    apply h.of_eq hbegun hqueues hcontrol hid

/-- In every run in which no item with an identifier is stolen, no identifier leaks. -/
theorem noLeak_of_along {ι : Type} [DecidableEq ι] {n : ℕ} (actions : List (Action ι n))
    (t : Traced ι n) (hrun : run act initial actions = some t)
    (halong : Machine.Along act NoTheft initial actions) :
  NoLeak t
  := (run_invariant_along Clean.act clean_initial halong hrun).noLeak

/-- Two items for one worker; the first one has an identifier, and sets another one. -/
def ownItems (w : Fin 2) : List (Action Unit 2) :=
  [.submit "a" w (some ()), .submit "" w (some ()), .worker w, .worker w, .worker w,
    .correlate w "b", .worker w, .worker w, .worker w, .worker w, .worker w]

theorem noLeak_ownItems :
  ∃ t : Traced Unit 2, run act initial (ownItems 0) = some t
    ∧ Machine.Along act NoTheft initial (ownItems 0)
    ∧ t.started = [(some "a", "a"), (some "", "")] ∧ NoLeak t
  := by
  have hrun : run act initial (ownItems 0)
      = some ((run act initial (ownItems 0)).get (by decide)) := by simp
  have halong : Machine.Along act NoTheft initial (ownItems 0) := by decide
  exact ⟨_, hrun, halong, by decide, noLeak_of_along (ownItems 0) _ hrun halong⟩

/-- A worker steals an item with an identifier, and then one without. -/
def stolenItems (owner thief : Fin 2) : List (Action Unit 2) :=
  [.submit "a" owner (some ()), .submit "" owner (some ()), .worker thief, .worker thief,
    .worker thief, .worker thief, .worker thief, .worker thief, .worker thief, .worker thief,
    .worker thief]

/-- The identifier of the first item stays on the worker, and the second item runs with it. -/
theorem leak_stolenItems :
  ∃ t : Traced Unit 2, run act initial (stolenItems 0 1) = some t
    ∧ t.started = [(some "a", "a"), (some "", "a")] ∧ t.ended = [("", "a")] ∧ ¬ NoLeak t
  := by
  have hrun : run act initial (stolenItems 0 1)
      = some ((run act initial (stolenItems 0 1)).get (by decide)) := by simp
  refine ⟨_, hrun, by decide, by decide, ?_⟩
  intro h
  have hended := h.ended ("", "a") (by decide)
  revert hended
  decide

end Traced

end Scheduler

end Agamemnon
