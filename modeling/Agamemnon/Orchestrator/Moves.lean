import Agamemnon.Orchestrator.Board
import Agamemnon.Plan.Shape

/-!
# Moves

Whatever a call does to the board is a sequence of moves: a new task is created, a stored
task is rewritten to one it may become, or a pending task that is no longer blocked is sent.
A move carries the escalations it records.  Invariants of runs are proved for moves.
-/

namespace Agamemnon

namespace Orchestrator

/-- The identifiers the call draws are not in use. -/
structure Env.Fresh (env : Env) (b : Board) : Prop extends IdSupply env.uuid where
  unused : ∀ n, b.lookup (env.uuid n) = none

theorem Env.Fresh.skip {env : Env} {b : Board} (hfresh : env.Fresh b) (n : ℕ) :
  (env.skip n).Fresh b
  where
  toIdSupply := hfresh.toIdSupply.skip n
  unused := fun i => hfresh.unused (n + i)

end Orchestrator

open Orchestrator

/-! ### What a task may become -/

/-- An escalation that took place: the call, its task and its reason. -/
structure Escalation where
  env : Env
  taskId : String
  reason : String

namespace HmasTask

/-- The records the escalations `es` leave in the task. -/
def recordsOf (t : HmasTask) (es : List Escalation) : List EscalationRecord :=
  (es.filter fun e => e.taskId = t.id).map fun e =>
    escalationRecord e.env e.taskId e.reason t.layer

@[simp]
theorem recordsOf_nil (t : HmasTask) :
  t.recordsOf [] = []
  := rfl

theorem recordsOf_append (t : HmasTask) (es es' : List Escalation) :
  t.recordsOf (es ++ es') = t.recordsOf es ++ t.recordsOf es'
  := by
  rw [recordsOf, List.filter_append, List.map_append]
  rfl

/-- Exactly the tasks in a final state have a time of completion. -/
def Sound (t : HmasTask) : Prop :=
  t.completedAt ≠ "" ↔ t.state.terminal = true

/-- What the task `t` may become while the escalations `es` take place. -/
structure Evolves (es : List Escalation) (t t' : HmasTask) : Prop where
  id : t'.id = t.id
  layer : t'.layer = t.layer
  blockedBy : t'.blockedBy = t.blockedBy
  /-- Final states are not left. -/
  terminal : t.state.terminal = true → t'.state = t.state
  /-- No task becomes pending. -/
  pending : t.state ≠ .pending → t'.state ≠ .pending
  /-- The time of completion does not change once it is set. -/
  completedAt : t.Sound → t.completedAt ≠ "" → t'.completedAt = t.completedAt
  sound : t.Sound → t'.Sound
  escalations : t'.escalations = t.escalations ++ t.recordsOf es

namespace Evolves

variable {es es' : List Escalation} {t t' t'' : HmasTask}

theorem recordsOf (h : t.Evolves es t') (es' : List Escalation) :
  t'.recordsOf es' = t.recordsOf es'
  := by
  rw [HmasTask.recordsOf, HmasTask.recordsOf, h.id, h.layer]

theorem refl (t : HmasTask) :
  t.Evolves [] t
  where
  id := rfl
  layer := rfl
  blockedBy := rfl
  terminal := fun _ => rfl
  pending := fun h => h
  completedAt := fun _ _ => rfl
  sound := fun h => h
  escalations := by simp

theorem trans (h : t.Evolves es t') (h' : t'.Evolves es' t'') :
  t.Evolves (es ++ es') t''
  where
  id := h'.id.trans h.id
  layer := h'.layer.trans h.layer
  blockedBy := h'.blockedBy.trans h.blockedBy
  terminal := by
    intro ht
    have hstate := h.terminal ht
    rw [← hstate]
    apply h'.terminal
    rw [hstate]
    apply ht
  pending := fun ht => h'.pending (h.pending ht)
  completedAt := by
    intro hs hset
    have heq := h.completedAt hs hset
    rw [← heq]
    apply h'.completedAt (h.sound hs)
    rw [heq]
    apply hset
  sound := fun hs => h'.sound (h.sound hs)
  escalations := by
    rw [h'.escalations, h.escalations, h.recordsOf, recordsOf_append, List.append_assoc]

end Evolves

/-- Where a task comes from, which its remainders inherit. -/
def origin (t : HmasTask) : String × String × String × String :=
  (t.briefId, t.parentTaskId, t.repo, t.module)

/-- What the task may become if it may be completed only when `done` says so. -/
structure Turns (done : String → Prop) (es : List Escalation) (t t' : HmasTask) : Prop
    extends t.Evolves es t' where
  origin : t'.origin = t.origin
  completes : t'.state = .completed → t.state = .completed ∨ done t.id

namespace Turns

variable {done : String → Prop} {es : List Escalation} {t t' t'' : HmasTask}

theorem refl (done : String → Prop) (t : HmasTask) :
  t.Turns done [] t
  where
  toEvolves := .refl t
  origin := rfl
  completes := Or.inl

variable {state : TaskState}

/-- A task that is not in a final state may go to any state but these and `Pending`. -/
theorem withState (ht : t.state.terminal = false) (hstate : state.terminal = false)
    (hpending : state ≠ .pending) :
  t.Turns done [] (t.withState state)
  where
  id := rfl
  layer := rfl
  blockedBy := rfl
  terminal := by
    intro h
    rw [ht] at h
    contradiction
  pending := fun _ => hpending
  completedAt := fun _ _ => rfl
  sound := by
    intro hs
    apply hs.trans
    rw [ht, HmasTask.withState, hstate]
  escalations := by simp [HmasTask.withState]
  origin := rfl
  completes := by
    intro h
    rw [show state = .completed from h] at hstate
    contradiction

/-- A task that is not in a final state may reach one. -/
theorem finished (ht : t.state.terminal = false) (hstate : state.terminal = true) {now : String}
    (hnow : now ≠ "") (hdone : state = .completed → done t.id) :
  t.Turns done [] (t.finished state now)
  where
  id := rfl
  layer := rfl
  blockedBy := rfl
  terminal := by
    intro h
    rw [ht] at h
    contradiction
  pending := by
    intro _ h
    rw [show state = .pending from h] at hstate
    contradiction
  completedAt := by
    intro hs hset
    have h := hs.mp hset
    rw [ht] at h
    contradiction
  sound := fun _ => ⟨fun _ => hstate, fun _ => hnow⟩
  escalations := by simp [HmasTask.finished]
  origin := rfl
  completes := fun h => Or.inr (hdone h)

theorem startedWalk (now : String) (t : HmasTask) :
  t.Turns done [] (startedWalk now t)
  := by
  rw [startedWalk_eq]
  split
  · apply refl
  · rename_i ht
    apply withState (Bool.eq_false_of_not_eq_true ht) rfl
    decide

theorem completionWalk {now : String} (hnow : now ≠ "") (t : HmasTask)
    (hdone : t.state.terminal = false → done t.id) :
  t.Turns done [] (completionWalk now t)
  := by
  rw [completionWalk_eq]
  split
  · apply refl
  · rename_i ht
    have hlive := Bool.eq_false_of_not_eq_true ht
    exact finished hlive rfl hnow fun _ => hdone hlive

theorem failedWalk {now : String} (hnow : now ≠ "") (t : HmasTask) :
  t.Turns done [] (failedWalk now t)
  := by
  rw [failedWalk_eq]
  split
  · apply refl
  · rename_i ht
    apply finished (Bool.eq_false_of_not_eq_true ht) rfl hnow
    intro h
    contradiction

/-- The other fields are free. -/
theorem of_eq (h : t.Turns done es t') (hid : t''.id = t'.id) (hlayer : t''.layer = t'.layer)
    (hblocked : t''.blockedBy = t'.blockedBy) (hstate : t''.state = t'.state)
    (hcompleted : t''.completedAt = t'.completedAt)
    (hescalations : t''.escalations = t'.escalations) (horigin : t''.origin = t'.origin) :
  t.Turns done es t''
  where
  id := hid.trans h.id
  layer := hlayer.trans h.layer
  blockedBy := hblocked.trans h.blockedBy
  terminal := fun ht => hstate.trans (h.terminal ht)
  pending := by
    rw [hstate]
    apply h.pending
  completedAt := fun hs hset => hcompleted.trans (h.completedAt hs hset)
  sound := by
    intro hs
    rw [Sound, hstate, hcompleted]
    apply h.sound hs
  escalations := hescalations.trans h.escalations
  origin := horigin.trans h.origin
  completes := by
    rw [hstate]
    apply h.completes

end Turns

/-- A task as it is when it is created. -/
structure Newborn (t : HmasTask) : Prop where
  state : t.state = .pending
  completedAt : t.completedAt = ""
  escalations : t.escalations = []

theorem Newborn.sound {t : HmasTask} (h : t.Newborn) :
  t.Sound
  := by
  rw [Sound, h.state, h.completedAt]
  simp [TaskState.terminal]

end HmasTask

/-! ### Moves -/

namespace Board

/-- One move, with the escalations it records. -/
inductive Move : List Escalation → Board → Board → Prop
  | plain (b : Board) (plain : StringMap Json) : Move [] b { b with plain }
  | create {b : Board} {t : HmasTask} (unused : b.lookup t.id = none) (newborn : t.Newborn) :
      Move [] b (b.put t)
  | rewrite {b : Board} {es : List Escalation} {t t' : HmasTask}
      (stored : b.lookup t.id = some t) (evolves : t.Evolves es t')
      (own : ∀ e ∈ es, e.taskId = t.id) : Move es b (b.put t')
  | send {b : Board} {t t' : HmasTask} (stored : b.lookup t.id = some t)
      (pending : t.state = .pending) (clear : b.clear t = true) (evolves : t.Evolves [] t')
      (sent : t'.state ≠ .pending) : Move [] b (b.send t')

/-- Any number of moves. -/
inductive Moves : List Escalation → Board → Board → Prop
  | refl (b : Board) : Moves [] b b
  | snoc {b b' b'' : Board} {es es' : List Escalation} (moves : Moves es b b')
      (move : Move es' b' b'') : Moves (es ++ es') b b''

variable {b b' b'' : Board} {es es' : List Escalation} {env : Env}

theorem Move.keyed (h : Move es b b') (hb : b.Keyed) :
  b'.Keyed
  := by
  cases h with
  | plain => apply hb
  | create => apply hb.put
  | rewrite => apply hb.put
  | send => apply (hb.put _).dispatch

theorem Moves.keyed (h : Moves es b b') (hb : b.Keyed) :
  b'.Keyed
  := by
  induction h with
  | refl => apply hb
  | snoc _ move ih => apply move.keyed (ih hb)

theorem Move.moves (h : Move es b b') :
  Moves es b b'
  := .snoc (.refl b) h

theorem Moves.trans (h : Moves es b b') (h' : Moves es' b' b'') :
  Moves (es ++ es') b b''
  := by
  induction h' with
  | refl =>
    rw [List.append_nil]
    apply h
  | snoc _ move ih =>
    rw [← List.append_assoc]
    apply Moves.snoc (ih h) move

/-! ### What calls keep -/

variable {done : String → Prop}

/-- No stored task is lost, changes its brief or its layer, or leaves a final state, and only
the tasks of `done` may become completed. -/
structure Keeps (done : String → Prop) (b b' : Board) : Prop where
  old : ∀ {id t}, b.lookup id = some t → ∃ t', b'.lookup id = some t' ∧ t'.briefId = t.briefId
    ∧ t'.layer = t.layer ∧ (t.state.terminal = true → t'.state = t.state)
    ∧ (t'.state = .completed → t.state = .completed ∨ done id)
  new : ∀ {id t'}, b.lookup id = none → b'.lookup id = some t' → t'.state ≠ .completed

theorem Keeps.refl (done : String → Prop) (b : Board) :
  Keeps done b b
  where
  old := fun ht => ⟨_, ht, rfl, rfl, fun _ => rfl, Or.inl⟩
  new := by
    intro id t' hnone ht'
    rw [hnone] at ht'
    contradiction

theorem Keeps.trans (h : Keeps done b b') (h' : Keeps (fun _ => False) b' b'') :
  Keeps done b b''
  where
  old := by
    intro id t ht
    obtain ⟨t', ht', hbrief, hlayer, hterminal, hdone⟩ := h.old ht
    obtain ⟨t'', ht'', hbrief', hlayer', hterminal', hdone'⟩ := h'.old ht'
    refine ⟨t'', ht'', hbrief'.trans hbrief, hlayer'.trans hlayer, ?_, ?_⟩
    · intro hfinal
      have hstate := hterminal hfinal
      rw [← hstate] at hfinal ⊢
      exact hterminal' hfinal
    · intro hcompleted
      rcases hdone' hcompleted with hcompleted | hfalse
      · apply hdone hcompleted
      · contradiction
  new := by
    intro id t'' hnone ht'' hcompleted
    cases ht' : b'.lookup id with
    | none => exact h'.new ht' ht'' hcompleted
    | some t' =>
      obtain ⟨u, hu, -, -, -, hdone'⟩ := h'.old ht'
      obtain rfl := Option.some.inj (hu.symm.trans ht'')
      rcases hdone' hcompleted with hcompleted | hfalse
      · exact h.new hnone ht' hcompleted
      · contradiction

variable {t t' : HmasTask}

/-- A stored task is rewritten. -/
theorem Keeps.rewrite (ht : b.lookup t.id = some t) (h : t.Turns done es t') :
  Keeps done b (b.put t')
  where
  old := by
    intro id u hu
    rw [lookup_put, h.id]
    split
    · subst id
      obtain rfl := Option.some.inj (ht.symm.trans hu)
      exact ⟨t', rfl, congrArg Prod.fst h.origin, h.layer, h.terminal, h.completes⟩
    · exact ⟨u, hu, rfl, rfl, fun _ => rfl, Or.inl⟩
  new := by
    intro id u hnone hu
    rw [lookup_put, h.id] at hu
    split at hu
    · subst id
      rw [hnone] at ht
      contradiction
    · rw [hnone] at hu
      contradiction

/-- A new task is stored. -/
theorem Keeps.create (hunused : b.lookup t.id = none) (hnew : t.Newborn) :
  Keeps done b (b.put t)
  where
  old := by
    intro id u hu
    rw [lookup_put_of_ne]
    · exact (Keeps.refl done b).old hu
    · rintro rfl
      rw [hunused] at hu
      contradiction
  new := by
    intro id u hnone hu
    rw [lookup_put] at hu
    split at hu
    · obtain rfl := Option.some.inj hu
      rw [hnew.state]
      decide
    · rw [hnone] at hu
      contradiction

/-- The moves of a call, and what it keeps. -/
structure Changes (done : String → Prop) (es : List Escalation) (b b' : Board) : Prop where
  moves : Moves es b b'
  keeps : Keeps done b b'

/-- No task is completed. -/
abbrev Quiet : List Escalation → Board → Board → Prop :=
  Changes fun _ => False

theorem Changes.refl (done : String → Prop) (b : Board) :
  Changes done [] b b
  := ⟨.refl b, .refl done b⟩

theorem Changes.and_then (h : Changes done [] b b') (h' : Quiet [] b' b'') :
  Changes done [] b b''
  := ⟨h.moves.trans h'.moves, h.keeps.trans h'.keeps⟩

theorem Quiet.changes (h : Quiet es b b') :
  Changes done es b b'
  := ⟨h.moves, (Keeps.refl done b).trans h.keeps⟩

theorem Changes.rewrite (ht : b.lookup t.id = some t) (h : t.Turns done es t')
    (hown : ∀ e ∈ es, e.taskId = t.id) :
  Changes done es b (b.put t')
  := ⟨(Move.rewrite ht h.toEvolves hown).moves, .rewrite ht h⟩

theorem Changes.create (hunused : b.lookup t.id = none) (hnew : t.Newborn) :
  Changes done [] b (b.put t)
  := ⟨(Move.create hunused hnew).moves, .create hunused hnew⟩

theorem Changes.send (ht : b.lookup t.id = some t) (hpending : t.state = .pending)
    (hclear : b.clear t = true) (h : t.Turns done [] t') (hsent : t'.state ≠ .pending) :
  Changes done [] b (b.send t')
  := by
  have hkeeps : Keeps done b (b.put t') := .rewrite ht h
  exact ⟨(Move.send ht hpending hclear h.toEvolves hsent).moves, hkeeps.old, hkeeps.new⟩

theorem changes_putAll :
  ∀ {ts : List HmasTask} {b : Board}, (ts.map (·.id)).Nodup → (∀ t ∈ ts, t.Newborn) →
    (∀ t ∈ ts, b.lookup t.id = none) → Quiet [] b (b.putAll ts)
  | [], b, _, _, _ => .refl _ b
  | t :: ts, b, hnodup, hnew, hunused => by
      obtain ⟨ht, hnodup⟩ := List.nodup_cons.mp hnodup
      have hrest : ∀ u ∈ ts, (b.put t).lookup u.id = none := by
        intro u hu
        rw [lookup_put_of_ne]
        · apply hunused u (List.mem_cons_of_mem t hu)
        · intro h
          apply ht
          apply List.mem_map.mpr ⟨u, hu, h⟩
      have hfirst : Quiet [] b (b.put t)
        := .create (hunused t List.mem_cons_self) (hnew t List.mem_cons_self)
      apply hfirst.and_then
      apply changes_putAll hnodup (fun u hu => hnew u (List.mem_cons_of_mem t hu)) hrest

/-- A pending task may be delegated. -/
theorem turns_delegated (h : t.state = .pending) :
  t.Turns done [] (t.withState .delegated)
  := by
  apply HmasTask.Turns.withState
  · rw [h]
    rfl
  · rfl
  · decide

theorem changes_consider (hb : b.Keyed) (id : String) :
  Quiet [] b (b.consider id)
  := by
  rw [consider]
  split
  · apply Changes.refl
  · rename_i t ht
    split
    · rename_i h
      obtain rfl := hb ht
      apply Changes.send ht h.1 h.2 (turns_delegated h.1)
      simp [HmasTask.withState]
    · apply Changes.refl

theorem changes_considerAll :
  ∀ (ids : List String) {b : Board}, b.Keyed → Quiet [] b (ids.foldl consider b)
  | [], b, _ => .refl _ b
  | id :: ids, _, hb => (changes_consider hb id).and_then (changes_considerAll ids (hb.consider id))

theorem changes_complete (hb : b.Keyed) (id : String) :
  Changes (id = ·) [] b (b.complete env.ts id)
  := by
  rw [complete]
  split
  · rw [completePlain]
    split
    · have hkeeps := Keeps.refl (id = ·) b
      exact ⟨(Move.plain b _).moves, hkeeps.old, hkeeps.new⟩
    · apply Changes.refl
  · rename_i t ht
    obtain rfl := hb ht
    have hfirst : Changes (t.id = ·) [] b (b.put (completionWalk env.ts t)) := by
      apply Changes.rewrite ht
      · apply HmasTask.Turns.completionWalk (nowIso8601_ne_empty env.now)
        exact fun _ => rfl
      · simp
    apply hfirst.and_then
    apply changes_considerAll _ (hb.put _)

/-- What a start does to a task depends on the message alone: it throws, or changes the state, and
the assignee if there is one. -/
theorem startedTask_cases (msg : Json) :
  (∃ e, ∀ ts t, startedTask ts msg t = .error e)
    ∨ (∀ ts t, startedTask ts msg t = .ok (startedWalk ts t))
    ∨ ∃ lead, ∀ ts t, startedTask ts msg t = .ok { startedWalk ts t with assignedLeadId := lead }
  := by
  unfold startedTask
  cases msg.valueString "agent_id" "" with
  | error e => exact .inl ⟨e, fun _ _ => rfl⟩
  | ok agentId =>
    cases msg.valueString "exec_host" "" with
    | error e => exact .inl ⟨e, fun _ _ => rfl⟩
    | ok execHost =>
      by_cases hnone : agentId = ""
      · exact .inr (.inl fun _ _ => congrArg Except.ok (if_pos hnone))
      · exact .inr (.inr ⟨_, fun _ _ => congrArg Except.ok (if_neg hnone)⟩)

variable {msg : Json} {ts : String}

/-- A start changes the state and the assignee. -/
theorem startedTask_eq (h : startedTask ts msg t = .ok t') :
  ∃ lead, t' = { startedWalk ts t with assignedLeadId := lead }
  := by
  rcases startedTask_cases msg with ⟨e, hmsg⟩ | hmsg | ⟨lead, hmsg⟩
  · cases (hmsg ts t).symm.trans h
  · use (startedWalk ts t).assignedLeadId
    exact (Except.ok.inj ((hmsg ts t).symm.trans h)).symm
  · use lead
    exact (Except.ok.inj ((hmsg ts t).symm.trans h)).symm

/-- A start does not complete a task. -/
theorem turns_startedTask (h : startedTask ts msg t = .ok t') :
  t.Turns done [] t'
  := by
  obtain ⟨lead, rfl⟩ := startedTask_eq h
  exact (HmasTask.Turns.startedWalk ts t).of_eq rfl rfl rfl rfl rfl rfl rfl

theorem changes_start (hb : b.Keyed) (msg : Json) (id : String) :
  Quiet [] b (b.start env.ts msg id)
  := by
  rw [start]
  split
  · apply Changes.refl
  · rename_i t ht
    obtain rfl := hb ht
    split
    · rename_i t' ht'
      apply Changes.rewrite ht (turns_startedTask ht')
      simp
    · apply Changes.refl

theorem changes_fail (hb : b.Keyed) (id : String) :
  Quiet [] b (b.fail env.ts id)
  := by
  rw [fail]
  split
  · apply Changes.refl
  · rename_i t ht
    obtain rfl := hb ht
    apply Changes.rewrite ht
    · apply HmasTask.Turns.failedWalk (nowIso8601_ne_empty env.now)
    · simp

/-- The escalations a call on the board `b` makes. -/
def escalationsOf (b : Board) (env : Env) : Call → List Escalation
  | .escalate id reason => if b.inProgress id then [⟨env, id, reason⟩] else []
  | _ => []

/-- A task in progress may be escalated. -/
theorem turns_escalatedTask (h : t.state = .inProgress) (env : Env) (reason : String) :
  t.Turns done [⟨env, t.id, reason⟩] (escalatedTask t (escalationRecord env t.id reason t.layer))
  := by
  have hturns : t.Turns done [] (t.withState .escalated) := by
    apply HmasTask.Turns.withState
    · rw [h]
      rfl
    · rfl
    · decide
  constructor
  · constructor
    · rfl
    · rfl
    · rfl
    · apply hturns.terminal
    · apply hturns.pending
    · apply hturns.completedAt
    · apply hturns.sound
    · simp [escalatedTask, HmasTask.recordsOf]
  · rfl
  · apply hturns.completes

theorem changes_escalate (hb : b.Keyed) (id reason : String) :
  Quiet (b.escalationsOf env (.escalate id reason)) b (b.escalate env id reason)
  := by
  rw [escalate, escalationsOf, inProgress]
  cases ht : b.lookup id with
  | none => apply Changes.refl
  | some t =>
    obtain rfl := hb ht
    by_cases hstate : t.state = .inProgress
    · simp only [hstate, decide_true, if_true]
      apply Changes.rewrite ht (turns_escalatedTask hstate env reason)
      simp
    · simp only [hstate, decide_false, if_false, Bool.false_eq_true]
      apply Changes.refl

/-! ### Splitting -/

variable {original child : HmasTask} {sub : Json} {id prevId : String}

/-- What a remainder is made of. -/
theorem remainder_ok (h : remainder ts original id prevId sub = .ok child) :
  ∃ issue title description, child = { blankTask with
    id := id
    briefId := original.briefId
    parentTaskId := original.parentTaskId
    layer := original.layer
    state := .pending
    repo := original.repo
    module := original.module
    issue := issue
    subject := title
    description := description
    createdAt := ts
    blockedBy :=
      [original.id] ++ (if prevId = "" then [] else [prevId]) ++ callerBlockers sub }
  := by
  obtain ⟨issue, -, h⟩ := exists_of_bind_eq_ok h
  obtain ⟨title, -, h⟩ := exists_of_bind_eq_ok h
  obtain ⟨description, -, h⟩ := exists_of_bind_eq_ok h
  obtain ⟨branch, -, h⟩ := exists_of_bind_eq_ok h
  exact ⟨issue, title, splitDescription description branch, (Except.ok.inj h).symm⟩

/-- A remainder is a new task behind the original. -/
theorem remainder_eq (h : remainder ts original id prevId sub = .ok child) :
  child.id = id ∧ child.Newborn ∧ child.childTaskIds = []
    ∧ child.blockedBy
      = [original.id] ++ (if prevId = "" then [] else [prevId]) ++ callerBlockers sub
  := by
  obtain ⟨issue, title, description, rfl⟩ := remainder_ok h
  exact ⟨rfl, ⟨rfl, rfl, rfl⟩, rfl, rfl⟩

/-- The first entry of a split stops it or makes a remainder. -/
theorem splitPlan_cons (env : Env) (original : HmasTask) (sub : Json) (rest : List Json)
    (created : List String) :
  (splitPlan env original (sub :: rest) created).1 = []
    ∨ ∃ child,
        remainder env.ts original (env.uuid created.length) (created.getLast?.getD "") sub
          = .ok child
        ∧ (splitPlan env original (sub :: rest) created).1
          = child :: (splitPlan env original rest (created ++ [child.id])).1
  := by
  rw [splitPlan]
  split
  · left
    rfl
  · split
    · left
      rfl
    · split
      · left
        rfl
      · rename_i child hchild
        right
        use child, hchild

/-- The remainders are new tasks with the identifiers drawn for them. -/
theorem splitPlan_spec (env : Env) (original : HmasTask) :
  ∀ (subs : List Json) (created : List String),
    (∀ t ∈ (splitPlan env original subs created).1, t.Newborn)
    ∧ ∃ n, (splitPlan env original subs created).1.map (·.id)
      = (List.range n).map fun i => env.uuid (created.length + i)
  | [], _ => ⟨by simp [splitPlan], 0, rfl⟩
  | sub :: rest, created => by
      rcases splitPlan_cons env original sub rest created with h | ⟨child, hchild, h⟩
      · rw [h]
        exact ⟨by simp, 0, rfl⟩
      · obtain ⟨hid, hnew, -, -⟩ := remainder_eq hchild
        obtain ⟨hrest, n, hn⟩ := splitPlan_spec env original rest (created ++ [child.id])
        rw [h]
        constructor
        · intro t ht
          rcases List.mem_cons.mp ht with rfl | ht
          · apply hnew
          · apply hrest t ht
        · use n + 1
          rw [List.map_cons, hn, hid, List.range_succ_eq_map, List.map_cons, List.map_map,
            Nat.add_zero, List.length_append, List.length_singleton]
          simp [Function.comp_def, Nat.add_comm, Nat.add_left_comm]

theorem nodup_splitPlan (hids : IdSupply env.uuid) (original : HmasTask) (subs : List Json) :
  ((splitPlan env original subs []).1.map (·.id)).Nodup
  := by
  obtain ⟨-, n, hn⟩ := splitPlan_spec env original subs []
  rw [hn]
  apply List.Nodup.map _ List.nodup_range
  intro i j h
  apply Nat.add_left_cancel (hids.injective h)

variable {subs : List Json}

/-- A remainder has an identifier that was drawn for it. -/
theorem id_splitPlan (ht : t ∈ (splitPlan env original subs []).1) :
  ∃ i, t.id = env.uuid i
  := by
  obtain ⟨-, n, hn⟩ := splitPlan_spec env original subs []
  have hid : t.id ∈ (splitPlan env original subs []).1.map (·.id) := List.mem_map_of_mem ht
  rw [hn] at hid
  obtain ⟨i, -, hi⟩ := List.mem_map.mp hid
  exact ⟨_, hi.symm⟩

theorem unused_splitPlan (hfresh : env.Fresh b) (ht : t ∈ (splitPlan env original subs []).1) :
  b.lookup t.id = none
  := by
  obtain ⟨i, hi⟩ := id_splitPlan ht
  rw [hi]
  apply hfresh.unused

/-- The parts of a split leave the original as it is. -/
theorem lookup_putAll_splitPlan (hfresh : env.Fresh b) (subs : List Json)
    (horiginal : b.lookup original.id = some original) :
  (b.putAll (splitPlan env original subs []).1).lookup original.id = some original
  := by
  rw [lookup_putAll_of_not_mem]
  · apply horiginal
  · intro h
    obtain ⟨t, ht, hid⟩ := List.mem_map.mp h
    rw [← hid, unused_splitPlan hfresh ht] at horiginal
    contradiction

theorem changes_split (hb : b.Keyed) (hfresh : env.Fresh b) (id : String) (subtasks : Json) :
  Quiet [] b (b.split env id subtasks)
  := by
  unfold split
  split
  · rename_i original sub rest horiginal
    obtain rfl := hb horiginal
    have hcreate : Quiet [] b (b.putAll (splitPlan env original (sub :: rest) []).1) := by
      apply changes_putAll (nodup_splitPlan hfresh.toIdSupply original _)
      · apply (splitPlan_spec env original _ []).1
      · intro t ht
        apply unused_splitPlan hfresh ht
    simp only
    split
    · rename_i created _
      apply hcreate.and_then
      apply Changes.rewrite
      · apply lookup_putAll_splitPlan hfresh _ horiginal
      · exact (HmasTask.Turns.refl _ original).of_eq rfl rfl rfl rfl rfl rfl rfl
      · simp
    · apply hcreate
  · apply Changes.refl

/-! ### Submission -/

theorem newborn_planTask (uuid : ℕ → String) (ts : String) (brief : TaskBrief) (c : Node) :
  (brief.planTask uuid ts c).Newborn
  := by
  cases c <;> exact ⟨rfl, rfl, rfl⟩

variable {brief : TaskBrief}

theorem lookup_plan_of_fresh (hfresh : env.Fresh b) (ht : t ∈ brief.plan env.uuid env.ts) :
  b.lookup t.id = none
  := by
  obtain ⟨c, -, rfl⟩ := List.mem_map.mp ht
  rw [TaskBrief.planTask, TaskBrief.taskAt_id]
  apply hfresh.unused

/-- The root of a brief. -/
theorem plan_eq_cons (uuid : ℕ → String) (ts : String) (brief : TaskBrief) :
  ∃ rest, brief.plan uuid ts = brief.planTask uuid ts .l0 :: rest
  := ⟨_, rfl⟩

/-- A brief with numbers that fit is stored, and its root is sent. -/
theorem submit_eq (hids : IdSupply env.uuid) (hfit : brief.NumbersFit) (b : Board) :
  b.submit env brief
    = (b.putAll (brief.plan env.uuid env.ts)).send
        ((brief.planTask env.uuid env.ts .l0).withState .delegated)
  := by
  have hnodup : ((brief.plan env.uuid env.ts).map (·.id)).Nodup
    := (TaskBrief.shape_plan hids hfit).nodup_ids
  obtain ⟨rest, hrest⟩ := plan_eq_cons env.uuid env.ts brief
  rw [submit, TaskBrief.decompose_of_numbersFit hids hfit]
  rw [hrest] at hnodup ⊢
  simp only
  rw [lookup_putAll_of_mem hnodup List.mem_cons_self]
  simp only
  rw [advance_submit_delegate env.ts rfl]

/-- A brief with a number that does not fit changes nothing. -/
theorem submit_of_not_fit (hids : IdSupply env.uuid) (hfit : ¬ brief.NumbersFit) (b : Board) :
  b.submit env brief = b
  := by
  unfold submit
  split
  · rename_i h
    apply absurd (TaskBrief.decompose_eq_ok hids h).1 hfit
  · rfl

theorem changes_submit (hfresh : env.Fresh b) (brief : TaskBrief) :
  Quiet [] b (b.submit env brief)
  := by
  by_cases hfit : brief.NumbersFit
  · have hnodup : ((brief.plan env.uuid env.ts).map (·.id)).Nodup
      := (TaskBrief.shape_plan hfresh.toIdSupply hfit).nodup_ids
    rw [submit_eq hfresh.toIdSupply hfit]
    have hcreate : Quiet [] b (b.putAll (brief.plan env.uuid env.ts)) := by
      apply changes_putAll hnodup
      · intro t ht
        obtain ⟨c, -, rfl⟩ := List.mem_map.mp ht
        apply newborn_planTask
      · intro t ht
        apply lookup_plan_of_fresh hfresh ht
    apply hcreate.and_then
    apply Changes.send
    · apply lookup_putAll_of_mem hnodup List.mem_cons_self
    · rfl
    · rfl
    · exact turns_delegated rfl
    · simp [HmasTask.withState]
  · rw [submit_of_not_fit hfresh.toIdSupply hfit]
    apply Changes.refl

/-- A submission draws an identifier for each task. -/
theorem fresh_submit (hfresh : env.Fresh b) (brief : TaskBrief) :
  (env.skip brief.nodes.length).Fresh (b.submit env brief)
  where
  toIdSupply := (hfresh.skip _).toIdSupply
  unused := by
    intro n
    by_cases hfit : brief.NumbersFit
    · have hids : ∀ c ∈ brief.nodes, (env.skip brief.nodes.length).uuid n
          ≠ (brief.planTask env.uuid env.ts c).id := by
        intro c hc h
        rw [TaskBrief.planTask, TaskBrief.taskAt_id] at h
        have hlt := List.idxOf_lt_length_of_mem hc
        have heq := hfresh.injective h
        omega
      rw [submit_eq hfresh.toIdSupply hfit, send, lookup_dispatch, lookup_put_of_ne,
        lookup_putAll_of_not_mem]
      · apply hfresh.unused
      · intro h
        obtain ⟨t, ht, hid⟩ := List.mem_map.mp h
        obtain ⟨c, hc, rfl⟩ := List.mem_map.mp ht
        apply hids c hc hid.symm
      · apply hids .l0 List.mem_cons_self
    · rw [submit_of_not_fit hfresh.toIdSupply hfit]
      apply hfresh.unused

theorem changes_register (hfresh : env.Fresh b) (msg : Json) (brief : TaskBrief) (repo : String)
    (issue : ℤ) :
  Quiet [] b (b.register env msg (epicRoot env brief repo issue))
  := by
  have hcreate : Quiet [] b (b.put (epicRoot env brief repo issue))
    := .create (hfresh.unused 1) ⟨rfl, rfl, rfl⟩
  have hstored : (b.put (epicRoot env brief repo issue)).lookup (env.uuid 1)
      = some (epicRoot env brief repo issue) := lookup_put_self b _
  have hsubmitted : (epicRoot env brief repo issue).Turns (fun _ => False) []
      ((epicRoot env brief repo issue).withState .decomposing) := .withState rfl rfl (by decide)
  apply hcreate.and_then
  rw [register, advance_submit env.ts rfl]
  split
  · apply Changes.send hstored rfl rfl hsubmitted
    simp [HmasTask.withState]
  · apply Changes.rewrite hstored hsubmitted
    simp

/-! ### Calls and runs -/

end Board

/-- The task that a call is told has been completed. -/
def Orchestrator.Call.completes (parse : String → Option Json) : Call → Option String
  | .onMyrmidonCompletion payload => completionTarget parse payload
  | _ => none

namespace Board

variable {b : Board} {env : Env}

/-- Every call is a sequence of moves that loses no task, and completes at most the one it is told
of. -/
theorem changes_effect (parse : String → Option Json) (hb : b.Keyed) (hfresh : env.Fresh b)
    (call : Call) :
  Changes (fun id => call.completes parse = some id) (b.escalationsOf env call) b
    (call.effect parse env b)
  := by
  cases call with
  | submit brief =>
    apply Quiet.changes
    rw [Call.effect]
    split
    · apply changes_submit (hfresh.skip 1)
    · apply changes_submit hfresh
  | onEpicRegistered payload =>
    apply Quiet.changes
    rw [Call.effect]
    split
    · apply Changes.refl
    · split
      · apply Changes.refl
      · split
        · apply Changes.refl
        · apply changes_register hfresh
  | onMyrmidonStarted payload =>
    apply Quiet.changes
    rw [Call.effect]
    split
    · apply Changes.refl
    · apply changes_start hb
  | onMyrmidonCompletion payload =>
    rw [Call.effect, Call.completes]
    split
    · apply Changes.refl
    · rename_i id hid
      simp only [hid, Option.some.injEq]
      exact changes_complete hb id
  | onMyrmidonFailed payload =>
    apply Quiet.changes
    rw [Call.effect]
    split
    · apply Changes.refl
    · apply changes_fail hb
  | escalate id reason => exact (changes_escalate hb id reason).changes
  | splitTask id subtasks => exact (changes_split hb hfresh id subtasks).changes

end Board

end Agamemnon
