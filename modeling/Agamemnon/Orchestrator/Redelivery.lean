import Agamemnon.Lib.Mirror
import Agamemnon.Orchestrator.Runs

/-!
# Messages delivered twice

A worker's message may be delivered again right after it has been processed.  The walk through
the states ends where it starts then, and the loop over the children finds none to delegate: a
child that has been considered is no longer pending, or still blocked, as delegating a child
completes no task.
-/

namespace Agamemnon

open Program Orchestrator Board

/-! ### The tasks a message names -/

section Walks

variable (ts ts' : String) (t : HmasTask)

theorem completionWalk_completionWalk :
  completionWalk ts' (completionWalk ts t) = completionWalk ts t
  := by
  rw [completionWalk_eq ts t]
  split
  · rw [completionWalk_eq, if_pos (by assumption)]
  · rw [completionWalk_eq, if_pos (by rfl)]

theorem failedWalk_failedWalk :
  failedWalk ts' (failedWalk ts t) = failedWalk ts t
  := by
  rw [failedWalk_eq ts t]
  split
  · rw [failedWalk_eq, if_pos (by assumption)]
  · rw [failedWalk_eq, if_pos (by rfl)]

/-- A task that has been started is in progress, or in a final state. -/
theorem state_startedWalk :
  (startedWalk ts t).state.terminal = true ∨ (startedWalk ts t).state = .inProgress
  := by
  rw [startedWalk_eq]
  split
  · left
    assumption
  · right
    rfl

theorem startedWalk_of_started (h : t.state.terminal = true ∨ t.state = .inProgress) :
  startedWalk ts t = t
  := by
  rw [startedWalk_eq]
  split
  · rfl
  · rename_i hterminal
    rw [HmasTask.withState, ← h.resolve_left hterminal]

/-- A completed or failed task is not pending. -/
theorem state_completionWalk_ne_pending :
  (completionWalk ts t).state ≠ .pending
  := by
  rw [completionWalk_eq]
  split
  · rename_i hterminal
    intro hpending
    rw [hpending] at hterminal
    contradiction
  · intro hpending
    contradiction

end Walks

namespace Board

variable {b : Board} {id x : String} {t : HmasTask}

/-- A second start throws as the first one does. -/
theorem startedTask_error {ts : String} {msg : Json} {e : Exn} (ts' : String)
    (h : startedTask ts msg t = .error e) :
  startedTask ts' msg t = .error e
  := by
  rcases startedTask_cases msg with ⟨e', hmsg⟩ | hmsg | ⟨lead, hmsg⟩
  · rw [hmsg] at h ⊢
    exact h
  · cases (hmsg ts t).symm.trans h
  · cases (hmsg ts t).symm.trans h

/-- A second start finds the task as the first one has left it. -/
theorem startedTask_startedTask {ts : String} {msg : Json} {t' : HmasTask} (ts' : String)
    (h : startedTask ts msg t = .ok t') :
  startedTask ts' msg t' = .ok t' ∧ t'.id = t.id
  := by
  have hstarted : ∀ u : HmasTask, u.state = (startedWalk ts t).state → startedWalk ts' u = u := by
    intro u hu
    apply startedWalk_of_started
    rw [hu]
    exact state_startedWalk ts t
  rcases startedTask_cases msg with ⟨e, hmsg⟩ | hmsg | ⟨lead, hmsg⟩
  · cases (hmsg ts t).symm.trans h
  · obtain rfl := Except.ok.inj ((hmsg ts t).symm.trans h)
    rw [hmsg, hstarted _ rfl]
    exact ⟨rfl, startedWalk_id ts t⟩
  · obtain rfl := Except.ok.inj ((hmsg ts t).symm.trans h)
    rw [hmsg, hstarted { startedWalk ts t with assignedLeadId := lead } rfl]
    exact ⟨rfl, startedWalk_id ts t⟩

theorem put_self (h : b.lookup t.id = some t) :
  b.put t = b
  := by
  rw [put, insert_eq_self.mpr h]

/-! ### The children -/

/-- There is nothing to delegate: the task is not pending, or it is blocked. -/
def Settled (b : Board) (id : String) : Prop :=
  ∀ t, b.lookup id = some t → t.state = .pending → b.clear t = false

theorem lookup_send_delegated (b : Board) (hid : t.id = id) :
  (b.send (t.withState .delegated)).lookup id = some (t.withState .delegated)
  := by
  rw [← hid]
  exact lookup_put_self b (t.withState .delegated)

/-- A child is settled, or it is delegated. -/
theorem consider_cases (hb : b.Keyed) (id : String) :
  b.Settled id ∧ b.consider id = b
    ∨ ∃ t, b.lookup id = some t ∧ t.id = id ∧ t.state = .pending
      ∧ b.consider id = b.send (t.withState .delegated)
  := by
  unfold Settled
  rw [consider]
  cases ht : b.lookup id with
  | none => exact Or.inl ⟨by simp, rfl⟩
  | some t =>
    by_cases hready : t.state = .pending ∧ b.clear t = true
    · exact Or.inr ⟨t, rfl, hb ht, hready.1, if_pos hready⟩
    · refine Or.inl ⟨?_, if_neg hready⟩
      rintro _ ⟨⟩ hpending
      rw [← Bool.not_eq_true]
      intro hclear
      exact hready ⟨hpending, hclear⟩

theorem Settled.consider_eq (hb : b.Keyed) (h : b.Settled id) :
  b.consider id = b
  := by
  rcases consider_cases hb id with ⟨-, heq⟩ | ⟨t, ht, -, hpending, heq⟩
  · exact heq
  · rw [consider, ht]
    apply if_neg
    rw [h t ht hpending]
    simp

/-- Another task is left as it is. -/
theorem lookup_consider_of_ne (hb : b.Keyed) (hx : x ≠ id) :
  (b.consider id).lookup x = b.lookup x
  := by
  rcases consider_cases hb id with ⟨-, heq⟩ | ⟨t, -, hid, -, heq⟩
  · rw [heq]
  · rw [heq]
    apply lookup_send_of_ne
    rwa [← hid] at hx

/-- Delegating a child completes no task. -/
theorem isCompleted_consider (hb : b.Keyed) (id x : String) :
  (b.consider id).isCompleted x = b.isCompleted x
  := by
  by_cases hx : x = id
  · rw [hx]
    rcases consider_cases hb id with ⟨-, heq⟩ | ⟨t, ht, hid, hpending, heq⟩
    · rw [heq]
    · have hsent : (b.consider id).lookup id = some (t.withState .delegated) := by
        rw [heq, lookup_send_delegated b hid]
      rw [isCompleted_of_lookup hsent, isCompleted_of_lookup ht, hpending]
      rfl
  · rw [isCompleted, isCompleted, lookup_consider_of_ne hb hx]

theorem clear_consider (hb : b.Keyed) (id : String) (t : HmasTask) :
  (b.consider id).clear t = b.clear t
  := by
  rw [clear, clear, funext (isCompleted_consider hb id)]

/-- A child that has been considered is settled. -/
theorem settled_consider (hb : b.Keyed) (id : String) :
  (b.consider id).Settled id
  := by
  rcases consider_cases hb id with ⟨hsettled, heq⟩ | ⟨t, -, hid, -, heq⟩
  · rw [heq]
    exact hsettled
  · intro u hu hpending
    rw [heq, lookup_send_delegated b hid] at hu
    rw [← Option.some.inj hu] at hpending
    contradiction

theorem Settled.consider (hb : b.Keyed) (h : b.Settled x) (id : String) :
  (b.consider id).Settled x
  := by
  by_cases hx : x = id
  · rw [hx]
    apply settled_consider hb
  · intro t ht hpending
    rw [lookup_consider_of_ne hb hx] at ht
    rw [clear_consider hb]
    apply h t ht hpending

/-- The loop over the children settles them. -/
theorem settled_considerAll :
  ∀ (ids : List String) {b : Board}, b.Keyed → x ∈ ids ∨ b.Settled x →
    (ids.foldl consider b).Settled x
  | [], _, _, h => h.resolve_left List.not_mem_nil
  | id :: ids, b, hb, h => by
      apply settled_considerAll ids (hb.consider id)
      rcases h with h | h
      · rcases List.mem_cons.mp h with rfl | h
        · exact Or.inr (settled_consider hb x)
        · exact Or.inl h
      · exact Or.inr (h.consider hb id)

theorem considerAll_of_settled (hb : b.Keyed) :
  ∀ {ids : List String}, (∀ x ∈ ids, b.Settled x) → ids.foldl consider b = b
  | [], _ => rfl
  | id :: ids, h => by
      rw [List.foldl_cons, (h id List.mem_cons_self).consider_eq hb]
      apply considerAll_of_settled hb
      intro x hx
      apply h x (List.mem_cons_of_mem id hx)

/-- A task that is not pending is left as it is. -/
theorem lookup_considerAll (hstate : t.state ≠ .pending) :
  ∀ (ids : List String) {b : Board}, b.Keyed → b.lookup x = some t →
    (ids.foldl consider b).lookup x = some t
  | [], _, _, h => h
  | id :: ids, b, hb, h => by
      apply lookup_considerAll hstate ids (hb.consider id)
      by_cases hx : x = id
      · have hsettled : b.Settled id := by
          intro u hu hpending
          rw [hx, hu] at h
          rw [Option.some.inj h] at hpending
          exact absurd hpending hstate
        rw [hsettled.consider_eq hb, h]
      · rw [lookup_consider_of_ne hb hx, h]

/-! ### The calls -/

/-- The tasks and the dispatches of the two boards are the same. -/
def SameWork (b b' : Board) : Prop :=
  b'.tasks = b.tasks ∧ b'.dispatched = b.dispatched

theorem sameWork_completePlain (b : Board) (ts id : String) :
  b.SameWork (b.completePlain ts id)
  := by
  rw [completePlain]
  split
  · exact ⟨rfl, rfl⟩
  · exact ⟨rfl, rfl⟩

/-- The second completion finds the task in its final state and its children settled. -/
theorem complete_complete (hb : b.Keyed) (ts ts' id : String) :
  (b.complete ts id).SameWork ((b.complete ts id).complete ts' id)
  := by
  cases ht : b.lookup id with
  | none =>
    have hfirst : b.complete ts id = b.completePlain ts id := by rw [complete, ht]
    have hnone : (b.completePlain ts id).lookup id = none
      := by rw [lookup, (sameWork_completePlain b ts id).1, ← lookup, ht]
    rw [hfirst, complete, hnone]
    apply sameWork_completePlain
  | some t =>
    have hid : (completionWalk ts t).id = id := by rw [completionWalk_id, hb ht]
    have hkeyed : (b.put (completionWalk ts t)).Keyed := hb.put _
    have hfirst : b.complete ts id
        = t.childTaskIds.foldl consider (b.put (completionWalk ts t)) := by
      rw [complete, ht]
      simp only
      rw [completionWalk_childTaskIds]
    have hlookup : (b.complete ts id).lookup id = some (completionWalk ts t) := by
      rw [hfirst]
      apply lookup_considerAll (state_completionWalk_ne_pending ts t) _ hkeyed
      apply lookup_put_of_eq b hid
    have hkeyed' : (b.complete ts id).Keyed := by
      rw [hfirst]
      apply (changes_considerAll _ hkeyed).moves.keyed hkeyed
    have hsettled : ∀ x ∈ t.childTaskIds, (b.complete ts id).Settled x := by
      intro x hx
      rw [hfirst]
      apply settled_considerAll _ hkeyed (Or.inl hx)
    have hsame : (b.complete ts id).complete ts' id = b.complete ts id := by
      rw [complete, hlookup]
      simp only
      rw [completionWalk_completionWalk, put_self (by rw [hid, hlookup]),
        completionWalk_childTaskIds, considerAll_of_settled hkeyed' hsettled]
    rw [hsame]
    exact ⟨rfl, rfl⟩

theorem start_start (hb : b.Keyed) (ts ts' : String) (msg : Json) (id : String) :
  (b.start ts msg id).start ts' msg id = b.start ts msg id
  := by
  cases ht : b.lookup id with
  | none => simp only [start, ht]
  | some t =>
    cases hstarted : startedTask ts msg t with
    | error e =>
      have hfirst : b.start ts msg id = b := by simp only [start, ht, hstarted]
      rw [hfirst]
      simp only [start, ht, startedTask_error ts' hstarted]
    | ok t' =>
      obtain ⟨hagain, hid⟩ := startedTask_startedTask ts' hstarted
      have hfirst : b.start ts msg id = b.put t' := by simp only [start, ht, hstarted]
      have hlookup : (b.put t').lookup id = some t' := lookup_put_of_eq b (hid.trans (hb ht))
      rw [hfirst, start, hlookup]
      simp only [hagain]
      apply put_self (lookup_put_self b t')

theorem fail_fail (hb : b.Keyed) (ts ts' id : String) :
  (b.fail ts id).fail ts' id = b.fail ts id
  := by
  cases ht : b.lookup id with
  | none => simp only [fail, ht]
  | some t =>
    have hfirst : b.fail ts id = b.put (failedWalk ts t) := by simp only [fail, ht]
    have hlookup : (b.put (failedWalk ts t)).lookup id = some (failedWalk ts t)
      := lookup_put_of_eq b ((failedWalk_id ts t).trans (hb ht))
    rw [hfirst, fail, hlookup]
    simp only [failedWalk_failedWalk]
    apply put_self (lookup_put_self b _)

end Board

namespace Orchestrator

/-- The messages of the workers. -/
inductive Message where
  | started
  | completed
  | failed

/-- The call that processes a message. -/
def Message.call (payload : String) : Message → Call
  | started => .onMyrmidonStarted payload
  | completed => .onMyrmidonCompletion payload
  | failed => .onMyrmidonFailed payload

variable {parse : String → Option Json}

/-- A message draws no identifiers. -/
theorem moves_message {b : Board} {env : Env} (parse : String → Option Json) (hb : b.Keyed)
    (m : Message) (payload : String) :
  Board.Moves [] b ((m.call payload).effect parse env b)
  := by
  cases m with
  | started =>
    rw [Message.call, Call.effect]
    split
    · apply Board.Moves.refl
    · exact (changes_start hb _ _).moves
  | completed =>
    rw [Message.call, Call.effect]
    split
    · apply Board.Moves.refl
    · exact (changes_complete hb _).moves
  | failed =>
    rw [Message.call, Call.effect]
    split
    · apply Board.Moves.refl
    · exact (changes_fail hb _).moves

theorem effect_message_twice {b : Board} (hb : b.Keyed) (env env' : Env) (m : Message)
    (payload : String) :
  ((m.call payload).effect parse env b).SameWork
    ((m.call payload).effect parse env' ((m.call payload).effect parse env b))
  := by
  cases m with
  | started =>
    simp only [Message.call, Call.effect]
    cases messageTarget parse payload with
    | none => exact ⟨rfl, rfl⟩
    | some target =>
      simp only [start_start hb]
      exact ⟨rfl, rfl⟩
  | completed =>
    simp only [Message.call, Call.effect]
    cases completionTarget parse payload with
    | none => exact ⟨rfl, rfl⟩
    | some id => apply complete_complete hb
  | failed =>
    simp only [Message.call, Call.effect]
    cases messageTarget parse payload with
    | none => exact ⟨rfl, rfl⟩
    | some target =>
      simp only [fail_fail hb]
      exact ⟨rfl, rfl⟩

end Orchestrator

end Agamemnon
