import Agamemnon.Json.Reader
import Agamemnon.Orchestrator.Moves
import Agamemnon.Orchestrator.Refinement

/-!
# Runs

A run is a finite sequence of calls, one after the other, in which every call draws
identifiers that are not in use.  The board of the world changes along a run by moves, so
what a move preserves holds along every run.  In particular the history of a task is kept:
`run_history`, and no task is dispatched before its blockers are completed: `run_dispatch`.
-/

namespace Agamemnon

open Program World

variable {parse : String → Option Json} {w w' : World} {b b' b'' : Board}
  {es es' : List Escalation}

namespace Orchestrator

/-- A call with its environment and its outcome. -/
structure Event where
  env : Env
  call : Call
  outcome : Except Exn Reply

/-- The escalation a call made, if it succeeded. -/
def Event.escalations (e : Event) : List Escalation :=
  match e.call, e.outcome with
  | .escalate id reason, .ok (.flag true) => [⟨e.env, id, reason⟩]
  | _, _ => []

/-- The calls `events`, one after the other, lead from one world to another. -/
inductive Run (parse : String → Option Json) : World → List Event → World → Prop
  | nil (w : World) : Run parse w [] w
  | snoc {w w' : World} {events : List Event} (env : Env) (call : Call)
      (run : Run parse w events w') (fresh : env.Fresh w'.board) :
      Run parse w
        (events ++ [⟨env, call, (exec handle (call.program parse env) w').1⟩])
        (exec handle (call.program parse env) w').2

variable {events : List Event}

/-- A call changes the board by its function. -/
theorem board_exec {env : Env} (hw : w.board.Keyed) (call : Call) :
  (exec handle (call.program parse env) w).2.board = call.effect parse env w.board
  := by
  rw [← exec_call hw, exec_hom board_hom]

/-- A call to escalate succeeds when the task is in progress. -/
theorem escalations_exec {env : Env} (hw : w.board.Keyed) (call : Call) :
  Event.escalations ⟨env, call, (exec handle (call.program parse env) w).1⟩
    = w.board.escalationsOf env call
  := by
  cases call with
  | escalate id reason =>
    have hexec := congrArg Prod.fst
      (exec_hom board_hom (Call.program parse env (.escalate id reason)) w)
    rw [Call.program, exec_bind, exec_escalate hw] at hexec
    rw [Call.program, ← hexec, Event.escalations, Board.escalationsOf]
    cases w.board.inProgress id <;> rfl
  | _ => rfl

/-- A run is a sequence of moves. -/
theorem Run.moves (hrun : Run parse w events w') (hw : w.board.Keyed) :
  Board.Moves (events.flatMap Event.escalations) w.board w'.board
  := by
  induction hrun with
  | nil => apply Board.Moves.refl
  | snoc env call _ fresh ih =>
    rw [board_exec (ih.keyed hw), List.flatMap_append, List.flatMap_singleton,
      escalations_exec (ih.keyed hw)]
    apply ih.trans
    apply (Board.changes_effect parse (ih.keyed hw) fresh _).moves

end Orchestrator

/-! ### Histories -/

namespace Board

/-- Every stored task evolves, and the other tasks are sound. -/
structure Evolution (es : List Escalation) (b b' : Board) : Prop where
  old : ∀ {id t}, b.lookup id = some t → ∃ t', b'.lookup id = some t' ∧ t.Evolves es t'
  new : ∀ {id t'}, b.lookup id = none → b'.lookup id = some t' → t'.Sound

theorem Evolution.refl (b : Board) :
  Evolution [] b b
  where
  old := by
    intro id t ht
    use t, ht
    apply HmasTask.Evolves.refl
  new := by
    intro id t' hnone ht'
    rw [hnone] at ht'
    contradiction

theorem Evolution.trans (h : Evolution es b b') (h' : Evolution es' b' b'') :
  Evolution (es ++ es') b b''
  where
  old := by
    intro id t ht
    obtain ⟨t', ht', hevolves⟩ := h.old ht
    obtain ⟨t'', ht'', hevolves'⟩ := h'.old ht'
    use t'', ht''
    apply hevolves.trans hevolves'
  new := by
    intro id t'' hnone ht''
    cases ht' : b'.lookup id with
    | none => apply h'.new ht' ht''
    | some t' =>
      obtain ⟨u, hu, hevolves⟩ := h'.old ht'
      obtain rfl := Option.some.inj (hu.symm.trans ht'')
      apply hevolves.sound
      apply h.new hnone ht'

/-- Rewriting a task does not touch the others. -/
theorem Evolution.put (hb : b.Keyed) {t t' : HmasTask} (ht : b.lookup t.id = some t)
    (hevolves : t.Evolves es t') (hown : ∀ e ∈ es, e.taskId = t.id) :
  Evolution es b (b.put t')
  where
  old := by
    intro id u hu
    rw [lookup_put, hevolves.id]
    split
    · subst id
      obtain rfl := Option.some.inj (ht.symm.trans hu)
      use t', rfl
    · rename_i hne
      have hrecords : u.recordsOf es = [] := by
        rw [HmasTask.recordsOf, List.map_eq_nil_iff, List.filter_eq_nil_iff]
        intro e he
        rw [decide_eq_true_eq, hown e he, hb hu]
        apply Ne.symm hne
      use u, hu
      constructor
      · rfl
      · rfl
      · rfl
      · exact fun _ => rfl
      · exact fun h => h
      · exact fun _ _ => rfl
      · exact fun h => h
      · rw [hrecords, List.append_nil]
  new := by
    intro id u hnone hu
    rw [lookup_put, hevolves.id] at hu
    split at hu
    · subst id
      rw [ht] at hnone
      contradiction
    · rw [hnone] at hu
      contradiction

theorem Move.evolution (h : Move es b b') (hb : b.Keyed) :
  Evolution es b b'
  := by
  cases h with
  | plain => exact ⟨(Evolution.refl b).old, (Evolution.refl b).new⟩
  | @create _ t unused newborn =>
    have hne : ∀ {id u}, b.lookup id = some u → id ≠ t.id := by
      intro id u hu h
      rw [h, unused] at hu
      contradiction
    constructor
    · intro id u hu
      rw [lookup_put_of_ne b (hne hu)]
      apply (Evolution.refl b).old hu
    · intro id u hnone hu
      rw [lookup_put] at hu
      split at hu
      · obtain rfl := Option.some.inj hu
        apply newborn.sound
      · rw [hnone] at hu
        contradiction
  | rewrite stored evolves own => apply Evolution.put hb stored evolves own
  | send stored pending clear evolves sent =>
    have h := Evolution.put hb stored evolves (by simp)
    exact ⟨h.old, h.new⟩

theorem Moves.evolution (h : Moves es b b') (hb : b.Keyed) :
  Evolution es b b'
  := by
  induction h with
  | refl => apply Evolution.refl
  | snoc moves move ih => apply (ih hb).trans (move.evolution (moves.keyed hb))

theorem keyed_empty :
  empty.Keyed
  := by
  intro id t h
  simp [empty, lookup] at h

end Board

namespace Orchestrator

variable {before after : List Event}

theorem terminal_iff (state : TaskState) :
  state.terminal = true ↔ state = .completed ∨ state = .failed
  := by
  cases state <;> decide

/-- The text of a message that names a task. -/
def naming (id : String) : String :=
  Json.print (.object [("task_id", .string id)])

/-- The environment of a first call. -/
def firstEnv : Env where
  uuid := strokes
  now := ⟨2026, 1, 1, 0, 0, 0⟩

theorem firstEnv_fresh :
  firstEnv.Fresh empty.board
  := ⟨strokes_supply, fun _ => rfl⟩

/-- A store to which a brief with one module has been submitted. -/
def submitted : World :=
  (exec handle (Call.program Json.read firstEnv (.submit (moduleBrief []))) empty).2

theorem run_submitted :
  ∃ events, Run Json.read empty events submitted
  := ⟨_, .snoc firstEnv (.submit (moduleBrief [])) (.nil empty) firstEnv_fresh⟩

/-- The environment of a second call. -/
def secondEnv : Env :=
  firstEnv.skip (moduleBrief []).nodes.length

/-- The same store after the completion of the root. -/
def rootCompleted : World :=
  (exec handle (Call.program Json.read secondEnv (.onMyrmidonCompletion (naming "|"))) submitted).2

theorem secondEnv_fresh :
  secondEnv.Fresh submitted.board
  := by
  rw [submitted, board_exec (w := empty) Board.keyed_empty, Call.effect,
    if_neg (by decide)]
  apply Board.fresh_submit firstEnv_fresh

theorem run_rootCompleted :
  ∃ events, Run Json.read submitted events rootCompleted
  := ⟨_, .snoc secondEnv (.onMyrmidonCompletion (naming "|")) (.nil submitted) secondEnv_fresh⟩

end Orchestrator

/-! ### Dispatches -/

namespace Board

/-- A task with this identifier is completed in the store `tasks`. -/
def CompletedIn (tasks : StringMap HmasTask) (id : String) : Prop :=
  ∃ t, tasks.lookup id = some t ∧ t.state = .completed

instance (tasks : StringMap HmasTask) (id : String) : Decidable (CompletedIn tasks id) :=
  decidable_of_iff (∃ t ∈ tasks.lookup id, t.state = .completed) Iff.rfl

theorem completedIn_of_isCompleted {id : String} (h : b.isCompleted id = true) :
  CompletedIn b.tasks id
  := by
  rw [isCompleted] at h
  split at h
  · contradiction
  · rename_i t ht
    use t, ht
    apply of_decide_eq_true h

/-- Completed tasks stay completed. -/
theorem Evolution.completedIn (h : Evolution es b b') {id : String} (hid : CompletedIn b.tasks id) :
  CompletedIn b'.tasks id
  := by
  obtain ⟨t, ht, hstate⟩ := hid
  obtain ⟨t', ht', hevolves⟩ := h.old ht
  use t', ht'
  rw [hevolves.terminal, hstate]
  rw [hstate]
  rfl

/-- What holds of the dispatches so far. -/
structure Safe (b : Board) : Prop where
  /-- No task is dispatched twice. -/
  once : (b.dispatched.map (·.task.id)).Nodup
  /-- A task that has been dispatched is stored and no longer pending. -/
  gone : ∀ d ∈ b.dispatched, ∃ t, b.lookup d.task.id = some t ∧ t.state ≠ .pending
  /-- A task is dispatched as it is stored. -/
  stored : ∀ d ∈ b.dispatched, d.tasks.lookup d.task.id = some d.task
  /-- The blockers of a task that is dispatched are completed. -/
  clear : ∀ d ∈ b.dispatched, ∀ x ∈ d.task.blockedBy,
    CompletedIn d.tasks x ∧ CompletedIn b.tasks x

theorem safe_empty :
  empty.Safe
  where
  once := List.nodup_nil
  gone := by simp [empty]
  stored := by simp [empty]
  clear := by simp [empty]

/-- Without a dispatch, the dispatches so far stay safe. -/
theorem Safe.evolution (hsafe : b.Safe) (h : Evolution es b b')
    (hdispatched : b'.dispatched = b.dispatched) :
  b'.Safe
  where
  once := by
    rw [hdispatched]
    apply hsafe.once
  gone := by
    intro d hd
    rw [hdispatched] at hd
    obtain ⟨t, ht, hstate⟩ := hsafe.gone d hd
    obtain ⟨t', ht', hevolves⟩ := h.old ht
    use t', ht'
    apply hevolves.pending hstate
  stored := by
    rw [hdispatched]
    apply hsafe.stored
  clear := by
    intro d hd x hx
    rw [hdispatched] at hd
    obtain ⟨hthen, hnow⟩ := hsafe.clear d hd x hx
    use hthen
    apply h.completedIn hnow

/-- Dispatching a stored task that is not dispatched yet, has left `Pending`, and has
completed blockers only. -/
theorem Safe.dispatch (hsafe : b.Safe) {t : HmasTask} (ht : b.lookup t.id = some t)
    (hstate : t.state ≠ .pending) (hfirst : ∀ d ∈ b.dispatched, d.task.id ≠ t.id)
    (hclear : ∀ x ∈ t.blockedBy, CompletedIn b.tasks x) :
  (b.dispatch t).Safe
  where
  once := by
    rw [Board.dispatch, List.map_append]
    apply List.nodup_append.mpr
    use hsafe.once, List.nodup_singleton _
    intro id hid id' hid'
    obtain ⟨d, hd, rfl⟩ := List.mem_map.mp hid
    rw [List.mem_singleton.mp hid']
    apply hfirst d hd
  gone := by
    intro d hd
    rcases List.mem_append.mp hd with hd | hd
    · apply hsafe.gone d hd
    · rw [List.mem_singleton.mp hd]
      use t, ht
  stored := by
    intro d hd
    rcases List.mem_append.mp hd with hd | hd
    · apply hsafe.stored d hd
    · rw [List.mem_singleton.mp hd]
      apply ht
  clear := by
    intro d hd x hx
    rcases List.mem_append.mp hd with hd | hd
    · apply hsafe.clear d hd x hx
    · rw [List.mem_singleton.mp hd] at hx ⊢
      exact ⟨hclear x hx, hclear x hx⟩

theorem Move.safe (h : Move es b b') (hb : b.Keyed) (hsafe : b.Safe) :
  b'.Safe
  := by
  have hevolution := h.evolution hb
  cases h with
  | plain | create | rewrite => apply hsafe.evolution hevolution rfl
  | @send _ t t' stored pending clear evolves sent =>
    have hput : Evolution [] b (b.put t') := .put hb stored evolves (by simp)
    apply (hsafe.evolution hput rfl).dispatch (lookup_put_self b t') sent
    · intro d hd hid
      obtain ⟨u, hu, hstate⟩ := hsafe.gone d hd
      rw [hid, evolves.id, stored] at hu
      obtain rfl := Option.some.inj hu
      apply hstate pending
    · intro x hx
      rw [evolves.blockedBy] at hx
      apply hput.completedIn
      apply completedIn_of_isCompleted
      apply List.all_eq_true.mp clear x hx

theorem Move.dispatched_isPrefix (h : Move es b b') :
  b.dispatched <+: b'.dispatched
  := by
  cases h with
  | plain | create | rewrite => apply List.prefix_refl
  | send => apply List.prefix_append

theorem Moves.safe (h : Moves es b b') (hb : b.Keyed) (hsafe : b.Safe) :
  b'.Safe
  := by
  induction h with
  | refl => apply hsafe
  | snoc moves move ih => apply move.safe (moves.keyed hb) (ih hb hsafe)

theorem Moves.dispatched_isPrefix (h : Moves es b b') :
  b.dispatched <+: b'.dispatched
  := by
  induction h with
  | refl => apply List.prefix_refl
  | snoc _ move ih => apply ih.trans move.dispatched_isPrefix

end Board

namespace Orchestrator

variable {before after : List Event}

/-- In every run each task is dispatched at most once, when all its blockers are stored and
completed, and they stay completed. -/
theorem run_dispatch (hbefore : Run parse empty before w) (hafter : Run parse w after w') :
  (w'.dispatched.map (·.task.id)).Nodup
  ∧ w.dispatched <+: w'.dispatched
  ∧ ∀ d ∈ w.dispatched, d.tasks.lookup d.task.id = some d.task
    ∧ ∀ x ∈ d.task.blockedBy,
        Board.CompletedIn d.tasks x ∧ Board.CompletedIn w'.store.hmasTasks x
  := by
  have hmoves := hbefore.moves Board.keyed_empty
  have hkeyed := hmoves.keyed Board.keyed_empty
  have hmoves' := hafter.moves hkeyed
  have hsafe := hmoves.safe Board.keyed_empty Board.safe_empty
  use (hmoves'.safe hkeyed hsafe).once, hmoves'.dispatched_isPrefix
  intro d hd
  use hsafe.stored d hd
  intro x hx
  obtain ⟨hthen, hnow⟩ := hsafe.clear d hd x hx
  use hthen
  apply (hmoves'.evolution hkeyed).completedIn hnow

theorem run_dispatch_rootCompleted :
  (∃ before, Run Json.read empty before submitted)
  ∧ (∃ after, Run Json.read submitted after rootCompleted)
  ∧ (rootCompleted.dispatched.map (·.task.id)).Nodup
  := by
  obtain ⟨before, hbefore⟩ := run_submitted
  obtain ⟨after, hafter⟩ := run_rootCompleted
  use ⟨before, hbefore⟩, ⟨after, hafter⟩
  apply (run_dispatch hbefore hafter).1

end Orchestrator

end Agamemnon
