import Agamemnon.Orchestrator.Board

/-!
# The programs compute the functions

Run alone on a board whose tasks are stored under their identifiers, the program of a call
leaves the board its function gives.
-/

namespace Agamemnon

open Program Board

namespace Orchestrator

variable {env : Env} {b : Board} {α : Type}

/-! ### Operations -/

theorem exec_get_bind (id : String) (f : Option HmasTask → Prog α) :
  exec handle (getHmasTask id >>= f) b = exec handle (f (b.lookup id)) b
  := rfl

theorem exec_update_bind {t : HmasTask} (ht : (b.lookup t.id).isSome) (f : Bool → Prog α) :
  exec handle (updateHmasTask t >>= f) b = exec handle (f true) (b.put t)
  := by
  have hput : handle b (Op.updateHmasTask t) = (true, b.put t) := if_pos ht
  apply Eq.trans (exec_request_bind handle b (Op.updateHmasTask t) f)
  rw [hput]

theorem exec_create_bind (t : HmasTask) (f : Unit → Prog α) :
  exec handle (createHmasTask t >>= f) b = exec handle (f ()) (b.put t)
  := rfl

theorem exec_brief_bind (brief : TaskBrief) (f : Unit → Prog α) :
  exec handle (createTaskBrief brief >>= f) b = exec handle (f ()) b
  := rfl

theorem exec_state_bind (t : HmasTask) (f : Unit → Prog α) :
  exec handle (publishTaskState t >>= f) b = exec handle (f ()) b
  := rfl

theorem exec_dispatch_bind (t : HmasTask) (payload : Json) (f : Unit → Prog α) :
  exec handle (dispatchTask t payload >>= f) b = exec handle (f ()) (b.dispatch t)
  := rfl

/-! ### Delegation -/

theorem exec_allClear :
  ∀ blockers : List String,
    exec handle (allClear blockers) b = (.ok (blockers.all b.isCompleted), b)
  | [] => rfl
  | x :: xs => by
      rw [allClear, exec_get_bind, List.all_cons, isCompleted]
      cases b.lookup x with
      | none => rfl
      | some t =>
        by_cases ht : t.state = .completed
        · simp only [ht, ne_eq, not_true_eq_false, ↓reduceIte, decide_true, Bool.true_and]
          apply exec_allClear
        · simp [ht]

/-- A pending task is delegated. -/
theorem exec_delegate (hb : b.Keyed) {id : String} {t : HmasTask} (ht : b.lookup id = some t)
    (hpending : t.state = .pending) :
  exec handle (delegate env id) b = (.ok true, b.send (t.withState .delegated))
  := by
  have hstored : (b.lookup (t.withState .delegated).id).isSome := by
    have hid : t.id = id := hb ht
    simp [HmasTask.withState, hid, ht]
  rw [delegate, exec_get_bind, ht]
  simp only [delegateWalk_of_pending env.ts hpending, ↓reduceIte]
  rw [exec_update_bind hstored, exec_state_bind, exec_dispatch_bind]
  rfl

theorem exec_considerChild (hb : b.Keyed) (id : String) :
  exec handle (considerChild env id) b = (.ok (), b.consider id)
  := by
  rw [considerChild, exec_get_bind, consider]
  cases ht : b.lookup id with
  | none => rfl
  | some t =>
    by_cases hpending : t.state = .pending
    · simp only [hpending, ne_eq, not_true_eq_false, ↓reduceIte, true_and]
      rw [exec_bind, exec_allClear, ← clear]
      by_cases hclear : b.clear t
      · simp only [hclear, ↓reduceIte]
        rw [exec_bind, exec_delegate hb (hb ht ▸ ht) hpending]
        rfl
      · simp [hclear]
    · simp [hpending]

theorem exec_considerChildren :
  ∀ (ids : List String) {b : Board}, b.Keyed →
    exec handle (forEach ids (considerChild env)) b = (.ok (), ids.foldl consider b)
  | [], _, _ => rfl
  | id :: ids, b, hb => by
      have hbind := exec_bind handle (fun _ => forEach ids (considerChild env))
        (considerChild env id) b
      rw [exec_considerChild hb] at hbind
      apply hbind.trans
      apply exec_considerChildren ids (hb.consider id)

/-! ### Messages -/

theorem exec_markTaskCompleted (now id : String) :
  exec handle (markTaskCompleted now id) b
    = ((Memory.markCompleted now id b.plain).map fun _ => (), b.completePlain now id)
  := by
  have hbind := exec_request_bind handle b (Op.markTaskCompleted now id)
    (ofExcept : Except Exn Unit → Prog Unit)
  apply hbind.trans
  rw [completePlain]
  cases hmark : Memory.markCompleted now id b.plain with
  | ok plain | error e =>
    simp only [handle, hmark]
    rfl

/-- Completing a task. -/
theorem exec_completeTask (hb : b.Keyed) (id : String) :
  (exec handle (completeTask env id) b).2 = b.complete env.ts id
  := by
  rw [completeTask, exec_get_bind, complete]
  cases ht : b.lookup id with
  | none => rw [exec_markTaskCompleted]
  | some t =>
    have hid : (completionWalk env.ts t).id = id := by rw [completionWalk_id, hb ht]
    have hstored : (b.lookup (completionWalk env.ts t).id).isSome := by simp [hb ht, ht]
    simp only
    rw [exec_update_bind hstored, exec_state_bind, exec_bind, delegateUnblockedChildren,
      exec_get_bind, lookup_put_of_eq b hid]
    simp only
    rw [exec_considerChildren _ (hb.put _)]
    dsimp only
    split
    · rfl
    · rfl

/-- Starting a task. -/
theorem exec_startTask (hb : b.Keyed) (msg : Json) (id : String) :
  (exec handle (startTask env msg id) b).2 = b.start env.ts msg id
  := by
  rw [startTask, exec_get_bind, start]
  cases ht : b.lookup id with
  | none => rfl
  | some t =>
    have hid : t.id = id := hb ht
    simp only [startedTask]
    cases msg.valueString "agent_id" "" with
    | error e => rfl
    | ok agentId =>
      cases msg.valueString "exec_host" "" with
      | error e => rfl
      | ok execHost =>
        have hstored : ∀ t' : HmasTask, t'.id = t.id → (b.lookup t'.id).isSome := by
          intro t' ht'
          simp [ht', hid, ht]
        apply Eq.trans (congrArg Prod.snd (exec_update_bind (hstored _ _) _))
        · rfl
        · split
          · apply startedWalk_id
          · apply startedWalk_id

/-- Failing a task. -/
theorem exec_failTask (hb : b.Keyed) (msg : Json) (id : String) :
  (exec handle (failTask env msg id) b).2 = b.fail env.ts id
  := by
  rw [failTask, exec_get_bind, fail]
  cases ht : b.lookup id with
  | none => rfl
  | some t =>
    have hstored : (b.lookup (failedWalk env.ts t).id).isSome := by simp [hb ht, ht]
    simp only
    rw [exec_update_bind hstored, exec_state_bind]
    cases msg.valueJson "error" (.object []) <;> rfl

/-- Escalating a task. -/
theorem exec_escalate (hb : b.Keyed) (id reason : String) :
  exec Board.handle (escalate env id reason) b
    = (.ok (b.inProgress id), b.escalate env id reason)
  := by
  rw [escalate, exec_get_bind, Board.escalate, Board.inProgress]
  cases ht : b.lookup id with
  | none => rfl
  | some t =>
    by_cases hstate : t.state = .inProgress
    · have hstored : (b.lookup (Board.escalatedTask t
          (escalationRecord env id reason t.layer)).id).isSome := by
        simp [Board.escalatedTask, HmasTask.withState, hb ht, ht]
      simp only [tryTransition_escalate, hstate, ↓reduceIte, decide_true]
      apply Eq.trans (exec_update_bind hstored _)
      rfl
    · simp [tryTransition_escalate, hstate]

/-! ### New tasks -/

theorem exec_createAll :
  ∀ (ts : List HmasTask) (b : Board),
    exec handle (forEach ts createHmasTask) b = (.ok (), b.putAll ts)
  | [], _ => rfl
  | t :: ts, b => exec_createAll ts (b.put t)

theorem exec_splitLoop (original : HmasTask) :
  ∀ (subs : List Json) (created : List String) (b : Board),
    exec handle (splitLoop env original subs created) b
      = ((splitPlan env original subs created).2,
          b.putAll (splitPlan env original subs created).1)
  | [], _, _ => rfl
  | sub :: rest, created, b => by
      rw [splitLoop, splitPlan]
      cases (if sub.isObject then sub.valueString "title" "" else .ok "") with
      | error e => rfl
      | ok title =>
        by_cases htitle : title = ""
        · subst htitle
          rfl
        · simp only [exec_ok_bind, htitle, ↓reduceIte]
          cases remainder env.ts original (env.uuid created.length) (created.getLast?.getD "") sub
            with
          | error e => rfl
          | ok child => apply exec_splitLoop original rest (created ++ [child.id]) (b.put child)

/-- Splitting a task. -/
theorem exec_splitTask (hb : b.Keyed) (id : String) (subtasks : Json) :
  (exec handle (splitTask env id subtasks) b).2 = b.split env id subtasks
  := by
  unfold splitTask split
  rw [exec_get_bind]
  cases ht : b.lookup id with
  | none => rfl
  | some original =>
    cases subtasks with
    | array subs =>
      cases subs with
      | nil => rfl
      | cons sub rest =>
        have hstored : ∀ (children : List HmasTask) (ids : List String),
            ((b.putAll children).lookup { original with childTaskIds := ids }.id).isSome := by
          intro children ids
          apply isSome_lookup_putAll
          simp [hb ht, ht]
        simp only
        rw [exec_bind, exec_splitLoop]
        cases hplan : splitPlan env original (sub :: rest) [] with
        | mk children outcome =>
          cases outcome with
          | error e => rfl
          | ok result =>
            cases result with
            | error reply => rfl
            | ok created =>
              apply Eq.trans (congrArg Prod.snd (exec_update_bind (hstored _ _) _))
              rfl
    | _ => rfl

/-- Submitting a brief. -/
theorem exec_submitBrief (brief : TaskBrief) (hb : b.Keyed) :
  (exec Board.handle (submitBrief env brief) b).2 = b.submit env brief
  := by
  rw [submitBrief, exec_brief_bind]
  unfold Board.submit
  cases decompose env.uuid env.ts brief with
  | error e => rfl
  | ok tasks =>
    rw [exec_ok_bind, exec_bind, exec_createAll]
    cases tasks with
    | nil => rfl
    | cons first rest =>
      have hkeyed : (b.putAll (first :: rest)).Keyed := hb.putAll _
      simp only
      rw [exec_get_bind]
      cases hroot : (b.putAll (first :: rest)).lookup first.id with
      | none => rfl
      | some root =>
        have hstored : ((b.putAll (first :: rest)).lookup
            (advance env.ts .delegate (advance env.ts .submit root)).id).isSome := by
          simp [hkeyed hroot, hroot]
        apply Eq.trans (congrArg Prod.snd (exec_update_bind hstored _))
        rfl

/-- Registering an epic. -/
theorem exec_registerEpic (msg epic : Json) (repo key : String) (issue : ℤ) :
  (exec handle (registerEpic env msg epic repo key issue) b).2
    = b.register env msg (epicRoot env (epicBrief env repo key issue) repo issue)
  := by
  have hstored : ((b.put (epicRoot env (epicBrief env repo key issue) repo issue)).lookup
      (advance env.ts .submit
        (epicRoot env (epicBrief env repo key issue) repo issue)).id).isSome := by
    simp
  rw [registerEpic, exec_brief_bind, exec_create_bind]
  simp only
  rw [exec_update_bind hstored, exec_state_bind, register]
  cases msg.valueString "team_id" "mesh" with
  | error e => rfl
  | ok teamId => rfl

/-! ### Calls -/

variable {parse : String → Option Json} {payload : String}

theorem exec_onMyrmidonCompletion (hb : b.Keyed) :
  (exec handle (onMyrmidonCompletion parse env payload) b).2
    = Call.effect parse env b (.onMyrmidonCompletion payload)
  := by
  rw [onMyrmidonCompletion, completion_eq, Call.effect]
  cases completionTarget parse payload with
  | none => rfl
  | some id => exact (exec_tryCatch_ret_snd _ _ _ _).trans (exec_completeTask hb id)

theorem exec_onMyrmidonStarted (hb : b.Keyed) :
  (exec handle (onMyrmidonStarted parse env payload) b).2
    = Call.effect parse env b (.onMyrmidonStarted payload)
  := by
  rw [onMyrmidonStarted, message_eq, Call.effect]
  cases messageTarget parse payload with
  | none => rfl
  | some message => exact (exec_tryCatch_ret_snd _ _ _ _).trans (exec_startTask hb _ _)

theorem exec_onMyrmidonFailed (hb : b.Keyed) :
  (exec handle (onMyrmidonFailed parse env payload) b).2
    = Call.effect parse env b (.onMyrmidonFailed payload)
  := by
  rw [onMyrmidonFailed, message_eq, Call.effect]
  cases messageTarget parse payload with
  | none => rfl
  | some message => exact (exec_tryCatch_ret_snd _ _ _ _).trans (exec_failTask hb _ _)

theorem exec_onEpicRegistered :
  (exec handle (onEpicRegistered parse env payload) b).2
    = Call.effect parse env b (.onEpicRegistered payload)
  := by
  rw [onEpicRegistered, exec_tryCatch_ret_snd, Call.effect]
  cases parsePayload parse payload with
  | error e => rfl
  | ok msg =>
    rw [exec_ok_bind]
    simp only
    cases epicFields msg with
    | error e => rfl
    | ok fields =>
      obtain ⟨epic, repo, key, issue⟩ := fields
      rw [exec_ok_bind]
      by_cases hfields : repo = "" ∨ key = "" ∨ issue = 0
      · simp [hfields]
      · simp only [hfields, ↓reduceIte]
        apply exec_registerEpic

/-- The program of a call computes its function. -/
theorem exec_call (hb : b.Keyed) (call : Call) :
  (exec handle (call.program parse env) b).2 = call.effect parse env b
  := by
  cases call with
  | submit brief =>
    apply (exec_bind_pure_snd _ _ _ _).trans
    rw [Call.effect, submit]
    split
    · apply exec_submitBrief _ hb
    · apply exec_submitBrief _ hb
  | onEpicRegistered payload =>
    apply (exec_bind_pure_snd _ _ _ _).trans
    apply exec_onEpicRegistered
  | onMyrmidonStarted payload =>
    apply (exec_bind_pure_snd _ _ _ _).trans
    apply exec_onMyrmidonStarted hb
  | onMyrmidonCompletion payload =>
    apply (exec_bind_pure_snd _ _ _ _).trans
    apply exec_onMyrmidonCompletion hb
  | onMyrmidonFailed payload =>
    apply (exec_bind_pure_snd _ _ _ _).trans
    apply exec_onMyrmidonFailed hb
  | escalate id reason =>
    apply (exec_bind_pure_snd _ _ _ _).trans
    rw [exec_escalate hb]
    rfl
  | splitTask id subtasks =>
    apply (exec_bind_pure_snd _ _ _ _).trans
    apply exec_splitTask hb

end Orchestrator

end Agamemnon
