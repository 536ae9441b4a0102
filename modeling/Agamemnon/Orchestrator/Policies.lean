import Agamemnon.Orchestrator.Runs

/-!
# What the programs of the calls may do

The programs of the calls are read once, for any policy: a property of tasks that depends on
the identifier, the brief and the parent only, what the answers of the operations may be, and
which operations are allowed.  A call rewrites tasks that it found, so what it writes has the
property again.  What is new in a call are the tasks it makes, and these are left to whoever
uses the policy, as is the log of a completed brief.
-/

namespace Agamemnon

open Program Orchestrator Guards

/-- The operation writes no task and does not publish that a brief is completed. -/
def Op.Silent : Op → Prop
  | .createHmasTask _ => False
  | .updateHmasTask _ => False
  | .publishLog subject _ _ _ => subject ≠ "hi.logs.agamemnon.brief_completed"
  | _ => True

/-- The call makes no task. -/
def Orchestrator.Call.Quiet : Call → Prop
  | .submit _ => False
  | .onEpicRegistered _ => False
  | .splitTask _ _ => False
  | _ => True

/-- Tasks of `Fit` may be written back, where the answers of `A` give such tasks. -/
structure Policy (Fit : HmasTask → Prop) (A : (op : Op) → op.Res → Prop) (P : Op → Prop) :
    Prop where
  kept : ∀ {t t'}, Fit t → t'.id = t.id → t'.briefId = t.briefId →
    t'.parentTaskId = t.parentTaskId → Fit t'
  found : ∀ {id t}, A (.getHmasTask id) (some t) → Fit t
  silent : ∀ {op : Op}, op.Silent → P op
  update : ∀ {t}, Fit t → P (.updateHmasTask t)

namespace Policy

variable {Fit : HmasTask → Prop} {A : (op : Op) → op.Res → Prop} {P : Op → Prop}

/-! ### Transitions -/

section Walks

variable {t : HmasTask} (ts : String)

/-- A transition changes neither the brief nor the parent. -/
theorem kept_tryTransition (h : Policy Fit A P) (ht : Fit t) (event : TaskEvent) :
  Fit (tryTransition ts t event).2
  := by
  obtain ⟨_, _, _, layer, state⟩ := t
  cases state <;> cases event <;> cases layer <;> exact h.kept ht rfl rfl rfl

theorem kept_delegateWalk (h : Policy Fit A P) (ht : Fit t) :
  Fit (delegateWalk ts t).2
  := by
  obtain ⟨_, _, _, layer, state⟩ := t
  cases state <;> cases layer <;> exact h.kept ht rfl rfl rfl

theorem kept_completionWalk (h : Policy Fit A P) (ht : Fit t) :
  Fit (completionWalk ts t)
  := by
  rw [completionWalk_eq]
  split <;> exact h.kept ht rfl rfl rfl

theorem kept_startedWalk (h : Policy Fit A P) (ht : Fit t) :
  Fit (startedWalk ts t)
  := by
  rw [startedWalk_eq]
  split <;> exact h.kept ht rfl rfl rfl

theorem kept_failedWalk (h : Policy Fit A P) (ht : Fit t) :
  Fit (failedWalk ts t)
  := by
  rw [failedWalk_eq]
  split <;> exact h.kept ht rfl rfl rfl

end Walks

/-! ### Programs -/

section Programs

variable (h : Policy Fit A P) (env : Env)

include h

theorem silent_bind {α : Type} {op : Op} (hop : op.Silent) {k : op.Res → Prog α}
    (hk : ∀ r, Guards A P (k r)) :
  Guards A P (request op >>= k)
  := guards_request_bind (h.silent hop) fun r _ => hk r

theorem guards_log {subject : String} (hsubject : subject ≠ "hi.logs.agamemnon.brief_completed")
    (level message : String) (metadata : Json) :
  Guards A P (publishLog subject level message metadata)
  := guards_request (h.silent hsubject)

theorem log_bind {α : Type} {subject level message : String} {metadata : Json}
    (hsubject : subject ≠ "hi.logs.agamemnon.brief_completed") {k : Unit → Prog α}
    (hk : ∀ r, Guards A P (k r)) :
  Guards A P (publishLog subject level message metadata >>= k)
  := bind hk (h.guards_log hsubject level message metadata)

theorem update_bind {α : Type} {t : HmasTask} (ht : Fit t) {k : Bool → Prog α}
    (hk : ∀ r, Guards A P (k r)) :
  Guards A P (updateHmasTask t >>= k)
  := ⟨h.update ht, fun r _ => hk r⟩

theorem guards_get_bind {α : Type} {id : String} {k : Option HmasTask → Prog α}
    (hnone : Guards A P (k none))
    (hsome : ∀ t, A (.getHmasTask id) (some t) → Guards A P (k (some t))) :
  Guards A P (getHmasTask id >>= k)
  := by
  apply guards_request_bind (h.silent (by trivial))
  rintro (_ | t) ht
  · exact hnone
  · exact hsome t ht

theorem guards_dispatchTask (t : HmasTask) (payload : Json) :
  Guards A P (dispatchTask t payload)
  := by
  apply h.silent_bind (by trivial)
  intro _
  apply h.silent_bind (by trivial)
  intro _
  apply guards_request (h.silent (by trivial))

theorem guards_allClear :
  ∀ blockers : List String, Guards A P (allClear blockers)
  | [] => trivial
  | x :: xs => by
      apply h.guards_get_bind (by trivial)
      intro blocker _
      simp only
      split
      · trivial
      · apply guards_allClear xs

theorem guards_delegate (id : String) :
  Guards A P (delegate env id)
  := by
  apply h.guards_get_bind (by trivial)
  intro task htask
  simp only
  split
  · apply h.update_bind (h.kept_delegateWalk env.ts (h.found htask))
    intro _
    apply h.silent_bind (by trivial)
    intro _
    apply bind _ (h.guards_dispatchTask _ _)
    intro _
    trivial
  · trivial

theorem guards_considerChild (id : String) :
  Guards A P (considerChild env id)
  := by
  apply h.guards_get_bind (by trivial)
  intro candidate _
  simp only
  split
  · trivial
  · apply bind _ (h.guards_allClear _)
    intro clear
    split
    · apply bind _ (h.guards_delegate env _)
      intro _
      trivial
    · trivial

theorem guards_delegateUnblockedChildren (id : String) :
  Guards A P (delegateUnblockedChildren env id)
  := by
  apply h.guards_get_bind (by trivial)
  intro completed _
  apply guards_forEach
  intro child _
  apply h.guards_considerChild

theorem guards_markTaskCompleted (now id : String) :
  Guards A P (markTaskCompleted now id)
  := by
  apply h.silent_bind (by trivial)
  intro outcome
  cases outcome <;> trivial

/-- A completion may publish that a brief is completed. -/
theorem guards_completeTask
    (hlog : ∀ subject level message metadata, P (.publishLog subject level message metadata))
    (id : String) :
  Guards A P (completeTask env id)
  := by
  apply h.guards_get_bind (h.guards_markTaskCompleted env.ts id)
  intro task htask
  apply h.update_bind (h.kept_completionWalk env.ts (h.found htask))
  intro _
  apply h.silent_bind (by trivial)
  intro _
  apply bind _ (h.guards_delegateUnblockedChildren env id)
  intro _
  split
  · apply guards_request (hlog _ _ _ _)
  · trivial

theorem guards_startTask (msg : Json) (id : String) :
  Guards A P (startTask env msg id)
  := by
  apply h.guards_get_bind (by trivial)
  intro task htask
  apply guards_ofExcept_bind
  intro agentId _
  apply guards_ofExcept_bind
  intro execHost _
  have hstarted : Fit (startedWalk env.ts task) := h.kept_startedWalk env.ts (h.found htask)
  apply h.update_bind
  · split
    · exact h.kept hstarted rfl rfl rfl
    · exact h.kept hstarted rfl rfl rfl
  · intro _
    apply h.silent_bind (by trivial)
    intro _
    apply h.guards_log (by decide)

theorem guards_failTask (msg : Json) (id : String) :
  Guards A P (failTask env msg id)
  := by
  apply h.guards_get_bind (by trivial)
  intro task htask
  apply h.update_bind (h.kept_failedWalk env.ts (h.found htask))
  intro _
  apply h.silent_bind (by trivial)
  intro _
  apply guards_ofExcept_bind
  intro error _
  apply h.guards_log (by decide)

theorem guards_escalate (id reason : String) :
  Guards A P (escalate env id reason)
  := by
  apply h.guards_get_bind (by trivial)
  intro task htask
  simp only
  split
  · have hfits : Fit (tryTransition env.ts task .escalate).2
      := h.kept_tryTransition env.ts (h.found htask) .escalate
    apply h.update_bind (h.kept hfits (by rfl) (by rfl) (by rfl))
    intro _
    apply h.silent_bind (by trivial)
    intro _
    apply h.silent_bind (by trivial)
    intro _
    apply h.silent_bind (by trivial)
    intro _
    apply h.log_bind (by decide)
    intro _
    trivial
  · trivial

omit h in
/-- The tasks that a split makes have a new identifier, and the brief and the parent of the
original. -/
theorem guards_splitLoop {original : HmasTask}
    (hchild : ∀ n t, t.id = env.uuid n → t.briefId = original.briefId →
      t.parentTaskId = original.parentTaskId → P (.createHmasTask t)) :
  ∀ (subs : List Json) (created : List String),
    Guards A P (splitLoop env original subs created)
  | [], _ => trivial
  | sub :: rest, created => by
      apply guards_ofExcept_bind
      intro title _
      split
      · trivial
      · apply guards_ofExcept_bind
        intro child hremainder
        obtain ⟨_, _, _, rfl⟩ := Board.remainder_ok hremainder
        apply guards_request_bind (hchild created.length _ (by rfl) (by rfl) (by rfl))
        intro _ _
        apply guards_splitLoop hchild rest

theorem guards_splitTask {id : String}
    (hchild : ∀ original, A (.getHmasTask id) (some original) → ∀ n t, t.id = env.uuid n →
      t.briefId = original.briefId → t.parentTaskId = original.parentTaskId →
      P (.createHmasTask t)) (subtasks : Json) :
  Guards A P (splitTask env id subtasks)
  := by
  apply h.guards_get_bind (by trivial)
  intro original horiginal
  simp only
  split
  · apply bind _ (guards_splitLoop env (hchild original horiginal) _ _)
    rintro (reply | created)
    · trivial
    · apply h.update_bind (h.kept (h.found horiginal) (by rfl) (by rfl) (by rfl))
      intro _
      apply h.log_bind (by decide)
      intro _
      trivial
  · trivial

theorem guards_submitBrief {brief : TaskBrief}
    (htasks : ∀ tasks, decompose env.uuid env.ts brief = .ok tasks →
      ∀ t ∈ tasks, P (.createHmasTask t)) :
  Guards A P (submitBrief env brief)
  := by
  apply h.silent_bind (by trivial)
  intro _
  apply guards_ofExcept_bind
  intro tasks hplan
  apply Guards.bind
  · intro _
    split
    · trivial
    · apply h.guards_get_bind (by trivial)
      intro root hroot
      have hsubmitted : Fit (advance env.ts .submit root)
        := h.kept_tryTransition env.ts (h.found hroot) .submit
      apply h.update_bind (h.kept_tryTransition env.ts hsubmitted .delegate)
      intro _
      apply h.silent_bind (by trivial)
      intro _
      apply Guards.bind _ (h.guards_dispatchTask _ _)
      intro _
      apply h.log_bind (by decide)
      intro _
      trivial
  · apply guards_forEach
    intro t ht
    exact guards_request (htasks tasks hplan t ht)

theorem guards_registerEpic (msg epic : Json) {repo key : String} {issue : ℤ}
    (hroot : Fit (epicRoot env (epicBrief env repo key issue) repo issue))
    (hcreate : P (.createHmasTask (epicRoot env (epicBrief env repo key issue) repo issue))) :
  Guards A P (registerEpic env msg epic repo key issue)
  := by
  apply h.silent_bind (by trivial)
  intro _
  apply guards_request_bind hcreate
  intro _ _
  apply h.update_bind (h.kept_tryTransition env.ts hroot .submit)
  intro _
  apply h.silent_bind (by trivial)
  intro _
  apply guards_ofExcept_bind
  intro teamId _
  apply bind _ (h.guards_dispatchTask _ _)
  intro _
  apply h.log_bind (by decide)
  intro _
  trivial

end Programs

/-! ### Calls -/

theorem guards_reply {α β : Type} {p : Prog α} (hp : Guards A P p) (r : α → β) :
  Guards A P (p >>= fun a => pure (r a))
  := by
  apply bind _ hp
  intro a
  trivial

/-- A handler of messages: it parses the payload, reads fields from it, and drops exceptions. -/
theorem guards_message {α β γ : Type} {x : Except Exn α} {read : α → Except Exn β}
    {p : α → β → Prog γ} (hp : ∀ msg fields, Guards A P (p msg fields)) (c : γ) :
  Guards A P (tryCatch
    (ofExcept x >>= fun msg => ofExcept (read msg) >>= fun fields => p msg fields) fun _ => pure c)
  := by
  apply Guards.tryCatch
  · intro e
    trivial
  · apply guards_ofExcept_bind
    intro msg _
    apply guards_ofExcept_bind
    intro fields _
    apply hp

/-- A message about a task, or an escalation, rewrites the task it names. -/
theorem guards_quiet (h : Policy Fit A P) (parse : String → Option Json) (env : Env)
    {call : Call} (hcall : call.Quiet)
    (hlog : ∀ payload, call = .onMyrmidonCompletion payload →
      ∀ subject level message metadata, P (.publishLog subject level message metadata)) :
  Guards A P (call.program parse env)
  := by
  cases call with
  | submit brief | onEpicRegistered payload | splitTask id subtasks => exact hcall.elim
  | onMyrmidonStarted payload =>
    apply guards_reply
    apply guards_message
    intro msg id
    split
    · trivial
    · apply h.guards_startTask
  | onMyrmidonCompletion payload =>
    apply guards_reply
    apply guards_message
    intro msg id
    split
    · trivial
    · apply h.guards_completeTask env (hlog payload rfl)
  | onMyrmidonFailed payload =>
    apply guards_reply
    apply guards_message
    intro msg id
    split
    · trivial
    · apply h.guards_failTask
  | escalate id reason => apply guards_reply (h.guards_escalate env id reason)

end Policy

end Agamemnon
