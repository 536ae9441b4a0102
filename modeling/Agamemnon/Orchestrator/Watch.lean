import Agamemnon.Json.Text
import Agamemnon.Orchestrator.Policies

/-!
# The log, with what was stored

A line of the log says nothing of the store at the moment it was published.  A watched world
keeps a copy of the stored tasks with every line.  Only the completion of a root publishes that
a brief is completed, and it is the last thing the call does.
-/

namespace Agamemnon

open Program Orchestrator

/-- A line of the log, and the tasks that were stored when it was published. -/
structure Logged where
  line : LogLine
  tasks : StringMap HmasTask

/-- A world, and the log with what was stored. -/
structure Watch where
  world : World
  logged : List Logged

namespace Watch

/-- Nothing stored and nothing logged. -/
def empty : Watch where
  world := World.empty
  logged := []

/-- The operations do to the world what they always do. -/
def handle : Handler Op Op.Res Watch
  | s, op =>
      ((World.handle s.world op).1,
        { world := (World.handle s.world op).2
          logged := match op with
            | .publishLog subject level message metadata =>
                s.logged ++ [⟨⟨subject, level, message, metadata⟩, s.world.store.hmasTasks⟩]
            | _ => s.logged })

/-- The stored tasks of a watched world. -/
def board (s : Watch) : Board :=
  s.world.board

theorem board_hom :
  HandlerHom Watch.handle Board.handle Watch.board
  where
  answer := fun s op => Agamemnon.board_hom.answer s.world op
  effect := fun s op => Agamemnon.board_hom.effect s.world op

end Watch

open Watch

/-- The brief that a line says is completed. -/
def LogLine.completedBrief (l : LogLine) : Option String :=
  if l.subject = "hi.logs.agamemnon.brief_completed" then
    match l.metadata.get? "brief_id" with
    | some (.string briefId) => some briefId
    | _ => none
  else none

/-- The briefs that were said to be completed, with the tasks that were stored then. -/
def Watch.announced (s : Watch) : List (String × StringMap HmasTask) :=
  s.logged.filterMap fun l => l.line.completedBrief.map fun briefId => (briefId, l.tasks)

/-- The operation publishes that a brief is completed. -/
def Op.Announces : Op → Prop
  | .publishLog subject _ _ _ => subject = "hi.logs.agamemnon.brief_completed"
  | _ => False

theorem announced_handle (s : Watch) (op : Op) (hop : ¬ op.Announces) :
  (handle s op).2.announced = s.announced
  := by
  cases op with
  | publishLog subject level message metadata =>
    have hline : LogLine.completedBrief ⟨subject, level, message, metadata⟩ = none := if_neg hop
    simp only [handle, announced, List.filterMap_append, List.filterMap_cons, hline,
      Option.map_none, List.filterMap_nil, List.append_nil]
  | _ => rfl

/-- The program publishes of no brief that it is completed. -/
abbrev Unannounced {α : Type} (p : Prog α) : Prop :=
  Guards (fun _ _ => True) (fun op => ¬ op.Announces) p

/-- A call may write any task, if it does not publish that a brief is completed. -/
theorem unannounced_policy :
  Policy (fun _ => True) (fun _ _ => True) fun op => ¬ op.Announces
  where
  kept := fun _ _ _ _ => trivial
  found := fun _ => trivial
  silent := by
    intro op hop hannounces
    cases op with
    | publishLog subject level message metadata => exact hop hannounces
    | _ => exact hannounces
  update := fun _ hannounces => hannounces

/-! ### What a call announces -/

variable {parse : String → Option Json} {env : Env} {s : Watch}

theorem announced_exec {α : Type} {p : Prog α} (hp : Unannounced p) (s : Watch) :
  (exec handle p s).2.announced = s.announced
  := by
  apply hp.exec_invariant (I := fun s' => s'.announced = s.announced) _ s rfl
  intro s' op hs' hop
  exact ⟨trivial, (announced_handle s' op hop).trans hs'⟩

theorem exec_delegateUnblockedChildren {b : Board} (hb : b.Keyed) (id : String) :
  (exec Board.handle (delegateUnblockedChildren env id) b).1 = .ok ()
  := by
  rw [delegateUnblockedChildren, exec_get_bind]
  cases b.lookup id with
  | none => rfl
  | some completed => rw [exec_considerChildren _ hb]

/-- The result of a program does not depend on the log. -/
theorem exec_watch_fst {α : Type} (p : Prog α) (s : Watch) :
  (exec Watch.handle p s).1 = (exec Board.handle p s.board).1
  := by
  rw [exec_hom Watch.board_hom]

/-- The completion of a root is announced, with what is stored at the end of the call; no other
completion is. -/
theorem announced_completeTask (hs : s.board.Keyed) {id : String} {t : HmasTask}
    (ht : s.board.lookup id = some t) :
  (exec Watch.handle (completeTask env id) s).2.announced
    = s.announced ++ if t.layer = .l0ChiefArchitect then
        [(t.briefId, (exec Watch.handle (completeTask env id) s).2.world.store.hmasTasks)]
      else []
  := by
  let task := completionWalk env.ts t
  let updated := (Watch.handle s (.updateHmasTask task)).2
  let shown := (exec Watch.handle (publishTaskState task) updated).2
  let last := (exec Watch.handle (delegateUnblockedChildren env id) shown).2
  have hkeyed : shown.board.Keyed := by
    have hboard : shown.board = (Board.handle s.board (.updateHmasTask task)).2
      := Watch.board_hom.effect s (.updateHmasTask task)
    rw [hboard, Board.handle]
    split
    · apply hs.put
    · exact hs
  have hresult : exec Watch.handle (delegateUnblockedChildren env id) shown = (.ok (), last) := by
    apply Prod.ext
    · rw [exec_watch_fst, exec_delegateUnblockedChildren hkeyed]
    · rfl
  have hlast : last.announced = s.announced
    := announced_exec (unannounced_policy.guards_delegateUnblockedChildren env id) shown
  have hfields : task.layer = t.layer ∧ task.briefId = t.briefId := by
    simp only [task, completionWalk_eq]
    split
    · exact ⟨rfl, rfl⟩
    · exact ⟨rfl, rfl⟩
  let tail : Prog Unit := if task.layer = .l0ChiefArchitect then
      publishLog "hi.logs.agamemnon.brief_completed" "info" ("Brief completed: " ++ task.briefId)
        (.ofMembers [("brief_id", .string task.briefId), ("root_task_id", .string id)])
    else pure ()
  have hexec : exec Watch.handle (completeTask env id) s = exec Watch.handle tail last := by
    have hfound : s.world.store.getHmasTask id = some t := ht
    have hget : exec Watch.handle (completeTask env id) s
        = exec Watch.handle (delegateUnblockedChildren env id >>= fun _ => tail) shown := by
      unfold completeTask
      apply (exec_request_bind Watch.handle s (Op.getHmasTask id) _).trans
      simp only [Watch.handle, World.handle, hfound]
      rfl
    rw [hget, exec_bind, hresult]
  rw [hexec]
  simp only [tail]
  rw [hfields.1, hfields.2]
  split
  · have hline : (exec Watch.handle (publishLog "hi.logs.agamemnon.brief_completed" "info"
        ("Brief completed: " ++ t.briefId) (.ofMembers [("brief_id", .string t.briefId),
          ("root_task_id", .string id)])) last).2.announced
        = last.announced ++ [(t.briefId, last.world.store.hmasTasks)] := by
      have hbrief : (Json.ofMembers [("brief_id", .string t.briefId),
          ("root_task_id", .string id)]).get? "brief_id" = some (.string t.briefId)
        := Json.get?_ofMembers (by simp) "brief_id"
      have hcompleted : LogLine.completedBrief ⟨"hi.logs.agamemnon.brief_completed", "info",
          "Brief completed: " ++ t.briefId, .ofMembers [("brief_id", .string t.briefId),
            ("root_task_id", .string id)]⟩ = some t.briefId := by
        rw [LogLine.completedBrief, if_pos rfl, hbrief]
      apply (List.filterMap_append).trans
      rw [List.filterMap_cons, hcompleted]
      rfl
    rw [hline, hlast]
    rfl
  · rw [List.append_nil]
    exact hlast

/-- A call other than a completion announces nothing. -/
theorem announced_call (s : Watch) {call : Call}
    (hcall : ∀ payload, call ≠ .onMyrmidonCompletion payload) :
  (exec handle (call.program parse env) s).2.announced = s.announced
  := by
  apply announced_exec
  cases call with
  | submit brief =>
    apply Policy.guards_reply
    rw [submit]
    split
    · apply unannounced_policy.guards_submitBrief _ fun _ _ _ _ h => h
    · apply unannounced_policy.guards_submitBrief _ fun _ _ _ _ h => h
  | onEpicRegistered payload =>
    apply Policy.guards_reply
    apply Policy.guards_message
    rintro msg ⟨epic, repo, key, issue⟩
    simp only
    split
    · trivial
    · apply unannounced_policy.guards_registerEpic _ _ _ trivial fun h => h
  | splitTask id subtasks =>
    apply Policy.guards_reply
    apply unannounced_policy.guards_splitTask _ fun _ _ _ _ _ _ _ h => h
  | _ =>
    apply unannounced_policy.guards_quiet parse env (by trivial)
    intro payload heq
    exact absurd heq (hcall payload)

/-- A completion message completes the task it names. -/
theorem exec_completion_snd (s : Watch) (payload : String) :
  (exec handle (Call.program parse env (.onMyrmidonCompletion payload)) s).2
    = match completionTarget parse payload with
      | none => s
      | some id => (exec handle (completeTask env id) s).2
  := by
  have hcall : (exec handle (Call.program parse env (.onMyrmidonCompletion payload)) s).2
      = (exec handle (onMyrmidonCompletion parse env payload) s).2 := by
    rw [Call.program, exec_bind]
    cases exec handle (onMyrmidonCompletion parse env payload) s with
    | mk outcome s' => cases outcome <;> rfl
  rw [hcall, onMyrmidonCompletion, completion_eq]
  cases completionTarget parse payload with
  | none => rfl
  | some id => exact exec_tryCatch_ret_snd _ _ _ _

/-- The completion of a plain task announces nothing. -/
theorem announced_completeTask_of_none (s : Watch) {id : String}
    (hnone : s.board.lookup id = none) :
  (exec handle (completeTask env id) s).2.announced = s.announced
  := by
  have hfound : s.world.store.getHmasTask id = none := hnone
  have hexec : exec handle (completeTask env id) s
      = exec handle (markTaskCompleted env.ts id) s := by
    unfold completeTask
    apply (exec_request_bind handle s (Op.getHmasTask id) _).trans
    simp only [handle, World.handle, hfound]
  rw [hexec]
  apply announced_exec (unannounced_policy.guards_markTaskCompleted env.ts id)

end Agamemnon
