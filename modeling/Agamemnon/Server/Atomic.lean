import Agamemnon.Orchestrator.Moves
import Agamemnon.Server.Answers
import Agamemnon.Store.Identity

/-!
# What a refused call leaves behind

`split_task` reads its entries one by one and makes the task of an entry before it looks at the
next one; `submit` stores the brief before it reads the numbers in it.  The tasks and briefs
after a call that failed are compared with those before it.  They are the ones the store would
answer with, so that a collection which has not been loaded yet is the one that is going to be
loaded.
-/

namespace Agamemnon

open Attempt Operation Handling Server

variable (parse : String → Option Json) (gh : Option Client)

/-- The tasks of the store. -/
def Server.hmasTasks (s : Server) : StringMap HmasTask :=
  (exec (load parse gh .hmasTasks) s.store).2.memory.hmasTasks

/-- The briefs of the store. -/
def Server.taskBriefs (s : Server) : StringMap TaskBrief :=
  (exec (load parse gh .briefs) s.store).2.memory.taskBriefs

variable {parse gh} {taskId : String}

/-! ### Splits -/

namespace Orchestrator

/-- What `split_task` does after its loop. -/
def finishSplit (taskId : String) (original : HmasTask) :
    Except Json (List String) → Prog Json
  | .error reply => return reply
  | .ok created => do
      let _ ← updateHmasTask
        { original with childTaskIds := original.childTaskIds ++ created }
      publishLog "hi.logs.agamemnon.task_split" "info" ("Task split: " ++ taskId)
        (.ofMembers [("task_id", .string taskId), ("created", .ofStrings created)])
      return .ofMembers [("task_id", .string taskId), ("created", .ofStrings created)]

/-- The call answers with an error, or throws. -/
def Refused : Except Failure Json → Prop
  | .error _ => True
  | .ok reply => reply.contains "error" = true

/-- The issue of a new task. -/
def newIssue (gh : Option Client) (t : HmasTask) : Except Failure String :=
  makeIssue gh ("hmas-task: " ++ t.id) ("hmas-tasks/" ++ t.id) (hmasTaskToJson t)
    "agamemnon-hmas-task"

/-- After the tasks `created`, the entry `sub` has a title and can be read, and the issue of its
task `child` can be made. -/
structure Accepted (gh : Option Client) (env : Env) (original : HmasTask)
    (created : List String) (sub : Json) (child : HmasTask) : Prop where
  isObject : sub.isObject = true
  titled : ∃ title, sub.valueString "title" "" = .ok title ∧ title ≠ ""
  remainder : remainder env.ts original (env.uuid created.length) (created.getLast?.getD "") sub
    = .ok child
  issue : ∃ number, newIssue gh child = .ok number

/-- Every entry is accepted, and the issue of the original can be written. -/
def Carried (gh : Option Client) (env : Env) (s : LiveStore) (original : HmasTask) :
    List Json → List String → Prop
  | [], created =>
      (s.memory.getHmasTask original.id).isSome = true →
        rewriteHmasTaskIssue gh s.hmasTaskIssueNumbers original.id
          { original with childTaskIds := original.childTaskIds ++ created } = .ok ()
  | sub :: rest, created =>
      ∃ child, Accepted gh env original created sub child
        ∧ Carried gh env s original rest (created ++ [child.id])

/-- If the first entry of a split is accepted, the whole split is carried out. -/
def SplitWhole (gh : Option Client) (env : Env) (s : LiveStore) (taskId : String)
    (subtasks : Json) : Prop :=
  ∀ original sub rest child, s.memory.getHmasTask taskId = some original →
    subtasks = .array (sub :: rest) → Accepted gh env original [] sub child →
      Carried gh env s original (sub :: rest) []

/-- The identifiers of a generator are not in use: no task is stored under one, or has one. -/
structure Env.Unused (env : Env) (tasks : StringMap HmasTask) : Prop
    extends IdSupply env.uuid where
  key : ∀ n, tasks.lookup (env.uuid n) = none
  task : ∀ n id t, tasks.lookup id = some t → t.id ≠ env.uuid n

variable {env : Env} {original : HmasTask}

/-- What `split_task` does once it has looked its task up. -/
def splitFound (env : Env) (taskId : String) (subtasks : Json) : Option HmasTask → Prog Json
  | none => return errorReply "task not found"
  | some original =>
      match subtasks with
      | .array (sub :: rest) =>
          splitLoop env original (sub :: rest) [] >>= finishSplit taskId original
      | _ => return errorReply "subtasks must be a non-empty array"

theorem splitTask_eq (env : Env) (taskId : String) (subtasks : Json) :
  splitTask env taskId subtasks = .call (.getHmasTask taskId) (splitFound env taskId subtasks)
  := by
  apply congrArg (Program.call (Op.getHmasTask taskId))
  funext task
  cases task with
  | none => rfl
  | some original => cases subtasks <;> rfl

theorem refused_errorReply (message : String) :
  Refused (.ok (errorReply message))
  := rfl

variable {sub : Json}

/-- An entry with a title is read, and its task is made. -/
theorem splitLoop_titled (hobject : sub.isObject = true) {title : String}
    (htitle : sub.valueString "title" "" = .ok title) (hne : title ≠ "") (rest : List Json)
    (created : List String) :
  splitLoop env original (sub :: rest) created
    = Program.ofExcept (remainder env.ts original (env.uuid created.length)
        (created.getLast?.getD "") sub) >>= fun child =>
      createHmasTask child >>= fun _ => splitLoop env original rest (created ++ [child.id])
  := by
  simp only [splitLoop, hobject, htitle, if_true]
  apply if_neg hne

/-- A server that has stored a new task. -/
def stored (t : HmasTask) (number : String) (s : Server) : Server :=
  { s with store := { s.store with
      memory := s.store.memory.createHmasTask t
      hmasTaskIssueNumbers :=
        if number = "" then s.store.hmasTaskIssueNumbers
        else s.store.hmasTaskIssueNumbers.insert t.id number } }

variable {s : Server} {child : HmasTask} {created : List String}

section Loaded

variable (hloaded : s.store.loaded .hmasTasks = true)
include hloaded

theorem exec_createHmasTask (t : HmasTask) :
  exec (perform parse gh (.createHmasTask t)) s
    = match newIssue gh t with
      | .error e => (.error e, s)
      | .ok number => (.ok (), stored t number s)
  := by
  change exec (onStore (Operation.createHmasTask parse gh t)) s = _
  rw [onStore, exec_focus, Operation.createHmasTask, exec_bind, exec_load_of_loaded hloaded]
  dsimp only
  rw [exec_bind, exec_lift, newIssue]
  cases makeIssue gh ("hmas-task: " ++ t.id) ("hmas-tasks/" ++ t.id) (hmasTaskToJson t)
    "agamemnon-hmas-task" <;> rfl

/-- The loop goes on behind an entry that is accepted. -/
theorem exec_splitLoop_accepted (h : Accepted gh env original created sub child) (rest : List Json)
    (k : Except Json (List String) → Prog Json) :
  ∃ number, exec (orchestrate parse gh (splitLoop env original (sub :: rest) created >>= k)) s
    = exec (orchestrate parse gh (splitLoop env original rest (created ++ [child.id]) >>= k))
        (stored child number s)
  := by
  obtain ⟨title, htitle, hne⟩ := h.titled
  obtain ⟨number, hissue⟩ := h.issue
  use number
  rw [splitLoop_titled h.isObject htitle hne, h.remainder]
  change exec (Handling.perform parse gh (.createHmasTask child) >>= fun _ =>
    orchestrate parse gh (splitLoop env original rest (created ++ [child.id]) >>= k)) s = _
  rw [exec_bind, exec_createHmasTask hloaded, hissue]

/-- An entry that is not accepted ends the call. -/
theorem exec_splitLoop_refused (h : ¬ ∃ child, Accepted gh env original created sub child)
    (rest : List Json) :
  ∃ r, Refused r ∧ exec (orchestrate parse gh
    (splitLoop env original (sub :: rest) created >>= finishSplit taskId original)) s = (r, s)
  := by
  cases hobject : sub.isObject with
  | false =>
    rw [splitLoop, hobject]
    exact ⟨_, refused_errorReply _, rfl⟩
  | true =>
    cases htitle : sub.valueString "title" "" with
    | error e =>
      rw [splitLoop, hobject, htitle]
      exact ⟨.error (.own e), trivial, rfl⟩
    | ok title =>
      by_cases hempty : title = ""
      · rw [splitLoop, hobject, htitle, hempty]
        exact ⟨_, refused_errorReply _, rfl⟩
      · rw [splitLoop_titled hobject htitle hempty]
        cases hchild : remainder env.ts original (env.uuid created.length)
          (created.getLast?.getD "") sub with
        | error e => exact ⟨.error (.own e), trivial, rfl⟩
        | ok child =>
          cases hissue : newIssue gh child with
          | ok number =>
            exact absurd ⟨child, hobject, ⟨title, htitle, hempty⟩, hchild, number, hissue⟩ h
          | error e =>
            refine ⟨.error e, trivial, ?_⟩
            change exec (Handling.perform parse gh (.createHmasTask child) >>= fun _ =>
              orchestrate parse gh (splitLoop env original rest (created ++ [child.id])
                >>= finishSplit taskId original)) s = _
            rw [exec_bind, exec_createHmasTask hloaded, hissue]

/-- The tasks are loaded, and those stored before are still stored. -/
structure Kept (s s' : Server) : Prop where
  loaded : s'.store.loaded .hmasTasks = true
  mem : ∀ id ∈ s.store.memory.hmasTasks, id ∈ s'.store.memory.hmasTasks

theorem kept_stored (t : HmasTask) (number : String) :
  Kept s (stored t number s)
  where
  loaded := hloaded
  mem := by
    intro id hid
    apply Finmap.mem_insert.mpr
    exact Or.inr hid

/-- A server that has written a task back. -/
def written (t : HmasTask) (s : Server) : Server :=
  { s with store := { s.store with memory := (s.store.memory.updateHmasTask t).2 } }

theorem kept_written (t : HmasTask) :
  Kept s (written t s)
  where
  loaded := hloaded
  mem := by
    intro id hid
    rw [written, Memory.updateHmasTask]
    split
    · exact hid
    · apply Finmap.mem_insert.mpr
      exact Or.inr hid

variable (parse gh) in
theorem exec_updateHmasTask (t : HmasTask) :
  ∃ r, exec (Handling.perform parse gh (.updateHmasTask t)) s = (r, written t s)
    ∧ ((∃ stored, r = .ok stored) ↔ ((s.store.memory.getHmasTask t.id).isSome = true →
      rewriteHmasTaskIssue gh s.store.hmasTaskIssueNumbers t.id t = .ok ()))
  := by
  have hperform : exec (Handling.perform parse gh (.updateHmasTask t)) s
      = exec (onStore (Operation.updateHmasTask parse gh t) >>= fun _ => get >>= fun s =>
          pure (s.store.memory.getHmasTask t.id).isSome) s := rfl
  rw [hperform, exec_bind, onStore, exec_focus, Operation.updateHmasTask, exec_bind,
    exec_load_of_loaded hloaded, written, Memory.getHmasTask]
  dsimp only
  rw [Attempt.exec_get_bind]
  cases hold : s.store.memory.hmasTasks.lookup t.id with
  | none =>
    rw [Memory.updateHmasTask, hold]
    exact ⟨_, rfl, iff_of_true ⟨_, rfl⟩ (by simp)⟩
  | some old =>
    simp only [exec_bind, exec_modify, exec_get, exec_lift, Option.isSome_some, true_implies]
    cases rewriteHmasTaskIssue gh s.store.hmasTaskIssueNumbers t.id t with
    | error e => exact ⟨.error e, rfl, by simp⟩
    | ok _ => exact ⟨_, rfl, iff_of_true ⟨_, rfl⟩ rfl⟩

/-- The original is written if it is stored, and the call throws if its issue cannot be. -/
theorem exec_finishSplit (created : List String) :
  ∃ r s', exec (orchestrate parse gh (finishSplit taskId original (.ok created))) s = (r, s')
    ∧ (¬ Refused r ↔ Carried gh env s.store original [] created) ∧ Kept s s'
  := by
  let t : HmasTask := { original with childTaskIds := original.childTaskIds ++ created }
  have hreply : ¬ Refused (.ok (.ofMembers [("task_id", .string taskId),
      ("created", .ofStrings created)])) := by
    rw [Refused, Json.contains, Json.get?_ofMembers (by simp)]
    simp [Lists.lookup_cons]
  have hkept : Kept s (written t s) := kept_written hloaded t
  obtain ⟨r, hexec, hr⟩ := exec_updateHmasTask parse gh hloaded t
  have hfinish : orchestrate parse gh (finishSplit taskId original (.ok created))
      = (Handling.perform parse gh (.updateHmasTask t) >>= fun _ => orchestrate parse gh
          (publishLog "hi.logs.agamemnon.task_split" "info" ("Task split: " ++ taskId)
            (.ofMembers [("task_id", .string taskId), ("created", .ofStrings created)])
          >>= fun _ => pure (.ofMembers [("task_id", .string taskId),
            ("created", .ofStrings created)]))) := rfl
  rw [hfinish, exec_bind, hexec]
  cases r with
  | error e =>
    refine ⟨_, _, rfl, ?_, hkept⟩
    rw [Carried, ← hr]
    simp [Refused]
  | ok written =>
    refine ⟨_, _, rfl, iff_of_true hreply ?_, hkept.loaded, hkept.mem⟩
    exact hr.mp ⟨written, rfl⟩

end Loaded

theorem carried_stored {t : HmasTask} (ht : t.id ≠ original.id) (number : String) :
  ∀ (subs : List Json) (created : List String),
    Carried gh env (stored t number s).store original subs created
      ↔ Carried gh env s.store original subs created
  | [], created => by
      have hnumber : (stored t number s).store.hmasTaskIssueNumbers.lookup original.id
          = s.store.hmasTaskIssueNumbers.lookup original.id := by
        rw [stored]
        dsimp only
        split
        · rfl
        · apply Finmap.lookup_insert_of_ne _ ht.symm
      have htask : (stored t number s).store.memory.getHmasTask original.id
          = s.store.memory.getHmasTask original.id := Finmap.lookup_insert_of_ne _ ht.symm
      unfold Carried rewriteHmasTaskIssue
      rw [htask, hnumber]
  | sub :: rest, created => by
      simp only [Carried, carried_stored ht number rest]

theorem Accepted.id (h : Accepted gh env original created sub child) :
  child.id = env.uuid created.length
  := (Board.remainder_eq h.remainder).1

/-- The call is refused unless the split is carried out. -/
theorem exec_entries (parse : String → Option Json) (taskId : String)
    (hid : ∀ n, original.id ≠ env.uuid n) :
  ∀ (subs : List Json) (created : List String) {s : Server},
    s.store.loaded .hmasTasks = true →
      ∃ r s', exec (orchestrate parse gh
          (splitLoop env original subs created >>= finishSplit taskId original)) s = (r, s')
        ∧ (¬ Refused r ↔ Carried gh env s.store original subs created) ∧ Kept s s'
  | [], created, s, hloaded => exec_finishSplit hloaded created
  | sub :: rest, created, s, hloaded => by
      by_cases haccepted : ∃ child, Accepted gh env original created sub child
      · obtain ⟨child, haccepted⟩ := haccepted
        obtain ⟨number, hexec⟩ := exec_splitLoop_accepted hloaded haccepted rest
          (finishSplit taskId original)
        have hkept := kept_stored hloaded child number
        obtain ⟨r, s', hrest, hr, hkept'⟩ :=
          exec_entries parse taskId hid rest (created ++ [child.id]) hkept.loaded
        refine ⟨r, s', hexec.trans hrest, ?_, hkept'.loaded, ?_⟩
        · have hne : child.id ≠ original.id := by
            rw [haccepted.id]
            exact (hid _).symm
          rw [hr, carried_stored hne, Carried]
          constructor
          · intro hcarried
            exact ⟨child, haccepted, hcarried⟩
          · rintro ⟨child', haccepted', hcarried⟩
            obtain rfl : child = child'
              := Except.ok.inj (haccepted.remainder.symm.trans haccepted'.remainder)
            exact hcarried
        · intro id hid
          exact hkept'.mem id (hkept.mem id hid)
      · obtain ⟨r, hr, hexec⟩ := exec_splitLoop_refused hloaded haccepted rest
        refine ⟨r, s, hexec, ?_, hloaded, fun _ hid => hid⟩
        rw [Carried]
        apply iff_of_false (not_not.mpr hr)
        rintro ⟨child, hchild, -⟩
        exact haccepted ⟨child, hchild⟩

end Orchestrator

open Orchestrator

section Split

variable {env : Orchestrator.Env} {s : Server}

theorem Server.hmasTasks_of_loaded (h : s.store.loaded .hmasTasks = true) :
  s.hmasTasks parse gh = s.store.memory.hmasTasks
  := by
  rw [hmasTasks, exec_load_of_loaded h]

theorem loaded_load (s : LiveStore) :
  (exec (load parse gh .hmasTasks) s).2.loaded .hmasTasks = true
  := by
  have hmark : (s.markLoaded .hmasTasks).loaded .hmasTasks = true := by simp [LiveStore.markLoaded]
  rw [load, exec_ofExec]
  split
  · assumption
  · split <;> exact hmark

/-- The task that is split, if it is stored; looking it up loads the tasks. -/
theorem exec_splitTask (s : Server) (subtasks : Json) :
  exec (orchestrate parse gh (splitTask env taskId subtasks)) s
    = exec (orchestrate parse gh (splitFound env taskId subtasks
        ((exec (load parse gh .hmasTasks) s.store).2.memory.getHmasTask taskId)))
        { s with store := (exec (load parse gh .hmasTasks) s.store).2 }
  := by
  rw [splitTask_eq, orchestrate_call, exec_bind, exec_getHmasTask]

/-- Once its first entry is accepted, a split is carried out or leaves a task behind. -/
theorem unchanged_iff_of_accepted (hloaded : s.store.loaded .hmasTasks = true)
    (hunused : env.Unused s.store.memory.hmasTasks) {original : HmasTask}
    (hid : ∀ n, original.id ≠ env.uuid n) {sub : Json} {child : HmasTask}
    (hfirst : Accepted gh env original [] sub child) (rest : List Json) :
  (Refused (exec (orchestrate parse gh
      (splitLoop env original (sub :: rest) [] >>= finishSplit taskId original)) s).1 →
    (exec (orchestrate parse gh
      (splitLoop env original (sub :: rest) [] >>= finishSplit taskId original)) s).2.hmasTasks
        parse gh = s.hmasTasks parse gh)
  ↔ Carried gh env s.store original (sub :: rest) []
  := by
  obtain ⟨r, s', hexec, hr, hkept⟩ := exec_entries parse taskId hid (sub :: rest) [] hloaded
  obtain ⟨number, hstep⟩ := exec_splitLoop_accepted hloaded hfirst rest
    (finishSplit taskId original)
  obtain ⟨r', s'', hrest, -, hkept'⟩ := exec_entries parse taskId hid rest [child.id]
    (kept_stored hloaded child number).loaded
  obtain ⟨rfl, rfl⟩ : r = r' ∧ s' = s'' := Prod.mk.inj (hexec.symm.trans (hstep.trans hrest))
  have hchild : env.uuid 0 ∈ s'.store.memory.hmasTasks := by
    apply hkept'.mem
    apply Finmap.mem_insert.mpr
    exact Or.inl hfirst.id.symm
  have hchanged : s'.hmasTasks parse gh ≠ s.hmasTasks parse gh := by
    rw [hmasTasks_of_loaded hkept.loaded, hmasTasks_of_loaded hloaded]
    intro heq
    rw [heq] at hchild
    exact Finmap.lookup_eq_none.mp (hunused.key 0) hchild
  rw [← hr, hexec]
  constructor
  · intro h hrefused
    exact hchanged (h hrefused)
  · intro h hrefused
    exact absurd hrefused h

/-- With the tasks loaded, a call that fails leaves them as they were exactly if it is refused at
its first entry, or not at all. -/
theorem splitFound_unchanged_iff (hloaded : s.store.loaded .hmasTasks = true)
    (hunused : env.Unused s.store.memory.hmasTasks) (subtasks : Json) :
  (Refused (exec (orchestrate parse gh (splitFound env taskId subtasks
      (s.store.memory.getHmasTask taskId))) s).1 →
    (exec (orchestrate parse gh (splitFound env taskId subtasks
      (s.store.memory.getHmasTask taskId))) s).2.hmasTasks parse gh = s.hmasTasks parse gh)
  ↔ SplitWhole gh env s.store taskId subtasks
  := by
  unfold SplitWhole
  cases htask : s.store.memory.getHmasTask taskId with
  | none => exact iff_of_true (fun _ => rfl) (by simp)
  | some original =>
    cases subtasks with
    | array subs =>
      cases subs with
      | nil => exact iff_of_true (fun _ => rfl) (by simp)
      | cons sub rest =>
        rw [splitFound]
        by_cases hfirst : ∃ child, Accepted gh env original [] sub child
        · obtain ⟨child, hfirst⟩ := hfirst
          have hid : ∀ n, original.id ≠ env.uuid n := fun n => hunused.task n taskId original htask
          rw [unchanged_iff_of_accepted hloaded hunused hid hfirst rest]
          constructor
          · rintro h _ _ _ _ ⟨⟩ ⟨⟩ -
            exact h
          · intro h
            exact h original sub rest child rfl rfl hfirst
        · obtain ⟨r, -, hexec⟩ := exec_splitLoop_refused hloaded hfirst rest
          rw [hexec]
          apply iff_of_true (fun _ => rfl)
          rintro _ _ _ child ⟨⟩ ⟨⟩ haccepted
          exact absurd ⟨child, haccepted⟩ hfirst
    | _ => exact iff_of_true (fun _ => rfl) (by simp)

/-- A call that fails leaves the tasks as they were exactly if it is refused at its first entry,
or not at all. -/
theorem split_unchanged_iff (parse : String → Option Json) (gh : Option Client)
    (env : Orchestrator.Env) (taskId : String) (subtasks : Json) (s : Server)
    (hunused : env.Unused (s.hmasTasks parse gh)) :
  (Refused (exec (orchestrate parse gh (splitTask env taskId subtasks)) s).1 →
    (exec (orchestrate parse gh (splitTask env taskId subtasks)) s).2.hmasTasks parse gh
      = s.hmasTasks parse gh)
  ↔ SplitWhole gh env (exec (load parse gh .hmasTasks) s.store).2 taskId subtasks
  := by
  let s₀ : Server := { s with store := (exec (load parse gh .hmasTasks) s.store).2 }
  have hloaded : s₀.store.loaded .hmasTasks = true := loaded_load s.store
  have htasks : s₀.hmasTasks parse gh = s.hmasTasks parse gh := hmasTasks_of_loaded hloaded
  rw [exec_splitTask, ← htasks]
  exact splitFound_unchanged_iff (s := s₀) hloaded hunused subtasks

/-- A server without a client, with one task. -/
def holding (t : HmasTask) : Server :=
  { fresh with store := { LiveStore.fresh with memory := Memory.empty.createHmasTask t } }

/-- A task to be split. -/
def splitTarget : HmasTask :=
  { blankTask with id := "t" }

/-- What the call takes from outside. -/
def splitCalls : Orchestrator.Env where
  uuid := strokes
  now := ⟨2026, 4, 1, 0, 0, 0⟩

theorem splitCalls_unused :
  splitCalls.Unused ((holding splitTarget).hmasTasks Json.read none)
  where
  toIdSupply := strokes_supply
  key := by
    intro n
    apply (Finmap.lookup_insert_of_ne _ (strokes_ne (by decide) n)).trans
    rfl
  task := by
    intro n id t ht
    obtain rfl : id = "t" := by
      by_contra hid
      have hnone := (Finmap.lookup_insert_of_ne _ hid).symm.trans ht
      contradiction
    obtain rfl : splitTarget = t := Option.some.inj ((Finmap.lookup_insert _).symm.trans ht)
    exact (strokes_ne (by decide) n).symm

/-- The first of two entries is no object, and is refused at once. -/
theorem split_unchanged_nullFirst :
  let subtasks : Json := .array [.null, .object [("title", .string "a")]]
  Refused (exec (orchestrate Json.read none (splitTask splitCalls "t" subtasks))
      (holding splitTarget)).1
    ∧ (exec (orchestrate Json.read none (splitTask splitCalls "t" subtasks))
      (holding splitTarget)).2.hmasTasks Json.read none
      = (holding splitTarget).hmasTasks Json.read none
  := by
  intro subtasks
  have hrefused : Refused (exec (orchestrate Json.read none (splitTask splitCalls "t" subtasks))
      (holding splitTarget)).1 := rfl
  refine ⟨hrefused, (split_unchanged_iff _ _ _ _ _ _ splitCalls_unused).mpr ?_ hrefused⟩
  rintro original sub rest child - hentries haccepted
  obtain ⟨rfl, -⟩ := List.cons.inj (Json.array.inj hentries)
  exact absurd haccepted.isObject Bool.false_ne_true

/-- The task of the first entry stays when the second one is refused. -/
theorem split_halfway :
  Refused (exec (orchestrate Json.read none (splitTask splitCalls "t"
      (.array [.object [("title", .string "a")], .null]))) (holding splitTarget)).1
    ∧ (exec (orchestrate Json.read none (splitTask splitCalls "t"
      (.array [.object [("title", .string "a")], .null]))) (holding splitTarget)).2.hmasTasks
        Json.read none
      ≠ (holding splitTarget).hmasTasks Json.read none
  := by
  refine ⟨rfl, ?_⟩
  intro h
  have hlookup := congrArg (fun tasks => (Finmap.lookup "|" tasks).isSome) h
  exact Bool.false_ne_true hlookup.symm

end Split

/-! ### Briefs -/

namespace Orchestrator

/-- The brief as it is stored: a missing identifier is drawn. -/
def named (env : Env) (brief : TaskBrief) : TaskBrief :=
  if brief.id = "" then { brief with id := env.uuid 0 } else brief

/-- What `submit` does with the tasks of a brief that is stored. -/
def submitTasks (env : Env) (brief : TaskBrief) (tasks : List HmasTask) : Prog String := do
  Program.forEach tasks createHmasTask
  match tasks with
  | [] => return brief.id
  | first :: _ =>
      match ← getHmasTask first.id with
      | none => return brief.id
      | some root =>
          let root := advance env.ts .submit root
          let root := advance env.ts .delegate root
          let _ ← updateHmasTask root
          publishTaskState root
          dispatchTask root ((hmasTaskToJson root).set "brief_id" (.string brief.id))
          publishLog "hi.logs.agamemnon.brief_submitted" "info" ("Brief submitted: " ++ brief.id)
            (.ofMembers [("brief_id", .string brief.id), ("root_task_id", .string root.id),
              ("task_count", .integer tasks.length)])
          return brief.id

theorem submit_eq (env : Env) (brief : TaskBrief) :
  ∃ n, submit env brief = createTaskBrief (named env brief) >>= fun _ =>
    Program.ofExcept (decompose (env.skip n).uuid env.ts (named env brief)) >>=
      submitTasks (env.skip n) (named env brief)
  := by
  rw [submit, named]
  split
  · exact ⟨1, rfl⟩
  · use 0
    have hskip : env.skip 0 = env := by simp [Env.skip]
    rw [hskip]
    rfl

theorem returns_createAll :
  ∀ tasks : List HmasTask,
    (Program.forEach tasks createHmasTask).Returns Op.Plain (fun _ => True)
  | [] => trivial
  | _ :: tasks => ⟨trivial, fun _ => returns_createAll tasks⟩

theorem returns_submitTasks (env : Env) (brief : TaskBrief) (tasks : List HmasTask) :
  (submitTasks env brief tasks).Returns Op.Plain (fun _ => True)
  := by
  apply Program.Returns.bind _ (returns_createAll tasks)
  intro _ _
  cases tasks with
  | nil => trivial
  | cons first rest =>
    refine ⟨trivial, ?_⟩
    intro root
    cases root with
    | none => trivial
    | some root =>
      refine ⟨trivial, fun _ => ⟨trivial, fun _ => ⟨trivial, fun _ => ⟨trivial, fun _ => ?_⟩⟩⟩⟩
      exact ⟨trivial, fun _ => ⟨trivial, fun _ => trivial⟩⟩

end Orchestrator

/-- Loading the briefs leaves the tasks alone. -/
theorem load_briefs_frame (parse : String → Option Json) (gh : Option Client) (s : LiveStore) :
  let t := (exec (load parse gh .briefs) s).2
  t.memory.hmasTasks = s.memory.hmasTasks ∧ t.loaded .hmasTasks = s.loaded .hmasTasks
    ∧ t.loaded .briefs = true
  := by
  have hmark : (s.markLoaded .briefs).loaded .briefs = true := by simp [LiveStore.markLoaded]
  have hother : (s.markLoaded .briefs).loaded .hmasTasks = s.loaded .hmasTasks
    := by simp [LiveStore.markLoaded]
  rw [load, exec_ofExec]
  split
  · exact ⟨rfl, rfl, by assumption⟩
  · split
    · exact ⟨rfl, hother, hmark⟩
    · rename_i issues _
      exact ⟨(Deployment.hydrateBriefs_frame issues s.memory s.briefIssueNumbers).2, hother, hmark⟩

/-- The tasks of a store depend on the tasks in memory and on whether they are loaded. -/
theorem hmasTasks_load {s t : LiveStore} (htasks : t.memory.hmasTasks = s.memory.hmasTasks)
    (hloaded : t.loaded .hmasTasks = s.loaded .hmasTasks) :
  (exec (load parse gh .hmasTasks) t).2.memory.hmasTasks
    = (exec (load parse gh .hmasTasks) s).2.memory.hmasTasks
  := by
  simp only [load, exec_ofExec, hloaded]
  split
  · exact htasks
  · cases gh.bind (·.listIssues "agamemnon-hmas-task") with
    | none => exact htasks
    | some issues =>
      have hread : ∀ u : LiveStore, (hydrateHmasTasks parse issues u.memory
          u.hmasTaskIssueNumbers).1.hmasTasks
          = replay ((issues.filterMap fun issue =>
              (readRecord parse hmasTaskFromJson issue).map (·.1)).map fun t => (t.id, t))
              u.memory.hmasTasks := by
        intro u
        rw [hydrateHmasTasks_fst]
        obtain ⟨index, hindex⟩ := Memory.foldl_createHmasTask
          (issues.filterMap fun issue => (readRecord parse hmasTaskFromJson issue).map (·.1))
          u.memory
        rw [hindex]
      apply (hread t).trans
      rw [htasks]
      exact (hread s).symm

/-- A brief is stored, with a client that answers. -/
theorem exec_createTaskBrief (parse : String → Option Json)
    (hgh : ∀ client ∈ gh, client.Answers) (b : TaskBrief) (s : Server) :
  ∃ s', exec (Handling.perform parse gh (.createTaskBrief b)) s = (.ok (), s')
    ∧ s'.taskBriefs parse gh = (s.taskBriefs parse gh).insert b.id b
    ∧ s'.hmasTasks parse gh = s.hmasTasks parse gh
  := by
  obtain ⟨t, hload⟩ := (load_returns parse gh s.store).2
  obtain ⟨number, hnumber⟩ := makeIssue_returns hgh
    ("brief: " ++ Deployment.truncatedTitle b.title) ("briefs/" ++ b.id) (taskBriefToJson b)
    "agamemnon-brief"
  obtain ⟨htasks, hloaded, hbriefs⟩ := load_briefs_frame parse gh s.store
  rw [hload] at htasks hloaded hbriefs
  let t' : LiveStore := { t with
    memory := t.memory.createTaskBrief b
    briefIssueNumbers :=
      if number = "" then t.briefIssueNumbers else t.briefIssueNumbers.insert b.id number }
  refine ⟨{ s with store := t' }, ?_, ?_, hmasTasks_load htasks hloaded⟩
  · change exec (onStore (Operation.createTaskBrief parse gh b)) s = _
    rw [onStore, exec_focus, Operation.createTaskBrief, exec_bind, hload]
    dsimp only
    rw [exec_bind, exec_lift, hnumber]
    rfl
  · have hbriefs' : t'.loaded .briefs = true := hbriefs
    rw [taskBriefs, taskBriefs, exec_load_of_loaded hbriefs', hload]
    rfl

/-- A brief that is rejected leaves no trace exactly if it was stored before. -/
theorem submit_unchanged_iff (parse : String → Option Json) (gh : Option Client)
    (env : Orchestrator.Env) (brief : TaskBrief) (s : Server)
    (hgh : ∀ client ∈ gh, client.Answers) (hids : IdSupply env.uuid) :
  (orchestrate parse gh (submit env brief)).FailsTo (fun s' =>
    s'.taskBriefs parse gh = s.taskBriefs parse gh
      ∧ s'.hmasTasks parse gh = s.hmasTasks parse gh) s
  ↔ brief.NumbersFit
    ∨ (s.taskBriefs parse gh).lookup (named env brief).id = some (named env brief)
  := by
  obtain ⟨n, hsubmit⟩ := submit_eq env brief
  obtain ⟨s', hstored, hbriefs, htasks⟩ := exec_createTaskBrief parse hgh (named env brief) s
  have hfit : (named env brief).NumbersFit ↔ brief.NumbersFit := by
    rw [named]
    split
    · exact Iff.rfl
    · exact Iff.rfl
  have hexec : exec (orchestrate parse gh (submit env brief)) s
      = exec (orchestrate parse gh (Program.ofExcept
          (decompose (env.skip n).uuid env.ts (named env brief)) >>=
            submitTasks (env.skip n) (named env brief))) s' := by
    rw [hsubmit]
    change exec (Handling.perform parse gh (.createTaskBrief (named env brief)) >>= fun _ =>
      orchestrate parse gh _) s = _
    rw [exec_bind, hstored]
    rfl
  rw [FailsTo, hexec, ← hfit]
  cases hplan : decompose (env.skip n).uuid env.ts (named env brief) with
  | ok tasks =>
    have hnumbers := (TaskBrief.decompose_eq_ok (hids.skip n) hplan).1
    obtain ⟨_, _, hreturns, -⟩ := Program.exec_carryOut_of_returns (perform_returns parse hgh)
      (returns_submitTasks (env.skip n) (named env brief) tasks) s'
    apply iff_of_true _ (Or.inl hnumbers)
    intro e s'' herror
    cases hreturns.symm.trans herror
  | error e =>
    have hnumbers : ¬ (named env brief).NumbersFit := by
      intro hnumbers
      have hok : decompose (env.skip n).uuid env.ts (named env brief) = .ok _
        := TaskBrief.decompose_of_numbersFit (hids.skip n) hnumbers
      cases hplan.symm.trans hok
    rw [or_iff_right hnumbers, ← insert_eq_self, ← hbriefs]
    constructor
    · intro h
      exact (h _ _ rfl).1
    · rintro h _ _ ⟨⟩
      exact ⟨h, htasks⟩

/-- A brief with an issue number that does not fit an `int`. -/
def hugeBrief : TaskBrief :=
  moduleBrief ["#2147483648"]

/-- The brief stays when its tasks are rejected. -/
theorem submit_hugeBrief :
  ¬ (orchestrate Json.read none (submit splitCalls hugeBrief)).FailsTo (fun s' =>
    s'.taskBriefs Json.read none = fresh.taskBriefs Json.read none
      ∧ s'.hmasTasks Json.read none = fresh.hmasTasks Json.read none)
    fresh
  := by
  intro h
  have hexec : ∃ s', exec (orchestrate Json.read none (submit splitCalls hugeBrief))
      fresh = (.error (.own .outOfRange), s')
      ∧ ((s'.taskBriefs Json.read none).lookup "b").isSome = true := ⟨_, rfl, rfl⟩
  obtain ⟨s', hexec, hbrief⟩ := hexec
  rw [(h _ _ hexec).1] at hbrief
  exact Bool.false_ne_true hbrief

/-- A client of a repository without issues. -/
def emptyRepository : Client :=
  { Client.answering requestEnv with listIssues := fun _ => some [] }

/-- The server after the brief has been rejected once. -/
def rejectedOnce : Server :=
  (exec (orchestrate Json.read (some emptyRepository) (submit splitCalls hugeBrief)) fresh).2

/-- The brief is rejected again, and nothing changes. -/
theorem submit_unchanged_rejectedOnce :
  (∃ s', exec (orchestrate Json.read (some emptyRepository) (submit splitCalls hugeBrief))
      rejectedOnce = (.error (.own .outOfRange), s'))
    ∧ (orchestrate Json.read (some emptyRepository) (submit splitCalls hugeBrief)).FailsTo
      (fun s' =>
        s'.taskBriefs Json.read (some emptyRepository)
            = rejectedOnce.taskBriefs Json.read (some emptyRepository)
          ∧ s'.hmasTasks Json.read (some emptyRepository)
            = rejectedOnce.hmasTasks Json.read (some emptyRepository))
      rejectedOnce
  := by
  refine ⟨⟨_, rfl⟩, (submit_unchanged_iff _ _ _ _ _ ?_ strokes_supply).mpr (Or.inr rfl)⟩
  rintro _ ⟨⟩
  exact ⟨fun _ _ _ _ => ⟨_, rfl⟩, fun _ _ _ => rfl, fun _ => rfl⟩

end Agamemnon
