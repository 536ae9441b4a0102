import Agamemnon.Store.Client

/-!
# Operations that throw

An operation that creates or removes an entity asks the client first and changes the store
afterwards.  An operation that changes an entity does it the other way round, and a change
stays in memory when writing the issue throws.  The first operation on a collection loads it, and
what was loaded stays as well.  `failed_write_iff` says exactly when an operation that throws has
changed a collection.
-/

namespace Agamemnon

open Attempt Operation LiveStore

/-! ### Ways to fail -/

namespace StoreOp

/-- The collection that the operation works on. -/
def shelf : StoreOp → Shelf
  | createAgent _ | updateAgent _ _ | startAgent _ | stopAgent _ | deleteAgent _ =>
      .entities .agents
  | createTeam _ | updateTeam _ _ | deleteTeam _ => .entities .teams
  | createTask _ _ | updateTask _ _ _ | markTaskCompleted _ => .entities .tasks
  | createFault _ | removeFault _ => .entities .faults
  | createHmasTask _ | updateHmasTask _ | updateHmasTaskState _ _
  | updateHmasTaskStateAndRecordEscalation _ _ _ => .hmasTasks
  | createTaskBrief _ => .briefs

/-- The operation returns before it uses the store. -/
def Refuses : StoreOp → Prop
  | updateAgent _ fields => fields.isObject = false
  | updateTask teamId _ body => body.isObject = false ∨ teamId = ""
  | _ => False

end StoreOp

variable {parse : String → Option Json} {gh : Option Client} {metrics : Bool} {env : StoreEnv}
  {s : LiveStore} {c : Collection} {id : String}

/-- What an operation writes before it writes an issue. -/
inductive Write where
  | entity (c : Collection) (id : String) (entity : Json)
  | task (id : String) (t : HmasTask)
  | renewal (t : HmasTask)

namespace Write

/-- The key under which it is written. -/
def key : Write → String
  | entity _ id _ => id
  | task id _ => id
  | renewal t => t.id

/-- The store with what is written. -/
def apply (s : LiveStore) : Write → LiveStore
  | entity c id e => s.put c id e
  | task id t => s.putHmasTask id t
  | renewal t => { s with memory := (s.memory.updateHmasTask t).2 }

/-- The store has what is written. -/
def Stored (s : LiveStore) : Write → Prop
  | entity c id e => s.stored c id = some e
  | task id t => s.memory.hmasTasks.lookup id = some t
  | renewal t => s.memory.hmasTasks.lookup t.id = some t

end Write

/-- An operation on a collection that is loaded returns, or throws before or after it has written
something. -/
inductive Verdict where
  | returns
  | before
  | after (w : Write)

namespace Verdict

/-- A step that may throw, and what follows. -/
def call {α : Type} (r : Except Failure α) (rest : α → Verdict) : Verdict :=
  match r with
  | .error _ => before
  | .ok a => rest a

/-- Something is written, and the step after that may throw. -/
def writing (w : Write) (r : Except Failure Unit) : Verdict :=
  match r with
  | .error _ => after w
  | .ok _ => returns

variable (gh env s)

/-- The new entity, and its issue. -/
def creation (c : Collection) (new : Except Exn (String × Json)) : Verdict :=
  call (reading new) fun r => call (makeIssue gh r.1 (c.entityType env.uuid) r.2 c.label) fun _ =>
    returns

/-- A stored entity is changed, and its issue is written. -/
def change (c : Collection) (id : String) (f : Json → Json) : Verdict :=
  match s.stored c id with
  | none => returns
  | some entity => writing (.entity c id (f entity)) (rewriteIssue gh c id (f entity))

/-- The issue of a stored entity is closed. -/
def removal (c : Collection) (id : String) : Verdict :=
  match s.stored c id with
  | none => returns
  | some entity => call (closeIssueOf gh entity) fun _ => returns

/-- A stored task is changed, and its issue is written. -/
def taskChange (id : String) (w : HmasTask → Write) (f : HmasTask → HmasTask) : Verdict :=
  match s.memory.hmasTasks.lookup id with
  | none => returns
  | some t => writing (w (f t)) (rewriteHmasTaskIssue gh s.hmasTaskIssueNumbers id (f t))

end Verdict

/-- How an operation that does not refuse its argument ends. -/
def StoreOp.verdict (gh : Option Client) (metrics : Bool) (env : StoreEnv) (s : LiveStore) :
    StoreOp → Verdict
  | createAgent body => .creation gh env .agents (newAgent env body)
  | createTeam body => .creation gh env .teams (newTeam env body)
  | createTask teamId body => .creation gh env .tasks (newTask env teamId body)
  | createFault type => .creation gh env .faults (.ok (newFault env type))
  | updateAgent id fields => .change gh s .agents id (changedAgent env fields)
  | startAgent id => .change gh s .agents id (·.set "status" (.string "online"))
  | stopAgent id => .change gh s .agents id (·.set "status" (.string "offline"))
  | updateTeam id body => .change gh s .teams id (changedTeam env body)
  | deleteAgent id => .removal gh s .agents id
  | deleteTeam id => .removal gh s .teams id
  | removeFault id => .removal gh s .faults id
  | updateTask teamId taskId body =>
      match s.stored .tasks taskId with
      | none => .returns
      | some task => .call (reading (task.valueString "teamId" "")) fun owner =>
          if owner ≠ teamId then .returns
          else .writing (.entity .tasks taskId (changedTask env body task)) do
            rewriteIssue gh .tasks taskId (changedTask env body task)
            recordStatus metrics body
  | markTaskCompleted taskId =>
      match s.stored .tasks taskId with
      | none => .returns
      | some task => .call (reading (task.valueString "status" "pending")) fun _ =>
          .writing (.entity .tasks taskId (completedTask env task))
            (rewriteIssue gh .tasks taskId (completedTask env task))
  | createHmasTask t => .call (makeIssue gh ("hmas-task: " ++ t.id) ("hmas-tasks/" ++ t.id)
      (hmasTaskToJson t) "agamemnon-hmas-task") fun _ => .returns
  | updateHmasTask t => .taskChange gh s t.id .renewal fun _ => t
  | updateHmasTaskState id state => .taskChange gh s id (.task id) fun t => { t with state }
  | updateHmasTaskStateAndRecordEscalation id newState escalation =>
      .taskChange gh s id (.task id) fun t =>
        { t with state := newState, escalations := t.escalations ++ [escalation] }
  | createTaskBrief b => .call (makeIssue gh ("brief: " ++ Deployment.truncatedTitle b.title)
      ("briefs/" ++ b.id) (taskBriefToJson b) "agamemnon-brief") fun _ => .returns

/-! ### What a failure leaves -/

variable {P : LiveStore → Prop}

/-- `P` holds of what is left if the operation throws. -/
def Verdict.Leaves (P : LiveStore → Prop) (s : LiveStore) : Verdict → Prop
  | returns => True
  | before => P s
  | after w => P (w.apply s)

theorem reading_eq_ok {α : Type} {r : Except Exn α} {a : α} :
  reading r = .ok a ↔ r = .ok a
  := by
  cases r with
  | error x | ok a => simp [reading, Except.mapError]

/-- A client call, and what the operation does with its answer. -/
theorem failsTo_call {α : Type} {r : Except Failure α} {f : α → Operation Unit}
    {rest : α → Verdict} (h : ∀ a, FailsTo P (f a) s ↔ (rest a).Leaves P s) :
  FailsTo P (.lift r >>= f) s ↔ (Verdict.call r rest).Leaves P s
  := by
  rw [failsTo_lift_bind]
  cases r with
  | error e => simp [Verdict.call, Verdict.Leaves]
  | ok a => simp [Verdict.call, h]

/-- A write that is followed by a client call. -/
theorem failsTo_writing (w : Write) (r : Except Failure Unit) :
  FailsTo P (.lift r) (w.apply s) ↔ (Verdict.writing w r).Leaves P s
  := by
  rw [failsTo_lift]
  cases r <;> simp [Verdict.writing, Verdict.Leaves]

theorem failsTo_modify_iff {f : LiveStore → LiveStore} :
  FailsTo P (modify f : Operation Unit) s ↔ Verdict.returns.Leaves P s
  := iff_of_true (failsTo_modify f) trivial

/-- An operation that loads a collection first throws there or afterwards. -/
theorem failsTo_load_bind {shelf : Shelf} {f : Unit → Operation Unit} {v : LiveStore → Verdict}
    (h : ∀ s', FailsTo P (f ()) s' ↔ (v s').Leaves P s') :
  FailsTo P (load parse gh shelf >>= f) s
    ↔ FailsTo P (load parse gh shelf) s
      ∧ ∀ s', exec (load parse gh shelf) s = (.ok (), s') → (v s').Leaves P s'
  := by
  rw [failsTo_bind]
  apply and_congr_right'
  constructor
  · exact fun hrest s' hload => (h s').mp (hrest () s' hload)
  · exact fun hrest _ s' hload => (h s').mpr (hrest s' hload)

/-- An operation throws when it loads its collection, or as its verdict says. -/
theorem failsTo_perform {op : StoreOp} (hop : ¬ op.Refuses) :
  FailsTo P (perform parse gh metrics env op) s
    ↔ FailsTo P (load parse gh op.shelf) s
      ∧ ∀ s', exec (load parse gh op.shelf) s = (.ok (), s') →
        (op.verdict gh metrics env s').Leaves P s'
  := by
  have hcreate {c new} : FailsTo P (createEntity parse gh env c new) s
      ↔ FailsTo P (load parse gh (.entities c)) s
        ∧ ∀ s', exec (load parse gh (.entities c)) s = (.ok (), s') →
          (Verdict.creation gh env c new).Leaves P s' := by
    apply failsTo_load_bind
    intro s'
    apply failsTo_call
    intro r
    apply failsTo_call
    intro number
    apply failsTo_modify_iff
  have hchange {c id f} : FailsTo P (updateEntity parse gh c id f) s
      ↔ FailsTo P (load parse gh (.entities c)) s
        ∧ ∀ s', exec (load parse gh (.entities c)) s = (.ok (), s') →
          (Verdict.change gh s' c id f).Leaves P s' := by
    apply failsTo_load_bind
    intro s'
    rw [failsTo_get_bind, Verdict.change]
    cases s'.stored c id with
    | none => exact iff_of_true (failsTo_pure _) trivial
    | some entity => exact failsTo_modify_bind.trans (failsTo_writing (.entity c id (f entity)) _)
  have hremove {c id} : FailsTo P (removeEntity parse gh c id) s
      ↔ FailsTo P (load parse gh (.entities c)) s
        ∧ ∀ s', exec (load parse gh (.entities c)) s = (.ok (), s') →
          (Verdict.removal gh s' c id).Leaves P s' := by
    apply failsTo_load_bind
    intro s'
    rw [failsTo_get_bind, Verdict.removal]
    cases s'.stored c id with
    | none => exact iff_of_true (failsTo_pure _) trivial
    | some entity => exact failsTo_call fun _ => failsTo_modify_iff
  have hrewrite {id f} : FailsTo P (rewriteHmasTask parse gh id f) s
      ↔ FailsTo P (load parse gh .hmasTasks) s
        ∧ ∀ s', exec (load parse gh .hmasTasks) s = (.ok (), s') →
          (Verdict.taskChange gh s' id (.task id) f).Leaves P s' := by
    apply failsTo_load_bind
    intro s'
    rw [failsTo_get_bind, Verdict.taskChange]
    cases s'.memory.hmasTasks.lookup id with
    | none => exact iff_of_true (failsTo_pure _) trivial
    | some t =>
      exact (failsTo_modify_bind.trans failsTo_get_bind).trans (failsTo_writing (.task id (f t)) _)
  cases op with
  | createAgent _ | createTeam _ | createTask _ _ | createFault _ => exact hcreate
  | updateAgent id fields =>
    rw [StoreOp.Refuses] at hop
    rw [perform, if_neg hop]
    exact hchange
  | startAgent _ | stopAgent _ | updateTeam _ _ => exact hchange
  | deleteAgent _ | deleteTeam _ | removeFault _ => exact hremove
  | updateTask teamId taskId body =>
    rw [StoreOp.Refuses] at hop
    rw [perform, updateTask, if_neg hop]
    apply failsTo_load_bind
    intro s'
    rw [failsTo_get_bind, StoreOp.verdict]
    cases s'.stored .tasks taskId with
    | none => exact iff_of_true (failsTo_pure _) trivial
    | some task =>
      apply failsTo_call
      intro owner
      split
      · exact iff_of_true (failsTo_pure _) trivial
      · apply Iff.trans _
          (failsTo_writing (.entity .tasks taskId (changedTask env body task)) _)
        rw [failsTo_modify_bind, failsTo_lift_bind, Write.apply]
        cases rewriteIssue gh .tasks taskId (changedTask env body task) with
        | error e => simp [failsTo_lift, bind, Except.bind]
        | ok u => simp [bind, Except.bind]
  | markTaskCompleted taskId =>
    rw [perform, markTaskCompleted]
    apply failsTo_load_bind
    intro s'
    rw [failsTo_get_bind, StoreOp.verdict]
    cases s'.stored .tasks taskId with
    | none => exact iff_of_true (failsTo_pure _) trivial
    | some task =>
      apply failsTo_call
      intro status
      exact failsTo_modify_bind.trans
        (failsTo_writing (.entity .tasks taskId (completedTask env task)) _)
  | createHmasTask t =>
    apply failsTo_load_bind
    intro s'
    exact failsTo_call fun _ => failsTo_modify_iff
  | updateHmasTask t =>
    apply failsTo_load_bind
    intro s'
    rw [failsTo_get_bind, StoreOp.verdict, Verdict.taskChange]
    cases s'.memory.hmasTasks.lookup t.id with
    | none => exact iff_of_true (failsTo_pure _) trivial
    | some old =>
      exact (failsTo_modify_bind.trans failsTo_get_bind).trans (failsTo_writing (.renewal t) _)
  | updateHmasTaskState _ _ | updateHmasTaskStateAndRecordEscalation _ _ _ => exact hrewrite
  | createTaskBrief b =>
    apply failsTo_load_bind
    intro s'
    exact failsTo_call fun _ => failsTo_modify_iff

/-! ### What a load leaves -/

/-- The label of the issues of a collection. -/
def Shelf.label : Shelf → String
  | entities c => c.label
  | hmasTasks => "agamemnon-hmas-task"
  | briefs => "agamemnon-brief"

section Loads

variable (parse gh)

/-- The entities that the loop over some issues stores, up to an issue that cannot be read. -/
def listedEntities : List Json → List (String × Json)
  | [] => []
  | issue :: issues =>
      match readEntity parse issue with
      | .error _ => []
      | .ok none => listedEntities issues
      | .ok (some r) => r :: listedEntities issues

namespace LiveStore

/-- The issues that a load reads. -/
def pending (s : LiveStore) (shelf : Shelf) : List Json :=
  if s.loaded shelf = true then [] else (gh.bind (·.listIssues shelf.label)).getD []

/-- The store with the records of the issues that are read. -/
def found (s : LiveStore) : Shelf → LiveStore
  | .entities c =>
      { s.markLoaded (.entities c) with
        memory := s.memory.setEntities c
          (replay (listedEntities parse (s.pending gh (.entities c))) (s.memory.entities c)) }
  | .hmasTasks =>
      let read := hydrateHmasTasks parse (s.pending gh .hmasTasks) s.memory s.hmasTaskIssueNumbers
      { s.markLoaded .hmasTasks with memory := read.1, hmasTaskIssueNumbers := read.2 }
  | .briefs =>
      let read := hydrateBriefs parse (s.pending gh .briefs) s.memory s.briefIssueNumbers
      { s.markLoaded .briefs with memory := read.1, briefIssueNumbers := read.2 }

/-- An issue that is read has an entity that cannot be read. -/
def Broken (s : LiveStore) : Shelf → Prop
  | .entities c => ∃ issue ∈ s.pending gh (.entities c), ∃ x, readEntity parse issue = .error x
  | _ => False

/-- The records of the issues that are read are stored already, but for one key. -/
def Knows (s : LiveStore) (but : Option String) : Shelf → Prop
  | .entities c =>
      ∀ id entity, (listedEntities parse (s.pending gh (.entities c))).reverse.lookup id
        = some entity → but ≠ some id → s.stored c id = some entity
  | .hmasTasks =>
      ∀ issue ∈ s.pending gh .hmasTasks, readRecord parse hmasTaskFromJson issue = none
  | .briefs => ∀ issue ∈ s.pending gh .briefs, readRecord parse taskBriefFromJson issue = none

/-- Tasks and briefs that have not been loaded are not there. -/
structure Proper (s : LiveStore) : Prop where
  hmasTasks : s.loaded .hmasTasks = false → s.memory.hmasTasks = ∅
  briefs : s.loaded .briefs = false → s.memory.taskBriefs = ∅

end LiveStore

end Loads

/-- A load stores the entities up to an issue that it cannot read, and throws if there is one. -/
theorem loadEntities_eq (issues : List Json) (es : StringMap Json) :
  (loadEntities parse issues es).2 = replay (listedEntities parse issues) es
    ∧ ((∃ x, (loadEntities parse issues es).1 = .error x)
      ↔ ∃ issue ∈ issues, ∃ x, readEntity parse issue = .error x)
  := by
  fun_induction loadEntities parse issues es with
  | case1 es => simp [listedEntities, replay]
  | case2 es issue issues exn hread => simp [listedEntities, replay, hread]
  | case3 es issue issues hread ih =>
    rw [listedEntities, hread]
    simpa [hread] using ih
  | case4 es issue issues id entity hread ih =>
    rw [listedEntities, hread]
    exact ⟨ih.1, by simpa [hread] using ih.2⟩

/-- A load runs the loop over the issues that it reads. -/
theorem ensureLoaded_pending (s : LiveStore) (c : Collection) :
  ensureLoaded parse c (gh.map (·.listIssues)) ⟨s.loaded (.entities c), s.memory.entities c⟩
    = ((loadEntities parse (s.pending gh (.entities c)) (s.memory.entities c)).1,
        ⟨(loadEntities parse (s.pending gh (.entities c)) (s.memory.entities c)).1.isOk,
          (loadEntities parse (s.pending gh (.entities c)) (s.memory.entities c)).2⟩)
  := by
  unfold ensureLoaded
  rw [pending]
  cases hloaded : s.loaded (.entities c) with
  | true => rfl
  | false =>
    cases gh with
    | none => rfl
    | some client =>
      cases hlist : client.listIssues c.label with
      | none => simp [hlist, Shelf.label, loadEntities, Except.isOk, Except.toBool]
      | some issues =>
        simp only [Option.map_some, hlist, Shelf.label, Option.bind_some, Option.getD_some,
          Bool.false_eq_true, ↓reduceIte]
        rcases loadEntities parse issues (s.memory.entities c) with ⟨r, es⟩
        cases r <;> rfl

/-- A shelf is marked only once. -/
theorem markLoaded_of_loaded {shelf : Shelf} (h : s.loaded shelf = true) :
  s.markLoaded shelf = s
  := by
  rw [markLoaded, ← h, Function.update_eq_self]

/-- A load throws or not, and leaves the records of the issues that it reads. -/
theorem exec_load (s : LiveStore) (shelf : Shelf) :
  (s.Broken parse gh shelf ∧ ∃ e s', exec (load parse gh shelf) s = (.error e, s')
      ∧ s'.collections = (s.found parse gh shelf).collections)
    ∨ (¬ s.Broken parse gh shelf ∧ exec (load parse gh shelf) s = (.ok (), s.found parse gh shelf))
  := by
  cases shelf with
  | entities c =>
    obtain ⟨hentities, hbroken⟩ :=
      @loadEntities_eq parse (s.pending gh (.entities c)) (s.memory.entities c)
    rw [load, exec_ofExec]
    simp only [ensureLoaded_pending, hentities]
    cases hresult : (loadEntities parse (s.pending gh (.entities c)) (s.memory.entities c)).1 with
    | error x => exact .inl ⟨hbroken.mp ⟨x, hresult⟩, _, _, rfl, rfl⟩
    | ok u => exact .inr ⟨fun h => by simpa [hresult] using hbroken.mpr h, rfl⟩
  | hmasTasks | briefs =>
    refine .inr ⟨not_false, ?_⟩
    rw [load, exec_ofExec, found, pending]
    split
    · rename_i hloaded
      rw [markLoaded_of_loaded hloaded]
      rfl
    · simp only [Shelf.label]
      split
      · rename_i hlist
        rw [hlist]
        rfl
      · rename_i hlist
        rw [hlist]
        rfl

/-! ### What is left as it was -/

/-- A loop in which nothing happens. -/
theorem foldl_of_forall {α β : Type} {f : β → α → β} {b : β} {xs : List α}
    (h : ∀ x ∈ xs, f b x = b) :
  xs.foldl f b = b
  := by
  induction xs with
  | nil => rfl
  | cons x xs ih =>
    obtain ⟨hx, hxs⟩ := List.forall_mem_cons.mp h
    rw [List.foldl_cons, hx, ih hxs]

/-- Issues without a readable task change nothing. -/
theorem hydrateHmasTasks_of_none {issues : List Json}
    (h : ∀ issue ∈ issues, readRecord parse hmasTaskFromJson issue = none) (m : Memory)
    (numbers : StringMap String) :
  hydrateHmasTasks parse issues m numbers = (m, numbers)
  := by
  apply foldl_of_forall
  intro issue hissue
  rw [h issue hissue]

/-- Issues without a readable brief change nothing. -/
theorem hydrateBriefs_of_none {issues : List Json}
    (h : ∀ issue ∈ issues, readRecord parse taskBriefFromJson issue = none) (m : Memory)
    (numbers : StringMap String) :
  hydrateBriefs parse issues m numbers = (m, numbers)
  := by
  apply foldl_of_forall
  intro issue hissue
  rw [h issue hissue]

/-- Records that have been stored in turn are there unless there were none. -/
theorem replay_eq_empty {α : Type} {es : List (String × α)} {m : StringMap α}
    (h : replay es m = ∅) :
  es = []
  := by
  cases es using List.reverseRecOn with
  | nil => rfl
  | append_singleton es e =>
    rw [replay, List.foldl_append] at h
    have hlookup := congrArg (Finmap.lookup e.1) h
    rw [List.foldl_cons, List.foldl_nil, Finmap.lookup_insert, Finmap.lookup_empty] at hlookup
    contradiction

/-- Of the entries that are inserted in turn, the last one with a key counts. -/
theorem lookup_replay {α : Type} {id : String} :
  ∀ {es : List (String × α)} {m : StringMap α},
    (replay es m).lookup id = (es.reverse.lookup id).or (m.lookup id)
  | [], _ => rfl
  | e :: es, m => by
      rw [List.reverse_cons, List.lookup_append, Option.or_assoc]
      apply (@lookup_replay _ id es (m.insert e.1 e.2)).trans
      rw [Lists.lookup_cons]
      split
      · rename_i hid
        rw [hid, Finmap.lookup_insert, Option.some_or]
      · rename_i hid
        rw [Finmap.lookup_insert_of_ne _ hid, List.lookup_nil, Option.none_or]

/-- Entries change nothing exactly if the last one for each id is there already. -/
theorem replay_eq_iff {α : Type} {es : List (String × α)} {m : StringMap α} :
  replay es m = m ↔ ∀ id a, es.reverse.lookup id = some a → m.lookup id = some a
  := by
  constructor
  · intro h id a hes
    rw [← h, lookup_replay, hes, Option.some_or]
  · intro h
    apply Finmap.ext_lookup
    intro id
    rw [lookup_replay]
    cases hes : es.reverse.lookup id with
    | none => rfl
    | some a => rw [h id a hes, Option.some_or]

/-- Entries are inserted in turn, and one more after them. -/
theorem insert_replay_eq_iff {α : Type} {es : List (String × α)} {m : StringMap α} {id : String}
    {a : α} :
  (replay es m).insert id a = m
    ↔ (∀ id' a', es.reverse.lookup id' = some a' → id ≠ id' → m.lookup id' = some a')
      ∧ m.lookup id = some a
  := by
  constructor
  · intro h
    refine ⟨fun id' a' hes hne => ?_, by rw [← h, Finmap.lookup_insert]⟩
    rw [← h, Finmap.lookup_insert_of_ne _ (Ne.symm hne), lookup_replay, hes, Option.some_or]
  · rintro ⟨hes, hid⟩
    apply Finmap.ext_lookup
    intro id'
    by_cases hne : id' = id
    · rw [hne, Finmap.lookup_insert, hid]
    · rw [Finmap.lookup_insert_of_ne _ hne, lookup_replay]
      cases hes' : es.reverse.lookup id' with
      | none => rfl
      | some a' => rw [hes id' a' hes' (Ne.symm hne), Option.some_or]

theorem setEntities_eq_iff {es : StringMap Json} :
  s.memory.setEntities c es = s.memory ↔ es = s.memory.entities c
  := by
  constructor
  · intro h
    rw [← Memory.entities_setEntities_self s.memory c es, h]
  · rintro rfl
    apply setEntities_entities

variable {shelf : Shelf}

/-- Tasks are there only after they have been loaded. -/
theorem loaded_of_lookup (hs : s.Proper) {t : HmasTask} (h : s.memory.hmasTasks.lookup id = some t) :
  s.loaded .hmasTasks = true
  := by
  by_contra hloaded
  rw [hs.hmasTasks (Bool.eq_false_iff.mpr hloaded), Finmap.lookup_empty] at h
  contradiction

/-- A shelf that is loaded has nothing to load. -/
theorem pending_of_loaded (h : s.loaded shelf = true) :
  s.pending gh shelf = []
  := if_pos h

/-- A load leaves the collections as they were, exactly if it brings nothing that is not stored. -/
theorem collections_found_iff (hs : s.Proper) :
  (s.found parse gh shelf).collections = s.collections ↔ s.Knows parse gh none shelf
  := by
  cases shelf with
  | entities c =>
    simp only [collections, found, markLoaded, Prod.mk.injEq, and_true, setEntities_eq_iff,
      replay_eq_iff, Knows, ne_eq, reduceCtorEq, not_false_eq_true, forall_const]
    rfl
  | hmasTasks =>
    constructor
    · intro h
      cases hloaded : s.loaded .hmasTasks with
      | true => simp [Knows, pending_of_loaded hloaded]
      | false =>
        have hmemory := congrArg (·.1.hmasTasks) h
        obtain ⟨index, hindex⟩ := Memory.foldl_createHmasTask
          ((s.pending gh .hmasTasks).filterMap fun issue =>
            (readRecord parse hmasTaskFromJson issue).map (·.1)) s.memory
        simp only [collections, found, hydrateHmasTasks_fst, hindex, hs.hmasTasks hloaded] at hmemory
        have hnone := replay_eq_empty hmemory
        simpa [Knows] using hnone
    · intro h
      rw [found, hydrateHmasTasks_of_none h]
      rfl
  | briefs =>
    constructor
    · intro h
      cases hloaded : s.loaded .briefs with
      | true => simp [Knows, pending_of_loaded hloaded]
      | false =>
        have hmemory := congrArg (·.1.taskBriefs) h
        simp only [collections, found, hydrateBriefs_fst, Memory.foldl_createTaskBrief,
          hs.briefs hloaded] at hmemory
        have hnone := replay_eq_empty hmemory
        simpa [Knows] using hnone
    · intro h
      rw [found, hydrateBriefs_of_none h]
      rfl

/-- What is written is of a kind, and is in the place of something. -/
def Write.Fits (s : LiveStore) (shelf : Shelf) : Write → Prop
  | entity c _ _ => shelf = .entities c
  | task id _ => shelf = .hmasTasks ∧ (s.memory.hmasTasks.lookup id).isSome
  | renewal t => shelf = .hmasTasks ∧ (s.memory.hmasTasks.lookup t.id).isSome

/-- What an operation writes belongs to its shelf, and a task that is written is there. -/
theorem fits_of_verdict {op : StoreOp} {w : Write} (h : op.verdict gh metrics env s = .after w) :
  w.Fits s op.shelf
  := by
  have hcall {α : Type} {r : Except Failure α} {rest : α → Verdict}
      (h : Verdict.call r rest = .after w) : ∃ a, rest a = .after w := by
    cases r with
    | error e => contradiction
    | ok a => exact ⟨a, h⟩
  have hwriting {w' : Write} {r : Except Failure Unit} (h : Verdict.writing w' r = .after w) :
      w' = w := by
    cases r with
    | error e => exact Verdict.after.inj h
    | ok u => contradiction
  have htask {id w' f} (h : Verdict.taskChange gh s id w' f = .after w)
      (hfits : ∀ t, (s.memory.hmasTasks.lookup id).isSome → (w' (f t)).Fits s .hmasTasks) :
      w.Fits s .hmasTasks := by
    rw [Verdict.taskChange] at h
    split at h
    · contradiction
    · rename_i t hlookup
      rw [← hwriting h]
      exact hfits _ (by rw [hlookup, Option.isSome_some])
  cases op with
  | createAgent _ | createTeam _ | createTask _ _ | createFault _ =>
    rw [StoreOp.verdict, Verdict.creation] at h
    obtain ⟨r, h⟩ := hcall h
    obtain ⟨number, h⟩ := hcall h
    contradiction
  | updateAgent _ _ | startAgent _ | stopAgent _ | updateTeam _ _ =>
    rw [StoreOp.verdict, Verdict.change] at h
    split at h
    · contradiction
    · rw [← hwriting h]
      rfl
  | deleteAgent _ | deleteTeam _ | removeFault _ =>
    rw [StoreOp.verdict, Verdict.removal] at h
    split at h
    · contradiction
    · obtain ⟨u, h⟩ := hcall h
      contradiction
  | updateTask _ _ _ =>
    rw [StoreOp.verdict] at h
    split at h
    · contradiction
    · obtain ⟨owner, h⟩ := hcall h
      split at h
      · contradiction
      · rw [← hwriting h]
        rfl
  | markTaskCompleted _ =>
    rw [StoreOp.verdict] at h
    split at h
    · contradiction
    · obtain ⟨status, h⟩ := hcall h
      rw [← hwriting h]
      rfl
  | createHmasTask _ | createTaskBrief _ =>
    obtain ⟨number, h⟩ := hcall h
    contradiction
  | updateHmasTask _ | updateHmasTaskState _ _ | updateHmasTaskStateAndRecordEscalation _ _ _ =>
    exact htask h fun _ hsome => ⟨rfl, hsome⟩

/-- What is written after a load leaves the collections as they were, exactly if it and all that
the load brings are stored. -/
theorem collections_apply_iff (hs : s.Proper) {w : Write}
    (hw : w.Fits (s.found parse gh shelf) shelf) :
  (w.apply (s.found parse gh shelf)).collections = s.collections
    ↔ s.Knows parse gh (some w.key) shelf ∧ w.Stored s
  := by
  have hload (h : s.Knows parse gh (some w.key) .hmasTasks) :
      (s.found parse gh .hmasTasks).collections = s.collections
    := (collections_found_iff hs).mpr h
  have hknows {id t} (h : s.memory.hmasTasks.lookup id = some t) :
      s.Knows parse gh (some w.key) .hmasTasks := by
    simp [Knows, pending_of_loaded (loaded_of_lookup hs h)]
  cases w with
  | entity c id e =>
    obtain rfl := hw
    have hput : ((s.found parse gh (.entities c)).put c id e).memory
        = s.memory.setEntities c ((replay (listedEntities parse (s.pending gh (.entities c)))
          (s.memory.entities c)).insert id e) := by
      rw [found, put, Memory.entities_setEntities_self]
      cases c <;> rfl
    have hcollections : ((s.found parse gh (.entities c)).put c id e).collections = s.collections
        ↔ ((s.found parse gh (.entities c)).put c id e).memory = s.memory := by
      simp [collections, found, put, markLoaded]
    rw [Write.apply, hcollections, hput, setEntities_eq_iff, insert_replay_eq_iff]
    simp [Knows, Write.Stored, Write.key, stored]
  | task id t =>
    obtain ⟨rfl, hfound⟩ := hw
    constructor
    · intro h
      have hmemory := congrArg (·.1.hmasTasks.lookup id) h
      simp only [Write.apply, collections, putHmasTask, Finmap.lookup_insert] at hmemory
      exact ⟨hknows hmemory.symm, hmemory.symm⟩
    · rintro ⟨hk, hstored⟩
      have hmemory : (s.found parse gh .hmasTasks).memory = s.memory := congrArg (·.1) (hload hk)
      rw [← hload hk, Write.apply, collections, putHmasTask, hmemory, insert_eq_self.mpr hstored,
        ← hmemory]
      rfl
  | renewal t =>
    obtain ⟨rfl, hfound⟩ := hw
    obtain ⟨old, hold⟩ := Option.isSome_iff_exists.mp hfound
    constructor
    · intro h
      have hmemory := congrArg (·.1.hmasTasks.lookup t.id) h
      simp only [Write.apply, collections, Memory.updateHmasTask, hold, Finmap.lookup_insert]
        at hmemory
      exact ⟨hknows hmemory.symm, hmemory.symm⟩
    · rintro ⟨hk, hstored⟩
      have hmemory : (s.found parse gh .hmasTasks).memory = s.memory := congrArg (·.1) (hload hk)
      rw [← hload hk, Write.apply, collections, Memory.updateHmasTask, hmemory, hstored]
      simp only [insert_eq_self.mpr hstored, ↓reduceIte]
      rw [← hmemory]
      rfl

/-! ### Proper stores -/

namespace LiveStore

/-- A store that has just been started. -/
def fresh : LiveStore where
  memory := .empty
  hmasTaskIssueNumbers := ∅
  briefIssueNumbers := ∅
  loaded := fun _ => false

theorem proper_fresh :
  fresh.Proper
  := ⟨fun _ => rfl, fun _ => rfl⟩

/-- Entities have no part in it. -/
theorem Proper.setEntities {flag : Bool} (hs : s.Proper) (c : Collection) (es : StringMap Json) :
  Proper { s with
    memory := s.memory.setEntities c es
    loaded := Function.update s.loaded (.entities c) flag }
  := by
  cases c <;> exact ⟨hs.hmasTasks, hs.briefs⟩

theorem Proper.put (hs : s.Proper) (c : Collection) (es : StringMap Json) :
  Proper { s with memory := s.memory.setEntities c es }
  := by
  cases c <;> exact ⟨hs.hmasTasks, hs.briefs⟩

/-- Tasks that have been loaded may change. -/
theorem Proper.withTasks (hs : s.Proper) (h : s.loaded .hmasTasks = true) {m : Memory}
    {numbers : StringMap String} (hbriefs : m.taskBriefs = s.memory.taskBriefs) :
  Proper { s with memory := m, hmasTaskIssueNumbers := numbers }
  where
  hmasTasks := by simp [h]
  briefs := by
    rw [hbriefs]
    exact hs.briefs

theorem hydrateHmasTasks_taskBriefs (issues : List Json) (m : Memory)
    (numbers : StringMap String) :
  (hydrateHmasTasks parse issues m numbers).1.taskBriefs = m.taskBriefs
  := by
  obtain ⟨index, hindex⟩ := Memory.foldl_createHmasTask (issues.filterMap fun issue =>
    (readRecord parse hmasTaskFromJson issue).map (·.1)) m
  rw [hydrateHmasTasks_fst, hindex]

/-- A load keeps the store proper, and marks the shelf if it returns. -/
theorem Proper.load (hs : s.Proper) (parse : String → Option Json) (gh : Option Client)
    (shelf : Shelf) :
  Ends (fun r s' => s'.Proper ∧ (r = .ok () → s'.loaded shelf = true)) (load parse gh shelf) s
  := by
  rw [Ends]
  cases shelf with
  | entities c =>
    rw [Operation.load, exec_ofExec]
    simp only [ensureLoaded_pending, Function.update_self]
    refine ⟨hs.setEntities c _, fun hok => ?_⟩
    rw [reading_eq_ok.mp hok]
    rfl
  | hmasTasks =>
    rw [((@exec_load parse gh s .hmasTasks).resolve_left fun h => h.1).2]
    have hloaded : (s.found parse gh .hmasTasks).loaded .hmasTasks = true := rfl
    refine ⟨⟨fun h => absurd (hloaded.symm.trans h) (by decide), ?_⟩, fun _ => hloaded⟩
    simp only [found, hydrateHmasTasks_taskBriefs]
    exact hs.briefs
  | briefs =>
    rw [((@exec_load parse gh s .briefs).resolve_left fun h => h.1).2]
    have hloaded : (s.found parse gh .briefs).loaded .briefs = true := rfl
    refine ⟨⟨?_, fun h => absurd (hloaded.symm.trans h) (by decide)⟩, fun _ => hloaded⟩
    simp only [found, hydrateBriefs_fst, Memory.foldl_createTaskBrief]
    exact hs.hmasTasks

/-- What an operation leaves that has loaded its collection. -/
theorem Proper.load_bind {α : Type} {f : Unit → Operation α} {shelf : Shelf} (hs : s.Proper)
    (h : ∀ {s'}, s'.Proper → s'.loaded shelf = true → Ends (fun _ s' => s'.Proper) (f ()) s') :
  Ends (fun _ s' => s'.Proper) (Operation.load parse gh shelf >>= f) s
  := by
  rw [ends_bind]
  have hload := hs.load parse gh shelf
  exact ⟨fun _ _ => hload.1, fun _ hok => h hload.1 (hload.2 hok)⟩

/-- An operation keeps a store proper, whether it throws or not. -/
theorem Proper.perform (hs : s.Proper) (op : StoreOp) :
  Ends (fun _ s' => s'.Proper) (Operation.perform parse gh metrics env op) s
  := by
  cases op with
  | createAgent _ | createTeam _ | createTask _ _ | createFault _ =>
    apply hs.load_bind
    intro s' hs' _
    simp only [ends_lift_bind]
    exact ⟨fun _ _ => hs', fun _ _ => ⟨fun _ _ => hs', fun _ _ => hs'.put _ _⟩⟩
  | updateAgent _ _ =>
    rw [Operation.perform]
    split
    · exact hs
    · apply hs.load_bind
      intro s' hs' _
      rw [ends_get_bind]
      split
      · exact hs'
      · exact hs'.put _ _
  | startAgent _ | stopAgent _ | updateTeam _ _ =>
    apply hs.load_bind
    intro s' hs' _
    rw [ends_get_bind]
    split
    · exact hs'
    · exact hs'.put _ _
  | deleteAgent _ | deleteTeam _ | removeFault _ =>
    apply hs.load_bind
    intro s' hs' _
    rw [ends_get_bind]
    split
    · exact hs'
    · rw [ends_lift_bind]
      exact ⟨fun _ _ => hs', fun _ _ => hs'.put _ _⟩
  | updateTask _ _ _ =>
    rw [Operation.perform, updateTask]
    split
    · exact hs
    · apply hs.load_bind
      intro s' hs' _
      rw [ends_get_bind]
      split
      · exact hs'
      · rw [ends_lift_bind]
        refine ⟨fun _ _ => hs', fun _ _ => ?_⟩
        split
        · exact hs'
        · rw [ends_modify_bind, ends_lift_bind]
          exact ⟨fun _ _ => hs'.put _ _, fun _ _ => hs'.put _ _⟩
  | markTaskCompleted _ =>
    apply hs.load_bind
    intro s' hs' _
    rw [ends_get_bind]
    split
    · exact hs'
    · rw [ends_lift_bind]
      exact ⟨fun _ _ => hs', fun _ _ => hs'.put _ _⟩
  | createHmasTask _ =>
    apply hs.load_bind
    intro s' hs' hloaded
    rw [ends_lift_bind]
    exact ⟨fun _ _ => hs', fun _ _ => hs'.withTasks hloaded rfl⟩
  | updateHmasTask t =>
    apply hs.load_bind
    intro s' hs' hloaded
    rw [ends_get_bind]
    split
    · exact hs'
    · rename_i old hold
      apply hs'.withTasks hloaded
      rw [Memory.updateHmasTask, hold]
  | updateHmasTaskState _ _ | updateHmasTaskStateAndRecordEscalation _ _ _ =>
    apply hs.load_bind
    intro s' hs' hloaded
    rw [ends_get_bind]
    split
    · exact hs'
    · exact hs'.withTasks hloaded rfl
  | createTaskBrief _ =>
    apply hs.load_bind
    intro s' hs' hloaded
    rw [ends_lift_bind]
    refine ⟨fun _ _ => hs', fun _ _ => ⟨hs'.hmasTasks, fun h => ?_⟩⟩
    exact absurd (hloaded.symm.trans h) (by decide)

end LiveStore

/-! ### When nothing has changed -/

/-- An operation that throws leaves the collections as they were: it refuses its argument; or a
load that throws has brought nothing that is not stored; or the load does not throw, and when the
operation does, the load has brought nothing that is not stored and nothing else has been
written. -/
def StoreOp.Harmless (parse : String → Option Json) (gh : Option Client) (metrics : Bool)
    (env : StoreEnv) (s : LiveStore) (op : StoreOp) : Prop :=
  op.Refuses ∨ s.Broken parse gh op.shelf ∧ s.Knows parse gh none op.shelf
    ∨ ¬ s.Broken parse gh op.shelf ∧
      match op.verdict gh metrics env (s.found parse gh op.shelf) with
      | .returns => True
      | .before => s.Knows parse gh none op.shelf
      | .after w => s.Knows parse gh (some w.key) op.shelf ∧ w.Stored s

/-- An operation that refuses its argument returns at once. -/
theorem perform_of_refuses {op : StoreOp} (h : op.Refuses) :
  perform parse gh metrics env op = pure ()
  := by
  cases op with
  | updateAgent _ _ => exact if_pos h
  | updateTask _ _ _ => exact if_pos h
  | _ => cases h

/-- The collections are as they were when an operation throws, whatever the client answers,
exactly if the operation is harmless. -/
theorem failed_write_iff (parse : String → Option Json) (gh : Option Client) (metrics : Bool)
    (env : StoreEnv) (op : StoreOp) (hs : s.Proper) :
  (∀ e s', exec (perform parse gh metrics env op) s = (.error e, s') →
      s'.collections = s.collections)
    ↔ op.Harmless parse gh metrics env s
  := by
  by_cases hop : op.Refuses
  · apply iff_of_true _ (.inl hop)
    intro e s' hthrows
    rw [perform_of_refuses hop, exec_pure] at hthrows
    cases hthrows
  rw [StoreOp.Harmless, or_iff_right hop]
  apply (failsTo_perform (P := fun s' => s'.collections = s.collections) hop).trans
  rcases @exec_load parse gh s op.shelf with ⟨hbroken, e, s', hload, hs'⟩ | ⟨hbroken, hload⟩
  · simp [FailsTo, hload, hbroken, hs', collections_found_iff hs]
  · simp only [FailsTo, hload, Prod.mk.injEq, reduceCtorEq, false_and, false_imp_iff, implies_true,
      true_and, forall_eq', hbroken, false_or, not_false_eq_true]
    cases hverdict : op.verdict gh metrics env (s.found parse gh op.shelf) with
    | returns => rfl
    | before => exact collections_found_iff hs
    | after w => exact collections_apply_iff hs (fits_of_verdict hverdict)

/-! ### A change that stays -/

/-- A client that lists nothing, and throws when it makes or writes an issue. -/
def Client.readOnly (env : StoreEnv) : Client :=
  { Client.answering env with
    createIssue := fun _ _ _ _ => .error (.client "curl POST failed")
    updateIssueBody := fun _ _ _ => .error (.client "curl PATCH failed") }

/-- What the first operation on a new store takes from outside. -/
def firstEnv : StoreEnv where
  uuid := "a"
  number := 7
  now := fun _ => ⟨2026, 4, 1, 0, 0, 0⟩

/-- The store after an agent was created. -/
def oneAgentStore : LiveStore :=
  (exec (perform (fun _ => none) (some (.answering firstEnv)) false firstEnv
    (.createAgent (.ofMembers [("name", .string "x")]))) .fresh).2

theorem proper_oneAgentStore :
  oneAgentStore.Proper
  := proper_fresh.perform _

/-- Another agent is created and the client throws.  The collections are as they were. -/
theorem failed_write_iff_secondAgent :
  let create := perform (fun _ => none) (some (.readOnly firstEnv)) false firstEnv
    (.createAgent (.ofMembers [("name", .string "y")]))
  (∃ e s', exec create oneAgentStore = (.error e, s'))
    ∧ ∀ e s', exec create oneAgentStore = (.error e, s') →
      s'.collections = oneAgentStore.collections
  := by
  refine ⟨⟨_, _, rfl⟩, (failed_write_iff _ _ _ _ _ proper_oneAgentStore).mpr (.inr (.inr ?_))⟩
  have hpending : oneAgentStore.pending (some (.readOnly firstEnv)) (.entities .agents) = []
    := pending_of_loaded rfl
  refine ⟨?_, fun id entity h => ?_⟩
  · rintro ⟨issue, hissue, -⟩
    rw [hpending] at hissue
    cases hissue
  · rw [hpending] at h
    cases h

/-- The agent is started and the client throws.  The operation throws, and the agent is
online. -/
theorem start_staysOnline :
  ∃ s', exec (perform (fun _ => none) (some (.readOnly firstEnv)) false firstEnv
      (.startAgent "a")) oneAgentStore = (.error (.client "curl PATCH failed"), s')
    ∧ s'.collections ≠ oneAgentStore.collections
  := by
  refine ⟨_, rfl, ?_⟩
  intro h
  have hstatus := congrArg (fun cs => ((cs.1.agents.lookup "a").bind fun agent =>
    (agent.valueString "status" "").toOption)) h
  revert hstatus
  decide +kernel

end Agamemnon
