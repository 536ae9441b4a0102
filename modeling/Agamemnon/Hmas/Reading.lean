import Agamemnon.Hmas.Types
import Agamemnon.Json.Text
import Agamemnon.Lib.Mirror

/-!
# Reading tasks and briefs

The records as they are read from JSON.  A task that is written and read again is the same
task; so is a brief that was itself read from JSON, since reading leaves out the modules
without tasks and the repositories without modules.
-/

namespace Agamemnon

open StringMap Json.Proper

/-! ### Readers -/

/-- `hmas_layer_from_string`. -/
def hmasLayerFromString (s : String) : Except Exn HmasLayer :=
  if s = "L0_ChiefArchitect" then .ok .l0ChiefArchitect
  else if s = "L1_ComponentLead" then .ok .l1ComponentLead
  else if s = "L2_ModuleLead" then .ok .l2ModuleLead
  else if s = "L3_TaskAgent" then .ok .l3TaskAgent
  else .error (.invalidArgument ("Unknown HmasLayer: " ++ s))

/-- `task_state_from_string`. -/
def taskStateFromString (s : String) : Except Exn TaskState :=
  if s = "Pending" then .ok .pending
  else if s = "Decomposing" then .ok .decomposing
  else if s = "Delegated" then .ok .delegated
  else if s = "InProgress" then .ok .inProgress
  else if s = "Escalated" then .ok .escalated
  else if s = "Completed" then .ok .completed
  else if s = "Failed" then .ok .failed
  else .error (.invalidArgument ("Unknown TaskState: " ++ s))

/-- The strings of the array `j[k]`, if there is one. -/
def stringsAt (j : Json) (k : String) : Except Exn (List String) :=
  match j.get? k with
  | some (.array es) => es.mapM Json.getString
  | _ => .ok []

/-- An entry of the escalations of a task. -/
def escalationRecordFromJson (e : Json) : Except Exn EscalationRecord := do
  let taskId ← e.valueString "task_id" ""
  let reason ← e.valueString "reason" ""
  let escalatedAt ← e.valueString "escalated_at" ""
  let fromLayer ← hmasLayerFromString (← e.valueString "from_layer" "L0_ChiefArchitect")
  return { taskId, reason, escalatedAt, fromLayer }

/-- The escalations of a task, if they are listed. -/
def escalationsAt (j : Json) : Except Exn (List EscalationRecord) :=
  match j.get? "escalations" with
  | some (.array es) => es.mapM escalationRecordFromJson
  | _ => .ok []

/-- `hmas_task_from_json`. -/
def hmasTaskFromJson (j : Json) : Except Exn HmasTask := do
  let id ← j.valueString "id" ""
  let briefId ← j.valueString "brief_id" ""
  let parentTaskId ← j.valueString "parent_task_id" ""
  let layer ← hmasLayerFromString (← j.valueString "layer" "L0_ChiefArchitect")
  let state ← taskStateFromString (← j.valueString "state" "Pending")
  let subject ← j.valueString "subject" ""
  let description ← j.valueString "description" ""
  let repo ← j.valueString "repo" ""
  let module ← j.valueString "module" ""
  let issue ← j.valueInt "issue" 0
  let assignedLeadId ← j.valueString "assigned_lead_id" ""
  let createdAt ← j.valueString "created_at" ""
  let completedAt ← j.valueString "completed_at" ""
  let blockedBy ← stringsAt j "blocked_by"
  let childTaskIds ← stringsAt j "child_task_ids"
  let escalations ← escalationsAt j
  return {
    id, briefId, parentTaskId, layer, state, subject, description, repo, module, issue,
    assignedLeadId, blockedBy, childTaskIds, escalations, createdAt, completedAt }

/-- `m[k].push_back(s)`. -/
def StringMap.push (m : StringMap (List String)) (k s : String) : StringMap (List String) :=
  m.insert k ((m.lookup k).getD [] ++ [s])

/-- The modules of one repository. -/
def readModules (modules : StringMap (List String)) (member : String × Json) :
    Except Exn (StringMap (List String)) :=
  match member.2 with
  | .array es =>
      es.foldlM (fun modules e => do return modules.push member.1 (← e.getString)) modules
  | _ => .ok modules

/-- The tasks of one module of the repository `repo`. -/
def readTasks (repo : String) (impls : StringMap (StringMap (List String)))
    (member : String × Json) : Except Exn (StringMap (StringMap (List String))) :=
  match member.2 with
  | .array es => es.foldlM (fun impls e => do
      let task ← e.getString
      return impls.insert repo (((impls.lookup repo).getD ∅).push member.1 task)) impls
  | _ => .ok impls

/-- The tasks of one repository. -/
def readImpls (impls : StringMap (StringMap (List String))) (member : String × Json) :
    Except Exn (StringMap (StringMap (List String))) :=
  match member.2 with
  | .object ms => ms.foldlM (readTasks member.1) impls
  | _ => .ok impls

/-- The modules of the repositories, if they are listed. -/
def modulesAt (j : Json) : Except Exn (StringMap (List String)) :=
  match j.get? "modules" with
  | some (.object ms) => ms.foldlM readModules ∅
  | _ => .ok ∅

/-- The tasks of the modules, if they are listed. -/
def implsAt (j : Json) : Except Exn (StringMap (StringMap (List String))) :=
  match j.get? "impls" with
  | some (.object ms) => ms.foldlM readImpls ∅
  | _ => .ok ∅

/-- `task_brief_from_json`. -/
def taskBriefFromJson (j : Json) : Except Exn TaskBrief := do
  let id ← j.valueString "id" ""
  let title ← j.valueString "title" ""
  let description ← j.valueString "description" ""
  let repos ← stringsAt j "repos"
  let modules ← modulesAt j
  let impls ← implsAt j
  return { id, title, description, repos, modules, impls }

/-! ### Tasks -/

@[simp]
theorem hmasLayerFromString_toString (layer : HmasLayer) :
  hmasLayerFromString (hmasLayerToString layer) = .ok layer
  := by
  cases layer <;> rfl

@[simp]
theorem taskStateFromString_toString (state : TaskState) :
  taskStateFromString (taskStateToString state) = .ok state
  := by
  cases state <;> rfl

/-- A list that is written element by element is read back. -/
theorem mapM_map_eq_ok {α β : Type} {write : α → β} {read : β → Except Exn α}
    (h : ∀ a, read (write a) = .ok a) :
  ∀ as : List α, (as.map write).mapM read = .ok as
  | [] => rfl
  | a :: as => by
      rw [List.map_cons, List.mapM_cons, h a, mapM_map_eq_ok h as]
      rfl

variable {j : Json}

theorem stringsAt_eq_ok {k : String} {ss : List String} (h : j.get? k = some (.ofStrings ss)) :
  stringsAt j k = .ok ss
  := by
  rw [stringsAt, h]
  apply mapM_map_eq_ok
  exact fun _ => rfl

open Json in
theorem escalationRecordFromJson_toJson (r : EscalationRecord) :
  escalationRecordFromJson (escalationRecordToJson r) = .ok r
  := by
  have hget : ∀ k, (escalationRecordToJson r).get? k = _ := get?_ofMembers (by simp)
  rw [escalationRecordFromJson, valueString_of_get? (hget "task_id"),
    valueString_of_get? (hget "reason"), valueString_of_get? (hget "escalated_at"),
    valueString_of_get? (hget "from_layer")]
  simp only [bind, Except.bind, hmasLayerFromString_toString]
  rfl

/-- The issue of a task is an `int`. -/
def HmasTask.IssueFits (t : HmasTask) : Prop :=
  -2 ^ 31 ≤ t.issue ∧ t.issue < 2 ^ 31
deriving Decidable

theorem wrapInt_of_fits {n : ℤ} (h : -2 ^ 31 ≤ n ∧ n < 2 ^ 31) :
  Json.wrapInt n = n
  := by
  rw [Json.wrapInt]
  omega

variable {t : HmasTask}

open Json in
/-- A task that is written and read again is the same task. -/
theorem hmasTaskFromJson_toJson (hissue : t.IssueFits) :
  hmasTaskFromJson (hmasTaskToJson t) = .ok t
  := by
  have hget : ∀ k, (hmasTaskToJson t).get? k = _ := get?_ofMembers (by simp)
  have hissue : (hmasTaskToJson t).valueInt "issue" 0 = .ok t.issue := by
    rw [valueInt, valueWith_of_get? (hget "issue"), getInt, wrapInt_of_fits hissue]
  have hescalations : escalationsAt (hmasTaskToJson t) = .ok t.escalations := by
    rw [escalationsAt, hget "escalations"]
    apply mapM_map_eq_ok escalationRecordFromJson_toJson
  rw [hmasTaskFromJson, valueString_of_get? (hget "id"), valueString_of_get? (hget "brief_id"),
    valueString_of_get? (hget "parent_task_id"), valueString_of_get? (hget "layer"),
    valueString_of_get? (hget "state"), valueString_of_get? (hget "subject"),
    valueString_of_get? (hget "description"), valueString_of_get? (hget "repo"),
    valueString_of_get? (hget "module"), hissue, valueString_of_get? (hget "assigned_lead_id"),
    valueString_of_get? (hget "created_at"), valueString_of_get? (hget "completed_at"),
    stringsAt_eq_ok (hget "blocked_by"), stringsAt_eq_ok (hget "child_task_ids"), hescalations]
  simp only [bind, Except.bind, hmasLayerFromString_toString, taskStateFromString_toString]
  rfl

/-! ### Maps -/

namespace StringMap

variable {α : Type}

theorem toJson_eq (f : α → Json) (m : StringMap α) :
  m.toJson f = .object (m.entries.map fun e => (e.1, f e.2))
  := by
  rw [toJson, entries, List.map_filterMap]
  congr 2
  funext k
  cases m.lookup k with
  | none => rfl
  | some a => rfl

theorem pairwise_entries (m : StringMap α) :
  m.entries.Pairwise fun x y => x.1 < y.1
  := by
  apply List.Pairwise.filterMap _ _ (Finset.sortedLT_sort m.keys).pairwise
  intro k k' hlt e he e' he'
  obtain ⟨a, -, rfl⟩ := Option.map_eq_some_iff.mp he
  obtain ⟨a', -, rfl⟩ := Option.map_eq_some_iff.mp he'
  exact hlt

theorem nodup_entries (m : StringMap α) :
  (m.entries.map (·.1)).Nodup
  := by
  rw [List.Nodup, List.pairwise_map]
  exact m.pairwise_entries.imp ne_of_lt

variable {m : StringMap α}

theorem lookup_of_mem_entries {e : String × α} (he : e ∈ m.entries) :
  m.lookup e.1 = some e.2
  := by
  obtain ⟨k, -, hk⟩ := List.mem_filterMap.mp he
  obtain ⟨a, ha, rfl⟩ := Option.map_eq_some_iff.mp hk
  exact ha

theorem mem_entries_of_lookup {k : String} {a : α} (h : m.lookup k = some a) :
  (k, a) ∈ m.entries
  := by
  apply List.mem_filterMap.mpr
  refine ⟨k, ?_, by rw [h]; rfl⟩
  rw [Finset.mem_sort, Finmap.mem_keys, ← Finmap.lookup_isSome, h]
  rfl

theorem toJson_proper {f : α → Json} (h : ∀ k a, m.lookup k = some a → (f a).Proper) :
  (m.toJson f).Proper
  := by
  rw [toJson_eq]
  apply object
  · rw [List.pairwise_map]
    apply m.pairwise_entries
  · intro member hmember
    obtain ⟨e, he, rfl⟩ := List.mem_map.mp hmember
    apply h e.1 e.2 (lookup_of_mem_entries he)

/-- The entries that `g` keeps, with the values it gives them. -/
def keep (g : α → Option α) (es : List (String × α)) : List (String × α) :=
  es.filterMap fun e => (g e.2).map fun a => (e.1, a)

/-- The map with the entries that are kept. -/
def trim (g : α → Option α) (m : StringMap α) : StringMap α :=
  replay (keep g m.entries) ∅

variable {g : α → Option α}

theorem nodup_keep (m : StringMap α) :
  ((keep g m.entries).map (·.1)).Nodup
  := by
  rw [List.Nodup, List.pairwise_map]
  apply List.Pairwise.filterMap _ _ m.pairwise_entries
  intro e e' hlt x hx x' hx'
  obtain ⟨a, -, rfl⟩ := Option.map_eq_some_iff.mp hx
  obtain ⟨a', -, rfl⟩ := Option.map_eq_some_iff.mp hx'
  exact ne_of_lt hlt

theorem lookup_trim_of_mem {e : String × α} (h : e ∈ keep g m.entries) :
  (m.trim g).lookup e.1 = some e.2
  := lookup_replay_of_mem m.nodup_keep h

theorem lookup_trim (k : String) :
  (m.trim g).lookup k = (m.lookup k).bind g
  := by
  cases hk : (m.lookup k).bind g with
  | some a =>
    obtain ⟨a', ha', ha⟩ := Option.bind_eq_some_iff.mp hk
    apply lookup_trim_of_mem (e := (k, a))
    exact List.mem_filterMap.mpr ⟨(k, a'), mem_entries_of_lookup ha', by rw [ha]; rfl⟩
  | none =>
    apply (lookup_replay_of_not_mem _).trans (Finmap.lookup_empty k)
    intro hkey
    obtain ⟨x, hx, rfl⟩ := List.mem_map.mp hkey
    obtain ⟨e, he, hx⟩ := List.mem_filterMap.mp hx
    obtain ⟨a, ha, rfl⟩ := Option.map_eq_some_iff.mp hx
    rw [lookup_of_mem_entries he, Option.bind_some, ha] at hk
    contradiction

theorem trim_eq_empty :
  m.trim g = ∅ ↔ keep g m.entries = []
  := by
  constructor
  · intro h
    apply List.eq_nil_iff_forall_not_mem.mpr
    intro e he
    have hlookup := lookup_trim_of_mem he
    rw [h, Finmap.lookup_empty] at hlookup
    contradiction
  · intro h
    rw [trim, h]
    rfl

/-- A loop that reads one entry after the other, and inserts those that are kept. -/
theorem foldlM_entries {f : α → Json}
    {step : StringMap α → String × Json → Except Exn (StringMap α)}
    (hstep : ∀ (acc : StringMap α) (e : String × α), acc.lookup e.1 = none →
      step acc (e.1, f e.2) = .ok ((g e.2).elim acc (acc.insert e.1))) :
  ∀ {es : List (String × α)} {acc : StringMap α}, (es.map (·.1)).Nodup →
    (∀ e ∈ es, acc.lookup e.1 = none) →
    (es.map fun e => (e.1, f e.2)).foldlM step acc
      = .ok (replay (keep g es) acc)
  | [], _, _, _ => rfl
  | e :: es, acc, hnodup, hunused => by
      obtain ⟨he, hnodup⟩ := List.nodup_cons.mp hnodup
      obtain ⟨hfirst, hunused⟩ := List.forall_mem_cons.mp hunused
      rw [List.map_cons, List.foldlM_cons, hstep acc e hfirst, keep, List.filterMap_cons]
      cases g e.2 with
      | none => apply foldlM_entries hstep hnodup hunused
      | some a =>
        apply foldlM_entries hstep hnodup
        intro e' he'
        rw [Option.elim_some, Finmap.lookup_insert_of_ne]
        · apply hunused e' he'
        · intro heq
          apply he
          apply List.mem_map.mpr ⟨e', he', heq⟩

end StringMap

/-! ### Briefs -/

/-- Every repository has a module, and every module listed with tasks has one. -/
structure TaskBrief.Full (b : TaskBrief) : Prop where
  modules : ∀ repo mods, b.modules.lookup repo = some mods → mods ≠ []
  impls : ∀ repo m, b.impls.lookup repo = some m → m ≠ ∅
  tasks : ∀ repo m, b.impls.lookup repo = some m → ∀ mod ts, m.lookup mod = some ts → ts ≠ []

/-- Strings pushed in turn. -/
theorem foldlM_push (k : String) :
  ∀ (ss : List String) (m : StringMap (List String)), ss ≠ [] →
    (ss.map Json.string).foldlM (fun m e => do return push m k (← e.getString)) m
      = (.ok (m.insert k ((m.lookup k).getD [] ++ ss)) : Except Exn (StringMap (List String)))
  | [s], m, _ => rfl
  | s :: s' :: ss, m, _ => by
      apply (foldlM_push k (s' :: ss) (m.push k s) (List.cons_ne_nil _ _)).trans
      rw [push, Finmap.lookup_insert, Finmap.insert_insert]
      simp

/-- A list that is not empty. -/
def kept (ss : List String) : Option (List String) :=
  if ss = [] then none else some ss

/-- A map that is not empty without its empty lists. -/
def keptMap (m : StringMap (List String)) : Option (StringMap (List String)) :=
  if m.trim kept = ∅ then none else some (m.trim kept)

/-- The brief without empty lists and maps. -/
def TaskBrief.trimmed (b : TaskBrief) : TaskBrief :=
  { b with modules := b.modules.trim kept, impls := b.impls.trim keptMap }

variable {repo : String}

theorem readModules_eq (modules : StringMap (List String)) (e : String × List String)
    (hunused : modules.lookup e.1 = none) :
  readModules modules (e.1, .ofStrings e.2) = .ok ((kept e.2).elim modules (modules.insert e.1))
  := by
  rw [kept]
  split_ifs with hempty
  · rw [hempty]
    rfl
  · apply (foldlM_push e.1 e.2 modules hempty).trans
    rw [hunused]
    rfl

/-- The tasks of a module are pushed in turn. -/
theorem readTasks_eq (repo mod : String) :
  ∀ (ts : List String) (impls : StringMap (StringMap (List String))), ts ≠ [] →
    readTasks repo impls (mod, .ofStrings ts)
      = .ok (impls.insert repo (((impls.lookup repo).getD ∅).insert mod
          ((((impls.lookup repo).getD ∅).lookup mod).getD [] ++ ts)))
  | [t], impls, _ => rfl
  | t :: t' :: ts, impls, _ => by
      apply (readTasks_eq repo mod (t' :: ts)
        (impls.insert repo (((impls.lookup repo).getD ∅).push mod t)) (List.cons_ne_nil _ _)).trans
      rw [Finmap.lookup_insert, Finmap.insert_insert, Option.getD_some, push,
        Finmap.lookup_insert, Finmap.insert_insert]
      simp

/-- The map of a repository is made with its first task. -/
theorem foldlM_readTasks (repo : String) :
  ∀ {es : List (String × List String)} {impls : StringMap (StringMap (List String))},
    (es.map (·.1)).Nodup → (∀ e ∈ es, ((impls.lookup repo).getD ∅).lookup e.1 = none) →
    (es.map fun e => (e.1, Json.ofStrings e.2)).foldlM (readTasks repo) impls
      = .ok (if keep kept es = [] then impls
          else impls.insert repo (replay (keep kept es) ((impls.lookup repo).getD ∅)))
  | [], impls, _, _ => rfl
  | e :: es, impls, hnodup, hunused => by
      obtain ⟨hfirst, hnodup⟩ := List.nodup_cons.mp hnodup
      obtain ⟨hunused, hrest⟩ := List.forall_mem_cons.mp hunused
      rw [List.map_cons, List.foldlM_cons]
      by_cases hempty : e.2 = []
      · have hkeep : keep kept (e :: es) = keep kept es := by
          simp [keep, kept, hempty]
        rw [hkeep, hempty]
        apply foldlM_readTasks repo hnodup hrest
      · have hkeep : keep kept (e :: es) = e :: keep kept es := by
          simp [keep, kept, hempty]
        rw [hkeep, if_neg (List.cons_ne_nil _ _), readTasks_eq repo e.1 e.2 impls hempty, hunused]
        apply (foldlM_readTasks repo hnodup _).trans
        · rw [Finmap.lookup_insert, Finmap.insert_insert]
          split_ifs with hnone
          · rw [hnone]
            rfl
          · rfl
        · intro x hx
          rw [Finmap.lookup_insert, Option.getD_some, Finmap.lookup_insert_of_ne]
          · apply hrest x hx
          · intro heq
            apply hfirst
            apply List.mem_map.mpr ⟨x, hx, heq⟩

variable {α : Type} {m : StringMap (List String)} {impls : StringMap (StringMap (List String))}

theorem readImpls_eq (impls : StringMap (StringMap (List String)))
    (e : String × StringMap (List String)) (hunused : impls.lookup e.1 = none) :
  readImpls impls (e.1, e.2.toJson .ofStrings) = .ok ((keptMap e.2).elim impls (impls.insert e.1))
  := by
  rw [toJson_eq]
  apply (foldlM_readTasks e.1 e.2.nodup_entries _).trans
  · simp only [keptMap, trim_eq_empty, hunused, Option.getD_none]
    split_ifs <;> rfl
  · intro x _
    rw [hunused, Option.getD_none, Finmap.lookup_empty]

variable {b : TaskBrief}

open Json in
/-- A brief that is written and read again has lost its empty lists and maps. -/
theorem taskBriefFromJson_toJson (b : TaskBrief) :
  taskBriefFromJson (taskBriefToJson b) = .ok b.trimmed
  := by
  have hget : ∀ k, (taskBriefToJson b).get? k = _ := get?_ofMembers (by simp)
  have hmodules : modulesAt (taskBriefToJson b) = .ok (b.modules.trim kept) := by
    rw [modulesAt, show (taskBriefToJson b).get? "modules" = some (b.modules.toJson ofStrings)
      from hget "modules", toJson_eq]
    apply foldlM_entries readModules_eq b.modules.nodup_entries
    exact fun e _ => Finmap.lookup_empty e.1
  have himpls : implsAt (taskBriefToJson b) = .ok (b.impls.trim keptMap) := by
    rw [implsAt, show (taskBriefToJson b).get? "impls"
      = some (b.impls.toJson fun m => m.toJson ofStrings) from hget "impls", toJson_eq]
    apply foldlM_entries readImpls_eq b.impls.nodup_entries
    exact fun e _ => Finmap.lookup_empty e.1
  rw [taskBriefFromJson, valueString_of_get? (hget "id"), valueString_of_get? (hget "title"),
    valueString_of_get? (hget "description"), stringsAt_eq_ok (hget "repos"), hmodules, himpls]
  rfl

/-- `r` is `b` without its empty lists and the maps that are empty without them. -/
structure TaskBrief.Trims (b r : TaskBrief) : Prop where
  header : r.id = b.id ∧ r.title = b.title ∧ r.description = b.description ∧ r.repos = b.repos
  modules : ∀ repo mods,
    r.modules.lookup repo = some mods ↔ b.modules.lookup repo = some mods ∧ mods ≠ []
  impls : ∀ repo m, r.impls.lookup repo = some m ↔
    m ≠ ∅ ∧ ∃ old, b.impls.lookup repo = some old
      ∧ ∀ mod ts, m.lookup mod = some ts ↔ old.lookup mod = some ts ∧ ts ≠ []

theorem lookup_trim_kept {k : String} {ss : List String} :
  (m.trim kept).lookup k = some ss ↔ m.lookup k = some ss ∧ ss ≠ []
  := by
  rw [lookup_trim]
  cases m.lookup k with
  | none => simp
  | some old => grind [kept]

theorem trims_trimmed (b : TaskBrief) :
  b.Trims b.trimmed
  where
  header := ⟨rfl, rfl, rfl, rfl⟩
  modules := fun _ _ => lookup_trim_kept
  impls := by
    intro repo m
    rw [TaskBrief.trimmed, lookup_trim, Option.bind_eq_some_iff]
    constructor
    · rintro ⟨old, hold, hm⟩
      rw [keptMap] at hm
      split_ifs at hm with hempty
      obtain rfl := Option.some.inj hm
      exact ⟨hempty, old, hold, fun _ _ => lookup_trim_kept⟩
    · rintro ⟨hne, old, hold, hm⟩
      obtain rfl : old.trim kept = m := by
        apply Finmap.ext_lookup
        intro mod
        ext ts
        exact lookup_trim_kept.trans (hm mod ts).symm
      exact ⟨old, hold, if_neg hne⟩

/-- Nothing is lost of a brief that lists no empty module or repository. -/
theorem trimmed_of_full (hfull : b.Full) :
  b.trimmed = b
  := by
  have hmodules : b.modules.trim kept = b.modules := by
    apply Finmap.ext_lookup
    intro repo
    ext mods
    exact lookup_trim_kept.trans (and_iff_left_of_imp (hfull.modules repo mods))
  have himpls : b.impls.trim keptMap = b.impls := by
    apply Finmap.ext_lookup
    intro repo
    rw [lookup_trim]
    cases hm : b.impls.lookup repo with
    | none => rfl
    | some m =>
      have htrim : m.trim kept = m := by
        apply Finmap.ext_lookup
        intro mod
        ext ts
        exact lookup_trim_kept.trans (and_iff_left_of_imp (hfull.tasks repo m hm mod ts))
      rw [Option.bind_some, keptMap, htrim, if_neg (hfull.impls repo m hm)]
  rw [TaskBrief.trimmed, hmodules, himpls]

/-! ### Briefs that were read -/

theorem push_ne_nil (hm : ∀ k ss, m.lookup k = some ss → ss ≠ []) (k s : String) :
  ∀ k' ss, (m.push k s).lookup k' = some ss → ss ≠ []
  := by
  intro k' ss h
  by_cases heq : k' = k
  · subst heq
    rw [push, Finmap.lookup_insert] at h
    rw [← Option.some.inj h]
    simp
  · rw [push, Finmap.lookup_insert_of_ne _ heq] at h
    apply hm k' ss h

variable {member : String × Json}

theorem readModules_ne_nil {m' : StringMap (List String)}
    (hm : ∀ k ss, m.lookup k = some ss → ss ≠ []) (h : readModules m member = .ok m') :
  ∀ k ss, m'.lookup k = some ss → ss ≠ []
  := by
  rw [readModules] at h
  split at h
  · apply Lists.foldlM_invariant _ hm h
    intro m e m' hm he
    obtain ⟨s, -, he⟩ := exists_of_bind_eq_ok he
    obtain rfl := Except.ok.inj he
    apply push_ne_nil hm
  · obtain rfl := Except.ok.inj h
    exact hm

/-- Neither the maps of the repositories nor the lists of their modules are empty. -/
def ImplsFull (impls : StringMap (StringMap (List String))) : Prop :=
  ∀ repo m, impls.lookup repo = some m →
    m ≠ ∅ ∧ ∀ mod ts, m.lookup mod = some ts → ts ≠ []

variable {impls' : StringMap (StringMap (List String))}

theorem readTasks_full (himpls : ImplsFull impls) (h : readTasks repo impls member = .ok impls') :
  ImplsFull impls'
  := by
  rw [readTasks] at h
  split at h
  · apply Lists.foldlM_invariant _ himpls h
    intro impls e impls' himpls he
    obtain ⟨s, -, he⟩ := exists_of_bind_eq_ok he
    obtain rfl := Except.ok.inj he
    intro repo' m hm
    rw [lookup_insert_iff] at hm
    rcases hm with ⟨rfl, rfl⟩ | ⟨-, hm⟩
    · constructor
      · intro hempty
        have hlookup := congrArg (Finmap.lookup member.1) hempty
        rw [push, Finmap.lookup_insert, Finmap.lookup_empty] at hlookup
        contradiction
      · apply push_ne_nil
        intro mod ts hts
        cases hold : impls.lookup repo' with
        | none =>
          rw [hold, Option.getD_none, Finmap.lookup_empty] at hts
          contradiction
        | some old =>
          rw [hold, Option.getD_some] at hts
          apply (himpls repo' old hold).2 mod ts hts
    · apply himpls repo' m hm
  · obtain rfl := Except.ok.inj h
    exact himpls

theorem readImpls_full (himpls : ImplsFull impls) (h : readImpls impls member = .ok impls') :
  ImplsFull impls'
  := by
  rw [readImpls] at h
  split at h
  · exact Lists.foldlM_invariant readTasks_full himpls h
  · obtain rfl := Except.ok.inj h
    exact himpls

/-- A brief that was read lists no empty module or repository. -/
theorem full_of_taskBriefFromJson (h : taskBriefFromJson j = .ok b) :
  b.Full
  := by
  have hempty : ImplsFull ∅ := by
    intro repo m hm
    rw [Finmap.lookup_empty] at hm
    contradiction
  obtain ⟨id, -, h⟩ := exists_of_bind_eq_ok h
  obtain ⟨title, -, h⟩ := exists_of_bind_eq_ok h
  obtain ⟨description, -, h⟩ := exists_of_bind_eq_ok h
  obtain ⟨repos, -, h⟩ := exists_of_bind_eq_ok h
  obtain ⟨modules, hmodules, h⟩ := exists_of_bind_eq_ok h
  obtain ⟨impls, himpls, h⟩ := exists_of_bind_eq_ok h
  obtain rfl := Except.ok.inj h
  have hmodulesFull : ∀ repo mods, modules.lookup repo = some mods → mods ≠ [] := by
    rw [modulesAt] at hmodules
    split at hmodules
    · apply Lists.foldlM_invariant readModules_ne_nil _ hmodules
      intro repo mods hmods
      rw [Finmap.lookup_empty] at hmods
      contradiction
    · obtain rfl := Except.ok.inj hmodules
      intro repo mods hmods
      rw [Finmap.lookup_empty] at hmods
      contradiction
  have himplsFull : ImplsFull impls := by
    rw [implsAt] at himpls
    split at himpls
    · exact Lists.foldlM_invariant readImpls_full hempty himpls
    · obtain rfl := Except.ok.inj himpls
      exact hempty
  exact ⟨hmodulesFull, fun repo m hm => (himplsFull repo m hm).1,
    fun repo m hm => (himplsFull repo m hm).2⟩

/-! ### Values of the library -/

theorem escalationRecordToJson_proper (r : EscalationRecord) :
  (escalationRecordToJson r).Proper
  := by
  apply ofMembers
  intro m hm
  simp only [List.mem_cons, List.not_mem_nil, or_false] at hm
  rcases hm with rfl | rfl | rfl | rfl <;> apply string

theorem hmasTaskToJson_proper (hissue : t.IssueFits) :
  (hmasTaskToJson t).Proper
  := by
  have hissue' : (Json.integer t.issue).Proper := by
    obtain ⟨hlower, hupper⟩ := hissue
    apply integer
    · omega
    · omega
  have hescalations : (Json.array (t.escalations.map escalationRecordToJson)).Proper := by
    apply array
    intro e he
    obtain ⟨r, -, rfl⟩ := List.mem_map.mp he
    apply escalationRecordToJson_proper
  apply ofMembers
  intro m hm
  simp only [List.mem_cons, List.not_mem_nil, or_false] at hm
  rcases hm with rfl | rfl | rfl | rfl | rfl | rfl | rfl | rfl | rfl | rfl | rfl | rfl | rfl | rfl
    | rfl | rfl
  all_goals first
    | exact string _
    | exact ofStrings _
    | exact hissue'
    | exact hescalations

theorem taskBriefToJson_proper (b : TaskBrief) :
  (taskBriefToJson b).Proper
  := by
  have hmodules : (b.modules.toJson .ofStrings).Proper
    := toJson_proper fun _ mods _ => ofStrings mods
  have himpls : (b.impls.toJson fun m => m.toJson .ofStrings).Proper
    := toJson_proper fun _ m _ =>
      toJson_proper fun _ ts _ => ofStrings ts
  apply ofMembers
  intro m hm
  simp only [List.mem_cons, List.not_mem_nil, or_false] at hm
  rcases hm with rfl | rfl | rfl | rfl | rfl | rfl
  all_goals first
    | exact string _
    | exact ofStrings _
    | exact hmodules
    | exact himpls

end Agamemnon
