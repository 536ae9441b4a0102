import Agamemnon.Store.Consistent

/-!
# Inbound events

What GitHub reports about an issue is merged into the collection of its label.  A webhook
delivery and an entry of a reconcile pass are merged by the same operation, and in any order.
What an event does to an entity is `mergeEntity`; `lookup_deliver` says that it does nothing
else.
-/

namespace Agamemnon

/-! ### Events -/

/-- The actions on issues that are handled. -/
inductive IssueAction where
  | opened
  | edited
  | closed
  | reopened
  | labeled
  | unlabeled
deriving DecidableEq, Repr

namespace IssueAction

/-- The action with a name, if it is handled. -/
def ofString? : String → Option IssueAction
  | "opened" => some opened
  | "edited" => some edited
  | "closed" => some closed
  | "reopened" => some reopened
  | "labeled" => some labeled
  | "unlabeled" => some unlabeled
  | _ => none

/-- The action is merged by its time stamp. -/
def isEdit : IssueAction → Bool
  | closed | reopened => false
  | _ => true

end IssueAction

/-- `NormalizedEvent`. -/
structure NormalizedEvent where
  action : IssueAction
  entityLabel : String
  issueShape : Json
  updatedAt : String

/-- The name of a label of an issue. -/
def labelName (label : Json) : Option String :=
  match label.get? "name" with
  | some (.string name) => some name
  | _ => none

/-- The first label of an issue that belongs to the service. -/
def firstEntityLabel (issue : Json) : Option String :=
  match issue.get? "labels" with
  | some (.array labels) =>
      (labels.filterMap labelName).find? fun name => "agamemnon-".toList.isPrefixOf name.toList
  | _ => none

/-- `normalize_issues_event`. -/
def normalizeIssuesEvent (payload : Json) : Option NormalizedEvent := do
  let some (.string action) := payload.get? "action" | none
  let action ← IssueAction.ofString? action
  let some (.object members) := payload.get? "issue" | none
  let issue := Json.object members
  let some (.integer number) := issue.get? "number" | none
  let some (.string body) := issue.get? "body" | none
  let entityLabel ← firstEntityLabel issue
  let updatedAt := match issue.get? "updated_at" with
    | some (.string updatedAt) => updatedAt
    | _ => ""
  let issueShape := Json.ofMembers [("number", .integer (Json.wrapInt number)),
    ("body", .string body)]
  let issueShape := match issue.get? "state" with
    | some (.string state) => issueShape.set "state" (.string state)
    | _ => issueShape
  return { action, entityLabel, issueShape, updatedAt }

/-! ### Merging -/

/-- The collection of a label. -/
def pickCollection (label : String) : Option Collection :=
  [.agents, .teams, .tasks, .faults].find? fun c : Collection => c.label = label

/-- The identifier in the issue of an event, and the entity with the number of the issue; none
if the issue is malformed. -/
def readEvent (parse : String → Option Json) (issue : Json) : Except Exn (Option (String × Json)) :=
  let entity := parseIssueEntity parse issue
  if entity.isNull ∨ entity.contains "id" = false then .ok none
  else do
    let id ← ((entity.get? "id").getD .null).getString
    let entity := match ← issueNumber issue with
      | none => entity
      | some number => entity.set "_github_issue" (.string number)
    return some (id, entity)

/-- The time stamp of a stored entity. -/
def readStamp : Option Json → Except Exn String
  | none => .ok ""
  | some stored => stored.valueString "updatedAt" ""

/-- The stored entity is as new as an edit. -/
def isStale (updatedAt : String) (stored : Option Json) : Except Exn Bool :=
  if stored.isSome ∧ updatedAt ≠ "" then do
    let localTs ← readStamp stored
    return localTs ≠ "" ∧ updatedAt ≤ localTs
  else .ok false

/-- The entity to be stored after an event, given the one that is stored; none if the event is
not applied. -/
def mergeEntity (action : IssueAction) (updatedAt : String) (entity : Json)
    (stored : Option Json) : Except Exn (Option Json) :=
  match action, stored with
  | .closed, none => .ok none
  | .closed, some stored =>
      .ok (some (((stored.set "status" (.string "closed")).set "closedAt"
        (.string updatedAt)).set "updatedAt" (.string updatedAt)))
  | .reopened, none => .ok (some entity)
  | .reopened, some stored =>
      .ok (some ((stored.set "status" (.string "active")).set "updatedAt" (.string updatedAt)))
  | _, stored => do
      if ← isStale updatedAt stored then return none
      return some (entity.set "updatedAt" (.string updatedAt))

namespace Memory

variable (parse : String → Option Json)

/-- `apply_github_event`, when the collection has been loaded. -/
def applyGithubEvent (m : Memory) (e : NormalizedEvent) : Except Exn (Bool × Memory) :=
  match pickCollection e.entityLabel with
  | none => .ok (false, m)
  | some c => do
      match ← readEvent parse e.issueShape with
      | none => return (false, m)
      | some (id, entity) =>
          let es := m.entities c
          match ← mergeEntity e.action e.updatedAt entity (es.lookup id) with
          | none => return (false, m)
          | some entity => return (true, m.setEntities c (es.insert id entity))

/-- The memory after an event, whether `apply_github_event` returns or throws. -/
def deliver (m : Memory) (e : NormalizedEvent) : Memory :=
  match m.applyGithubEvent parse e with
  | .ok (_, m') => m'
  | .error _ => m

/-- The webhook, once the signature is verified. -/
def webhook (m : Memory) (payload : Json) : Except Exn (Bool × Memory) :=
  match normalizeIssuesEvent payload with
  | none => .ok (false, m)
  | some e => m.applyGithubEvent parse e

/-- The event of an entry of a reconcile pass. -/
def reconcileEntry (c : Collection) (issue : Json) : Except Exn NormalizedEvent := do
  let updatedAt ← issue.valueString "updated_at" ""
  return { action := .edited, entityLabel := c.label, issueShape := issue, updatedAt }

/-- The loop of `reconcile_from_github` over the issues with a label. -/
def reconcileIssues (c : Collection) : List Json → ℕ → Memory → Except Exn ℕ × Memory
  | [], changed, m => (.ok changed, m)
  | issue :: issues, changed, m =>
      match (do m.applyGithubEvent parse (← reconcileEntry c issue) : Except Exn _) with
      | .error e => (.error e, m)
      | .ok (applied, m) => reconcileIssues c issues (if applied then changed + 1 else changed) m

/-- The loop of `reconcile_from_github` over the labels.  A label that cannot be listed is
skipped. -/
def reconcileLabels (listed : Collection → Option (List Json)) :
    List Collection → ℕ → Memory → Except Exn ℕ × Memory
  | [], changed, m => (.ok changed, m)
  | c :: cs, changed, m =>
      match listed c with
      | none => reconcileLabels listed cs changed m
      | some issues =>
          match reconcileIssues parse c issues changed m with
          | (.error e, m) => (.error e, m)
          | (.ok changed, m) => reconcileLabels listed cs changed m

/-- `reconcile_from_github`. -/
def reconcileFromGithub (listed : Collection → Option (List Json)) (m : Memory) :
    Except Exn ℕ × Memory :=
  reconcileLabels parse listed [.agents, .teams, .tasks, .faults] 0 m

end Memory

/-! ### What an event does -/

section Delivery

variable {parse : String → Option Json} {m : Memory} {e : NormalizedEvent} {c : Collection}
  {id : String} {entity : Json}

/-- The event brings the entity `entity` for the identifier `id` of the collection `c`. -/
def NormalizedEvent.Brings (parse : String → Option Json) (c : Collection) (id : String)
    (entity : Json) (e : NormalizedEvent) : Prop :=
  pickCollection e.entityLabel = some c ∧ readEvent parse e.issueShape = .ok (some (id, entity))

/-- What is stored after an event that brings `entity`. -/
def merged (action : IssueAction) (updatedAt : String) (entity : Json) (stored : Option Json) :
    Option Json :=
  match mergeEntity action updatedAt entity stored with
  | .ok (some entity) => some entity
  | _ => stored

namespace Memory

theorem lookup_deliver (h : e.Brings parse c id entity) :
  ((m.deliver parse e).entities c).lookup id
    = merged e.action e.updatedAt entity ((m.entities c).lookup id)
  := by
  rw [deliver, applyGithubEvent, h.1]
  simp only [h.2, bind, Except.bind]
  rw [merged]
  cases mergeEntity e.action e.updatedAt entity ((m.entities c).lookup id) with
  | error exn => rfl
  | ok outcome =>
    cases outcome with
    | none => rfl
    | some entity' =>
      apply Eq.trans (congrArg (Finmap.lookup id) (entities_setEntities_self m c _))
      apply Finmap.lookup_insert

/-- An event changes no other entity. -/
theorem lookup_deliver_of_not (h : ∀ entity, ¬ e.Brings parse c id entity) :
  ((m.deliver parse e).entities c).lookup id = (m.entities c).lookup id
  := by
  rw [deliver, applyGithubEvent]
  cases hpick : pickCollection e.entityLabel with
  | none => rfl
  | some c' =>
    cases hread : readEvent parse e.issueShape with
    | error exn => rfl
    | ok outcome =>
      cases outcome with
      | none => rfl
      | some r =>
        obtain ⟨id', entity⟩ := r
        simp only [bind, Except.bind]
        cases mergeEntity e.action e.updatedAt entity ((m.entities c').lookup id') with
        | error exn => rfl
        | ok outcome =>
          cases outcome with
          | none => rfl
          | some entity' =>
            by_cases hc : c = c'
            · subst hc
              apply Eq.trans (congrArg (Finmap.lookup id) (entities_setEntities_self m c _))
              apply Finmap.lookup_insert_of_ne
              rintro rfl
              apply h entity
              exact ⟨hpick, hread⟩
            · apply congrArg (Finmap.lookup id) (entities_setEntities_of_ne m _ hc)

end Memory

/-- What an event brings is an object. -/
theorem NormalizedEvent.Brings.isObject (h : e.Brings parse c id entity) :
  entity.isObject = true
  := by
  obtain ⟨-, h⟩ := h
  rw [readEvent] at h
  split at h
  · cases h
  · rename_i hentity
    push Not at hentity
    obtain ⟨id', -, h⟩ := exists_of_bind_eq_ok h
    obtain ⟨number, -, h⟩ := exists_of_bind_eq_ok h
    have hobject := Json.isObject_of_contains (Bool.of_not_eq_false hentity.2)
    obtain ⟨rfl, rfl⟩ := Prod.mk.inj (Option.some.inj (Except.ok.inj h))
    cases number with
    | none => exact hobject
    | some number => apply Json.isObject_set hobject

namespace Memory

/-- An entry that a reconcile pass has listed is delivered. -/
def Reconciles (parse : String → Option Json) (listed : Collection → Option (List Json))
    (m m' : Memory) : Prop :=
  ∃ c issues, listed c = some issues
    ∧ ∃ issue ∈ issues, ∃ e, reconcileEntry c issue = .ok e ∧ m.deliver parse e = m'

variable {listed : Collection → Option (List Json)}

theorem reconcileIssues_reconciles {issues rest : List Json} (hlisted : listed c = some issues)
    (hrest : rest ⊆ issues) (changed : ℕ) (m : Memory) :
  Relation.ReflTransGen (Reconciles parse listed) m (reconcileIssues parse c rest changed m).2
  := by
  induction rest generalizing changed m with
  | nil => exact .refl
  | cons issue rest ih =>
    obtain ⟨hissue, hrest⟩ := List.cons_subset.mp hrest
    rw [reconcileIssues]
    split
    · exact .refl
    · rename_i happly
      obtain ⟨e, hentry, happly⟩ := exists_of_bind_eq_ok happly
      apply Relation.ReflTransGen.head _ (ih hrest _ _)
      refine ⟨c, issues, hlisted, issue, hissue, e, hentry, ?_⟩
      rw [deliver, happly]

theorem reconcileLabels_reconciles (cs : List Collection) (changed : ℕ) (m : Memory) :
  Relation.ReflTransGen (Reconciles parse listed) m (reconcileLabels parse listed cs changed m).2
  := by
  induction cs generalizing changed m with
  | nil => exact .refl
  | cons c cs ih =>
    rw [reconcileLabels]
    split
    · apply ih
    · rename_i issues hlisted
      have hissues := @reconcileIssues_reconciles parse c listed issues issues hlisted
        (List.Subset.refl _) changed m
      split
      · rename_i heq
        rwa [heq] at hissues
      · rename_i heq
        rw [heq] at hissues
        exact hissues.trans (ih _ _)

/-- A reconcile pass delivers entries it listed, one after the other. -/
theorem reconcileFromGithub_eq (listed : Collection → Option (List Json)) (m : Memory) :
  ∃ events : List NormalizedEvent,
    (m.reconcileFromGithub parse listed).2 = events.foldl (deliver parse) m
    ∧ ∀ e ∈ events, ∃ c issues, listed c = some issues
      ∧ ∃ issue ∈ issues, reconcileEntry c issue = .ok e
  := by
  have hsteps : Relation.ReflTransGen (Reconciles parse listed) m
      (m.reconcileFromGithub parse listed).2
    := reconcileLabels_reconciles _ _ m
  generalize (m.reconcileFromGithub parse listed).2 = m' at hsteps ⊢
  induction hsteps with
  | refl => exact ⟨[], rfl, by simp⟩
  | tail _ hstep ih =>
    obtain ⟨events, rfl, hevents⟩ := ih
    obtain ⟨c, issues, hlisted, issue, hissue, e, hentry, rfl⟩ := hstep
    use events ++ [e]
    constructor
    · rw [List.foldl_append]
      rfl
    · intro f hf
      rcases List.mem_append.mp hf with hf | hf
      · apply hevents f hf
      · obtain rfl := List.mem_singleton.mp hf
        exact ⟨c, issues, hlisted, issue, hissue, hentry⟩

end Memory

end Delivery

end Agamemnon
