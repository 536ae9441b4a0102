import Agamemnon.Lib.Mirror
import Agamemnon.Store.Operations

/-!
# Loading a collection

A collection is loaded from its issues when it is first used.  Issues without an entity are
skipped, but an entity whose identifier is not a string makes the load throw.  The collection
is then not marked as loaded, and the next use throws again (`ensureLoaded_iff`).
-/

namespace Agamemnon

/-! ### Loading -/

/-- A collection, and whether it has been loaded. -/
structure Cache where
  loaded : Bool
  entities : StringMap Json

/-- A collection that has not been used. -/
def Cache.fresh : Cache where
  loaded := false
  entities := ∅

variable (parse : String → Option Json)

/-- The loop over the issues of a collection, and what it has stored when it ends or throws. -/
def loadEntities : List Json → StringMap Json → Except Exn Unit × StringMap Json
  | [], es => (.ok (), es)
  | issue :: issues, es =>
      match readEntity parse issue with
      | .error exn => (.error exn, es)
      | .ok none => loadEntities issues es
      | .ok (some (id, entity)) => loadEntities issues (es.insert id entity)

/-- Load a collection, when `gh` lists the issues with a label or throws, if there is a client.
The flag of `call_once` is set with `loaded`, and neither is set by a load that throws. -/
def ensureLoaded (c : Collection) (gh : Option (String → Option (List Json))) (cache : Cache) :
    Except Exn Unit × Cache :=
  if cache.loaded = true then (.ok (), cache)
  else
    match gh with
    | none => (.ok (), { cache with loaded := true })
    | some listIssues =>
        match listIssues c.label with
        | none => (.ok (), { cache with loaded := true })
        | some issues =>
            match loadEntities parse issues cache.entities with
            | (.error exn, entities) => (.error exn, { cache with entities })
            | (.ok (), entities) => (.ok (), { loaded := true, entities })

/-- `ensure_agents_loaded_`. -/
def ensureAgentsLoaded := ensureLoaded parse .agents

/-- `ensure_teams_loaded_`. -/
def ensureTeamsLoaded := ensureLoaded parse .teams

/-- `ensure_tasks_loaded_`. -/
def ensureTasksLoaded := ensureLoaded parse .tasks

/-- `ensure_faults_loaded_`. -/
def ensureFaultsLoaded := ensureLoaded parse .faults

/-! ### Entities in issues -/

/-- The entity in an issue with a number: an object whose identifier is a string. -/
def entityIn (issue : Json) : Option (String × Json) :=
  match parseIssueEntity parse issue, issue.get? "number" with
  | .object members, some (.integer n) =>
      match members.lookup "id" with
      | some (.string id) =>
          some (id, (Json.object members).set "_github_issue"
            (.string (toString (Json.wrapInt n))))
      | _ => none
  | _, _ => none

/-- If an issue has an object with an identifier, the identifier is a string. -/
def IdIsString (issue : Json) : Prop :=
  ∀ v, (parseIssueEntity parse issue).get? "id" = some v → ∃ id, v = .string id

section Reading

variable {parse} {issue : Json} {n : ℤ}

/-- An issue without an entity is skipped. -/
theorem readEntity_of_get?_none (h : (parseIssueEntity parse issue).get? "id" = none) :
  readEntity parse issue = .ok none ∧ entityIn parse issue = none
  := by
  constructor
  · rw [readEntity]
    simp [Json.contains, h]
  · rw [entityIn]
    split
    · rename_i members n hentity _
      rw [hentity, Json.get?] at h
      rw [h]
    · rfl

/-- The entity of an issue is read with the number of the issue. -/
theorem readEntity_of_get?_some {v : Json} (hnumber : issue.get? "number" = some (.integer n))
    (h : (parseIssueEntity parse issue).get? "id" = some v) :
  readEntity parse issue
    = v.getString.map fun id => some (id, (parseIssueEntity parse issue).set "_github_issue"
        (.string (toString (Json.wrapInt n))))
  := by
  have hcontains : (parseIssueEntity parse issue).contains "id" = true
    := by rw [Json.contains, h, Option.isSome_some]
  have hobject := Json.isObject_of_contains hcontains
  have hentity : ¬ ((parseIssueEntity parse issue).isNull = true
      ∨ (parseIssueEntity parse issue).contains "id" = false) := by
    rw [hcontains]
    cases hparse : parseIssueEntity parse issue with
    | object members => simp [Json.isNull]
    | _ =>
      rw [hparse] at hobject
      contradiction
  rw [readEntity]
  simp only [hentity, ↓reduceIte, issueNumber, hnumber, Json.getInt, bind, Except.bind, pure,
    Except.pure, Json.get?_set_of_ne hobject (show "id" ≠ "_github_issue" by decide), h,
    Option.getD_some]
  cases v.getString <;> rfl

theorem readEntity_of_idIsString (hnumber : issue.get? "number" = some (.integer n))
    (hid : IdIsString parse issue) :
  readEntity parse issue = .ok (entityIn parse issue)
  := by
  cases h : (parseIssueEntity parse issue).get? "id" with
  | none =>
    obtain ⟨hread, hentity⟩ := readEntity_of_get?_none h
    rw [hread, hentity]
  | some v =>
    obtain ⟨id, rfl⟩ := hid v h
    rw [readEntity_of_get?_some hnumber h, entityIn, hnumber]
    cases hparse : parseIssueEntity parse issue with
    | object members =>
      rw [hparse, Json.get?] at h
      simp only [h]
      rfl
    | _ =>
      rw [hparse] at h
      contradiction

/-- An identifier that is not a string is not read. -/
theorem readEntity_of_not_idIsString (hnumber : issue.get? "number" = some (.integer n))
    (hid : ¬ IdIsString parse issue) :
  ∃ exn, readEntity parse issue = .error exn
  := by
  rw [IdIsString] at hid
  push Not at hid
  obtain ⟨v, h, hstring⟩ := hid
  use .typeError 302
  rw [readEntity_of_get?_some hnumber h]
  cases v with
  | string id => exact absurd rfl (hstring id)
  | _ => rfl

end Reading

/-! ### What is loaded -/

variable {parse} {issues : List Json} {c : Collection}

theorem loadEntities_of_idIsString
    (hnumber : ∀ issue ∈ issues, ∃ n, issue.get? "number" = some (.integer n))
    (hid : ∀ issue ∈ issues, IdIsString parse issue) (es : StringMap Json) :
  loadEntities parse issues es = (.ok (), replay (issues.filterMap (entityIn parse)) es)
  := by
  induction issues generalizing es with
  | nil => rfl
  | cons issue issues ih =>
    rw [List.forall_mem_cons] at hnumber hid
    obtain ⟨⟨n, hn⟩, hnumber⟩ := hnumber
    rw [loadEntities, readEntity_of_idIsString hn hid.1, List.filterMap_cons]
    cases entityIn parse issue with
    | none => exact ih hnumber hid.2 es
    | some r => exact ih hnumber hid.2 (es.insert r.1 r.2)

/-- The loop throws at an identifier that is not a string. -/
theorem loadEntities_of_not_idIsString
    (hnumber : ∀ issue ∈ issues, ∃ n, issue.get? "number" = some (.integer n))
    (hid : ∃ issue ∈ issues, ¬ IdIsString parse issue) (es : StringMap Json) :
  ∃ exn, (loadEntities parse issues es).1 = .error exn
  := by
  induction issues generalizing es with
  | nil => simp at hid
  | cons issue issues ih =>
    rw [List.forall_mem_cons] at hnumber
    obtain ⟨⟨n, hn⟩, hnumber⟩ := hnumber
    rw [loadEntities]
    by_cases hissue : IdIsString parse issue
    · have hrest : ∃ issue ∈ issues, ¬ IdIsString parse issue := by
        simp only [List.mem_cons, exists_eq_or_imp] at hid
        exact hid.resolve_left (not_not.mpr hissue)
      rw [readEntity_of_idIsString hn hissue]
      cases entityIn parse issue with
      | none => exact ih hnumber hrest es
      | some r => exact ih hnumber hrest (es.insert r.1 r.2)
    · obtain ⟨exn, hread⟩ := readEntity_of_not_idIsString hn hissue
      use exn
      rw [hread]

/-- Apart from what is left when it throws, the loop is the one of a restart. -/
theorem hydrateEntities_eq_loadEntities (issues : List Json) (es : StringMap Json) :
  hydrateEntities parse issues es
    = match loadEntities parse issues es with
      | (.ok (), es') => .ok es'
      | (.error exn, _) => .error exn
  := by
  induction issues generalizing es with
  | nil => rfl
  | cons issue issues ih =>
    rw [hydrateEntities, List.foldlM_cons, loadEntities]
    cases readEntity parse issue with
    | error exn => rfl
    | ok outcome =>
      cases outcome with
      | none => exact ih es
      | some r => exact ih (es.insert r.1 r.2)

section Client

variable {listIssues : String → Option (List Json)} (hlist : listIssues c.label = some issues)
  (hnumber : ∀ issue ∈ issues, ∃ n, issue.get? "number" = some (.integer n))

include hlist hnumber

/-- A load that meets an identifier that is not a string throws, and so does every later one. -/
theorem ensureLoaded_of_not_idIsString {cache : Cache} (hcache : cache.loaded = false)
    (hid : ∃ issue ∈ issues, ¬ IdIsString parse issue) :
  (∃ exn, (ensureLoaded parse c (some listIssues) cache).1 = .error exn)
    ∧ (ensureLoaded parse c (some listIssues) cache).2.loaded = false
  := by
  obtain ⟨exn, hthrows⟩ := loadEntities_of_not_idIsString hnumber hid cache.entities
  rw [ensureLoaded, hcache, if_neg Bool.false_ne_true]
  simp only [hlist]
  generalize loadEntities parse issues cache.entities = outcome at hthrows
  obtain ⟨result, entities⟩ := outcome
  obtain rfl : result = .error exn := hthrows
  exact ⟨⟨exn, rfl⟩, rfl⟩

/-- The first use of a collection returns, marks it as loaded and leaves the entities of its
issues, of several with one identifier the last, when every identifier in an issue is a
string. -/
theorem ensureLoaded_iff :
  ((ensureLoaded parse c (some listIssues) .fresh).1 = .ok ()
      ∧ (ensureLoaded parse c (some listIssues) .fresh).2.loaded = true
      ∧ ∀ id entity,
        (ensureLoaded parse c (some listIssues) .fresh).2.entities.lookup id = some entity
          ↔ LastHeld (entityIn parse) issues id entity)
    ↔ ∀ issue ∈ issues, IdIsString parse issue
  := by
  constructor
  · rintro ⟨hreturns, -⟩
    by_contra hid
    push Not at hid
    obtain ⟨⟨exn, hthrows⟩, -⟩ := @ensureLoaded_of_not_idIsString parse issues c listIssues hlist
      hnumber .fresh rfl hid
    rw [hreturns] at hthrows
    contradiction
  · intro hid
    have hload : ensureLoaded parse c (some listIssues) .fresh
        = (.ok (), { loaded := true, entities := replay (issues.filterMap (entityIn parse)) ∅ })
      := by
      rw [ensureLoaded, if_neg (by decide)]
      simp only [hlist, loadEntities_of_idIsString hnumber hid]
      rfl
    rw [hload]
    refine ⟨rfl, rfl, ?_⟩
    intro id entity
    apply lookup_replay_filterMap

end Client

/-- An object with an identifier. -/
def identified (id : Json) : Json :=
  .ofMembers [("id", id)]

/-- Two issues with one identifier, and one whose body has no fenced block. -/
def repeatedIssues : List Json :=
  [(fencedIssue 1 (identified (.string "a"))).toJson,
    .ofMembers [("number", .integer 2), ("body", .string "no block")],
    (fencedIssue 3 (identified (.string "a"))).toJson]

theorem ensureLoaded_repeatedIssues :
  (ensureAgentsLoaded Json.read (some fun _ => some repeatedIssues) .fresh).1 = .ok ()
    ∧ (ensureAgentsLoaded Json.read (some fun _ => some repeatedIssues) .fresh).2.loaded
      = true
    ∧ ∀ id entity,
      (ensureAgentsLoaded Json.read (some fun _ => some repeatedIssues)
          .fresh).2.entities.lookup id = some entity
        ↔ LastHeld (entityIn Json.read) repeatedIssues id entity
  := by
  apply (ensureLoaded_iff (c := .agents) rfl _).mpr
  · intro issue hissue v hv
    simp only [repeatedIssues, List.mem_cons, List.not_mem_nil, or_false] at hissue
    rcases hissue with rfl | rfl | rfl
    · exact ⟨"a", (Option.some.inj hv).symm⟩
    · cases hv
    · exact ⟨"a", (Option.some.inj hv).symm⟩
  · intro issue hissue
    simp only [repeatedIssues, List.mem_cons, List.not_mem_nil, or_false] at hissue
    rcases hissue with rfl | rfl | rfl
    · exact ⟨1, rfl⟩
    · exact ⟨2, rfl⟩
    · exact ⟨3, rfl⟩

/-- Three issues, with a number for the identifier in the second. -/
def numberedIssues : List Json :=
  [fencedIssue 1 (identified (.string "a")), fencedIssue 2 (identified (.integer 7)),
    fencedIssue 3 (identified (.string "b"))].map Issue.toJson

/-- The load throws with the first agent stored and the last one not, and the next use of the
collection throws again. -/
theorem ensureLoaded_numberedIssues :
  let first := ensureAgentsLoaded Json.read (some fun _ => some numberedIssues) .fresh
  let second := ensureAgentsLoaded Json.read (some fun _ => some numberedIssues) first.2
  first.1 = .error (.typeError 302)
    ∧ first.2.loaded = false
    ∧ (first.2.entities.lookup "a").isSome = true
    ∧ first.2.entities.lookup "b" = none
    ∧ second.1 = .error (.typeError 302)
    ∧ second.2.loaded = false
  := by
  refine ⟨rfl, rfl, ?_, rfl, rfl, rfl⟩
  decide +kernel

end Agamemnon
