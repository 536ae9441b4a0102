import Agamemnon.Hmas.Reading
import Agamemnon.Json.Reader
import Agamemnon.Lib.Search
import Agamemnon.Store.Memory

/-!
# The issues behind the store

Every entity is kept in the body of an issue.  The backend answers every request: it gives a new
issue a number, keeps the last body it was sent, and lists the open issues with a label, in an
order of its own.  How values are written and read is a parameter.
-/

namespace Agamemnon

/-- An issue. -/
structure Issue where
  number : ℕ
  title : String
  body : String
  label : String
  isOpen : Bool

/-- An issue as it is listed. -/
def Issue.toJson (i : Issue) : Json :=
  .ofMembers
    [("number", .integer i.number),
     ("title", .string i.title),
     ("body", .string i.body)]

/-- The issues, each under its number in decimal. -/
abbrev Github : Type :=
  StringMap Issue

namespace Github

/-- `create_issue`, when the new issue has the number `n`. -/
def createIssue (g : Github) (n : ℕ) (title body label : String) : String × Github :=
  (toString n, g.insert (toString n) { number := n, title, body, label, isOpen := true })

/-- The new issue is open, has the label and the body, and is stored under its number. -/
theorem exists_createIssue (g : Github) (n : ℕ) (title body label : String) :
  ∃ i : Issue, i.number = n ∧ i.isOpen = true ∧ i.label = label ∧ i.body = body
    ∧ g.createIssue n title body label = (toString i.number, g.insert (toString i.number) i)
  := by
  exact ⟨⟨n, title, body, label, true⟩, rfl, rfl, rfl, rfl, rfl⟩

/-- `update_issue_body`. -/
def updateIssueBody (g : Github) (number body : String) : Github :=
  match g.lookup number with
  | none => g
  | some i => g.insert number { i with body }

/-- `close_issue`. -/
def closeIssue (g : Github) (number : String) : Github :=
  match g.lookup number with
  | none => g
  | some i => g.insert number { i with isOpen := false }

/-- `list_issues`, when the issues are visited in the order `order`. -/
def listIssues (g : Github) (order : List String) (label : String) : List Json :=
  order.filterMap fun number => (g.lookup number).bind fun i =>
    if i.isOpen = true ∧ i.label = label then some i.toJson else none

end Github

/-! ### Bodies -/

/-- The start of the fenced block: three backticks, `json` and a line break. -/
def openFence : List Char :=
  ['`', '`', '`', 'j', 's', 'o', 'n', '\n']

/-- The end of the fenced block: a line break and three backticks. -/
def closeFence : List Char :=
  ['\n', '`', '`', '`']

/-- `make_issue_body_`. -/
def makeIssueBody (dump : Json → String) (entityType : String) (entity : Json) : String :=
  "## AgamemnonEntity: " ++ entityType ++ "\n\n" ++ String.ofList openFence ++ dump entity
    ++ String.ofList closeFence ++ "\n"

/-- `parse_issue_entity_`. -/
def parseIssueEntity (parse : String → Option Json) (issue : Json) : Json :=
  match issue.get? "body" with
  | some (.string body) =>
      match Lists.cut openFence body.toList with
      | none => .null
      | some (_, rest) =>
          match Lists.cut closeFence rest with
          | none => .null
          | some (text, _) => (parse (String.ofList text)).getD .null
  | _ => .null

/-- The number of a listed issue in decimal, if it has one. -/
def issueNumber (issue : Json) : Except Exn (Option String) :=
  match issue.get? "number" with
  | none => .ok none
  | some n => do return some (toString (← n.getInt))

/-! ### Hydration -/

section Hydration

variable (parse : String → Option Json)

/-- The entity in a listed issue, with the number of the issue, and its identifier; none if the
issue is malformed. -/
def readEntity (issue : Json) : Except Exn (Option (String × Json)) :=
  let entity := parseIssueEntity parse issue
  if entity.isNull ∨ entity.contains "id" = false then .ok none
  else do
    let entity := match ← issueNumber issue with
      | none => entity
      | some number => entity.set "_github_issue" (.string number)
    let id ← ((entity.get? "id").getD .null).getString
    return some (id, entity)

/-- The loops of `ensure_agents_loaded_`, `ensure_teams_loaded_`, `ensure_tasks_loaded_` and
`ensure_faults_loaded_`. -/
def hydrateEntities (issues : List Json) (entities : StringMap Json) :
    Except Exn (StringMap Json) :=
  issues.foldlM (fun entities issue => do
    match ← readEntity parse issue with
    | none => return entities
    | some (id, entity) => return entities.insert id entity) entities

/-- A record in a listed issue, read by `read`, with the number of the issue; none if the issue
is malformed or reading it throws. -/
def readRecord {α : Type} (read : Json → Except Exn α) (issue : Json) :
    Option (α × Option String) :=
  let entity := parseIssueEntity parse issue
  if entity.isNull ∨ entity.contains "id" = false then none
  else
    match (do return (← read entity, ← issueNumber issue) : Except Exn (α × Option String)) with
    | .ok r => some r
    | .error _ => none

end Hydration

/-! ### Reading what was written -/

variable {dump : Json → String} {parse : String → Option Json}

theorem Issue.get?_toJson (i : Issue) :
  i.toJson.get? "body" = some (.string i.body) ∧ i.toJson.get? "number" = some (.integer i.number)
  := by
  have hget : ∀ k, i.toJson.get? k = _ := Json.get?_ofMembers (by simp)
  exact ⟨hget "body", hget "number"⟩

/-- The first line of a body. -/
def issueHeader (entityType : String) : List Char :=
  ("## AgamemnonEntity: " ++ entityType).toList ++ ['\n']

theorem toList_makeIssueBody (entityType : String) (entity : Json) :
  (makeIssueBody dump entityType entity).toList
    = issueHeader entityType ++ ['\n']
      ++ (openFence ++ ((dump entity).toList ++ (closeFence ++ ['\n'])))
  := by
  unfold makeIssueBody issueHeader
  simp only [String.toList_append, List.append_assoc]
  rw [@String.toList_ofList openFence, @String.toList_ofList closeFence]
  rfl

variable {entityType : String} {entity issue : Json}

/-- The entity written to an issue is found in it, if its type has no fence. -/
theorem parseIssueEntity_of_not_infix (hcodec : Codec dump parse)
    (hbody : issue.get? "body" = some (.string (makeIssueBody dump entityType entity)))
    (hheader : ¬ openFence <:+: issueHeader entityType) (hproper : entity.Proper) :
  parseIssueEntity parse issue = entity
  := by
  have hlines : ¬ openFence <:+: issueHeader entityType ++ ['\n'] := by
    intro hinfix
    rcases List.infix_concat_iff.mp hinfix with hends | hinfix
    · obtain ⟨t, ht⟩ := hends
      have hreverse := congrArg List.reverse ht
      simp [openFence, issueHeader] at hreverse
    · exact hheader hinfix
  have hopen : Lists.cut openFence (makeIssueBody dump entityType entity).toList
      = some (issueHeader entityType ++ ['\n'], (dump entity).toList ++ (closeFence ++ ['\n']))
    := by
    rw [toList_makeIssueBody]
    exact @Lists.cut_of_ends _ _ _ openFence.dropLast _ _ (by decide) hlines
  have hclose : Lists.cut closeFence ((dump entity).toList ++ (closeFence ++ ['\n']))
      = some ((dump entity).toList, ['\n'])
    := Lists.cut_of_not_infix (by decide) (hcodec.lines hproper)
  rw [parseIssueEntity, hbody]
  simp only [hopen, hclose, String.ofList_toList, hcodec.parse_dump hproper, Option.getD_some]

/-- If its type has a fence, what is read does not depend on the entity. -/
theorem parseIssueEntity_of_isInfix (hheader : openFence <:+: issueHeader entityType) :
  ∃ other, ∀ issue entity,
    issue.get? "body" = some (.string (makeIssueBody dump entityType entity)) →
    parseIssueEntity parse issue = other
  := by
  obtain ⟨u, v, hopen⟩ := Lists.exists_cut_append (by decide) hheader
  have hclosed : closeFence <:+: v ++ closeFence := (List.suffix_append v closeFence).isInfix
  obtain ⟨text, w, hclose⟩ := Lists.exists_cut_append (by decide) hclosed
  use (parse (String.ofList text)).getD .null
  intro issue entity hbody
  -- the second line and the fence proper look like the end of a block
  have hfence : v ++ (['\n'] ++ (openFence ++ ((dump entity).toList ++ (closeFence ++ ['\n']))))
      = v ++ closeFence ++ (['j', 's', 'o', 'n', '\n']
        ++ ((dump entity).toList ++ (closeFence ++ ['\n']))) := by
    simp [openFence, closeFence]
  rw [parseIssueEntity, hbody]
  simp only [toList_makeIssueBody, List.append_assoc, hopen]
  rw [hfence, hclose]

/-- Every entity is read back from the issues that it is written to with this type. -/
def RoundTrips (dump : Json → String) (parse : String → Option Json) (entityType : String) : Prop :=
  ∀ entity issue, entity.Proper →
    issue.get? "body" = some (.string (makeIssueBody dump entityType entity)) →
    parseIssueEntity parse issue = entity

/-- A type that contains a fence is not read over. -/
theorem not_roundTrips_of_infix (hheader : openFence <:+: issueHeader entityType) :
  ¬ RoundTrips dump parse entityType
  := by
  intro h
  obtain ⟨other, hother⟩ := @parseIssueEntity_of_isInfix dump parse _ hheader
  have hread : ∀ entity, entity.Proper → other = entity := by
    intro entity hproper
    have hbody : (Json.object
        [("body", .string (makeIssueBody dump entityType entity))]).get? "body"
        = some (.string (makeIssueBody dump entityType entity)) := by simp [Json.get?]
    rw [← hother _ _ hbody, h _ _ hproper hbody]
  cases (hread .null .null).symm.trans (hread (.boolean true) (.boolean true))

/-- Entities are read back from their issues if and only if the type does not bring an opening
fence into the first line. -/
theorem roundTrips_iff (hcodec : Codec dump parse) (entityType : String) :
  RoundTrips dump parse entityType ↔ ¬ openFence <:+: issueHeader entityType
  := by
  constructor
  · intro h hheader
    exact not_roundTrips_of_infix hheader h
  · intro hheader entity issue hproper hbody
    exact parseIssueEntity_of_not_infix hcodec hbody hheader hproper

/-- The texts that are printed in the issues of a brief are read again. -/
theorem roundTrips_iff_harmlessBrief :
  Codec Json.print Json.read ∧ RoundTrips Json.print Json.read "briefs/b1"
  := ⟨Json.codec, (roundTrips_iff Json.codec "briefs/b1").mpr (by decide)⟩

/-- A brief whose identifier is an opening fence is not read back. -/
theorem not_roundTrips_fencedBrief :
  Codec Json.print Json.read ∧ ¬ RoundTrips Json.print Json.read ("briefs/" ++ "```json")
  := by
  use Json.codec
  apply not_roundTrips_of_infix
  decide

/-- The entity written to an issue is found in it. -/
theorem parseIssueEntity_makeIssueBody (hcodec : Codec dump parse) {i : Issue}
    (hbody : i.body = makeIssueBody dump entityType entity) (htype : '`' ∉ entityType.toList)
    (hproper : entity.Proper) :
  parseIssueEntity parse i.toJson = entity
  := by
  apply parseIssueEntity_of_not_infix hcodec (hbody ▸ i.get?_toJson.1) _ hproper
  intro hinfix
  have hmem : '`' ∈ issueHeader entityType := hinfix.subset List.mem_cons_self
  rw [issueHeader, String.toList_append, List.append_assoc, List.mem_append,
    List.mem_append] at hmem
  rcases hmem with hmem | hmem | hmem
  · revert hmem
    decide
  · exact htype hmem
  · revert hmem
    decide

/-- An issue with an entity in its fenced block. -/
def fencedIssue (n : ℕ) (entity : Json) : Issue where
  number := n
  title := "entity"
  body := makeIssueBody Json.print "entity" entity
  label := "agamemnon-entity"
  isOpen := true

theorem parseIssueEntity_fencedIssue (n : ℕ) (hproper : entity.Proper) :
  parseIssueEntity Json.read (fencedIssue n entity).toJson = entity
  := parseIssueEntity_makeIssueBody Json.codec rfl (by decide) hproper

/-- The number of a listed issue is read as the backend wrote it. -/
theorem issueNumber_toJson {i : Issue} (hnumber : i.number < 2 ^ 31) :
  issueNumber i.toJson = .ok (some (toString i.number))
  := by
  have hfits : -2 ^ 31 ≤ (i.number : ℤ) ∧ (i.number : ℤ) < 2 ^ 31 := by omega
  rw [issueNumber, i.get?_toJson.2]
  simp only [Json.getInt, wrapInt_of_fits hfits]
  rfl

variable {i : Issue} {id : String}

/-- An entity is read from the issue it was written to. -/
theorem readEntity_toJson (hcodec : Codec dump parse) (hnumber : i.number < 2 ^ 31)
    (hbody : i.body = makeIssueBody dump entityType entity) (htype : '`' ∉ entityType.toList)
    (hproper : entity.Proper) (hid : entity.get? "id" = some (.string id)) :
  readEntity parse i.toJson
    = .ok (some (id, entity.set "_github_issue" (.string (toString i.number))))
  := by
  have hobject : entity.isObject = true := by
    cases entity with
    | object ms => rfl
    | _ => contradiction
  have hnull : ¬ (entity.isNull = true ∨ entity.contains "id" = false) := by
    rw [Json.contains, hid]
    cases entity with
    | object ms => simp [Json.isNull]
    | _ => contradiction
  have hid' : (entity.set "_github_issue" (.string (toString i.number))).get? "id"
      = some (.string id) := by
    rw [Json.get?_set_of_ne hobject (by decide), hid]
  rw [readEntity, parseIssueEntity_makeIssueBody hcodec hbody htype hproper]
  simp only [hnull, ↓reduceIte, issueNumber_toJson hnumber]
  simp only [bind, Except.bind, hid', Option.getD_some, Json.getString]
  rfl

/-- A record is read from the issue it was written to. -/
theorem readRecord_toJson {α : Type} {read : Json → Except Exn α} {a : α}
    (hcodec : Codec dump parse) (hnumber : i.number < 2 ^ 31)
    (hbody : i.body = makeIssueBody dump entityType entity) (htype : '`' ∉ entityType.toList)
    (hproper : entity.Proper) (hid : entity.contains "id" = true) (hread : read entity = .ok a) :
  readRecord parse read i.toJson = some (a, some (toString i.number))
  := by
  have hnull : ¬ (entity.isNull = true ∨ entity.contains "id" = false) := by
    rw [hid]
    cases entity with
    | object ms => simp [Json.isNull]
    | _ => contradiction
  rw [readRecord, parseIssueEntity_makeIssueBody hcodec hbody htype hproper]
  simp only [hnull, ↓reduceIte, hread, issueNumber_toJson hnumber]
  rfl

end Agamemnon
