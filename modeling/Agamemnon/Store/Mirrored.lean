import Agamemnon.Store.Operations

/-!
# The issues mirror the collections

After every operation, the open issues with the label of a collection hold the entries of the
collection, each of them once: `Mirrored`.  An operation writes a single issue, so the other
collections are not affected.
-/

namespace Agamemnon

open Github

/-! ### What the issues hold -/

section Held

variable {β : Type}

/-- What the issue with a number holds, when `f` reads it. -/
def Github.held (f : Issue → Option β) (g : Github) (number : String) : Option β :=
  (g.lookup number).bind f

theorem Github.held_insert (f : Issue → Option β) (g : Github) (number : String) (i : Issue) :
  held f (g.insert number i) = Function.update (held f g) number (f i)
  := by
  funext n
  by_cases hn : n = number
  · subst hn
    rw [Function.update_self, held, Finmap.lookup_insert]
    rfl
  · rw [Function.update_of_ne hn, held, held, Finmap.lookup_insert_of_ne _ hn]

/-- An issue that holds nothing may be written where none was held. -/
theorem Github.held_insert_of_none {f : Issue → Option β} {g : Github} {number : String} {i : Issue}
    (hi : f i = none) (hold : held f g number = none) :
  held f (g.insert number i) = held f g
  := by
  rw [held_insert, hi, ← hold, Function.update_eq_self]

end Held

variable {i : Issue} (parse : String → Option Json)

/-- The entity in an open issue with the label. -/
def entityOf (label : String) (i : Issue) : Option (String × Json) :=
  if i.isOpen = true ∧ i.label = label then
    match readEntity parse i.toJson with
    | .ok r => r
    | .error _ => none
  else none

/-- The record in an open issue with the label, under the key `key`. -/
def recordOf {α : Type} (read : Json → Except Exn α) (key : α → String) (label : String)
    (i : Issue) : Option (String × α) :=
  if i.isOpen = true ∧ i.label = label then
    (readRecord parse read i.toJson).map fun r => (key r.1, r.1)
  else none

/-- The HMAS task in an issue. -/
def hmasTaskOf : Issue → Option (String × HmasTask) :=
  recordOf parse hmasTaskFromJson (·.id) "agamemnon-hmas-task"

/-- The brief in an issue. -/
def briefOf : Issue → Option (String × TaskBrief) :=
  recordOf parse taskBriefFromJson (·.id) "agamemnon-brief"

variable {parse} {dump : Json → String} {label : String}

theorem entityOf_of_label_ne (h : i.label ≠ label) :
  entityOf parse label i = none
  := if_neg fun h' => h h'.2

theorem entityOf_of_closed (h : i.isOpen = false) :
  entityOf parse label i = none
  := by
  apply if_neg
  rw [h]
  simp

theorem recordOf_of_label_ne {α : Type} {read : Json → Except Exn α} {key : α → String}
    (h : i.label ≠ label) :
  recordOf parse read key label i = none
  := if_neg fun h' => h h'.2

/-- The issue is listed under the label, and its number is an `int`. -/
structure Issue.Listed (i : Issue) (label : String) : Prop where
  small : i.number < 2 ^ 31
  isOpen : i.isOpen = true
  label : i.label = label

theorem entityOf_of_readEntity {r : String × Json} (hi : i.Listed label)
    (h : readEntity parse i.toJson = .ok (some r)) :
  entityOf parse label i = some r
  := by
  rw [entityOf, if_pos ⟨hi.isOpen, hi.label⟩, h]

/-- A record is found in the issue it was written to. -/
theorem recordOf_eq {α : Type} {read : Json → Except Exn α} {key : α → String} {a : α}
    {folder : String} {entity : Json} (hcodec : Codec dump parse) (hi : i.Listed label)
    (hbody : i.body = makeIssueBody dump (folder ++ key a) entity) (hfolder : '`' ∉ folder.toList)
    (hkey : '`' ∉ (key a).toList) (hproper : entity.Proper)
    (hid : entity.get? "id" = some (.string (key a))) (hread : read entity = .ok a) :
  recordOf parse read key label i = some (key a, a)
  := by
  have hplain : '`' ∉ (folder ++ key a).toList := by
    rw [String.toList_append, List.mem_append, not_or]
    exact ⟨hfolder, hkey⟩
  have hcontains : entity.contains "id" = true := by
    rw [Json.contains, hid]
    rfl
  rw [recordOf, if_pos ⟨hi.isOpen, hi.label⟩,
    readRecord_toJson hcodec hi.small hbody hplain hproper hcontains hread]
  rfl

/-! ### Collections of entities -/

/-- What is always true of an entity of a collection under its identifier. -/
structure Collection.Holds (c : Collection) (id : String) (e : Json) : Prop where
  proper : e.Proper
  member : e.get? "id" = some (.string id)
  plain : '`' ∉ id.toList
  teamId : c = .tasks → ∃ teamId, e.get? "teamId" = some (.string teamId)

/-- The issues mirror a collection of entities. -/
structure EntitiesMirrored (parse : String → Option Json) (c : Collection) (es : StringMap Json)
    (g : Github) : Prop where
  mirror : Mirror es (g.held (entityOf parse c.label))
  readable : ∀ {n i}, g.lookup n = some i → i.isOpen = true → i.label = c.label →
    ∃ r, readEntity parse i.toJson = .ok r
  holds : ∀ {id e}, es.lookup id = some e → c.Holds id e

/-- Every issue is stored under its number, which is an `int`. -/
def Github.Numbered (g : Github) : Prop :=
  ∀ ⦃n : String⦄ ⦃i : Issue⦄, g.lookup n = some i → n = toString i.number ∧ i.number < 2 ^ 31

theorem Github.Numbered.insert {g : Github} (hg : g.Numbered) (hi : i.number < 2 ^ 31) :
  Github.Numbered (g.insert (toString i.number) i)
  := by
  intro n j h
  rcases lookup_insert_iff.mp h with ⟨rfl, rfl⟩ | ⟨-, h⟩
  · exact ⟨rfl, hi⟩
  · apply hg h

variable {g : Github} {number : String}

section Entities

variable {c : Collection} {es : StringMap Json} {id : String} {e : Json}

theorem Collection.plain_entityType (c : Collection) (hid : '`' ∉ id.toList) :
  '`' ∉ (c.entityType id).toList
  := by
  cases c
  all_goals
    rw [Collection.entityType, String.toList_append, List.mem_append, not_or]
    exact ⟨by decide, hid⟩

theorem Collection.Holds.isObject (h : c.Holds id e) :
  e.isObject = true
  := by
  have hmember := h.member
  cases e with
  | object ms => rfl
  | _ => contradiction

/-- Other members may be assigned. -/
theorem Collection.Holds.set (h : c.Holds id e) {k : String} {v : Json} (hid : "id" ≠ k)
    (hteam : "teamId" ≠ k) (hv : v.Proper) :
  c.Holds id (e.set k v)
  where
  proper := h.proper.set h.isObject hv
  member := by rw [Json.get?_set_of_ne h.isObject hid, h.member]
  plain := h.plain
  teamId := by
    rw [Json.get?_set_of_ne h.isObject hteam]
    apply h.teamId

/-- An entity that is read carries the number of its issue. -/
theorem get?_of_readEntity (hsmall : i.number < 2 ^ 31)
    (h : readEntity parse i.toJson = .ok (some (id, e))) :
  e.get? "_github_issue" = some (.string (toString i.number))
  := by
  rw [readEntity] at h
  simp only [issueNumber_toJson hsmall] at h
  split at h
  · cases Except.ok.inj h
  · rename_i hcontains
    obtain ⟨number, hnumber, h⟩ := exists_of_bind_eq_ok h
    obtain rfl := Except.ok.inj hnumber
    obtain ⟨id', -, h⟩ := exists_of_bind_eq_ok h
    obtain ⟨-, rfl⟩ := Prod.mk.inj (Option.some.inj (Except.ok.inj h))
    apply Json.get?_set_self
    rw [not_or, Bool.not_eq_false] at hcontains
    apply Json.isObject_of_contains hcontains.2

/-- The issue of an entity that is stored. -/
theorem EntitiesMirrored.exists_issue (h : EntitiesMirrored parse c es g) (hg : g.Numbered)
    (he : es.lookup id = some e) :
  ∃ i, g.lookup (toString i.number) = some i ∧ i.Listed c.label
    ∧ entityOf parse c.label i = some (id, e)
    ∧ e.get? "_github_issue" = some (.string (toString i.number))
  := by
  obtain ⟨n, hn⟩ := h.mirror.exists_record he
  obtain ⟨i, hi, hentity⟩ := Option.bind_eq_some_iff.mp hn
  obtain ⟨rfl, hsmall⟩ := hg hi
  have hread := hentity
  rw [entityOf] at hread
  split at hread
  · rename_i hopen
    split at hread
    · rename_i r hr
      subst hread
      exact ⟨i, hi, ⟨hsmall, hopen.1, hopen.2⟩, hentity, get?_of_readEntity hsmall hr⟩
    · contradiction
  · contradiction

/-- An issue with another label is written. -/
theorem EntitiesMirrored.frame (h : EntitiesMirrored parse c es g) (hlabel : i.label ≠ c.label)
    (hold : ∀ old, g.lookup number = some old → old.label ≠ c.label) :
  EntitiesMirrored parse c es (g.insert number i)
  where
  mirror := by
    rw [held_insert_of_none (entityOf_of_label_ne hlabel)]
    · exact h.mirror
    · rw [held]
      cases hn : g.lookup number with
      | none => rfl
      | some old => apply entityOf_of_label_ne (hold old hn)
  readable := forall_lookup_insert (fun _ hlabel' => absurd hlabel' hlabel) h.readable
  holds := h.holds

/-- A new entity and its issue. -/
theorem EntitiesMirrored.create (h : EntitiesMirrored parse c es g) (hcodec : Codec dump parse)
    (hn : g.lookup (toString i.number) = none) (hi : i.Listed c.label)
    (hbody : i.body = makeIssueBody dump (c.entityType id) e) (hid : es.lookup id = none)
    (he : c.Holds id e) :
  EntitiesMirrored parse c (es.insert id (e.set "_github_issue" (.string (toString i.number))))
    (g.insert (toString i.number) i)
  := by
  have hread := readEntity_toJson hcodec hi.small hbody (c.plain_entityType he.plain) he.proper
    he.member
  constructor
  · rw [held_insert, entityOf_of_readEntity hi hread]
    apply h.mirror.add _ hid
    rw [held, hn]
    rfl
  · exact forall_lookup_insert (fun _ _ => ⟨_, hread⟩) h.readable
  · exact forall_lookup_insert (he.set (by decide) (by decide) (.string _)) h.holds

/-- A changed entity, written to its issue. -/
theorem EntitiesMirrored.write (h : EntitiesMirrored parse c es g) (hcodec : Codec dump parse)
    {e' : Json} (hi : g.lookup (toString i.number) = some i) (hlisted : i.Listed c.label)
    (hentity : entityOf parse c.label i = some (id, e)) (he' : c.Holds id e')
    (hnumber : e'.get? "_github_issue" = some (.string (toString i.number))) :
  EntitiesMirrored parse c (es.insert id e')
    (g.insert (toString i.number) { i with body := makeIssueBody dump (c.entityType id) e' })
  := by
  have hread : readEntity parse (Issue.toJson
      { i with body := makeIssueBody dump (c.entityType id) e' }) = .ok (some (id, e')) := by
    rw [readEntity_toJson (i := { i with body := makeIssueBody dump (c.entityType id) e' }) hcodec
      hlisted.small rfl (c.plain_entityType he'.plain) he'.proper he'.member,
      he'.proper.set_eq_self hnumber]
  have hentity' : entityOf parse c.label
      { i with body := makeIssueBody dump (c.entityType id) e' } = some (id, e')
    := entityOf_of_readEntity ⟨hlisted.small, hlisted.isOpen, hlisted.label⟩ hread
  constructor
  · rw [held_insert, hentity']
    apply h.mirror.rewrite (a := e)
    rw [held, hi]
    exact hentity
  · exact forall_lookup_insert (fun _ _ => ⟨_, hread⟩) h.readable
  · exact forall_lookup_insert he' h.holds

/-- An entity is dropped, and its issue closed. -/
theorem EntitiesMirrored.remove (h : EntitiesMirrored parse c es g)
    (hi : g.lookup (toString i.number) = some i)
    (hentity : entityOf parse c.label i = some (id, e)) :
  EntitiesMirrored parse c (es.erase id)
    (g.insert (toString i.number) { i with isOpen := false })
  := by
  have hclosed : entityOf parse c.label { i with isOpen := false } = none := entityOf_of_closed rfl
  constructor
  · rw [held_insert, hclosed]
    apply h.mirror.remove (a := e)
    rw [held, hi]
    exact hentity
  · exact forall_lookup_insert nofun h.readable
  · intro id' e' he'
    by_cases hid : id' = id
    · subst hid
      rw [Finmap.lookup_erase] at he'
      contradiction
    · rw [Finmap.lookup_erase_ne hid] at he'
      apply h.holds he'

end Entities

/-! ### Tasks and briefs -/

/-- The issues mirror the HMAS tasks, and the number of the issue of each of them is known. -/
structure TasksMirrored (parse : String → Option Json) (ts : StringMap HmasTask)
    (numbers : StringMap String) (g : Github) : Prop where
  mirror : Mirror ts (g.held (hmasTaskOf parse))
  numbers : ∀ {n id t}, g.held (hmasTaskOf parse) n = some (id, t) → numbers.lookup id = some n
  holds : ∀ {id t}, ts.lookup id = some t → t.id = id ∧ '`' ∉ id.toList ∧ t.IssueFits

/-- An issue with another label is written. -/
theorem held_recordOf_of_label_ne {α : Type} {read : Json → Except Exn α} {key : α → String}
    (hlabel : i.label ≠ label) (hold : ∀ old, g.lookup number = some old → old.label ≠ label) :
  held (recordOf parse read key label) (g.insert number i)
    = g.held (recordOf parse read key label)
  := by
  apply held_insert_of_none (recordOf_of_label_ne hlabel)
  rw [held]
  cases hn : g.lookup number with
  | none => rfl
  | some old => apply recordOf_of_label_ne (hold old hn)

section Tasks

variable {ts : StringMap HmasTask} {numbers : StringMap String} {t : HmasTask}

/-- A task is found in the issue it was written to. -/
theorem hmasTaskOf_eq (hcodec : Codec dump parse) (hi : i.Listed "agamemnon-hmas-task")
    (hbody : i.body = makeIssueBody dump ("hmas-tasks/" ++ t.id) (hmasTaskToJson t))
    (hissue : t.IssueFits) (hid : '`' ∉ t.id.toList) :
  hmasTaskOf parse i = some (t.id, t)
  := recordOf_eq hcodec hi hbody (by decide) hid (hmasTaskToJson_proper hissue)
    (Json.get?_ofMembers (by simp) "id") (hmasTaskFromJson_toJson hissue)

theorem TasksMirrored.frame (h : TasksMirrored parse ts numbers g)
    (hlabel : i.label ≠ "agamemnon-hmas-task")
    (hold : ∀ old, g.lookup number = some old → old.label ≠ "agamemnon-hmas-task") :
  TasksMirrored parse ts numbers (g.insert number i)
  := by
  have hheld : held (hmasTaskOf parse) (g.insert number i) = g.held (hmasTaskOf parse)
    := held_recordOf_of_label_ne hlabel hold
  constructor
  · rw [hheld]
    exact h.mirror
  · rw [hheld]
    exact h.numbers
  · exact h.holds

/-- A new task and its issue. -/
theorem TasksMirrored.create (h : TasksMirrored parse ts numbers g) (hcodec : Codec dump parse)
    (hn : g.lookup (toString i.number) = none) (hi : i.Listed "agamemnon-hmas-task")
    (hbody : i.body = makeIssueBody dump ("hmas-tasks/" ++ t.id) (hmasTaskToJson t))
    (hissue : t.IssueFits) (hid : '`' ∉ t.id.toList) (hunused : ts.lookup t.id = none) :
  TasksMirrored parse (ts.insert t.id t) (numbers.insert t.id (toString i.number))
    (g.insert (toString i.number) i)
  := by
  have htask := hmasTaskOf_eq hcodec hi hbody hissue hid
  have hnone : g.held (hmasTaskOf parse) (toString i.number) = none := by
    rw [held, hn]
    rfl
  constructor
  · rw [held_insert, htask]
    apply h.mirror.add hnone hunused
  · intro n id u hu
    rw [held_insert] at hu
    by_cases heq : n = toString i.number
    · subst heq
      rw [Function.update_self, htask] at hu
      obtain ⟨rfl, rfl⟩ := Prod.mk.inj (Option.some.inj hu)
      apply Finmap.lookup_insert
    · rw [Function.update_of_ne heq] at hu
      rw [Finmap.lookup_insert_of_ne]
      · apply h.numbers hu
      · rintro rfl
        rw [h.mirror.lookup hu] at hunused
        contradiction
  · exact forall_lookup_insert ⟨rfl, hid, hissue⟩ h.holds

/-- A changed task, written to its issue. -/
theorem TasksMirrored.write (h : TasksMirrored parse ts numbers g) (hcodec : Codec dump parse)
    (hg : g.Numbered) {old : HmasTask} (hold : ts.lookup t.id = some old) (hissue : t.IssueFits) :
  ∃ i, g.lookup (toString i.number) = some i ∧ i.number < 2 ^ 31
    ∧ i.label = "agamemnon-hmas-task" ∧ numbers.lookup t.id = some (toString i.number)
    ∧ TasksMirrored parse (ts.insert t.id t) numbers
      (g.insert (toString i.number)
        { i with body := makeIssueBody dump ("hmas-tasks/" ++ t.id) (hmasTaskToJson t) })
  := by
  obtain ⟨n, hn⟩ := h.mirror.exists_record hold
  obtain ⟨i, hi, htask⟩ := Option.bind_eq_some_iff.mp hn
  obtain ⟨rfl, hsmall⟩ := hg hi
  obtain ⟨hopen, hlabel⟩ : i.isOpen = true ∧ i.label = "agamemnon-hmas-task" := by
    by_contra hclosed
    rw [hmasTaskOf, recordOf, if_neg hclosed] at htask
    contradiction
  have hid := (h.holds hold).2.1
  have htask' : hmasTaskOf parse
      { i with body := makeIssueBody dump ("hmas-tasks/" ++ t.id) (hmasTaskToJson t) }
      = some (t.id, t) := hmasTaskOf_eq hcodec ⟨hsmall, hopen, hlabel⟩ rfl hissue hid
  refine ⟨i, hi, hsmall, hlabel, h.numbers hn, ?_⟩
  constructor
  · rw [held_insert, htask']
    apply h.mirror.rewrite hn
  · intro m id u hu
    rw [held_insert] at hu
    by_cases heq : m = toString i.number
    · subst heq
      rw [Function.update_self, htask'] at hu
      obtain ⟨rfl, rfl⟩ := Prod.mk.inj (Option.some.inj hu)
      apply h.numbers hn
    · rw [Function.update_of_ne heq] at hu
      apply h.numbers hu
  · exact forall_lookup_insert ⟨rfl, hid, hissue⟩ h.holds

end Tasks

variable {bs : StringMap TaskBrief} {b : TaskBrief}

/-- A brief is found in the issue it was written to. -/
theorem briefOf_eq (hcodec : Codec dump parse) (hi : i.Listed "agamemnon-brief")
    (hbody : i.body = makeIssueBody dump ("briefs/" ++ b.id) (taskBriefToJson b))
    (hfull : b.Full) (hid : '`' ∉ b.id.toList) :
  briefOf parse i = some (b.id, b)
  := recordOf_eq hcodec hi hbody (by decide) hid (taskBriefToJson_proper b)
    (Json.get?_ofMembers (by simp) "id")
    ((taskBriefFromJson_toJson b).trans (by rw [trimmed_of_full hfull]))

/-- A new brief and its issue. -/
theorem mirror_createBrief (h : Mirror bs (g.held (briefOf parse))) (hcodec : Codec dump parse)
    (hn : g.lookup (toString i.number) = none) (hi : i.Listed "agamemnon-brief")
    (hbody : i.body = makeIssueBody dump ("briefs/" ++ b.id) (taskBriefToJson b))
    (hfull : b.Full) (hid : '`' ∉ b.id.toList) (hunused : bs.lookup b.id = none) :
  Mirror (bs.insert b.id b) (held (briefOf parse) (g.insert (toString i.number) i))
  := by
  have hnone : g.held (briefOf parse) (toString i.number) = none := by
    rw [held, hn]
    rfl
  rw [held_insert, briefOf_eq hcodec hi hbody hfull hid]
  apply h.add hnone hunused

end Agamemnon
