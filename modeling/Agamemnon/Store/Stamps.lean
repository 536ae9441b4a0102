import Agamemnon.Lib.Latest
import Agamemnon.Store.Events
import Mathlib.Order.WithBot

/-!
# The time stamps of inbound events

Edits are merged by their time stamps: a collection is a register for each identifier, and the
last writer wins (`edits_latest`).  The other actions are applied whatever their time stamp is,
so the time stamp of an entity can go back; it does not when they come in order
(`stamp_mono_iff`).
-/

namespace Agamemnon

open Memory

/-! ### Time stamps -/

theorem empty_le (s : String) :
  "" ≤ s
  := by
  apply not_lt.mp
  rw [String.lt_iff_toList_lt]
  apply List.not_lt_nil

theorem empty_lt {s : String} (h : s ≠ "") :
  "" < s
  := lt_of_le_of_ne (empty_le s) h.symm

/-- The time stamp of a stored entity; the least one if it has none that can be read. -/
def stamp (stored : Option Json) : String :=
  match readStamp stored with
  | .ok t => t
  | .error _ => ""

/-- No time stamp is newer than one that cannot be read. -/
def rank (stored : Option Json) : WithTop String :=
  match readStamp stored with
  | .ok t => t
  | .error _ => ⊤

section Merge

variable {action : IssueAction} {updatedAt : String} {entity : Json} {stored : Option Json}

theorem readStamp_set {j : Json} (hobject : j.isObject = true) (t : String) :
  readStamp (some (j.set "updatedAt" (.string t))) = .ok t
  := Json.valueString_of_get? (Json.get?_set_self hobject)

theorem isStale_eq (htime : updatedAt ≠ "") :
  isStale updatedAt stored
    = match readStamp stored with
      | .ok t => .ok (decide (updatedAt ≤ t))
      | .error exn => .error exn
  := by
  cases stored with
  | none =>
    have hlt : ¬ updatedAt ≤ "" := not_le.mpr (empty_lt htime)
    simp [isStale, readStamp, hlt]
  | some s =>
    rw [isStale, if_pos ⟨rfl, htime⟩]
    cases readStamp (some s) with
    | error exn => rfl
    | ok t =>
      have hiff : (t ≠ "" ∧ updatedAt ≤ t) ↔ updatedAt ≤ t := by
        constructor
        · rintro ⟨-, h⟩
          exact h
        · intro h
          refine ⟨?_, h⟩
          rintro rfl
          apply (empty_lt htime).not_ge h
      simp only [bind, Except.bind, pure, Except.pure, hiff]

/-- An edit is applied when it is newer than what is stored. -/
theorem merged_edit (hedit : action.isEdit = true) (htime : updatedAt ≠ "") :
  merged action updatedAt entity stored
    = if rank stored < updatedAt then some (entity.set "updatedAt" (.string updatedAt))
      else stored
  := by
  have hmerge : mergeEntity action updatedAt entity stored = (do
      if ← isStale updatedAt stored then return none
      return some (entity.set "updatedAt" (.string updatedAt))) := by
    cases action with
    | closed | reopened => contradiction
    | _ => rfl
  rw [merged, hmerge, isStale_eq htime, rank]
  cases readStamp stored with
  | error exn => simp [bind, Except.bind]
  | ok t =>
    simp only [bind, Except.bind, decide_eq_true_eq, WithTop.coe_lt_coe]
    by_cases ht : updatedAt ≤ t
    · rw [if_neg ht.not_gt, if_pos ht]
      rfl
    · rw [if_pos (not_le.mp ht), if_neg ht]
      rfl

end Merge

/-! ### Edits -/

variable {parse : String → Option Json} {c : Collection} {id : String}

/-- The event is an edit of the entity with the identifier `id`, with a time stamp. -/
structure NormalizedEvent.Edits (parse : String → Option Json) (c : Collection) (id : String)
    (e : NormalizedEvent) : Prop where
  isEdit : e.action.isEdit = true
  stamped : e.updatedAt ≠ ""
  brings : ∃ entity, e.Brings parse c id entity

/-- The entity that an edit stores. -/
def NormalizedEvent.entity (parse : String → Option Json) (e : NormalizedEvent) : Option Json :=
  match readEvent parse e.issueShape with
  | .ok (some (_, entity)) => some (entity.set "updatedAt" (.string e.updatedAt))
  | _ => none

variable {e : NormalizedEvent}

theorem NormalizedEvent.Brings.entity_eq {entity : Json} (h : e.Brings parse c id entity) :
  e.entity parse = some (entity.set "updatedAt" (.string e.updatedAt))
  := by rw [NormalizedEvent.entity, h.2]

/-- An edit is a write to the register of its entity. -/
theorem Memory.lookup_deliver_edit {m : Memory} (h : e.Edits parse c id) :
  ((m.deliver parse e).entities c).lookup id
    = Latest.write rank (fun e : NormalizedEvent => (e.updatedAt : WithTop String))
        (·.entity parse) ((m.entities c).lookup id) e
  := by
  obtain ⟨entity, hbrings⟩ := h.brings
  rw [lookup_deliver hbrings, merged_edit h.isEdit h.stamped, Latest.write, hbrings.entity_eq]

theorem rank_entity (h : e.Edits parse c id) :
  rank (e.entity parse) = e.updatedAt
  := by
  obtain ⟨entity, hbrings⟩ := h.brings
  rw [hbrings.entity_eq, rank, readStamp_set hbrings.isObject]

/-- Edits are writes to the register of their entity. -/
theorem Memory.lookup_foldl_deliver {events : List NormalizedEvent}
    (hedits : ∀ e ∈ events, e.Edits parse c id) (m : Memory) :
  ((events.foldl (deliver parse) m).entities c).lookup id
    = events.foldl (Latest.write rank (fun e : NormalizedEvent => (e.updatedAt : WithTop String))
        (·.entity parse)) ((m.entities c).lookup id)
  := by
  induction events generalizing m with
  | nil => rfl
  | cons e events ih =>
    rw [List.foldl_cons, List.foldl_cons, ← lookup_deliver_edit (hedits e List.mem_cons_self)]
    apply ih
    intro f hf
    exact hedits f (List.mem_cons_of_mem e hf)

theorem rank_lt_iff {stored : Option Json} {t : String} :
  rank stored < t ↔ ∃ t', readStamp stored = .ok t' ∧ t' < t
  := by
  rw [rank]
  cases readStamp stored with
  | error exn => simp
  | ok t' => simp [WithTop.coe_lt_coe]

/-- After edits of an entity, each time stamp belonging to one edit, the entity of the newest
edit is stored if it is newer than what was stored at first, and what was stored at first
otherwise.  Neither the order of the edits nor their repetition matters. -/
theorem Memory.edits_latest (m : Memory) (events : List NormalizedEvent)
    (hedits : ∀ e ∈ events, e.Edits parse c id)
    (hdistinct : ∀ e ∈ events, ∀ e' ∈ events, e.updatedAt = e'.updatedAt → e = e') :
  ((∃ e ∈ events, (∀ e' ∈ events, e'.updatedAt ≤ e.updatedAt)
      ∧ (∃ t, readStamp ((m.entities c).lookup id) = .ok t ∧ t < e.updatedAt)
      ∧ ((events.foldl (deliver parse) m).entities c).lookup id = e.entity parse)
    ∨ (∀ e ∈ events, ¬ ∃ t, readStamp ((m.entities c).lookup id) = .ok t ∧ t < e.updatedAt)
      ∧ ((events.foldl (deliver parse) m).entities c).lookup id = (m.entities c).lookup id)
  ∧ ∀ events' : List NormalizedEvent, (∀ e, e ∈ events' ↔ e ∈ events) →
      ((events'.foldl (deliver parse) m).entities c).lookup id
        = ((events.foldl (deliver parse) m).entities c).lookup id
  := by
  have hwinner : ∀ es : List NormalizedEvent, (∀ e ∈ es, e.Edits parse c id) →
      Latest.Winner rank (fun e : NormalizedEvent => (e.updatedAt : WithTop String))
        (·.entity parse) ((m.entities c).lookup id) es
        (((es.foldl (deliver parse) m).entities c).lookup id) := by
    intro es hes
    rw [lookup_foldl_deliver hes]
    apply Latest.winner_foldl
    intro e he
    exact rank_entity (hes e he)
  constructor
  · generalize hr : ((events.foldl (deliver parse) m).entities c).lookup id = r
    have h := hwinner events hedits
    rw [hr] at h
    cases h with
    | @newest e mem newer greatest =>
      left
      use e, mem
      refine ⟨?_, rank_lt_iff.mp newer, rfl⟩
      intro e' he'
      apply WithTop.coe_le_coe.mp (greatest e' he')
    | first newest =>
      right
      refine ⟨?_, rfl⟩
      intro e he hnewer
      apply (rank_lt_iff.mpr hnewer).not_ge (newest e he)
  · intro events' hmem
    symm
    apply Latest.Winner.unique _ hmem (hwinner events hedits)
    · apply hwinner
      intro e he
      exact hedits e ((hmem e).mp he)
    · intro e he e' he' htime
      exact hdistinct e he e' he' (WithTop.coe_injective htime)

/-- An agent with the description `text`. -/
def described (text : String) : Json :=
  .object [("id", .string "a"), ("taskDescription", .string text)]

/-- An event about the agent with the description `text`. -/
def describedEvent (action : IssueAction) (text updatedAt : String) : NormalizedEvent where
  action
  entityLabel := "agamemnon-agent"
  issueShape := (fencedIssue 7 (described text)).toJson
  updatedAt

theorem brings_describedEvent (action : IssueAction) (text updatedAt : String) :
  (describedEvent action text updatedAt).Brings Json.read .agents "a"
    ((described text).set "_github_issue" (.string (toString 7)))
  := by
  have hproper : (described text).Proper := by
    apply Json.Proper.object
    · exact List.pairwise_pair.mpr (show "id" < "taskDescription" by decide +kernel)
    · simp [Json.Proper.string]
  have hnumber : (fencedIssue 7 (described text)).number < 2 ^ 31 := by
    change 7 < 2 ^ 31
    decide
  refine ⟨rfl, ?_⟩
  rw [readEvent, describedEvent, parseIssueEntity_fencedIssue 7 hproper,
    issueNumber_toJson hnumber]
  rfl

/-- What the event leaves of the agent. -/
theorem lookup_describedEvent (m : Memory) (action : IssueAction) (text updatedAt : String) :
  ((m.deliver Json.read (describedEvent action text updatedAt)).entities .agents).lookup "a"
    = merged action updatedAt ((described text).set "_github_issue" (.string (toString 7)))
        ((m.entities .agents).lookup "a")
  := lookup_deliver (brings_describedEvent action text updatedAt)

/-- The memory with an agent that was opened in January. -/
def januaryMemory : Memory :=
  empty.deliver Json.read (describedEvent .opened "w" "2026-01-01T00:00:00Z")

/-- An edit of February, and one of March. -/
def springEdits : List NormalizedEvent :=
  [describedEvent .labeled "x" "2026-02-01T00:00:00Z",
    describedEvent .edited "y" "2026-03-01T00:00:00Z"]

/-- The edits, in the other order and one of them delivered twice. -/
theorem edits_latest_spring :
  ((springEdits.foldl (deliver Json.read) januaryMemory).entities .agents).lookup "a"
      = (describedEvent .edited "y" "2026-03-01T00:00:00Z").entity Json.read
    ∧ (((springEdits.reverse ++ springEdits.tail).foldl (deliver Json.read)
          januaryMemory).entities .agents).lookup "a"
      = (describedEvent .edited "y" "2026-03-01T00:00:00Z").entity Json.read
  := by
  have hedits : ∀ e ∈ springEdits, e.Edits Json.read .agents "a" := by
    intro e he
    simp only [springEdits, List.mem_cons, List.not_mem_nil, or_false] at he
    rcases he with rfl | rfl
    · exact ⟨rfl, by decide, _, brings_describedEvent _ _ _⟩
    · exact ⟨rfl, by decide, _, brings_describedEvent _ _ _⟩
  have hdistinct : ∀ e ∈ springEdits, ∀ e' ∈ springEdits, e.updatedAt = e'.updatedAt → e = e' := by
    intro e he e' he'
    simp only [springEdits, List.mem_cons, List.not_mem_nil, or_false] at he he'
    rcases he with rfl | rfl <;> rcases he' with rfl | rfl <;> simp [describedEvent]
  obtain ⟨hnewest, horder⟩ := edits_latest januaryMemory springEdits hedits hdistinct
  have hjanuary : readStamp ((januaryMemory.entities .agents).lookup "a")
      = .ok "2026-01-01T00:00:00Z" := by
    rw [januaryMemory, lookup_describedEvent]
    rfl
  have hmarch : ((springEdits.foldl (deliver Json.read)
      januaryMemory).entities .agents).lookup "a"
        = (describedEvent .edited "y" "2026-03-01T00:00:00Z").entity Json.read := by
    have hmem : describedEvent .edited "y" "2026-03-01T00:00:00Z" ∈ springEdits
      := List.mem_pair.mpr (.inr rfl)
    rcases hnewest with ⟨e, he, hgreatest, -, hstored⟩ | ⟨hnone, -⟩
    · rcases List.mem_pair.mp he with rfl | rfl
      · exact absurd (hgreatest _ hmem) (by decide)
      · exact hstored
    · exact absurd ⟨_, hjanuary, by decide⟩ (hnone _ hmem)
  refine ⟨hmarch, ?_⟩
  rw [horder, hmarch]
  intro e
  rw [List.mem_append, List.mem_reverse]
  exact or_iff_left_of_imp List.mem_of_mem_tail

/-! ### All actions -/

variable {action : IssueAction} {updatedAt : String} {entity j : Json} {stored : Option Json}

theorem stamp_set (hobject : j.isObject = true) (t : String) :
  stamp (some (j.set "updatedAt" (.string t))) = t
  := by rw [stamp, readStamp_set hobject]

/-- A value that is not an object has no time stamp. -/
theorem stamp_of_not_isObject (h : j.isObject = false) :
  stamp (some j) = ""
  := by
  cases j with
  | object ms => contradiction
  | _ => rfl

/-- An action that is not an edit gives a stored entity its own time stamp. -/
theorem stamp_merged_of_not_isEdit (haction : action.isEdit = false) (hobject : j.isObject = true) :
  stamp (merged action updatedAt entity (some j)) = updatedAt
  := by
  cases action with
  | closed =>
    apply stamp_set
    apply Json.isObject_set (Json.isObject_set hobject)
  | reopened =>
    apply stamp_set
    apply Json.isObject_set hobject
  | _ => contradiction

/-- An edit with a time stamp makes no entity older. -/
theorem stamp_le_merged_edit (hentity : entity.isObject = true) (hedit : action.isEdit = true)
    (htime : updatedAt ≠ "") :
  stamp stored ≤ stamp (merged action updatedAt entity stored)
  := by
  rw [merged_edit hedit htime]
  split
  · rename_i hnewer
    obtain ⟨t, hread, ht⟩ := rank_lt_iff.mp hnewer
    rw [stamp_set hentity, stamp, hread]
    exact ht.le
  · rfl

/-- An event makes an entity older when it is not an edit and is older than the entity. -/
theorem stamp_le_merged_iff (hentity : entity.isObject = true) (htime : updatedAt ≠ "") :
  stamp stored ≤ stamp (merged action updatedAt entity stored)
    ↔ (action.isEdit = false → stamp stored ≤ updatedAt)
  := by
  cases hedit : action.isEdit with
  | true => simp [stamp_le_merged_edit hentity hedit htime]
  | false =>
    rw [eq_self, true_imp_iff]
    cases stored with
    | none => exact iff_of_true (empty_le _) (empty_le _)
    | some j =>
      cases hobject : j.isObject with
      | true => rw [stamp_merged_of_not_isEdit hedit hobject]
      | false =>
        rw [stamp_of_not_isObject hobject]
        exact iff_of_true (empty_le _) (empty_le _)

/-- An edit is not applied to an entity that is as new. -/
theorem merged_edit_of_le (hedit : action.isEdit = true) (htime : updatedAt ≠ "")
    (h : updatedAt ≤ stamp stored) :
  merged action updatedAt entity stored = stored
  := by
  rw [merged_edit hedit htime, if_neg]
  intro hnewer
  obtain ⟨t, hread, ht⟩ := rank_lt_iff.mp hnewer
  rw [stamp, hread] at h
  exact ht.not_ge h

/-- An edit that is skipped as stale is no newer than the stored entity. -/
theorem le_stamp_of_isStale (h : isStale updatedAt stored = .ok true) :
  updatedAt ≠ "" ∧ updatedAt ≤ stamp stored
  := by
  have htime : updatedAt ≠ "" := by
    rintro rfl
    simp [isStale] at h
  refine ⟨htime, ?_⟩
  rw [isStale_eq htime] at h
  rw [stamp]
  split at h
  · simpa using h
  · cases h

/-- The time stamp of an entity after events. -/
def stampAfter (parse : String → Option Json) (m : Memory) (c : Collection) (id : String)
    (events : List NormalizedEvent) : String :=
  stamp (((events.foldl (deliver parse) m).entities c).lookup id)

/-- The time stamp of an entity does not go back at any event. -/
def StampsGrow (parse : String → Option Json) (m : Memory) (c : Collection) (id : String)
    (events : List NormalizedEvent) : Prop :=
  ∀ front e back, events = front ++ e :: back →
    stampAfter parse m c id front ≤ stampAfter parse m c id (front ++ [e])

/-- An edit that would be skipped as stale at some point is not applied at a later one. -/
def SkippedForGood (parse : String → Option Json) (m : Memory) (c : Collection) (id : String)
    (events : List NormalizedEvent) : Prop :=
  ∀ front middle back e, events = front ++ (middle ++ back) → e.action.isEdit = true →
    (∃ entity, e.Brings parse c id entity) →
    isStale e.updatedAt (((front.foldl (deliver parse) m).entities c).lookup id) = .ok true →
    ((((front ++ middle) ++ [e]).foldl (deliver parse) m).entities c).lookup id
      = (((front ++ middle).foldl (deliver parse) m).entities c).lookup id

variable {front : List NormalizedEvent} {m : Memory}

theorem stampAfter_le_iff (htime : e.updatedAt ≠ "") :
  stampAfter parse m c id front ≤ stampAfter parse m c id (front ++ [e])
    ↔ (e.action.isEdit = false → (∃ entity, e.Brings parse c id entity) →
        stampAfter parse m c id front ≤ e.updatedAt)
  := by
  rw [stampAfter, stampAfter, List.foldl_append, List.foldl_cons, List.foldl_nil]
  by_cases hbrings : ∃ entity, e.Brings parse c id entity
  · obtain ⟨entity, hentity⟩ := hbrings
    rw [lookup_deliver hentity, stamp_le_merged_iff hentity.isObject htime]
    constructor
    · intro h hedit _
      exact h hedit
    · intro h hedit
      exact h hedit ⟨entity, hentity⟩
  · rw [lookup_deliver_of_not (not_exists.mp hbrings)]
    simp [hbrings]

variable {events : List NormalizedEvent}

/-- Where the time stamp never goes back, it is at every later point as great. -/
theorem StampsGrow.le {middle back : List NormalizedEvent} (h : StampsGrow parse m c id events)
    (hevents : events = front ++ (middle ++ back)) :
  stampAfter parse m c id front ≤ stampAfter parse m c id (front ++ middle)
  := by
  induction middle generalizing front with
  | nil => rw [List.append_nil]
  | cons e middle ih =>
    have hstep := h front e (middle ++ back) hevents
    have hlater := @ih (front ++ [e]) (by simp [hevents])
    rw [List.append_cons front e middle]
    exact hstep.trans hlater

theorem StampsGrow.skippedForGood (h : StampsGrow parse m c id events) :
  SkippedForGood parse m c id events
  := by
  intro front middle back e hevents hedit hbrings hstale
  obtain ⟨entity, hentity⟩ := hbrings
  obtain ⟨htime, hle⟩ := le_stamp_of_isStale hstale
  have hlater := h.le hevents
  rw [stampAfter, stampAfter] at hlater
  rw [List.foldl_append, List.foldl_cons, List.foldl_nil, lookup_deliver hentity]
  exact merged_edit_of_le hedit htime (hle.trans hlater)

/-- The time stamp of an entity does not go back, and no edit that was skipped as stale is
applied later, when every event that closes or reopens the entity is as new as the entity. -/
theorem stamp_mono_iff (m : Memory) (events : List NormalizedEvent)
    (htime : ∀ e ∈ events, e.updatedAt ≠ "") :
  (StampsGrow parse m c id events ∧ SkippedForGood parse m c id events)
    ↔ ∀ front e back, events = front ++ e :: back → e.action.isEdit = false →
        (∃ entity, e.Brings parse c id entity) → stampAfter parse m c id front ≤ e.updatedAt
  := by
  have htime' : ∀ front e back, events = front ++ e :: back → e.updatedAt ≠ "" := by
    intro front e back hevents
    apply htime e
    simp [hevents]
  constructor
  · rintro ⟨h, -⟩ front e back hevents
    exact (stampAfter_le_iff (htime' front e back hevents)).mp (h front e back hevents)
  · intro h
    have hgrow : StampsGrow parse m c id events := by
      intro front e back hevents
      exact (stampAfter_le_iff (htime' front e back hevents)).mpr (h front e back hevents)
    exact ⟨hgrow, hgrow.skippedForGood⟩

/-- An agent that is edited in March and closed in April. -/
theorem stamp_mono_closed :
  StampsGrow Json.read januaryMemory .agents "a"
      [describedEvent .edited "y" "2026-03-01T00:00:00Z",
        describedEvent .closed "y" "2026-04-01T00:00:00Z"]
    ∧ SkippedForGood Json.read januaryMemory .agents "a"
      [describedEvent .edited "y" "2026-03-01T00:00:00Z",
        describedEvent .closed "y" "2026-04-01T00:00:00Z"]
  := by
  apply (stamp_mono_iff januaryMemory _ _).mpr
  · intro front e back hevents hedit hbrings
    rcases front with _ | ⟨e₁, _ | ⟨e₂, front⟩⟩
    · obtain ⟨rfl, -⟩ := List.cons.inj hevents
      contradiction
    · simp only [List.cons_append, List.nil_append, List.cons.injEq] at hevents
      obtain ⟨rfl, rfl, -⟩ := hevents
      rw [stampAfter, List.foldl_cons, List.foldl_nil, lookup_describedEvent, januaryMemory,
        lookup_describedEvent]
      decide +kernel
    · simp at hevents
  · simp [describedEvent]

/-- The closing of February is delivered after the edit of March.  It takes the time stamp back,
and an edit that was skipped as stale is then applied. -/
theorem stamp_goesBack :
  (∀ e ∈ [describedEvent .edited "y" "2026-03-01T00:00:00Z",
      describedEvent .closed "y" "2026-02-01T00:00:00Z"], e.updatedAt ≠ "")
    ∧ ¬ StampsGrow Json.read januaryMemory .agents "a"
      [describedEvent .edited "y" "2026-03-01T00:00:00Z",
        describedEvent .closed "y" "2026-02-01T00:00:00Z"]
    ∧ ¬ SkippedForGood Json.read januaryMemory .agents "a"
      [describedEvent .edited "y" "2026-03-01T00:00:00Z",
        describedEvent .closed "y" "2026-02-01T00:00:00Z"]
  := by
  refine ⟨by simp [describedEvent], ?_, ?_⟩
  · intro h
    have hback := h [describedEvent .edited "y" "2026-03-01T00:00:00Z"]
      (describedEvent .closed "y" "2026-02-01T00:00:00Z") [] rfl
    rw [stampAfter, stampAfter, List.foldl_append, List.foldl_cons, List.foldl_nil, List.foldl_cons,
      List.foldl_nil, januaryMemory] at hback
    simp only [lookup_describedEvent] at hback
    revert hback
    decide +kernel
  · intro h
    have happlied := h [describedEvent .edited "y" "2026-03-01T00:00:00Z"]
      [describedEvent .closed "y" "2026-02-01T00:00:00Z"] []
      (describedEvent .edited "x" "2026-02-15T00:00:00Z") rfl rfl
      ⟨_, brings_describedEvent _ _ _⟩ (by
        rw [List.foldl_cons, List.foldl_nil, lookup_describedEvent, januaryMemory,
          lookup_describedEvent]
        decide +kernel)
    rw [List.foldl_append, List.foldl_append, List.foldl_cons, List.foldl_nil, List.foldl_cons,
      List.foldl_nil, List.foldl_cons, List.foldl_nil, januaryMemory] at happlied
    simp only [lookup_describedEvent] at happlied
    have hstamps := congrArg stamp happlied
    revert hstamps
    decide +kernel

end Agamemnon
