import Agamemnon.Store.Effects

/-!
# Operations and inbound events

The service applies its own operations and the events that GitHub delivers in any order.  An
update gives an entity its own time stamp, so that older edits are skipped afterwards
(`update_wins`).  Nothing is remembered of an entity that was removed, so that any edit brings
it back (`deleted_stays_iff`).
-/

namespace Agamemnon

open StoreOp Deployment

/-! ### Runs -/

/-- A step of the service: an operation of its own, or the delivery of an event. -/
inductive Step where
  | operation (env : StoreEnv) (op : StoreOp)
  | delivery (e : NormalizedEvent)

variable {dump : Json → String} {parse : String → Option Json} {d : Deployment}
  {c : Collection} {id : String}

namespace Deployment

section Runs

variable (dump parse)

/-- What a step leaves. -/
def step (d : Deployment) : Step → Deployment
  | .operation env op => op.apply dump env d
  | .delivery e => { d with memory := d.memory.deliver parse e }

/-- What a run leaves. -/
def run (d : Deployment) (steps : List Step) : Deployment :=
  steps.foldl (step dump parse) d

/-- Every step of a run is as `P` says, given what it starts from. -/
def Along (P : Deployment → Step → Prop) : Deployment → List Step → Prop
  | _, [] => True
  | d, s :: steps => P d s ∧ Along P (d.step dump parse s) steps

/-- The deployments that the service gets to, from collections it read from issues. -/
inductive Reached : Deployment → Prop
  | start {d : Deployment}
      (hydrated : ∀ c, ∃ issues, hydrateEntities parse issues ∅ = .ok (d.memory.entities c)) :
      Reached d
  | step {d : Deployment} (s : Step) (reached : Reached d) : Reached (d.step dump parse s)

end Runs

theorem run_append (steps steps' : List Step) :
  d.run dump parse (steps ++ steps') = (d.run dump parse steps).run dump parse steps'
  := List.foldl_append

theorem run_snoc (steps : List Step) (s : Step) :
  d.run dump parse (steps ++ [s]) = (d.run dump parse steps).step dump parse s
  := run_append steps [s]

/-- What every step of a run keeps holds at its end. -/
theorem Along.invariant {P : Deployment → Step → Prop} {I : Deployment → Prop}
    (hstep : ∀ {d s}, P d s → I d → I (d.step dump parse s)) {steps : List Step}
    (h : Along dump parse P d steps) (hd : I d) :
  I (d.run dump parse steps)
  := by
  induction steps generalizing d with
  | nil => exact hd
  | cons s steps ih =>
    obtain ⟨hs, hsteps⟩ := h
    apply ih hsteps (hstep hs hd)

theorem stored_delivery {e : NormalizedEvent} {entity : Json} (h : e.Brings parse c id entity) :
  (d.step dump parse (.delivery e)).stored c id
    = merged e.action e.updatedAt entity (d.stored c id)
  := Memory.lookup_deliver h

theorem stored_delivery_of_not {e : NormalizedEvent} (h : ∀ entity, ¬ e.Brings parse c id entity) :
  (d.step dump parse (.delivery e)).stored c id = d.stored c id
  := Memory.lookup_deliver_of_not h

theorem run_deliveries (events : List NormalizedEvent) :
  d.run dump parse (events.map .delivery)
    = { d with memory := events.foldl (Memory.deliver parse) d.memory }
  := by
  induction events generalizing d with
  | nil => rfl
  | cons e events ih => exact ih

/-- A webhook delivers the event it was called with, if there is one. -/
theorem webhook_run (payload : Json) :
  { d with memory := match d.memory.webhook parse payload with
      | .ok (_, memory) => memory
      | .error _ => d.memory }
    = d.run dump parse ((normalizeIssuesEvent payload).toList.map .delivery)
  := by
  rw [run_deliveries, Memory.webhook]
  cases normalizeIssuesEvent payload with
  | none => rfl
  | some e => rfl

/-- A reconcile pass is a run of deliveries of entries it listed. -/
theorem reconcile_run (listed : Collection → Option (List Json)) :
  ∃ events : List NormalizedEvent,
    { d with memory := (d.memory.reconcileFromGithub parse listed).2 }
      = d.run dump parse (events.map .delivery)
    ∧ ∀ e ∈ events, ∃ c issues, listed c = some issues
      ∧ ∃ issue ∈ issues, Memory.reconcileEntry c issue = .ok e
  := by
  obtain ⟨events, hevents, hmem⟩ := Memory.reconcileFromGithub_eq listed d.memory
  use events
  rw [run_deliveries, hevents]
  exact ⟨rfl, hmem⟩

end Deployment

/-! ### Stored entities are objects -/

section Objects

variable {action : IssueAction} {entity j : Json} {stored : Option Json} {updatedAt : String}

/-- What is stored after an event is what was stored or what the event brings, with new values of
some members. -/
theorem exists_of_merged (h : merged action updatedAt entity stored = some j) :
  ∃ (base : Json) (members : List (String × Json)), (base = entity ∨ stored = some base)
    ∧ (∀ m ∈ members, m.1 ∈ ["status", "closedAt", "updatedAt"])
    ∧ j = members.foldl (fun j m => j.set m.1 m.2) base
  := by
  rw [merged] at h
  cases hmerge : mergeEntity action updatedAt entity stored with
  | error exn =>
    rw [hmerge] at h
    exact ⟨j, [], .inr h, by simp, rfl⟩
  | ok outcome =>
    rw [hmerge] at h
    cases outcome with
    | none => exact ⟨j, [], .inr h, by simp, rfl⟩
    | some j' =>
      obtain rfl := Option.some.inj h
      cases action with
      | closed =>
        cases stored with
        | none => cases hmerge
        | some old =>
          cases hmerge
          exact ⟨old, [("status", .string "closed"), ("closedAt", .string updatedAt),
            ("updatedAt", .string updatedAt)], .inr rfl, by simp, rfl⟩
      | reopened =>
        cases stored with
        | none =>
          cases hmerge
          exact ⟨entity, [], .inl rfl, by simp, rfl⟩
        | some old =>
          cases hmerge
          exact ⟨old, [("status", .string "active"), ("updatedAt", .string updatedAt)], .inr rfl,
            by simp, rfl⟩
      | _ =>
        obtain ⟨stale, -, hmerge⟩ := exists_of_bind_eq_ok hmerge
        cases stale with
        | true => cases hmerge
        | false =>
          cases hmerge
          exact ⟨entity, [("updatedAt", .string updatedAt)], .inl rfl, by simp, rfl⟩

/-- What is stored after an event is an object. -/
theorem isObject_merged (hentity : entity.isObject = true)
    (hstored : ∀ j, stored = some j → j.isObject = true)
    (h : merged action updatedAt entity stored = some j) :
  j.isObject = true
  := by
  obtain ⟨base, members, hbase, -, rfl⟩ := exists_of_merged h
  apply Json.isObject_foldl_set
  obtain rfl | hbase := hbase
  · exact hentity
  · exact hstored base hbase

/-- What a listed issue is read as is an object. -/
theorem isObject_of_readEntity {issue : Json}
    (h : readEntity parse issue = .ok (some (id, entity))) :
  entity.isObject = true
  := by
  rw [readEntity] at h
  split at h
  · cases h
  · rename_i hentity
    push Not at hentity
    have hobject := Json.isObject_of_contains (Bool.of_not_eq_false hentity.2)
    obtain ⟨number, -, h⟩ := exists_of_bind_eq_ok h
    obtain ⟨id', -, h⟩ := exists_of_bind_eq_ok h
    obtain ⟨rfl, rfl⟩ := Prod.mk.inj (Option.some.inj (Except.ok.inj h))
    cases number with
    | none => exact hobject
    | some number => apply Json.isObject_set hobject

/-- Every entity of a collection is an object. -/
def AllObjects (es : StringMap Json) : Prop :=
  ∀ id entity, es.lookup id = some entity → entity.isObject = true

theorem allObjects_hydrateEntities {issues : List Json} {es es' : StringMap Json}
    (hes : AllObjects es) (h : hydrateEntities parse issues es = .ok es') :
  AllObjects es'
  := by
  refine Lists.foldlM_invariant ?_ hes h
  intro es issue es' hes h
  obtain ⟨outcome, hread, h⟩ := exists_of_bind_eq_ok h
  cases outcome with
  | none =>
    obtain rfl := Except.ok.inj h
    exact hes
  | some r =>
    obtain ⟨id, entity⟩ := r
    obtain rfl := Except.ok.inj h
    intro id' entity' hlookup
    rw [lookup_insert_iff] at hlookup
    rcases hlookup with ⟨rfl, rfl⟩ | ⟨-, hlookup⟩
    · apply isObject_of_readEntity hread
    · apply hes id' entity' hlookup

theorem allObjects_step (hd : ∀ c, AllObjects (d.memory.entities c)) (s : Step) (c : Collection) :
  AllObjects ((d.step dump parse s).memory.entities c)
  := by
  intro id entity h
  cases s with
  | operation env op =>
    generalize hbefore : d.stored c id = before
    generalize hafter : (op.apply dump env d).stored c id = after
    have heffect := op.effect_apply dump env d c id
    rw [hbefore, hafter] at heffect
    obtain rfl : after = some entity := hafter.symm.trans h
    cases heffect with
    | same => exact hd c id entity hbefore
    | created _ _ identified => exact Json.isObject_of_get? identified
    | changed change => exact (stamp_change change (hd c id _ hbefore)).1
  | delivery e =>
    by_cases hbrings : ∃ entity, e.Brings parse c id entity
    · obtain ⟨brought, hbrings⟩ := hbrings
      have hafter := (@stored_delivery dump parse d c id e brought hbrings).symm.trans h
      apply isObject_merged hbrings.isObject _ hafter
      intro j hj
      exact hd c id j hj
    · have hafter := @stored_delivery_of_not dump parse d c id e
        (not_exists.mp hbrings)
      exact hd c id entity (hafter.symm.trans h)

/-- The entities of a deployment that the service gets to are objects. -/
theorem Deployment.Reached.allObjects (h : d.Reached dump parse) (c : Collection) :
  AllObjects (d.memory.entities c)
  := by
  induction h generalizing c with
  | start hydrated =>
    obtain ⟨issues, hissues⟩ := hydrated c
    apply allObjects_hydrateEntities _ hissues
    intro id entity hlookup
    rw [Finmap.lookup_empty] at hlookup
    contradiction
  | step s reached ih => exact allObjects_step ih s c

end Objects

/-! ### Updates and older edits -/

namespace Step

/-- The clock has not gone back since the time `t`, and what is drawn is unused. -/
def Later (t : String) (d : Deployment) : Step → Prop
  | operation env op =>
      (∀ i, t ≤ env.ts i) ∧ ∀ c, op.creates = some c → d.stored c env.uuid = none
  | delivery _ => True

/-- The step neither removes an entity nor takes its time stamp back before the time `t`: an
edit has a time stamp, and another action on the entity is not older. -/
def Spares (parse : String → Option Json) (t : String) (c : Collection) (id : String) :
    Step → Prop
  | operation _ op => op.removes ≠ some (c, id)
  | delivery e => ∀ entity, e.Brings parse c id entity →
      if e.action.isEdit = true then e.updatedAt ≠ "" else t ≤ e.updatedAt

end Step

section Updates

variable {t : String}

/-- An entity is stored, and has been since the time `t`. -/
def Deployment.Since (t : String) (c : Collection) (id : String) (d : Deployment) : Prop :=
  ∃ entity, d.stored c id = some entity ∧ entity.isObject = true ∧ t ≤ stamp (some entity)

/-- An event that brings an entity leaves one stored. -/
theorem exists_merged {action : IssueAction} {updatedAt : String} {entity j : Json} :
  ∃ j', merged action updatedAt entity (some j) = some j'
  := by
  rw [merged]
  split
  · rename_i entity' _
    use entity'
  · use j

theorem Deployment.Since.step {s : Step} (hlater : s.Later t d) (hspares : s.Spares parse t c id)
    (h : d.Since t c id) :
  (d.step dump parse s).Since t c id
  := by
  obtain ⟨entity, hstored, hobject, ht⟩ := h
  cases s with
  | operation env op =>
    obtain ⟨hclock, hfresh⟩ := hlater
    have heffect := op.effect_apply dump env d c id
    rw [hstored] at heffect
    generalize hafter : (op.apply dump env d).stored c id = after at heffect
    cases heffect with
    | same => exact ⟨entity, hafter, hobject, ht⟩
    | created creates drawn _ =>
      have hunused := hfresh c creates
      rw [← drawn, hstored] at hunused
      contradiction
    | @changed f _ change =>
      obtain ⟨hobject', hstamp⟩ := stamp_change change hobject
      refine ⟨f entity, hafter, hobject', ?_⟩
      rw [hstamp]
      split
      · obtain ⟨i, hi⟩ := op.exists_time_eq env
        rw [hi]
        apply hclock
      · exact ht
    | removed removes => exact absurd removes hspares
  | delivery e =>
    by_cases hbrings : ∃ entity, e.Brings parse c id entity
    · obtain ⟨brought, hbrings⟩ := hbrings
      have hafter := @stored_delivery dump parse d c id e brought hbrings
      rw [hstored] at hafter
      obtain ⟨entity', hentity'⟩ := @exists_merged e.action e.updatedAt brought entity
      have hobject' : entity'.isObject = true := by
        apply isObject_merged hbrings.isObject _ hentity'
        rintro j ⟨⟩
        exact hobject
      refine ⟨entity', hafter.trans hentity', hobject', ?_⟩
      rw [← hentity']
      have haction := hspares brought hbrings
      split at haction
      · rename_i hedit
        exact ht.trans (stamp_le_merged_edit hbrings.isObject hedit haction)
      · rename_i hedit
        rw [stamp_merged_of_not_isEdit (Bool.of_not_eq_true hedit) hobject]
        exact haction
    · refine ⟨entity, ?_, hobject, ht⟩
      rw [stored_delivery_of_not (not_exists.mp hbrings), hstored]

/-- After an update of an entity at the time `t`, or after another change of an entity that has
a time stamp as new, an edit that is not newer than `t` leaves the entity as it is: as long as
no step in between removes the entity or takes its time stamp back. -/
theorem Deployment.update_wins {env : StoreEnv} {op : StoreOp} (hd : d.Reached dump parse)
    (hmutates : op.Mutates env d c id)
    (hstamp : op.stamps = true ∨ op.time env ≤ stamp (d.stored c id)) (steps : List Step)
    (hsteps : Along dump parse
      (fun d s => s.Later (op.time env) d ∧ s.Spares parse (op.time env) c id)
      (op.apply dump env d) steps)
    {e : NormalizedEvent} (he : e.Edits parse c id) (hold : e.updatedAt ≤ op.time env) :
  ((op.apply dump env d).run dump parse (steps ++ [.delivery e])).stored c id
    = ((op.apply dump env d).run dump parse steps).stored c id
  := by
  have hsince : (op.apply dump env d).Since (op.time env) c id := by
    obtain ⟨f, entity, hchange, hstored, haccepts⟩ := hmutates
    obtain ⟨hobject, hchanged⟩ := stamp_change hchange (hd.allObjects c id entity hstored)
    refine ⟨f entity, stored_apply hchange hstored haccepts, hobject, ?_⟩
    rw [hchanged]
    split
    · rfl
    · rename_i hstamps
      rw [← hstored]
      exact hstamp.resolve_left hstamps
  obtain ⟨entity, hstored, -, ht⟩ : ((op.apply dump env d).run dump parse steps).Since _ c id
    := hsteps.invariant (fun hs h => h.step hs.1 hs.2) hsince
  obtain ⟨brought, hbrings⟩ := he.brings
  rw [run_snoc, stored_delivery hbrings, hstored]
  exact merged_edit_of_le he.isEdit he.stamped (hold.trans ht)

/-- The deployment with an agent that was opened in January. -/
def januaryDeployment : Deployment :=
  { empty with memory := januaryMemory }

theorem reached_januaryDeployment :
  januaryDeployment.Reached Json.print Json.read
  := by
  apply Deployment.Reached.step (d := .empty)
    (.delivery (describedEvent .opened "w" "2026-01-01T00:00:00Z"))
  apply Deployment.Reached.start
  intro c
  use []
  cases c <;> rfl

/-- What an operation takes from outside on a day of April. -/
def aprilEnv : StoreEnv where
  uuid := "b"
  number := 8
  now := fun _ => ⟨2026, 4, 1, 0, 0, 0⟩

/-- The agent is updated in April and closed in May, and an edit of February is late. -/
theorem update_wins_april :
  let d := (updateAgent "a" (.ofMembers [("owner", .string "o")])).apply Json.print
    aprilEnv januaryDeployment
  (d.run Json.print Json.read
      [.delivery (describedEvent .closed "w" "2026-05-01T00:00:00Z"),
        .delivery (describedEvent .edited "x" "2026-02-01T00:00:00Z")]).stored .agents "a"
    = (d.run Json.print Json.read
      [.delivery (describedEvent .closed "w" "2026-05-01T00:00:00Z")]).stored .agents "a"
  := by
  have haccepts : ∀ agent, (updateAgent "a"
      (.ofMembers [("owner", .string "o")])).Accepts agent := fun _ => rfl
  apply update_wins reached_januaryDeployment ⟨_, _, rfl, rfl, haccepts _⟩ (.inl rfl)
    [.delivery (describedEvent .closed "w" "2026-05-01T00:00:00Z")]
  · refine ⟨⟨trivial, ?_⟩, trivial⟩
    intro entity _
    decide +kernel
  · exact ⟨rfl, by decide, _, brings_describedEvent _ _ _⟩
  · decide +kernel

/-- The agent is started in April, and an edit of February is applied after that. -/
theorem start_loses :
  januaryDeployment.Reached Json.print Json.read
    ∧ (startAgent "a").Mutates aprilEnv januaryDeployment .agents "a"
    ∧ (describedEvent .edited "x" "2026-02-01T00:00:00Z").Edits Json.read .agents "a"
    ∧ "2026-02-01T00:00:00Z" ≤ (startAgent "a").time aprilEnv
    ∧ (((startAgent "a").apply Json.print aprilEnv januaryDeployment).run Json.print
        Json.read [.delivery (describedEvent .edited "x" "2026-02-01T00:00:00Z")]).stored
          .agents "a"
      ≠ ((startAgent "a").apply Json.print aprilEnv januaryDeployment).stored
          .agents "a"
  := by
  refine ⟨reached_januaryDeployment, ⟨_, _, rfl, rfl, trivial⟩,
    ⟨rfl, by decide, _, brings_describedEvent _ _ _⟩, by decide +kernel, ?_⟩
  intro h
  have hstamps := congrArg stamp h
  revert hstamps
  decide +kernel

end Updates

/-! ### Removed entities -/

/-- An edit brings an entity back that is not stored, whatever its time stamp is. -/
theorem merged_edit_none {action : IssueAction} {updatedAt : String} {entity : Json}
    (hedit : action.isEdit = true) :
  merged action updatedAt entity none = some (entity.set "updatedAt" (.string updatedAt))
  := by
  cases action with
  | closed | reopened => contradiction
  | _ => simp [merged, mergeEntity, isStale, bind, Except.bind, pure, Except.pure]

/-- The event is an edit of the entity with the identifier `id` that is not newer than `t`. -/
structure NormalizedEvent.Late (parse : String → Option Json) (c : Collection) (id t : String)
    (e : NormalizedEvent) : Prop where
  isEdit : e.action.isEdit = true
  brings : ∃ entity, e.Brings parse c id entity
  late : e.updatedAt ≤ t

/-- In the run `steps`, an operation removes the entity with the identifier `id`, and the edit
`e`, which is not newer than the operation, is delivered later, after the steps `front`. -/
structure Deployment.DeliveredLate (dump : Json → String) (parse : String → Option Json)
    (c : Collection) (id : String) (d : Deployment) (steps front : List Step)
    (e : NormalizedEvent) : Prop where
  delivered : front ++ [.delivery e] <+: steps
  removed : ∃ before env op middle, front = before ++ .operation env op :: middle
    ∧ op.removes = some (c, id)
    ∧ (d.run dump parse before).stored c id ≠ none
    ∧ (d.run dump parse (before ++ [.operation env op])).stored c id = none
    ∧ e.Late parse c id (op.time env)

/-- No late edit makes an entity that was removed present again, when none is delivered while
the entity is absent. -/
theorem Deployment.deleted_stays_iff (d : Deployment) (steps : List Step) :
  (∀ front e, d.DeliveredLate dump parse c id steps front e →
      (d.run dump parse front).stored c id = none →
      (d.run dump parse (front ++ [.delivery e])).stored c id = none)
    ↔ ∀ front e, d.DeliveredLate dump parse c id steps front e →
        (d.run dump parse front).stored c id ≠ none
  := by
  constructor
  · intro h front e hlate habsent
    have hstays := h front e hlate habsent
    obtain ⟨before, env, op, middle, -, -, -, -, hedit, ⟨entity, hbrings⟩, -⟩ := hlate.removed
    rw [run_snoc, stored_delivery hbrings, habsent, merged_edit_none hedit] at hstays
    contradiction
  · intro h front e hlate habsent
    exact absurd habsent (h front e hlate)

/-- The agent is deleted in April, and an edit of February brings it back. -/
theorem deleted_comesBack :
  januaryDeployment.Reached Json.print Json.read
    ∧ januaryDeployment.DeliveredLate Json.print Json.read .agents "a"
      [.operation aprilEnv (.deleteAgent "a"),
        .delivery (describedEvent .edited "x" "2026-02-01T00:00:00Z")]
      [.operation aprilEnv (.deleteAgent "a")]
      (describedEvent .edited "x" "2026-02-01T00:00:00Z")
    ∧ (januaryDeployment.run Json.print Json.read
        [.operation aprilEnv (.deleteAgent "a")]).stored .agents "a" = none
    ∧ (januaryDeployment.run Json.print Json.read
        [.operation aprilEnv (.deleteAgent "a"),
          .delivery (describedEvent .edited "x" "2026-02-01T00:00:00Z")]).stored .agents "a" ≠ none
  := by
  refine ⟨reached_januaryDeployment, ⟨⟨[], rfl⟩, ?_⟩, rfl, ?_⟩
  · refine ⟨[], aprilEnv, .deleteAgent "a", [], rfl, rfl, ?_, rfl,
      ⟨rfl, ⟨_, brings_describedEvent _ _ _⟩, by decide +kernel⟩⟩
    apply Option.isSome_iff_ne_none.mp
    decide +kernel
  · apply Option.isSome_iff_ne_none.mp
    decide +kernel

end Agamemnon
