import Agamemnon.Reconciler.Converge

/-!
# Rollback

A rollback sends five of the fields of a snapshot back to an agent that still exists, and all
fields that a new agent can have to one that was deleted.  `rollback_restores_iff` says after
which changes the fields have the values of the snapshot again.
-/

namespace Agamemnon.Reconciler

open Json

/-! ### Requests -/

section Restore

variable (sh : Shell) (snapshot : Json)

/-- The name under which the agent is looked for: `.name // empty` -/
def restoredName : String :=
  substituted <|
    match alternative (snapshot.get? "name") .null with
    | .null => []
    | v => [sh.text v]

/-- The body for an agent that exists. -/
def restorePatch : Json :=
  .ofMembers
    [("label", .string (sh.field [snapshot] "label" "")),
     ("program", .string (sh.field [snapshot] "program" "claude-code")),
     ("workingDirectory", .string (sh.field [snapshot] "workingDirectory" "")),
     ("programArgs", .string (sh.field [snapshot] "programArgs" "")),
     ("taskDescription", .string (sh.field [snapshot] "taskDescription" ""))]

/-- The body for an agent that does not exist. -/
def restoreBody : Json :=
  .ofMembers
    [("name", (snapshot.get? "name").getD .null),
     ("label", alternative (snapshot.get? "label") (.string "")),
     ("program", alternative (snapshot.get? "program") (.string "claude-code")),
     ("workingDirectory", alternative (snapshot.get? "workingDirectory") (.string "")),
     ("programArgs", alternative (snapshot.get? "programArgs") (.string "")),
     ("taskDescription", alternative (snapshot.get? "taskDescription") (.string "")),
     ("tags", alternative (snapshot.get? "tags") (.array [])),
     ("owner", alternative (snapshot.get? "owner") (.string "")),
     ("role", alternative (snapshot.get? "role") (.string "member"))]

/-- The request that restores the run state. -/
def restoreRunState (id : String) : StoreOp :=
  let status := sh.field [snapshot] "status" "offline"
  if status = "active" ∨ status = "online" then .startAgent id else .stopAgent id

/-- The requests of `restore_agent`.  A new agent gets the identifier `newId`. -/
def restoreAgent (newId : String) (agents : List Json) : List StoreOp :=
  let name := restoredName sh snapshot
  if name = "" then []
  else
    let id := match named agents name with
      | [] => ""
      | a :: rest => sh.id (a :: rest)
    if id = "" then
      .createAgent (restoreBody snapshot) ::
        if newId ≠ "" then [restoreRunState sh snapshot newId] else []
    else [.updateAgent id (restorePatch sh snapshot), restoreRunState sh snapshot id]

/-- The agent of a name after a rollback whose requests succeed. -/
def rollback (github : Bool) (env : StoreEnv) (s : Option Json) : Option Json :=
  (restoreAgent sh snapshot (substituted [env.uuid]) s.toList).foldl (afterRequest github env) s

end Restore

/-! ### Changes before the rollback -/

/-- An agent that the scripts find under a name. -/
structure Addressable (name : String) (a : Json) : Prop where
  isObject : a.isObject = true
  hasName : a.get? "name" = some (.string name)
  isCaptured : substituted [name] = name
  hasId : ∃ id, a.get? "id" = some (.string id) ∧ substituted [id] ≠ ""

/-- Runs of `apply_agent` for files with a name, and deletions by `--prune`. -/
inductive Changed (sh : Shell) (github : Bool) (name : String) (s : Option Json) :
    Option Json → Prop
  | refl : Changed sh github name s s
  | apply {s₁ s₂ : Option Json} {y : AgentYaml} {env : StoreEnv} (h : Changed sh github name s s₁)
      (named : y.applied.name = name) (drawn : substituted [env.uuid] ≠ "")
      (run : runApply sh y.applied github env s₁ = some s₂) : Changed sh github name s s₂
  | prune {s₁ : Option Json} (h : Changed sh github name s s₁) : Changed sh github name s none

/-- The fields that these runs can change. -/
def appliedFields : List String :=
  ["label", "program", "workingDirectory", "programArgs", "taskDescription", "tags", "owner",
    "role", "status"]

/-- The agent has the values of the snapshot. -/
def Restored (snapshot : Json) (s : Option Json) : Prop :=
  ∃ a, s = some a ∧ ∀ k ∈ appliedFields, a.get? k = snapshot.get? k

variable {github : Bool} {env : StoreEnv} {name : String} {a : Json}

section Changes

variable {sh : Shell} {d : Desired}

theorem Addressable.congr {b : Json} (h : Addressable name a) (hobject : b.isObject = true)
    (hname : b.get? "name" = a.get? "name") (hid : b.get? "id" = a.get? "id") :
  Addressable name b
  := ⟨hobject, hname.trans h.hasName, h.isCaptured, by rw [hid]; exact h.hasId⟩

theorem Addressable.set_status (h : Addressable name a) (status : Json) :
  Addressable name (a.set "status" status)
  := by
  apply h.congr (isObject_set h.isObject)
  · apply get?_set_of_ne h.isObject (by decide)
  · apply get?_set_of_ne h.isObject (by decide)

/-- A change never touches the identifier, and a body without a name keeps the name. -/
theorem Addressable.changedAgent (env : StoreEnv) {body : Json} (h : Addressable name a)
    (hbody : body.Proper) (hname : body.get? "name" = none) :
  Addressable name (changedAgent env body a)
  := by
  apply h.congr (isObject_changedAgent env body h.isObject)
  · rw [get?_changedAgent_of_not_mem h.isObject hbody (by decide), hname, Option.none_or]
  · rw [get?_changedAgent h.isObject hbody (by decide), if_pos (by decide)]

/-- A run for an agent that exists starts, stops or changes it, or leaves it. -/
theorem runApply_cases {s : Option Json} (h : runApply sh d github env (some a) = some s) :
  s = some a ∨ (∃ status, s = some (a.set "status" (.string status)))
    ∨ ∃ tags, s = some (changedAgent env (d.patchBody tags) a)
  := by
  by_cases hstate : StateFits d (sh.field [a] "status" "unknown")
  · by_cases hdrift : driftedFields sh d [a] = []
    · rw [runApply_of_unchanged github env (computeDrift_eq_unchanged.mpr ⟨hstate, hdrift⟩)] at h
      exact Or.inl (Option.some.inj h).symm
    · rw [runApply_of_driftedFields github env hstate hdrift] at h
      obtain ⟨tags, -, hs⟩ := Option.map_eq_some_iff.mp h
      exact Or.inr (Or.inr ⟨tags, hs.symm⟩)
  · obtain ⟨status, -, -, hrun⟩ := runApply_of_not_stateFits github env hstate
    rw [hrun] at h
    exact Or.inr (Or.inl ⟨status, (Option.some.inj h).symm⟩)

/-- The agent is found under its name after any changes. -/
theorem Changed.addressable {s s' : Option Json} (h : Changed sh github name s s')
    (hs : ∀ a ∈ s, Addressable name a) :
  ∀ a ∈ s', Addressable name a
  := by
  induction h with
  | refl => exact hs
  | prune _ _ => simp
  | apply _ hname hdrawn hrun ih =>
    rename_i s₁ s₂ y env _
    cases s₁ with
    | none =>
      cases htags : tagsArray y.applied.tags with
      | none =>
        rw [runApply_none_of_tags sh github env htags] at hrun
        cases hrun
      | some tags =>
        obtain ⟨a, hcreated, hobject, -, hhasName, hhasId, -⟩ := exists_created sh github env htags
        rw [hcreated] at hrun
        obtain rfl := Option.some.inj hrun
        rintro _ ⟨⟩
        rw [hname] at hhasName
        exact ⟨hobject, hhasName, hname ▸ substituted_substituted _, env.uuid, hhasId, hdrawn⟩
    | some a =>
      have ha : Addressable name a := ih a rfl
      rcases runApply_cases hrun with rfl | ⟨status, rfl⟩ | ⟨tags, rfl⟩
      · exact ih
      · rintro _ ⟨⟩
        apply ha.set_status
      · rintro _ ⟨⟩
        apply ha.changedAgent env (proper_patchBody _ tags)
        exact get?_ofMembers (by simp) "name"

end Changes

/-! ### What a rollback leaves -/

/-- The fields that are sent to an agent that exists. -/
def patchedFields : List String :=
  ["label", "program", "workingDirectory", "programArgs", "taskDescription"]

/-- The fields that are sent to a new agent only. -/
def unpatchedFields : List String :=
  ["tags", "owner", "role"]

/-- The field is a text that `$(...)` leaves as it is. -/
def PlainText (a : Json) (k : String) : Prop :=
  ∃ t, a.get? k = some (.string t) ∧ substituted [t] = t

/-- The field is there, and neither null nor false. -/
def Present (a : Json) (k : String) : Prop :=
  ∃ v, a.get? k = some v ∧ v ≠ .null ∧ v ≠ .boolean false

/-- The run state is one that a start or a stop leaves. -/
def RunStateKept (a : Json) : Prop :=
  a.get? "status" = some (.string "online") ∨ a.get? "status" = some (.string "offline")

/-- The condition under which a rollback restores the agent. -/
def RestoreFine (name : String) (snapshot : Json) (s : Option Json) : Prop :=
  if name = "" then Restored snapshot s
  else
    match s with
    | none => (∀ k ∈ patchedFields ++ unpatchedFields, Present snapshot k) ∧ RunStateKept snapshot
    | some a => (∀ k ∈ patchedFields, PlainText snapshot k)
        ∧ (∀ k ∈ unpatchedFields, a.get? k = snapshot.get? k) ∧ RunStateKept snapshot

/-- The run state after a rollback. -/
def restoredStatus (sh : Shell) (snapshot : Json) : String :=
  if sh.field [snapshot] "status" "offline" = "active"
      ∨ sh.field [snapshot] "status" "offline" = "online" then "online"
  else "offline"

section Values

variable {sh : Shell} {snapshot : Json}

theorem field_eq_iff (sh : Shell) (a : Json) (k dflt : String) :
  some (.string (sh.field [a] k dflt)) = a.get? k ↔ PlainText a k
  := by
  constructor
  · intro h
    exact ⟨_, h.symm, substituted_substituted _⟩
  · rintro ⟨t, ht, hplain⟩
    rw [field_of_get? dflt ht hplain, ht]

theorem alternative_eq_iff {v : Option Json} {d : Json} (hnull : d ≠ .null)
    (hfalse : d ≠ .boolean false) :
  some (alternative v d) = v ↔ ∃ w, v = some w ∧ w ≠ .null ∧ w ≠ .boolean false
  := by
  unfold alternative
  split <;> simp_all

theorem restoredStatus_eq_iff :
  some (.string (restoredStatus sh snapshot)) = snapshot.get? "status" ↔ RunStateKept snapshot
  := by
  constructor
  · intro h
    rw [RunStateKept, ← h, restoredStatus]
    split <;> simp
  · rintro (h | h)
    · rw [restoredStatus, field_of_get? "offline" h (substituted_plain _ (by decide)), h]
      simp
    · rw [restoredStatus, field_of_get? "offline" h (substituted_plain _ (by decide)), h]
      simp

theorem afterRequest_restoreRunState (id : String) (s : Option Json) :
  afterRequest github env s (restoreRunState sh snapshot id)
    = s.map (·.set "status" (.string (restoredStatus sh snapshot)))
  := by
  rw [restoreRunState, restoredStatus]
  split <;> rfl

theorem Addressable.restoredName_eq (h : Addressable name a) :
  restoredName sh a = name
  := by
  rw [restoredName, h.hasName]
  exact h.isCaptured

theorem Addressable.named_eq (h : Addressable name a) :
  named [a] name = [a]
  := by
  rw [named, List.filter_singleton, h.hasName]
  simp [isString]

theorem Addressable.id_ne (h : Addressable name a) :
  sh.id [a] ≠ ""
  := by
  obtain ⟨id, hid, hne⟩ := h.hasId
  rw [Shell.id, List.map_singleton, hid]
  exact hne

/-- An agent that exists is patched. -/
theorem rollback_some (hname : name ≠ "") (hsnapshot : Addressable name snapshot)
    (ha : Addressable name a) :
  rollback sh snapshot github env (some a)
    = some ((changedAgent env (restorePatch sh snapshot) a).set "status"
        (.string (restoredStatus sh snapshot)))
  := by
  rw [rollback, restoreAgent, hsnapshot.restoredName_eq, if_neg hname, Option.toList_some,
    ha.named_eq]
  simp only [if_neg ha.id_ne, List.foldl_cons, List.foldl_nil, afterRequest_restoreRunState]
  rfl

/-- An agent that does not exist is created. -/
theorem rollback_none {title : String} {agent : Json} (hname : name ≠ "")
    (hsnapshot : Addressable name snapshot) (hdrawn : substituted [env.uuid] ≠ "")
    (hnew : newAgent env (restoreBody snapshot) = .ok (title, agent)) :
  rollback sh snapshot github env none
    = some ((numbered github env agent).set "status" (.string (restoredStatus sh snapshot)))
  := by
  have hcreate : afterRequest github env none (.createAgent (restoreBody snapshot))
      = some (numbered github env agent) := by
    rw [afterRequest, hnew]
  rw [rollback, restoreAgent, hsnapshot.restoredName_eq, if_neg hname]
  simp only [Option.toList_none, named, List.filter_nil, if_true, if_pos hdrawn, List.foldl_cons,
    List.foldl_nil, hcreate, afterRequest_restoreRunState, Option.map_some]

theorem restored_iff {s : Json} :
  Restored snapshot (some s)
    ↔ (∀ k ∈ patchedFields, s.get? k = snapshot.get? k)
      ∧ (∀ k ∈ unpatchedFields, s.get? k = snapshot.get? k)
      ∧ s.get? "status" = snapshot.get? "status"
  := by
  have hfields : appliedFields = patchedFields ++ (unpatchedFields ++ ["status"]) := rfl
  simp only [Restored, Option.some.injEq, exists_eq_left', hfields, List.forall_mem_append,
    List.forall_mem_singleton]

theorem proper_restorePatch (sh : Shell) (snapshot : Json) :
  (restorePatch sh snapshot).Proper
  := by
  apply Json.Proper.ofMembers
  simp [Json.Proper.string]

theorem get?_restorePatch (sh : Shell) (snapshot : Json) :
  (∀ k ∈ patchedFields,
      ∃ dflt, (restorePatch sh snapshot).get? k = some (.string (sh.field [snapshot] k dflt)))
    ∧ ∀ k ∈ unpatchedFields, (restorePatch sh snapshot).get? k = none
  := by
  have hpatch : ∀ k, (restorePatch sh snapshot).get? k = _ := get?_ofMembers (by simp)
  simp only [patchedFields, unpatchedFields, List.forall_mem_cons, List.not_mem_nil, false_implies,
    implies_true, and_true]
  exact ⟨⟨⟨_, hpatch _⟩, ⟨_, hpatch _⟩, ⟨_, hpatch _⟩, ⟨_, hpatch _⟩, ⟨_, hpatch _⟩⟩, hpatch _,
    hpatch _, hpatch _⟩

/-- The patch restores its fields if they are plain texts, and leaves the other ones. -/
theorem restored_patch (hobject : a.isObject = true) :
  Restored snapshot (some ((changedAgent env (restorePatch sh snapshot) a).set "status"
      (.string (restoredStatus sh snapshot))))
    ↔ (∀ k ∈ patchedFields, PlainText snapshot k)
      ∧ (∀ k ∈ unpatchedFields, a.get? k = snapshot.get? k) ∧ RunStateKept snapshot
  := by
  have hchanged := isObject_changedAgent env (restorePatch sh snapshot) hobject
  have hget : ∀ k ∉ ["status", "id", "createdAt", "_github_issue", "updatedAt"],
      ((changedAgent env (restorePatch sh snapshot) a).set "status"
        (.string (restoredStatus sh snapshot))).get? k
      = ((restorePatch sh snapshot).get? k).or (a.get? k) := by
    intro k hk
    obtain ⟨hstatus, hk⟩ := List.ne_and_not_mem_of_not_mem_cons hk
    rw [get?_set_of_ne hchanged hstatus,
      get?_changedAgent_of_not_mem hobject (proper_restorePatch sh snapshot) hk]
  have hfree : ∀ k ∈ patchedFields ++ unpatchedFields,
      k ∉ ["status", "id", "createdAt", "_github_issue", "updatedAt"] := by decide
  obtain ⟨hpatched, hunpatched⟩ := get?_restorePatch sh snapshot
  rw [restored_iff, get?_set_self hchanged, restoredStatus_eq_iff]
  apply and_congr
  · apply forall₂_congr
    intro k hk
    obtain ⟨dflt, hk'⟩ := hpatched k hk
    rw [hget k (hfree k (List.mem_append_left _ hk)), hk', Option.some_or, field_eq_iff]
  · apply and_congr_left'
    apply forall₂_congr
    intro k hk
    rw [hget k (hfree k (List.mem_append_right _ hk)), hunpatched k hk, Option.none_or]

/-- A new agent has the members of a body that is accepted. -/
theorem get?_newAgent_of_body {body agent : Json} {title k : String} {v : Json}
    (h : newAgent env body = .ok (title, agent)) (hk : k ∈ patchedFields ++ unpatchedFields)
    (hv : body.get? k = some v) :
  agent.get? k = some v
  := by
  have hstring : ∀ {d s}, body.valueString k d = .ok s → v = .string s := by
    intro d s hs
    rw [valueString, valueWith_of_get? hv] at hs
    cases v with
    | string s' => rw [Except.ok.inj hs]
    | _ => cases hs
  have hjson : ∀ {d w}, body.valueJson k d = .ok w → v = w := by
    intro d w hw
    rw [valueJson, valueWith_of_get? hv] at hw
    exact Except.ok.inj hw
  obtain ⟨name, -, h⟩ := exists_of_bind_eq_ok h
  obtain ⟨label, hlabel, h⟩ := exists_of_bind_eq_ok h
  obtain ⟨program, hprogram, h⟩ := exists_of_bind_eq_ok h
  obtain ⟨workingDirectory, hworkingDirectory, h⟩ := exists_of_bind_eq_ok h
  obtain ⟨programArgs, hprogramArgs, h⟩ := exists_of_bind_eq_ok h
  obtain ⟨taskDescription, htaskDescription, h⟩ := exists_of_bind_eq_ok h
  obtain ⟨tags, htags, h⟩ := exists_of_bind_eq_ok h
  obtain ⟨owner, howner, h⟩ := exists_of_bind_eq_ok h
  obtain ⟨role, hrole, h⟩ := exists_of_bind_eq_ok h
  obtain ⟨host, -, h⟩ := exists_of_bind_eq_ok h
  obtain ⟨-, rfl⟩ := Prod.mk.inj (Except.ok.inj h)
  rw [get?_ofMembers (by simp)]
  simp only [patchedFields, unpatchedFields, List.cons_append, List.nil_append, List.mem_cons,
    List.not_mem_nil, or_false] at hk
  rcases hk with rfl | rfl | rfl | rfl | rfl | rfl | rfl | rfl
  · rw [hstring hlabel]; rfl
  · rw [hstring hprogram]; rfl
  · rw [hstring hworkingDirectory]; rfl
  · rw [hjson hprogramArgs]; rfl
  · rw [hstring htaskDescription]; rfl
  · rw [hjson htags]; rfl
  · rw [hstring howner]; rfl
  · rw [hstring hrole]; rfl

theorem get?_restoreBody (snapshot : Json) :
  ∀ k ∈ patchedFields ++ unpatchedFields, ∃ d : Json, d ≠ .null ∧ d ≠ .boolean false
    ∧ (restoreBody snapshot).get? k = some (alternative (snapshot.get? k) d)
  := by
  have hbody : ∀ k, (restoreBody snapshot).get? k = _ := get?_ofMembers (by simp)
  simp only [patchedFields, unpatchedFields, List.cons_append, List.nil_append,
    List.forall_mem_cons, List.not_mem_nil, false_implies, implies_true, and_true]
  refine ⟨⟨_, ?_, ?_, hbody _⟩, ⟨_, ?_, ?_, hbody _⟩, ⟨_, ?_, ?_, hbody _⟩, ⟨_, ?_, ?_, hbody _⟩,
    ⟨_, ?_, ?_, hbody _⟩, ⟨_, ?_, ?_, hbody _⟩, ⟨_, ?_, ?_, hbody _⟩, ⟨_, ?_, ?_, hbody _⟩⟩ <;> simp

/-- A new agent has the fields of the snapshot if they are there. -/
theorem restored_create {title : String} {agent : Json}
    (hnew : newAgent env (restoreBody snapshot) = .ok (title, agent)) :
  Restored snapshot (some ((numbered github env agent).set "status"
      (.string (restoredStatus sh snapshot))))
    ↔ (∀ k ∈ patchedFields ++ unpatchedFields, Present snapshot k) ∧ RunStateKept snapshot
  := by
  have hobject : agent.isObject = true := isObject_of_get? (get?_id_newAgent hnew)
  have hnumbered : (numbered github env agent).isObject = true
    := isObject_numbered github env hobject
  have hfree : ∀ k ∈ patchedFields ++ unpatchedFields, k ≠ "status" ∧ k ≠ "_github_issue"
    := by decide
  have hget : ∀ k ∈ patchedFields ++ unpatchedFields,
      (((numbered github env agent).set "status"
        (.string (restoredStatus sh snapshot))).get? k = snapshot.get? k ↔ Present snapshot k) := by
    intro k hk
    obtain ⟨hstatus, hissue⟩ := hfree k hk
    obtain ⟨d, hnull, hfalse, hbody⟩ := get?_restoreBody snapshot k hk
    have hagent : (numbered github env agent).get? k = agent.get? k := by
      rw [numbered]
      split
      · rw [get?_set_of_ne hobject hissue]
      · rfl
    rw [get?_set_of_ne hnumbered hstatus, hagent, get?_newAgent_of_body hnew hk hbody,
      alternative_eq_iff hnull hfalse, Present]
  rw [restored_iff, get?_set_self hnumbered, restoredStatus_eq_iff, ← and_assoc,
    ← List.forall_mem_append]
  apply and_congr_left'
  exact forall₂_congr hget

end Values

/-- After changes of an agent of a snapshot, a rollback restores the fields of an agent that was
deleted if they were there, and of an agent that still exists if the five that are sent are plain
texts and the other three have not been changed. -/
theorem rollback_restores_iff (sh : Shell) (github : Bool) (env : StoreEnv) (name : String)
    (snapshot : Json) (s : Option Json) (hsnapshot : Addressable name snapshot)
    (hchanged : Changed sh github name (some snapshot) s) (hdrawn : substituted [env.uuid] ≠ "")
    (hcalls : name ≠ "" → s = none → ∃ r, newAgent env (restoreBody snapshot) = .ok r) :
  Restored snapshot (rollback sh snapshot github env s) ↔ RestoreFine name snapshot s
  := by
  have haddressable : ∀ a ∈ s, Addressable name a := by
    apply hchanged.addressable
    rintro _ ⟨⟩
    exact hsnapshot
  unfold RestoreFine
  by_cases hname : name = ""
  · rw [if_pos hname, rollback, restoreAgent, hsnapshot.restoredName_eq, if_pos hname]
    rfl
  · rw [if_neg hname]
    cases s with
    | none =>
      obtain ⟨⟨title, agent⟩, hnew⟩ := hcalls hname rfl
      rw [rollback_none hname hsnapshot hdrawn hnew]
      exact restored_create hnew
    | some a =>
      have ha : Addressable name a := haddressable a rfl
      rw [rollback_some hname hsnapshot ha]
      exact restored_patch ha.isObject

/-- An agent of a snapshot. -/
def ownedAgent : Json :=
  .ofMembers
    [("id", .string "u"), ("name", .string "a"), ("label", .string "l"), ("program", .string "p"),
     ("workingDirectory", .string "/w"), ("programArgs", .string ""),
     ("taskDescription", .string ""), ("tags", .array []), ("owner", .string "o"),
     ("role", .string "member"), ("host", .string "local"), ("status", .string "online"),
     ("createdAt", .string (plainEnv.ts 0)), ("updatedAt", .string (plainEnv.ts 0))]

theorem addressable_ownedAgent :
  Addressable "a" ownedAgent
  := by
  have hget : ∀ k, ownedAgent.get? k = _ := get?_ofMembers (by simp)
  exact ⟨isObject_ofMembers _, hget "name", by decide, "u", hget "id", by decide⟩

/-- The agent is deleted and comes back. -/
theorem rollback_pruned :
  Restored ownedAgent (rollback plainShell ownedAgent false plainEnv none)
  := by
  have hget : ∀ k, ownedAgent.get? k = _ := get?_ofMembers (by simp)
  apply (rollback_restores_iff plainShell false plainEnv "a" ownedAgent none addressable_ownedAgent
    (.prune .refl) (by decide) fun _ _ => ⟨_, rfl⟩).mpr
  rw [RestoreFine, if_neg (by decide)]
  refine ⟨?_, Or.inl (hget "status")⟩
  simp only [patchedFields, unpatchedFields, List.cons_append, List.nil_append,
    List.forall_mem_cons, List.not_mem_nil, false_implies, implies_true, and_true]
  refine ⟨⟨_, hget _, ?_, ?_⟩, ⟨_, hget _, ?_, ?_⟩, ⟨_, hget _, ?_, ?_⟩, ⟨_, hget _, ?_, ?_⟩,
    ⟨_, hget _, ?_, ?_⟩, ⟨_, hget _, ?_, ?_⟩, ⟨_, hget _, ?_, ?_⟩, ⟨_, hget _, ?_, ?_⟩⟩ <;> simp

/-- A file for the agent with another owner. -/
def otherOwner : AgentYaml :=
  { plainYaml with
    label := .text "l"
    program := .text "p"
    workingDirectory := .text "/w"
    owner := .text "x" }

/-- The owner of the agent is changed, and the rollback does not change it back. -/
theorem rollback_otherOwner :
  ((runApply plainShell otherOwner.applied false plainEnv (some ownedAgent)).map fun s =>
      plainShell.field (rollback plainShell ownedAgent false plainEnv s).toList "owner" "")
      = some "x"
    ∧ plainShell.field [ownedAgent] "owner" "" = "o"
  := by
  decide +kernel

end Agamemnon.Reconciler
