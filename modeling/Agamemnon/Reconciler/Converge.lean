import Agamemnon.Reconciler.Drift
import Agamemnon.Reconciler.Prune
import Agamemnon.Store.Effects

/-!
# Applying a file until nothing changes

`apply_agent` creates the agent of a file, starts or stops it, or sends the fields that
differ.  The comparison is also made for the model and the deployment, but neither is ever
sent in a change, and the server drops both when it creates an agent.  `converges_iff` says for
which files and agents two runs are enough.
-/

namespace Agamemnon.Reconciler

open Json

/-! ### Requests -/

/-- The array of tags in a request, unless `jq` refuses what `echo` and `split` have made. -/
def tagsArray (csv : String) : Option (List String) :=
  if csv = "" then some []
  else
    match echo csv with
    | [line] => some (if line = "" then [] else commaParts line)
    | _ => none

/-- The fields that `apply_agent` sends for an agent that exists. -/
def Desired.patchBody (d : Desired) (tags : List String) : Json :=
  .ofMembers
    [("label", .string d.label), ("program", .string d.program),
     ("workingDirectory", .string d.workdir), ("programArgs", .string d.args),
     ("taskDescription", .string d.desc), ("tags", .ofStrings tags), ("owner", .string d.owner),
     ("role", .string d.role)]

/-- `build_create_json` -/
def Desired.createBody (d : Desired) (tags : List String) : Json :=
  .ofMembers
    [("name", .string d.name), ("label", .string d.label), ("program", .string d.program),
     ("workingDirectory", .string d.workdir), ("programArgs", .string d.args),
     ("taskDescription", .string d.desc), ("tags", .ofStrings tags), ("owner", .string d.owner),
     ("role", .string d.role), ("model", if d.model = "" then .null else .string d.model),
     ("deployment", .ofMembers [("type", .string d.deployTypeOrLocal)])]

variable (sh : Shell) (d : Desired)

/-- The requests of `apply_agent` for the agents it has found, unless it is aborted.  A new
agent gets the identifier `newId`. -/
def applyAgent (newId : String) : List Json → Option (List StoreOp)
  | [] => (tagsArray d.tags).map fun tags =>
      .createAgent (d.createBody tags) ::
        if d.state = "active" ∧ newId ≠ "" then [.startAgent newId] else []
  | a :: rest =>
      let docs := a :: rest
      let id := sh.id docs
      let status := sh.field docs "status" "unknown"
      match computeDrift sh d docs with
      | .wake => some [.startAgent id]
      | .hibernate => some [.stopAgent id]
      | .update _ => (tagsArray d.tags).map fun tags =>
          .updateAgent id (d.patchBody tags) ::
            if d.state = "active" ∧ status = "offline" then [.startAgent id]
            else if d.state = "hibernated" ∧ (status = "active" ∨ status = "online") then
              [.stopAgent id]
            else []
      | _ => some []

/-- The stored form of a new agent, which has a number if there is an issue for it. -/
def numbered (github : Bool) (env : StoreEnv) (agent : Json) : Json :=
  if github then agent.set "_github_issue" (.string (toString env.number)) else agent

/-- The agent of a name after a request that succeeds. -/
def afterRequest (github : Bool) (env : StoreEnv) (s : Option Json) : StoreOp → Option Json
  | .createAgent body =>
      match newAgent env body with
      | .ok (_, agent) => some (numbered github env agent)
      | .error _ => s
  | .updateAgent _ body => s.map (changedAgent env body)
  | .startAgent _ => s.map (·.set "status" (.string "online"))
  | .stopAgent _ => s.map (·.set "status" (.string "offline"))
  | .deleteAgent _ => none
  | _ => s

/-- The agent of a name after a run of `apply_agent` whose requests succeed. -/
def runApply (github : Bool) (env : StoreEnv) (s : Option Json) : Option (Option Json) :=
  (applyAgent sh d (substituted [env.uuid]) s.toList).map (·.foldl (afterRequest github env) s)

/-- The agents that the operations of the server make. -/
inductive Produced : Json → Prop
  | create {env : StoreEnv} {body agent : Json} {title : String} (github : Bool)
      (h : newAgent env body = .ok (title, agent)) : Produced (numbered github env agent)
  | update {agent : Json} (env : StoreEnv) (body : Json) (h : Produced agent) :
      Produced (changedAgent env body agent)
  | start {agent : Json} (h : Produced agent) : Produced (agent.set "status" (.string "online"))
  | stop {agent : Json} (h : Produced agent) : Produced (agent.set "status" (.string "offline"))

/-! ### What the server keeps -/

variable {sh d} {env : StoreEnv} {agent : Json}

theorem isObject_numbered (github : Bool) (env : StoreEnv) (hobject : agent.isObject = true) :
  (numbered github env agent).isObject = true
  := by
  rw [numbered]
  split
  · apply isObject_set hobject
  · exact hobject

theorem isObject_changedAgent (env : StoreEnv) (body : Json) (hobject : agent.isObject = true) :
  (changedAgent env body agent).isObject = true
  := isObject_set (isObject_assignFields hobject _ body)

theorem Produced.isObject (h : Produced agent) :
  agent.isObject = true
  := by
  induction h with
  | create github h => apply isObject_numbered github _ (isObject_of_get? (get?_id_newAgent h))
  | update env body _ ih => apply isObject_changedAgent env body ih
  | start _ ih | stop _ ih => apply isObject_set ih

/-- A request for a stored agent changes it as `afterRequest` says. -/
theorem stored_afterRequest {dump : Json → String} {dep : Deployment} {op : StoreOp} {id : String}
    {f : Json → Json} (github : Bool) (hchange : op.change env = some (.agents, id, f))
    (hstored : dep.stored .agents id = some agent) (haccepts : op.Accepts agent) :
  (op.apply dump env dep).stored .agents id = afterRequest github env (some agent) op
  := by
  rw [StoreOp.stored_apply hchange hstored haccepts]
  cases op with
  | updateAgent id' body | startAgent id' | stopAgent id' => cases hchange; rfl
  | _ => simp [StoreOp.change] at hchange

/-- A change assigns the members of the request that are not kept. -/
theorem get?_assignFields {kept : List String} {k : String} :
  ∀ {ms : List (String × Json)} {agent : Json}, agent.isObject = true →
    ms.Pairwise (fun x y => x.1 < y.1) →
    (assignFields kept (.object ms) agent).get? k
      = if k ∈ kept then agent.get? k else (ms.lookup k).or (agent.get? k)
  | [], _, _, _ => by simp [assignFields]
  | (k', v') :: ms, agent, hobject, hsorted => by
      obtain ⟨hhead, hsorted⟩ := List.pairwise_cons.mp hsorted
      have hstep : assignFields kept (.object ((k', v') :: ms)) agent
          = assignFields kept (.object ms) (if k' ∈ kept then agent else agent.set k' v') := rfl
      rw [hstep, Lists.lookup_cons]
      split
      · rename_i hkept
        rw [get?_assignFields hobject hsorted]
        by_cases hk : k ∈ kept
        · simp [hk]
        · rw [if_neg hk, if_neg hk, if_neg (by rintro rfl; exact hk hkept)]
      · rename_i hkept
        rw [get?_assignFields (isObject_set hobject) hsorted]
        by_cases hk : k = k'
        · subst hk
          have hnone : ms.lookup k = none := by
            rw [List.lookup_eq_none_iff]
            intro m hm
            exact bne_iff_ne.mpr (ne_of_lt (hhead m hm))
          rw [if_neg hkept, if_neg hkept, hnone, get?_set_self hobject]
          simp
        · rw [get?_set_of_ne hobject hk, if_neg hk]

/-- What a change with a value of the library leaves of a member. -/
theorem get?_changedAgent {body : Json} {k : String} (hobject : agent.isObject = true)
    (hbody : body.Proper) (hk : k ≠ "updatedAt") :
  (changedAgent env body agent).get? k
    = if k ∈ ["id", "createdAt", "_github_issue", "updatedAt"] then agent.get? k
      else (body.get? k).or (agent.get? k)
  := by
  rw [changedAgent, get?_set_of_ne (isObject_assignFields hobject _ body) hk]
  cases hbody with
  | object sorted members => rw [get?_assignFields hobject sorted, get?]
  | _ => simp [assignFields, get?]

/-- A change keeps the fields that it does not name. -/
theorem get?_changedAgent_of_not_mem {body : Json} {k : String} (hobject : agent.isObject = true)
    (hbody : body.Proper) (hk : k ∉ ["id", "createdAt", "_github_issue", "updatedAt"]) :
  (changedAgent env body agent).get? k = (body.get? k).or (agent.get? k)
  := by
  rw [get?_changedAgent hobject hbody (by rintro rfl; simp at hk), if_neg hk]

/-! ### The fields of one agent -/

/-- The tags of a request come back as the file has them. -/
def TagsAgree (sh : Shell) (csv : String) : Prop :=
  ∃ tags, tagsArray csv = some tags
    ∧ substituted [",".intercalate (tags.mergeSort (· ≤ ·))] = sh.sortedTags csv

/-- The agent has the fields of a request. -/
structure Written (d : Desired) (tags : List String) (a : Json) : Prop where
  label : a.get? "label" = some (.string d.label)
  program : a.get? "program" = some (.string d.program)
  workdir : a.get? "workingDirectory" = some (.string d.workdir)
  args : a.get? "programArgs" = some (.string d.args)
  desc : a.get? "taskDescription" = some (.string d.desc)
  tags : a.get? "tags" = some (.ofStrings tags)
  owner : a.get? "owner" = some (.string d.owner)
  role : a.get? "role" = some (.string d.role)

variable {y : AgentYaml} {a : Json} {tags : List String}

section Fields

variable {b : Json}

theorem substituted_plain :
  ∀ s ∈ ["", "local", "unknown", "online", "offline"], substituted [s] = s
  := by
  decide

/-- A text that has been captured is read back. -/
theorem field_of_get? {k s : String} (dflt : String) (h : a.get? k = some (.string s))
    (hs : substituted [s] = s) :
  sh.field [a] k dflt = s
  := by
  rw [Shell.field, List.map_singleton, h]
  exact hs

theorem field_congr (sh : Shell) {k : String} (dflt : String) (h : a.get? k = b.get? k) :
  sh.field [a] k dflt = sh.field [b] k dflt
  := by
  rw [Shell.field, Shell.field, List.map_singleton, List.map_singleton, h]

theorem tags_congr (sh : Shell) (h : a.get? "tags" = b.get? "tags") :
  sh.tags [a] = sh.tags [b]
  := by
  rw [Shell.tags, Shell.tags, List.flatMap_singleton, List.flatMap_singleton, h]

theorem deployType_congr (sh : Shell) (h : a.get? "deployment" = b.get? "deployment") :
  sh.deployType [a] = sh.deployType [b]
  := by
  rw [Shell.deployType, Shell.deployType, List.flatMap_singleton, List.flatMap_singleton, h]

/-- The comparison of the fields does not look at the run state. -/
theorem driftedFields_congr (h : ∀ k, k ≠ "status" → a.get? k = b.get? k) :
  driftedFields sh d [a] = driftedFields sh d [b]
  := by
  rw [driftedFields, driftedFields, comparisons, comparisons,
    field_congr sh "" (h "label" (by decide)), field_congr sh "" (h "program" (by decide)),
    field_congr sh "" (h "workingDirectory" (by decide)),
    field_congr sh "" (h "programArgs" (by decide)),
    field_congr sh "" (h "taskDescription" (by decide)), tags_congr sh (h "tags" (by decide)),
    field_congr sh "" (h "model" (by decide)), field_congr sh "" (h "owner" (by decide)),
    field_congr sh "" (h "role" (by decide)), deployType_congr sh (h "deployment" (by decide))]

theorem stringsOf_ofStrings (tags : List String) :
  stringsOf (.ofStrings tags) = some tags
  := by
  rw [ofStrings, stringsOf]
  induction tags with
  | nil => rfl
  | cons tag tags ih => simp [List.mapM_cons, ih]

theorem tags_of_get? (h : a.get? "tags" = some (.ofStrings tags)) :
  sh.tags [a] = substituted [",".intercalate (tags.mergeSort (· ≤ ·))]
  := by
  rw [Shell.tags, List.flatMap_singleton, h]
  simp only [alternative, ofStrings]
  rw [← ofStrings, stringsOf_ofStrings]

/-- Of an agent that has the fields of a request, the tags, the model and the deployment may
still differ. -/
theorem driftedFields_of_written (h : Written y.applied tags a) :
  driftedFields sh y.applied [a] = []
    ↔ sh.field [a] "model" "" = y.applied.model
      ∧ sh.deployType [a] = y.applied.deployTypeOrLocal
      ∧ substituted [",".intercalate (tags.mergeSort (· ≤ ·))] = sh.sortedTags y.applied.tags
  := by
  rw [driftedFields_eq_nil]
  simp only [comparisons, List.forall_mem_cons, List.not_mem_nil, false_implies, implies_true,
    and_true, tags_of_get? h.tags, field_of_get? "" h.label (substituted_substituted _),
    field_of_get? "" h.program (substituted_substituted _),
    field_of_get? "" h.workdir (substituted_substituted _),
    field_of_get? "" h.args (substituted_substituted _),
    field_of_get? "" h.desc (substituted_substituted _),
    field_of_get? "" h.owner (substituted_substituted _),
    field_of_get? "" h.role (substituted_substituted _), true_and]
  rw [and_comm, and_assoc]

theorem proper_patchBody (d : Desired) (tags : List String) :
  (d.patchBody tags).Proper
  := by
  apply Json.Proper.ofMembers
  simp [Json.Proper.string, Json.Proper.ofStrings]

/-- A change writes the fields of the file, and nothing else that is compared. -/
theorem written_changedAgent (d : Desired) (tags : List String) (env : StoreEnv)
    (hobject : a.isObject = true) :
  Written d tags (changedAgent env (d.patchBody tags) a)
    ∧ ∀ k ∈ ["model", "deployment", "status"],
      (changedAgent env (d.patchBody tags) a).get? k = a.get? k
  := by
  have hget : ∀ k ∉ ["id", "createdAt", "_github_issue", "updatedAt"],
      (changedAgent env (d.patchBody tags) a).get? k
        = ((d.patchBody tags).get? k).or (a.get? k)
    := fun k hk => get?_changedAgent_of_not_mem hobject (proper_patchBody d tags) hk
  have hbody : ∀ k, (d.patchBody tags).get? k = _ := get?_ofMembers (by simp)
  constructor
  · constructor <;> rw [hget _ (by decide), hbody] <;> rfl
  · simp only [List.forall_mem_cons, List.not_mem_nil, false_implies, implies_true, and_true]
    refine ⟨?_, ?_, ?_⟩ <;> rw [hget _ (by decide), hbody] <;> rfl

theorem valueString_of_get?_none {j : Json} {k dflt : String} (hobject : j.isObject = true)
    (h : j.get? k = none) :
  j.valueString k dflt = .ok dflt
  := by
  cases j with
  | object ms => rw [valueString, valueWith, show ms.lookup k = none from h]
  | _ => contradiction

/-- A new agent has the fields of the file, but neither its model nor its deployment. -/
theorem newAgent_createBody (env : StoreEnv) (d : Desired) (tags : List String) :
  ∃ title agent, newAgent env (d.createBody tags) = .ok (title, agent) ∧ Written d tags agent
    ∧ agent.get? "name" = some (.string d.name) ∧ agent.get? "id" = some (.string env.uuid)
    ∧ agent.get? "model" = none ∧ agent.get? "deployment" = none
  := by
  have hbody : ∀ k, (d.createBody tags).get? k = _ := get?_ofMembers (by simp)
  have hstring : ∀ {k s} (dflt), (d.createBody tags).get? k = some (.string s) →
      (d.createBody tags).valueString k dflt = .ok s := fun _ h => valueString_of_get? h
  have hjson : ∀ {k v} (dflt), (d.createBody tags).get? k = some v →
      (d.createBody tags).valueJson k dflt = .ok v := fun _ h => valueWith_of_get? h
  have hhost : (d.createBody tags).valueString "host" "local" = .ok "local"
    := valueString_of_get?_none (isObject_ofMembers _) (hbody "host")
  rw [newAgent, hstring _ (hbody "name"), hstring _ (hbody "label"), hstring _ (hbody "program"),
    hstring _ (hbody "workingDirectory"), hjson _ (hbody "programArgs"),
    hstring _ (hbody "taskDescription"), hjson _ (hbody "tags"), hstring _ (hbody "owner"),
    hstring _ (hbody "role"), hhost]
  refine ⟨_, _, rfl, ?_, ?_, ?_, ?_, ?_⟩
  · constructor <;> rw [get?_ofMembers (by simp)] <;> rfl
  all_goals
    rw [get?_ofMembers (by simp)]
    rfl

end Fields

/-! ### Runs -/

/-- Two runs are enough for an agent: it has no drift, or what is never sent agrees. -/
def Settles (sh : Shell) (d : Desired) (a : Json) : Prop :=
  driftedFields sh d [a] = []
    ∨ sh.field [a] "model" "" = d.model ∧ sh.deployType [a] = d.deployTypeOrLocal
      ∧ TagsAgree sh d.tags

/-- A run that starts or stops an agent puts its run state right. -/
theorem runApply_of_not_stateFits (github : Bool) (env : StoreEnv)
    (h : ¬ StateFits d (sh.field [a] "status" "unknown")) :
  ∃ status ∈ ["online", "offline"], StateFits d status
    ∧ runApply sh d github env (some a) = some (some (a.set "status" (.string status)))
  := by
  rw [runApply, Option.toList_some, applyAgent, computeDrift]
  rw [StateFits, not_and_or, not_not, not_not] at h
  rcases h with h | h
  · use "online"
    rw [if_pos h]
    simp [StateFits, h.1, afterRequest]
  · use "offline"
    have hactive : ¬ (d.state = "active" ∧ sh.field [a] "status" "unknown" = "offline") := by
      rintro ⟨hstate, -⟩
      simp [hstate] at h
    rw [if_neg hactive, if_pos h]
    simp [StateFits, h.1, afterRequest]

/-- An agent with drift is sent all its fields. -/
theorem runApply_of_driftedFields (github : Bool) (env : StoreEnv)
    (hstate : StateFits d (sh.field [a] "status" "unknown"))
    (hdrift : driftedFields sh d [a] ≠ []) :
  runApply sh d github env (some a)
    = (tagsArray d.tags).map fun tags => some (changedAgent env (d.patchBody tags) a)
  := by
  have hupdate : computeDrift sh d [a] = .update (driftedFields sh d [a]) := by
    rw [computeDrift, if_neg hstate.1, if_neg hstate.2]
    split
    · contradiction
    · rfl
  rw [runApply, Option.toList_some, applyAgent, hupdate]
  simp only [if_neg hstate.1, if_neg hstate.2, Option.map_map]
  rfl

/-- An agent without drift is left alone. -/
theorem runApply_of_unchanged (github : Bool) (env : StoreEnv)
    (h : computeDrift sh d [a] = .unchanged) :
  runApply sh d github env (some a) = some (some a)
  := by
  rw [runApply, Option.toList_some, applyAgent, h]
  rfl

/-- Setting the run state keeps whether two runs are enough. -/
theorem settles_set_status (sh : Shell) (d : Desired) (hobject : a.isObject = true)
    (status : Json) :
  driftedFields sh d [a.set "status" status] = driftedFields sh d [a]
    ∧ (Settles sh d (a.set "status" status) ↔ Settles sh d a)
  := by
  have hget : ∀ k, k ≠ "status" → (a.set "status" status).get? k = a.get? k
    := fun k hk => get?_set_of_ne hobject hk
  refine ⟨driftedFields_congr hget, ?_⟩
  rw [Settles, Settles, driftedFields_congr hget, field_congr sh "" (hget "model" (by decide)),
    deployType_congr sh (hget "deployment" (by decide))]

/-- After a change there is no drift exactly if two runs are enough. -/
theorem settles_changedAgent (sh : Shell) (env : StoreEnv) (hobject : a.isObject = true)
    (htags : tagsArray y.applied.tags = some tags) (hdrift : driftedFields sh y.applied [a] ≠ []) :
  (driftedFields sh y.applied [changedAgent env (y.applied.patchBody tags) a] = []
      ↔ Settles sh y.applied a)
    ∧ (Settles sh y.applied (changedAgent env (y.applied.patchBody tags) a)
      ↔ Settles sh y.applied a)
  := by
  obtain ⟨hwritten, hget⟩ := written_changedAgent y.applied tags env hobject
  have hmodel := field_congr sh "" (hget "model" (by decide))
  have hdeploy := deployType_congr sh (hget "deployment" (by decide))
  have hagree : TagsAgree sh y.applied.tags
      ↔ substituted [",".intercalate (tags.mergeSort (· ≤ ·))] = sh.sortedTags y.applied.tags := by
    rw [TagsAgree, htags]
    simp
  have hchanged : driftedFields sh y.applied [changedAgent env (y.applied.patchBody tags) a] = []
      ↔ Settles sh y.applied a := by
    rw [driftedFields_of_written hwritten, Settles, or_iff_right hdrift, hmodel, hdeploy, hagree]
  refine ⟨hchanged, ?_⟩
  rw [Settles, hchanged, hmodel, hdeploy, or_iff_left_iff_imp]
  exact Or.inr

/-- What one run does to an agent that exists. -/
theorem runApply_step {github : Bool} {s : Option Json} (hobject : a.isObject = true)
    (h : runApply sh y.applied github env (some a) = some s) :
  ∃ a', s = some a' ∧ a'.isObject = true
    ∧ StateFits y.applied (sh.field [a'] "status" "unknown")
    ∧ (Settles sh y.applied a' ↔ Settles sh y.applied a)
    ∧ (StateFits y.applied (sh.field [a] "status" "unknown") →
      (driftedFields sh y.applied [a'] = [] ↔ Settles sh y.applied a))
    ∧ (¬ StateFits y.applied (sh.field [a] "status" "unknown") →
      driftedFields sh y.applied [a'] = driftedFields sh y.applied [a])
  := by
  by_cases hstate : StateFits y.applied (sh.field [a] "status" "unknown")
  · by_cases hdrift : driftedFields sh y.applied [a] = []
    · rw [runApply_of_unchanged github env (computeDrift_eq_unchanged.mpr ⟨hstate, hdrift⟩)] at h
      obtain rfl := Option.some.inj h
      refine ⟨a, rfl, hobject, hstate, Iff.rfl, ?_, fun hnot => absurd hstate hnot⟩
      intro _
      simp [Settles, hdrift]
    · rw [runApply_of_driftedFields github env hstate hdrift] at h
      obtain ⟨tags, htags, rfl⟩ := Option.map_eq_some_iff.mp h
      have hsettles := settles_changedAgent sh env hobject htags hdrift
      have hstatus := (written_changedAgent y.applied tags env hobject).2 "status"
        (by decide)
      refine ⟨_, rfl, isObject_changedAgent env _ hobject, ?_, hsettles.2, fun _ => hsettles.1,
        fun hnot => absurd hstate hnot⟩
      rw [field_congr sh _ hstatus]
      exact hstate
  · obtain ⟨status, hmem, hfits, hrun⟩ := runApply_of_not_stateFits github env hstate
    rw [hrun] at h
    obtain rfl := Option.some.inj h
    obtain ⟨hdrift, hsettles⟩ := settles_set_status sh y.applied hobject (.string status)
    have hread : sh.field [a.set "status" (.string status)] "status" "unknown" = status := by
      apply field_of_get? _ (get?_set_self hobject)
      apply substituted_plain
      exact List.mem_of_mem_drop (i := 3) hmem
    refine ⟨_, rfl, isObject_set hobject, ?_, hsettles, fun hyes => absurd hyes hstate,
      fun _ => hdrift⟩
    rw [hread]
    exact hfits

/-- A run for which two runs are enough is not aborted. -/
theorem exists_runApply (github : Bool) (env : StoreEnv) (h : Settles sh d a) :
  ∃ s, runApply sh d github env (some a) = some s
  := by
  by_cases hstate : StateFits d (sh.field [a] "status" "unknown")
  · by_cases hdrift : driftedFields sh d [a] = []
    · exact ⟨_, runApply_of_unchanged github env (computeDrift_eq_unchanged.mpr ⟨hstate, hdrift⟩)⟩
    · obtain ⟨-, -, tags, htags, -⟩ := h.resolve_left hdrift
      rw [runApply_of_driftedFields github env hstate hdrift, htags]
      exact ⟨_, rfl⟩
  · obtain ⟨status, -, -, hrun⟩ := runApply_of_not_stateFits github env hstate
    exact ⟨_, hrun⟩

/-- One run is enough for an agent whose run state is right, or whose drift a change would not
remove. -/
theorem run_unchanged_iff (github : Bool) (env : StoreEnv) (hobject : a.isObject = true)
    (hready : ¬ StateFits y.applied (sh.field [a] "status" "unknown") →
      (driftedFields sh y.applied [a] = [] ↔ Settles sh y.applied a)) :
  (∃ a', runApply sh y.applied github env (some a) = some (some a')
      ∧ computeDrift sh y.applied [a'] = .unchanged)
    ↔ Settles sh y.applied a
  := by
  have hdrifted : ∀ a', runApply sh y.applied github env (some a) = some (some a') →
      (computeDrift sh y.applied [a'] = .unchanged ↔ Settles sh y.applied a) := by
    intro a' hrun
    obtain ⟨_, heq, -, hstate', -, hfits, hnot⟩ := runApply_step hobject hrun
    obtain rfl := Option.some.inj heq
    rw [computeDrift_eq_unchanged, and_iff_right hstate']
    by_cases hstate : StateFits y.applied (sh.field [a] "status" "unknown")
    · exact hfits hstate
    · rw [hnot hstate]
      exact hready hstate
  constructor
  · rintro ⟨a', hrun, hunchanged⟩
    exact (hdrifted a' hrun).mp hunchanged
  · intro hsettles
    obtain ⟨s, hrun⟩ := exists_runApply github env hsettles
    obtain ⟨a', rfl, -⟩ := runApply_step hobject hrun
    exact ⟨a', hrun, (hdrifted a' hrun).mpr hsettles⟩

/-- A change would not remove the drift of an agent that has the fields of the file. -/
theorem settles_of_written (sh : Shell) (h : Written y.applied tags a)
    (htags : tagsArray y.applied.tags = some tags) :
  driftedFields sh y.applied [a] = [] ↔ Settles sh y.applied a
  := by
  rw [Settles, TagsAgree, htags, driftedFields_of_written h]
  simp

/-- The requests of a run that creates an agent leave the other members of a new agent. -/
theorem runApply_none (sh : Shell) (github : Bool) (env : StoreEnv) {title : String}
    (htags : tagsArray d.tags = some tags)
    (hnew : newAgent env (d.createBody tags) = .ok (title, agent)) :
  ∃ a, runApply sh d github env none = some (some a) ∧ a.isObject = true
    ∧ ∀ k ∉ ["_github_issue", "status"], a.get? k = agent.get? k
  := by
  have hset : ∀ {b : Json} {k' : String} (v : Json), k' ∈ ["_github_issue", "status"] →
      b.isObject = true ∧ (∀ k ∉ ["_github_issue", "status"], b.get? k = agent.get? k) →
      (b.set k' v).isObject = true
        ∧ ∀ k ∉ ["_github_issue", "status"], (b.set k' v).get? k = agent.get? k := by
    rintro b k' v hk' ⟨hb, hget⟩
    refine ⟨isObject_set hb, ?_⟩
    intro k hk
    rw [get?_set_of_ne hb (by rintro rfl; exact hk hk'), hget k hk]
  have hagent : agent.isObject = true
      ∧ ∀ k ∉ ["_github_issue", "status"], agent.get? k = agent.get? k
    := ⟨isObject_of_get? (get?_id_newAgent hnew), fun _ _ => rfl⟩
  have hnumbered : (numbered github env agent).isObject = true
      ∧ ∀ k ∉ ["_github_issue", "status"], (numbered github env agent).get? k = agent.get? k := by
    rw [numbered]
    split
    · exact hset _ (by decide) hagent
    · exact hagent
  rw [runApply, Option.toList_none, applyAgent, htags]
  simp only [Option.map_some, List.foldl_cons, afterRequest, hnew]
  split
  · exact ⟨_, rfl, hset _ (by decide) hnumbered⟩
  · exact ⟨_, rfl, hnumbered⟩

/-- A run creates an agent with the fields of the file, but without its model and its
deployment. -/
theorem exists_created (sh : Shell) (github : Bool) (env : StoreEnv)
    (htags : tagsArray d.tags = some tags) :
  ∃ a, runApply sh d github env none = some (some a) ∧ a.isObject = true ∧ Written d tags a
    ∧ a.get? "name" = some (.string d.name) ∧ a.get? "id" = some (.string env.uuid)
    ∧ a.get? "model" = none ∧ a.get? "deployment" = none
  := by
  obtain ⟨title, agent, hnew, hwritten, hname, hid, hmodel, hdeploy⟩ :=
    newAgent_createBody env d tags
  obtain ⟨a, hrun, hobject, hget⟩ := runApply_none sh github env htags hnew
  refine ⟨a, hrun, hobject, ?_, ?_, ?_, ?_, ?_⟩
  · exact {
      label := (hget _ (by decide)).trans hwritten.label
      program := (hget _ (by decide)).trans hwritten.program
      workdir := (hget _ (by decide)).trans hwritten.workdir
      args := (hget _ (by decide)).trans hwritten.args
      desc := (hget _ (by decide)).trans hwritten.desc
      tags := (hget _ (by decide)).trans hwritten.tags
      owner := (hget _ (by decide)).trans hwritten.owner
      role := (hget _ (by decide)).trans hwritten.role }
  · exact (hget _ (by decide)).trans hname
  · exact (hget _ (by decide)).trans hid
  · exact (hget _ (by decide)).trans hmodel
  · exact (hget _ (by decide)).trans hdeploy

/-- A run for an agent that does not exist is aborted if its tags cannot be sent. -/
theorem runApply_none_of_tags (sh : Shell) (github : Bool) (env : StoreEnv)
    (htags : tagsArray d.tags = none) :
  runApply sh d github env none = none
  := by
  rw [runApply, Option.toList_none, applyAgent, htags, Option.map_none, Option.map_none]

/-- The agent of a name after two runs has no drift, and a further run sends nothing. -/
def Converges (sh : Shell) (d : Desired) (github : Bool) (env₁ env₂ : StoreEnv)
    (s : Option Json) : Prop :=
  ∃ s₁ a, runApply sh d github env₁ s = some s₁ ∧ runApply sh d github env₂ s₁ = some (some a)
    ∧ computeDrift sh d [a] = .unchanged ∧ ∀ newId, applyAgent sh d newId [a] = some []

/-- The condition under which two runs are enough. -/
def Convergent (sh : Shell) (d : Desired) : Option Json → Prop
  | none => d.model = "" ∧ d.deployTypeOrLocal = "local" ∧ TagsAgree sh d.tags
  | some a => Settles sh d a

theorem applyAgent_of_unchanged (h : computeDrift sh d [a] = .unchanged) (newId : String) :
  applyAgent sh d newId [a] = some []
  := by
  rw [applyAgent, h]

/-- A new agent settles exactly if nothing is asked for that it cannot be given. -/
theorem settles_of_created (sh : Shell) (h : Written y.applied tags a)
    (htags : tagsArray y.applied.tags = some tags) (hmodel : a.get? "model" = none)
    (hdeploy : a.get? "deployment" = none) :
  Settles sh y.applied a ↔ Convergent sh y.applied none
  := by
  have hfield : sh.field [a] "model" "" = "" := by
    rw [Shell.field, List.map_singleton, hmodel]
    exact substituted_plain "" (by decide)
  have htype : sh.deployType [a] = "local" := by
    rw [Shell.deployType, List.flatMap_singleton, hdeploy]
    exact substituted_plain "local" (by decide)
  rw [← settles_of_written sh h htags, driftedFields_of_written h, hfield, htype, Convergent,
    TagsAgree, htags, eq_comm, @eq_comm _ "local"]
  simp

/-- Two runs are enough exactly if, of the fields that are never sent, the agent has what the
file asks for, and the tags are sorted alike on both sides. -/
theorem converges_iff (sh : Shell) (y : AgentYaml) (github : Bool) (env₁ env₂ : StoreEnv)
    (s : Option Json) (hs : ∀ a ∈ s, Produced a) :
  Converges sh y.applied github env₁ env₂ s ↔ Convergent sh y.applied s
  := by
  have hfurther : Converges sh y.applied github env₁ env₂ s
      ↔ ∃ s₁, runApply sh y.applied github env₁ s = some s₁
        ∧ ∃ a, runApply sh y.applied github env₂ s₁ = some (some a)
          ∧ computeDrift sh y.applied [a] = .unchanged := by
    constructor
    · rintro ⟨s₁, a, hrun₁, hrun₂, hunchanged, -⟩
      exact ⟨s₁, hrun₁, a, hrun₂, hunchanged⟩
    · rintro ⟨s₁, hrun₁, a, hrun₂, hunchanged⟩
      exact ⟨s₁, a, hrun₁, hrun₂, hunchanged, applyAgent_of_unchanged hunchanged⟩
  rw [hfurther]
  cases s with
  | none =>
    cases htags : tagsArray y.applied.tags with
    | none =>
      apply iff_of_false
      · rintro ⟨s₁, hrun, -⟩
        rw [runApply_none_of_tags sh github env₁ htags] at hrun
        cases hrun
      · rintro ⟨-, -, tags, hsome, -⟩
        rw [htags] at hsome
        cases hsome
    | some tags =>
      obtain ⟨a, hrun, hobject, hwritten, -, -, hmodel, hdeploy⟩ :=
        exists_created sh github env₁ htags
      rw [← settles_of_created sh hwritten htags hmodel hdeploy,
        ← run_unchanged_iff github env₂ hobject fun _ => settles_of_written sh hwritten htags]
      simp [hrun]
  | some a =>
    have hobject : a.isObject = true := (hs a rfl).isObject
    constructor
    · rintro ⟨s₁, hrun₁, hconverged⟩
      obtain ⟨a₁, rfl, hobject₁, hstate₁, hsettles₁, -⟩ := runApply_step hobject hrun₁
      exact hsettles₁.mp ((run_unchanged_iff github env₂ hobject₁ (absurd hstate₁)).mp hconverged)
    · intro hsettles
      obtain ⟨s₁, hrun₁⟩ := exists_runApply github env₁ hsettles
      obtain ⟨a₁, rfl, hobject₁, hstate₁, hsettles₁, -⟩ := runApply_step hobject hrun₁
      exact ⟨_, hrun₁, (run_unchanged_iff github env₂ hobject₁ (absurd hstate₁)).mpr
        (hsettles₁.mpr hsettles)⟩

/-! ### Two files -/

/-- A machine whose `sort` compares code points. -/
def plainShell : Shell where
  home := "/root"
  collate := fun x y => x ≤ y
  print := Json.print
  printTags := fun _ => []
  printType := fun _ => []

/-- A file that has a name only. -/
def plainYaml : AgentYaml where
  name := .text "a"
  host := .null
  label := .null
  program := .null
  model := .null
  workingDirectory := .null
  programArgs := .null
  taskDescription := .null
  tags := []
  owner := .null
  role := .null
  deploymentType := .null
  dockerImage := .null
  dockerCpus := .null
  dockerMemory := .null
  desiredState := .null

/-- What the server takes from outside. -/
def plainEnv : StoreEnv where
  uuid := "u"
  number := 7
  now := fun _ => ⟨2026, 4, 1, 0, 0, 0⟩

/-- An agent that has been created with a name only. -/
def bareAgent : Json :=
  .ofMembers
    [("id", .string "u"), ("name", .string "a"), ("label", .string ""), ("program", .string ""),
     ("workingDirectory", .string ""), ("programArgs", .array []),
     ("taskDescription", .string ""), ("tags", .array []), ("owner", .string ""),
     ("role", .string "worker"), ("host", .string "local"), ("status", .string "offline"),
     ("createdAt", .string (plainEnv.ts 0)), ("updatedAt", .string (plainEnv.ts 0))]

theorem newAgent_bareAgent :
  newAgent plainEnv (.ofMembers [("name", .string "a")]) = .ok ("agent: a", bareAgent)
  := rfl

/-- The agent is started, and then its fields are changed. -/
theorem converges_bareAgent :
  Converges plainShell plainYaml.applied false plainEnv plainEnv (some bareAgent)
  := by
  apply (converges_iff plainShell plainYaml false plainEnv plainEnv (some bareAgent) ?_).mpr
  · refine Or.inr ⟨by decide +kernel, by decide +kernel, ?_⟩
    exact ⟨_, rfl, by decide +kernel⟩
  · rintro a ⟨⟩
    exact .create false newAgent_bareAgent

/-- The file asks for a model, and two runs after the agent has been created the model still
differs. -/
theorem drift_of_model :
  (((runApply plainShell { plainYaml with model := .text "m" }.applied false plainEnv none).bind
      (runApply plainShell { plainYaml with model := .text "m" }.applied false plainEnv)).map
      fun s => computeDrift plainShell { plainYaml with model := .text "m" }.applied s.toList)
    = some (.update ["model"])
  := by
  decide +kernel

end Agamemnon.Reconciler
