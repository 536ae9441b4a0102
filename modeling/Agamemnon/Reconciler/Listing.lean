import Agamemnon.Server.Handlers
import Agamemnon.Store.Queries

/-!
# The agents that the reconciler sees

The scripts take the reply of `GET /v1/agents` for an array of agents and iterate it with `.[]`.
The server replies with an object whose first value is the array, and `jq` fails there: it cannot
ask an array for a name.  It exits with an error before it has printed anything, also for a store
without agents, so the agents of the store are never seen (`not_sees`).
-/

namespace Agamemnon

/-! ### The reply -/

/-- `kDefaultLimit` -/
def defaultLimit : ℕ :=
  100

/-- The body of the reply to `GET /v1/agents`, for the order in which the map is iterated. -/
def listReply (m : Memory) (order : List String) : Json :=
  (replyJson 200 (m.listAgents order defaultLimit 0)).body

namespace Reconciler

/-! ### Iteration with `jq` -/

/-- `.[]`, unless it fails. -/
def values : Json → Option (List Json)
  | .array vs => some vs
  | .object ms => some (ms.map (·.2))
  | _ => none

/-- `.name`, unless it fails. -/
def nameOf : Json → Option Json
  | .object ms => some ((ms.lookup "name").getD .null)
  | .null => some .null
  | _ => none

/-- What a run of `jq` prints, and its exit code. -/
structure JqRun where
  output : List Json
  exitCode : ℕ

/-- A run of a filter on values, which ends with the exit code 5 at the first one for which the
filter fails. -/
def printed (filter : Json → Option (List Json)) : List Json → JqRun
  | [] => ⟨[], 0⟩
  | v :: vs =>
      match filter v with
      | none => ⟨[], 5⟩
      | some out => ⟨out ++ (printed filter vs).output, (printed filter vs).exitCode⟩

/-- `.[] | ...` -/
def iterated (filter : Json → Option (List Json)) (reply : Json) : JqRun :=
  match values reply with
  | none => ⟨[], 5⟩
  | some vs => printed filter vs

/-- `.[] | select(.name == $n)` -/
def lookupByName (reply : Json) (n : String) : JqRun :=
  iterated (fun v => (nameOf v).map fun w => if w.isString n then [v] else []) reply

/-- `.[].name` -/
def actualNames (reply : Json) : JqRun :=
  iterated (fun v => (nameOf v).map fun w => [w]) reply

/-- The lookup by name and the list of names succeed, and have the agents of the store.  Under
`set -euo pipefail` a lookup that fails ends `apply.sh`. -/
structure Sees (m : Memory) (order : List String) : Prop where
  lookup : ∀ n, (lookupByName (listReply m order) n).exitCode = 0
    ∧ ∀ a, a ∈ (lookupByName (listReply m order) n).output
      ↔ ∃ id agent, m.agents.lookup id = some agent ∧ (agent.get? "name").any (·.isString n)
        ∧ a = stripInternalFields agent
  names : (actualNames (listReply m order)).exitCode = 0
    ∧ ∀ w, w ∈ (actualNames (listReply m order)).output
      ↔ ∃ id agent, m.agents.lookup id = some agent
        ∧ w = stripInternalFields ((agent.get? "name").getD .null)

/-- The array is the first value of the reply. -/
theorem values_listReply (m : Memory) (order : List String) :
  ∃ agents rest, values (listReply m order) = some (.array agents :: rest)
  := by
  have hlisting : ∀ agents total limit offset : Json,
      Json.ofMembers [("agents", agents), ("total", total), ("limit", limit), ("offset", offset)]
        = .object [("agents", agents), ("limit", limit), ("offset", offset), ("total", total)] := by
    intro agents total limit offset
    have horder : ¬ "total" < "agents" ∧ ¬ "limit" < "agents" ∧ "limit" < "total"
        ∧ ¬ "offset" < "agents" ∧ ¬ "offset" < "limit" ∧ "offset" < "total" := by decide
    simp [Json.ofMembers, Json.set, Json.setMember, horder]
  rw [listReply, replyJson, Memory.listAgents, Memory.listEntities, listing, hlisting, page]
  simp only [stripInternalFields, stripMembers]
  exact ⟨_, _, rfl⟩

/-- A filter that asks for names fails at the first value of the reply. -/
theorem iterated_listReply (m : Memory) (order : List String) (f : Json → Json → List Json) :
  iterated (fun v => (nameOf v).map (f v)) (listReply m order) = ⟨[], 5⟩
  := by
  obtain ⟨agents, rest, hvalues⟩ := values_listReply m order
  rw [iterated, hvalues]
  rfl

/-- The agents of a store are never seen: neither the lookup nor the list of names succeeds. -/
theorem not_sees (m : Memory) (order : List String) :
  ¬ Sees m order
  := by
  intro h
  obtain ⟨hexit, -⟩ := h.names
  rw [actualNames, iterated_listReply m order fun _ w => [w]] at hexit
  contradiction

/-- A store with one agent. -/
def oneAgent : Memory :=
  { Memory.empty with
    agents := Finmap.insert "u" (.ofMembers [("id", .string "u"), ("name", .string "a")]) ∅ }

/-- The agent of the store is neither found under its name nor among the names: both runs fail
and print nothing. -/
theorem not_sees_oneAgent :
  (oneAgent.agents.lookup "u").isSome = true
    ∧ lookupByName (listReply oneAgent ["u"]) "a" = ⟨[], 5⟩
    ∧ actualNames (listReply oneAgent ["u"]) = ⟨[], 5⟩ ∧ ¬ Sees oneAgent ["u"]
  := by
  have hnames := iterated_listReply oneAgent ["u"] fun _ w => [w]
  refine ⟨?_, ?_, hnames, ?_⟩
  · rw [oneAgent, Finmap.lookup_insert]
    rfl
  · exact iterated_listReply oneAgent ["u"] fun v w => if w.isString "a" then [v] else []
  · intro h
    obtain ⟨hexit, -⟩ := h.names
    rw [actualNames, hnames] at hexit
    contradiction

end Reconciler

end Agamemnon
