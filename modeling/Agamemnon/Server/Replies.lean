import Agamemnon.Server.Handlers

/-!
# What a reply shows

`reply_json` deletes the internal members of a value, at every depth.  A value is known by what
stands at the end of each path into it: a value without parts, an array of some length, or an
object with some keys.  `replyJson_shows` says what stands there in the value that is sent.
-/

namespace Agamemnon

namespace Json

/-- A step into a value: to a member or to an element. -/
inductive Step where
  | key (k : String)
  | index (i : ℕ)
deriving DecidableEq

/-- The value at the end of a path, if the path leads anywhere. -/
def follow (j : Json) : List Step → Option Json
  | [] => some j
  | .key k :: path => (j.get? k).bind (follow · path)
  | .index i :: path =>
      match j with
      | array es => es[i]?.bind (follow · path)
      | _ => none

/-- A value without its parts. -/
inductive Label where
  | scalar (j : Json)
  | array (length : ℕ)
  | object (keys : List String)

/-- What is to be seen of a value without looking at its parts. -/
def label : Json → Label
  | array es => .array es.length
  | object ms => .object (ms.map (·.1))
  | j => .scalar j

/-- The label without a key. -/
def Label.without (k : String) : Label → Label
  | object keys => object (keys.filter (· ≠ k))
  | l => l

end Json

open Json

theorem stripElements_eq (es : List Json) :
  stripElements es = es.map stripInternalFields
  := by
  induction es with
  | nil => rfl
  | cons e es ih => rw [stripElements, ih, List.map_cons]

theorem lookup_stripMembers (k : String) (ms : List (String × Json)) :
  (stripMembers ms).lookup k
    = if k = "_github_issue" then none else (ms.lookup k).map stripInternalFields
  := by
  induction ms with
  | nil => simp [stripMembers]
  | cons m ms ih =>
    obtain ⟨k', v⟩ := m
    rw [stripMembers, Lists.lookup_cons]
    by_cases hinternal : k' ∈ internalFields
    · rw [if_pos hinternal, ih]
      obtain rfl := List.mem_singleton.mp hinternal
      split
      · rfl
      · rfl
    · rw [if_neg hinternal, Lists.lookup_cons, ih]
      by_cases hk : k = k'
      · subst hk
        rw [if_pos rfl, if_pos rfl, if_neg fun h => hinternal (List.mem_singleton.mpr h)]
        rfl
      · rw [if_neg hk, if_neg hk]

theorem keys_stripMembers (ms : List (String × Json)) :
  (stripMembers ms).map (·.1) = (ms.map (·.1)).filter (· ≠ "_github_issue")
  := by
  induction ms with
  | nil => rfl
  | cons m ms ih =>
    obtain ⟨k, v⟩ := m
    rw [stripMembers, List.map_cons, List.filter_cons]
    split
    · rename_i hinternal
      simp [ih, List.mem_singleton.mp hinternal]
    · rename_i hinternal
      have hk : k ≠ "_github_issue" := fun h => hinternal (List.mem_singleton.mpr h)
      simp [ih, hk]

variable (j : Json)

theorem get?_stripInternalFields (k : String) :
  (stripInternalFields j).get? k
    = if k = "_github_issue" then none else (j.get? k).map stripInternalFields
  := by
  cases j with
  | object ms => apply lookup_stripMembers
  | _ => simp [stripInternalFields, get?]

theorem label_stripInternalFields :
  (stripInternalFields j).label = j.label.without "_github_issue"
  := by
  cases j with
  | object ms => exact congrArg Label.object (keys_stripMembers ms)
  | array es => simp [stripInternalFields, stripElements_eq, label, Label.without]
  | _ => rfl

/-- A path into the stripped value leads to a stripped part, unless it passes an internal member. -/
theorem follow_stripInternalFields (path : List Step) :
  (stripInternalFields j).follow path
    = if .key "_github_issue" ∈ path then none else (j.follow path).map stripInternalFields
  := by
  induction path generalizing j with
  | nil => rfl
  | cons step path ih =>
    cases step with
    | key k =>
      simp only [follow, get?_stripInternalFields, List.mem_cons, Step.key.injEq]
      by_cases hk : k = "_github_issue"
      · simp [hk]
      · cases j.get? k with
        | none => simp [hk]
        | some v => simp [hk, ih, Ne.symm hk]
    | index i =>
      cases j with
      | array es =>
        simp only [stripInternalFields, stripElements_eq, follow, List.getElem?_map, List.mem_cons,
          reduceCtorEq, false_or]
        cases es[i]? with
        | none => simp
        | some v => simp [ih]
      | _ => simp [stripInternalFields, follow]

/-- The value that is sent has no internal member at any depth; at the end of every path that
passes none it shows what the original value does, except for such members. -/
theorem replyJson_shows (status : ℕ) (body : Json) :
  (∀ path keys, ((replyJson status body).body.follow path).map label = some (.object keys) →
    "_github_issue" ∉ keys)
  ∧ ∀ path, ((replyJson status body).body.follow path).map label
    = if .key "_github_issue" ∈ path then none
      else (body.follow path).map fun v => v.label.without "_github_issue"
  := by
  have hlabel : ∀ path, ((replyJson status body).body.follow path).map label
      = if .key "_github_issue" ∈ path then none
        else (body.follow path).map fun v => v.label.without "_github_issue" := by
    intro path
    rw [replyJson, follow_stripInternalFields]
    split
    · rfl
    · rw [Option.map_map]
      congr 1
      funext v
      apply label_stripInternalFields
  refine ⟨?_, hlabel⟩
  intro path keys hkeys
  rw [hlabel] at hkeys
  split at hkeys
  · contradiction
  · obtain ⟨v, -, hv⟩ := Option.map_eq_some_iff.mp hkeys
    cases hlabel : v.label with
    | object keys' =>
      rw [hlabel] at hv
      obtain rfl := Label.object.inj hv
      simp
    | _ =>
      rw [hlabel] at hv
      contradiction

end Agamemnon
