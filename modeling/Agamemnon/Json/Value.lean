import Agamemnon.Lib.Lists
import Mathlib.Data.Rat.Floor
import Mathlib.Data.String.Basic

/-!
# JSON values

The values of `nlohmann::json` and the operations the service applies to them.  The
members of an object are listed in increasing key order, as `std::map` iterates them,
and `setMember` keeps that order.  An access the library answers with an exception is
an error of `Except Exn`.
-/

namespace Agamemnon

/-- The exceptions the modelled code raises: `json::parse_error`, `json::type_error`
with its number, and the two standard exceptions of `std::stoi` and of the parsers of
enumerations. -/
inductive Exn where
  | parseError
  | typeError (number : ℕ)
  | outOfRange
  | invalidArgument (what : String)
deriving DecidableEq, Repr

/-- A JSON value.  A floating-point number is the rational it denotes. -/
inductive Json where
  | null
  | boolean (b : Bool)
  | integer (n : ℤ)
  | float (x : ℚ)
  | string (s : String)
  | array (elements : List Json)
  | object (members : List (String × Json))
deriving Repr

namespace Json

/-! ### Members of an object -/

/-- Assign `v` to the key `k`, keeping the members in increasing key order. -/
def setMember (k : String) (v : Json) : List (String × Json) → List (String × Json)
  | [] => [(k, v)]
  | (k', v') :: rest =>
      if k = k' then (k, v) :: rest
      else if k < k' then (k, v) :: (k', v') :: rest
      else (k', v') :: setMember k v rest

/-- The key just assigned holds the value assigned. -/
@[simp]
theorem lookup_setMember_self (k : String) (v : Json) :
  ∀ ms : List (String × Json), (setMember k v ms).lookup k = some v
  | [] => by simp [setMember]
  | (k', v') :: rest => by
      rw [setMember]
      split
      · simp
      · rename_i hne
        split
        · simp
        · rw [Lists.lookup_cons, if_neg hne]
          apply lookup_setMember_self

/-- Assigning to `k` leaves every other key as it was. -/
theorem lookup_setMember_of_ne {k l : String} (v : Json) (h : l ≠ k) :
  ∀ ms : List (String × Json), (setMember k v ms).lookup l = ms.lookup l
  | [] => by rw [setMember, Lists.lookup_cons, if_neg h]
  | (k', v') :: rest => by
      rw [setMember]
      split
      · rename_i heq
        subst heq
        rw [Lists.lookup_cons, Lists.lookup_cons, if_neg h, if_neg h]
      · split
        · rw [Lists.lookup_cons, if_neg h]
        · rw [Lists.lookup_cons, Lists.lookup_cons, lookup_setMember_of_ne v h rest]

/-- In a list of members in increasing key order, a key that is found lies beyond the
first. -/
theorem head_lt_of_lookup {k k' : String} {v v' : Json} {rest : List (String × Json)}
    (hsorted : ((k', v') :: rest).Pairwise (fun x y => x.1 < y.1)) (h : rest.lookup k = some v) :
  k' < k
  := by
  obtain ⟨l₁, l₂, rfl, -⟩ := List.lookup_eq_some_iff.mp h
  apply (List.pairwise_cons.mp hsorted).1 (k, v)
  simp

/-- Assigning to a key the value it already holds changes nothing. -/
theorem setMember_of_lookup {k : String} {v : Json} :
  ∀ {ms : List (String × Json)}, ms.Pairwise (fun x y => x.1 < y.1) →
    ms.lookup k = some v → setMember k v ms = ms
  | [], _, h => by simp at h
  | (k', v') :: rest, hsorted, h => by
      rw [Lists.lookup_cons] at h
      rw [setMember]
      by_cases hk : k = k'
      · subst hk
        rw [if_pos rfl, Option.some.injEq] at h
        rw [if_pos rfl, h]
      · rw [if_neg hk] at h
        have hlt := head_lt_of_lookup hsorted h
        rw [if_neg hk, if_neg hlt.not_gt, setMember_of_lookup hsorted.of_cons h]

/-! ### Access -/

/-- `is_null`. -/
def isNull : Json → Bool
  | null => true
  | _ => false

/-- `is_object`. -/
def isObject : Json → Bool
  | object _ => true
  | _ => false

/-- The member `k` of an object; no other value has members. -/
def get? (j : Json) (k : String) : Option Json :=
  match j with
  | object ms => ms.lookup k
  | _ => none

/-- `contains`. -/
def contains (j : Json) (k : String) : Bool :=
  (j.get? k).isSome

/-- `j[k] = v`.  On `null` the assignment makes an object; on any other value that is
not an object the library throws, and the service never gets there. -/
def set (j : Json) (k : String) (v : Json) : Json :=
  match j with
  | object ms => object (setMember k v ms)
  | null => object [(k, v)]
  | other => other

/-- `get<std::string>`. -/
def getString : Json → Except Exn String
  | string s => .ok s
  | _ => .error (.typeError 302)

/-- The value of a 32-bit `int` that holds `n` modulo `2 ^ 32`. -/
def wrapInt (n : ℤ) : ℤ :=
  (n + 2 ^ 31) % 2 ^ 32 - 2 ^ 31

/-- The integer part of a rational. -/
def truncate (x : ℚ) : ℤ :=
  x.num.tdiv x.den

/-- `get<int>`: numbers and Booleans are converted. -/
def getInt : Json → Except Exn ℤ
  | integer n => .ok (wrapInt n)
  | float x => .ok (wrapInt (truncate x))
  | boolean b => .ok (if b then 1 else 0)
  | _ => .error (.typeError 302)

/-- `value(k, d)` at a type read by `read`: the member converted, or `d` when there is
none. -/
def valueWith {α : Type} (read : Json → Except Exn α) (j : Json) (k : String) (d : α) :
    Except Exn α :=
  match j with
  | object ms =>
      match ms.lookup k with
      | none => .ok d
      | some v => read v
  | _ => .error (.typeError 306)

/-- `value(k, d)` at `std::string`. -/
def valueString (j : Json) (k d : String) : Except Exn String :=
  j.valueWith getString k d

/-- `value(k, d)` at `int`. -/
def valueInt (j : Json) (k : String) (d : ℤ) : Except Exn ℤ :=
  j.valueWith getInt k d

/-- `value(k, d)` at `json`. -/
def valueJson (j : Json) (k : String) (d : Json) : Except Exn Json :=
  j.valueWith .ok k d

/-- The object whose members are `ms`, assigned in turn. -/
def ofMembers (ms : List (String × Json)) : Json :=
  ms.foldl (fun j m => j.set m.1 m.2) (object [])

/-- An array of strings. -/
def ofStrings (ss : List String) : Json :=
  array (ss.map string)

/-! ### Reading after an assignment -/

@[simp]
theorem get?_set_object_self (ms : List (String × Json)) (k : String) (v : Json) :
  ((object ms).set k v).get? k = some v
  := lookup_setMember_self k v ms

theorem get?_set_object_of_ne (ms : List (String × Json)) {k l : String} (v : Json) (h : l ≠ k) :
  ((object ms).set k v).get? l = (object ms).get? l
  := lookup_setMember_of_ne v h ms

end Json

end Agamemnon
