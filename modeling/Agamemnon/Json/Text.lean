import Agamemnon.Json.Value
import Mathlib.Data.List.Infix

/-!
# JSON values as text

Which values `nlohmann::json` has, the layout of the text that `dump(2)` writes, and what the service
relies on when it writes a value and reads it with `json::parse`: a `Codec`.  Line breaks within
strings are escaped, so no line of the text starts with a backtick (`Codec.lines`).
-/

namespace Agamemnon

namespace Json

/-! ### Values of the library -/

/-- A number that a `double` holds. -/
def IsDouble (x : ℚ) : Prop :=
  ∃ m e : ℤ, |m| < 2 ^ 53 ∧ -1074 ≤ e ∧ e ≤ 971 ∧ x = m * 2 ^ e

/-- The values of `nlohmann::json`: integers have 64 bits, other numbers are doubles, and the
members of an object are in increasing key order. -/
inductive Proper : Json → Prop
  | null : Proper .null
  | boolean (b : Bool) : Proper (.boolean b)
  | integer {n : ℤ} (lower : -2 ^ 63 ≤ n) (upper : n < 2 ^ 64) : Proper (.integer n)
  | float {x : ℚ} (double : IsDouble x) : Proper (.float x)
  | string (s : String) : Proper (.string s)
  | array {es : List Json} (elements : ∀ e ∈ es, Proper e) : Proper (.array es)
  | object {ms : List (String × Json)} (sorted : ms.Pairwise (fun x y => x.1 < y.1))
      (members : ∀ m ∈ ms, Proper m.2) : Proper (.object ms)

theorem mem_setMember {k : String} {v : Json} {m : String × Json} :
  ∀ {ms : List (String × Json)}, m ∈ setMember k v ms → m = (k, v) ∨ m ∈ ms
  | [], h => Or.inl (List.mem_singleton.mp h)
  | (k', v') :: rest, h => by
      rw [setMember] at h
      split at h
      · rcases List.mem_cons.mp h with rfl | h
        · apply Or.inl rfl
        · apply Or.inr (List.mem_cons_of_mem _ h)
      · split at h
        · exact List.mem_cons.mp h
        · rcases List.mem_cons.mp h with rfl | h
          · apply Or.inr List.mem_cons_self
          · rcases mem_setMember h with h | h
            · apply Or.inl h
            · apply Or.inr (List.mem_cons_of_mem _ h)

/-- Assignment keeps the members in order. -/
theorem pairwise_setMember (k : String) (v : Json) :
  ∀ {ms : List (String × Json)}, ms.Pairwise (fun x y => x.1 < y.1) →
    (setMember k v ms).Pairwise (fun x y => x.1 < y.1)
  | [], _ => List.pairwise_singleton _ _
  | (k', v') :: rest, h => by
      obtain ⟨hhead, hrest⟩ := List.pairwise_cons.mp h
      rw [setMember]
      split
      · rename_i heq
        subst heq
        exact List.pairwise_cons.mpr ⟨hhead, hrest⟩
      · rename_i hne
        split
        · rename_i hlt
          refine List.pairwise_cons.mpr ⟨?_, h⟩
          intro m hm
          rcases List.mem_cons.mp hm with rfl | hm
          · exact hlt
          · apply hlt.trans (hhead m hm)
        · rename_i hge
          refine List.pairwise_cons.mpr ⟨?_, pairwise_setMember k v hrest⟩
          intro m hm
          rcases mem_setMember hm with rfl | hm
          · exact lt_of_le_of_ne (not_lt.mp hge) (Ne.symm hne)
          · apply hhead m hm

variable {j v : Json} {k : String}

/-- Assignment to a key of an object. -/
theorem Proper.set (hj : j.Proper) (hobject : j.isObject = true) (hv : v.Proper) :
  (j.set k v).Proper
  := by
  cases hj with
  | object sorted members =>
    apply Proper.object (pairwise_setMember k v sorted)
    intro m hm
    rcases mem_setMember hm with rfl | hm
    · exact hv
    · apply members m hm
  | _ => contradiction

@[simp]
theorem isObject_set (hobject : j.isObject = true) :
  (j.set k v).isObject = true
  := by
  cases j with
  | object ms => rfl
  | _ => contradiction

theorem get?_set_self (hobject : j.isObject = true) :
  (j.set k v).get? k = some v
  := by
  cases j with
  | object ms => apply get?_set_object_self
  | _ => contradiction

theorem get?_set_of_ne (hobject : j.isObject = true) {l : String} (h : l ≠ k) :
  (j.set k v).get? l = j.get? l
  := by
  cases j with
  | object ms => apply get?_set_object_of_ne ms v h
  | _ => contradiction

theorem isObject_of_contains (h : j.contains k = true) :
  j.isObject = true
  := by
  cases j with
  | object ms => rfl
  | _ => contradiction

theorem isObject_of_get? (h : j.get? k = some v) :
  j.isObject = true
  := by
  apply isObject_of_contains (k := k)
  rw [contains, h, Option.isSome_some]

/-- Assigning to a key the value it holds changes nothing. -/
theorem Proper.set_eq_self (hj : j.Proper) (h : j.get? k = some v) :
  j.set k v = j
  := by
  cases hj with
  | object sorted members =>
    exact congrArg Json.object (setMember_of_lookup sorted h)
  | _ => contradiction

theorem Proper.get? (hj : j.Proper) (h : j.get? k = some v) :
  v.Proper
  := by
  cases hj with
  | object sorted members =>
    obtain ⟨l₁, l₂, rfl, -⟩ := List.lookup_eq_some_iff.mp h
    apply members (k, v)
    simp
  | _ => contradiction

theorem Proper.ofStrings (ss : List String) :
  (Json.ofStrings ss).Proper
  := by
  apply Proper.array
  intro e he
  obtain ⟨s, -, rfl⟩ := List.mem_map.mp he
  apply Proper.string

theorem isObject_foldl_set :
  ∀ (ms : List (String × Json)) {j : Json}, j.isObject = true →
    (ms.foldl (fun j m => j.set m.1 m.2) j).isObject = true
  | [], _, h => h
  | _ :: ms, _, h => isObject_foldl_set ms (isObject_set h)

theorem Proper.foldl_set :
  ∀ {ms : List (String × Json)} {j : Json}, j.Proper → j.isObject = true →
    (∀ m ∈ ms, m.2.Proper) → (ms.foldl (fun j m => j.set m.1 m.2) j).Proper
  | [], _, hj, _, _ => hj
  | m :: ms, _, hj, hobject, hms => by
      apply Proper.foldl_set (hj.set hobject (hms m List.mem_cons_self)) (isObject_set hobject)
      exact fun m' hm' => hms m' (List.mem_cons_of_mem m hm')

theorem isObject_ofMembers (ms : List (String × Json)) :
  (Json.ofMembers ms).isObject = true
  := isObject_foldl_set ms rfl

theorem get?_foldl_set :
  ∀ {ms : List (String × Json)} {j : Json}, j.isObject = true → (ms.map (·.1)).Nodup →
    (ms.foldl (fun j m => j.set m.1 m.2) j).get? k = (ms.lookup k).or (j.get? k)
  | [], _, _, _ => rfl
  | (k', v') :: ms, j, hobject, hnodup => by
      obtain ⟨hk', hnodup⟩ := List.nodup_cons.mp hnodup
      apply (get?_foldl_set (isObject_set hobject) hnodup).trans
      rw [Lists.lookup_cons]
      split
      · rename_i heq
        subst heq
        rw [get?_set_self hobject, List.lookup_eq_none_iff.mpr]
        · rfl
        · intro m hm
          rw [bne_iff_ne]
          intro heq
          apply hk'
          apply List.mem_map.mpr ⟨m, hm, heq.symm⟩
      · rename_i hne
        rw [get?_set_of_ne hobject hne]

variable {ms : List (String × Json)}

/-- The members assigned, when the keys are distinct. -/
theorem get?_ofMembers (hnodup : (ms.map (·.1)).Nodup) (k : String) :
  (Json.ofMembers ms).get? k = ms.lookup k
  := by
  apply (get?_foldl_set rfl hnodup).trans
  apply Option.or_none

theorem valueWith_of_get? {α : Type} {read : Json → Except Exn α} {d : α} (h : j.get? k = some v) :
  j.valueWith read k d = read v
  := by
  cases j with
  | object ms =>
    rw [valueWith, show ms.lookup k = some v from h]
  | _ => contradiction

theorem valueString_of_get? {d s : String} (h : j.get? k = some (.string s)) :
  j.valueString k d = .ok s
  := valueWith_of_get? h

theorem Proper.ofMembers (h : ∀ m ∈ ms, m.2.Proper) :
  (Json.ofMembers ms).Proper
  := by
  apply Proper.foldl_set (Proper.object List.Pairwise.nil _) rfl h
  intro m hm
  contradiction

/-! ### Text -/

/-- Texts behind another one, each on a line of its own, and the closing bracket. -/
def followers (closing : Char) (indent : ℕ) : List (List Char) → List Char
  | [] => '\n' :: (List.replicate indent ' ' ++ [closing])
  | item :: items =>
      ',' :: '\n' :: (List.replicate (indent + 2) ' ' ++ (item ++ followers closing indent items))

/-- Texts between brackets. -/
def block (opening closing : Char) (indent : ℕ) : List (List Char) → List Char
  | [] => [opening, closing]
  | item :: items =>
      opening :: '\n' :: (List.replicate (indent + 2) ' '
        ++ (item ++ followers closing indent items))

mutual

/-- The layout of `dump(2)`, where `scalar` gives the texts of what is neither an array nor an
object. -/
def layout (scalar : Json → List Char) (indent : ℕ) : Json → List Char
  | array es => block '[' ']' indent (elementTexts scalar (indent + 2) es)
  | object ms => block '\x7b' '\x7d' indent (memberTexts scalar (indent + 2) ms)
  | j => scalar j

/-- The elements of an array. -/
def elementTexts (scalar : Json → List Char) (indent : ℕ) : List Json → List (List Char)
  | [] => []
  | e :: es => layout scalar indent e :: elementTexts scalar indent es

/-- The members of an object. -/
def memberTexts (scalar : Json → List Char) (indent : ℕ) :
    List (String × Json) → List (List Char)
  | [] => []
  | (k, v) :: ms =>
      (scalar (string k) ++ ':' :: ' ' :: layout scalar indent v) :: memberTexts scalar indent ms

end

variable {scalar : Json → List Char}

theorem elementTexts_eq (indent : ℕ) :
  ∀ es, elementTexts scalar indent es = es.map (layout scalar indent)
  | [] => rfl
  | e :: es => by rw [elementTexts, elementTexts_eq indent es, List.map_cons]

theorem memberTexts_eq (indent : ℕ) :
  ∀ ms, memberTexts scalar indent ms
    = ms.map fun m => scalar (string m.1) ++ ':' :: ' ' :: layout scalar indent m.2
  | [] => rfl
  | m :: ms => by rw [memberTexts, memberTexts_eq indent ms, List.map_cons]

section Lines

/-- No line of the text but the first starts with a backtick. -/
def Calm (text : List Char) : Prop :=
  ¬ ['\n', '`'] <:+: text

variable {c : Char} {text rest : List Char}

theorem Calm.cons (h : Calm text) (hc : c ≠ '\n' ∨ text.head? ≠ some '`') :
  Calm (c :: text)
  := by
  intro hinfix
  rcases List.infix_cons_iff.mp hinfix with hstart | hinfix
  · rw [List.cons_prefix_cons] at hstart
    obtain ⟨rfl, rest, rfl⟩ := hstart
    simp at hc
  · exact h hinfix

theorem Calm.append (h : Calm rest) (htext : ∀ c ∈ text, c ≠ '\n') :
  Calm (text ++ rest)
  := by
  induction text with
  | nil => exact h
  | cons c text ih =>
    obtain ⟨hc, htext⟩ := List.forall_mem_cons.mp htext
    exact (ih htext).cons (.inl hc)

/-- A line that is indented. -/
theorem Calm.line (h : Calm rest) {indent : ℕ} (hindent : 0 < indent ∨ rest.head? ≠ some '`') :
  Calm ('\n' :: (List.replicate indent ' ' ++ rest))
  := by
  apply Calm.cons
  · apply h.append
    intro d hd
    rw [List.eq_of_mem_replicate hd]
    decide
  · right
    cases indent with
    | zero => simpa using hindent
    | succ indent => simp [List.replicate_succ]

theorem calm_followers {closing : Char} (hclosing : closing ≠ '\n' ∧ closing ≠ '`') (indent : ℕ)
    (h : Calm rest) :
  ∀ {items : List (List Char)}, (∀ item ∈ items, ∀ {rest}, Calm rest → Calm (item ++ rest)) →
    Calm (followers closing indent items ++ rest)
  | [], _ => by
      rw [followers, List.cons_append, List.append_assoc]
      exact (h.cons (.inl hclosing.1)).line (.inr (by simpa using hclosing.2))
  | item :: items, hitems => by
      obtain ⟨hitem, hitems⟩ := List.forall_mem_cons.mp hitems
      simp only [followers, List.cons_append, List.append_assoc]
      exact ((hitem (calm_followers hclosing indent h hitems)).line (.inl (Nat.succ_pos _))).cons
        (.inl (by decide))

theorem calm_block {opening closing : Char} (hopening : opening ≠ '\n')
    (hclosing : closing ≠ '\n' ∧ closing ≠ '`') {items : List (List Char)} (indent : ℕ)
    (hitems : ∀ item ∈ items, ∀ {rest}, Calm rest → Calm (item ++ rest)) (h : Calm rest) :
  Calm (block opening closing indent items ++ rest)
  := by
  cases items with
  | nil => exact (h.cons (.inl hclosing.1)).cons (.inl hopening)
  | cons item items =>
    obtain ⟨hitem, hitems⟩ := List.forall_mem_cons.mp hitems
    simp only [block, List.cons_append, List.append_assoc]
    exact ((hitem (calm_followers hclosing indent h hitems)).line (.inl (Nat.succ_pos _))).cons
      (.inl hopening)

theorem calm_layout (hscalar : ∀ j, ∀ c ∈ scalar j, ' ' ≤ c) {j : Json} (hj : j.Proper)
    (indent : ℕ) (h : Calm rest) :
  Calm (layout scalar indent j ++ rest)
  := by
  have htext : ∀ j {rest}, Calm rest → Calm (scalar j ++ rest) := by
    intro j rest h
    apply h.append
    intro c hc hline
    exact absurd (hline ▸ hscalar j c hc) (by decide)
  induction hj generalizing indent rest with
  | array _ ih =>
    apply calm_block (by decide) (by decide) indent _ h
    rw [elementTexts_eq, List.forall_mem_map]
    intro e he rest hrest
    exact ih e he _ hrest
  | object _ _ ih =>
    apply calm_block (by decide) (by decide) indent _ h
    rw [memberTexts_eq, List.forall_mem_map]
    intro m hm rest hrest
    rw [List.append_assoc]
    apply htext
    exact ((ih m hm _ hrest).cons (.inl (by decide))).cons (.inl (by decide))
  | _ => exact htext _ h

end Lines

end Json

/-- What the service relies on: a value that is written and read again is the same value, and
`dump(2)` lays the value out in lines, where the texts of strings and of other values that are
neither arrays nor objects have no control characters, since these are escaped. -/
structure Codec (dump : Json → String) (parse : String → Option Json) : Prop where
  parse_dump : ∀ {j : Json}, j.Proper → parse (dump j) = some j
  layout : ∃ scalar : Json → List Char, (∀ j, ∀ c ∈ scalar j, ' ' ≤ c)
    ∧ ∀ j, (dump j).toList = j.layout scalar 0

/-- No line of the text starts with a backtick. -/
theorem Codec.lines {dump : Json → String} {parse : String → Option Json} (h : Codec dump parse)
    {j : Json} (hj : j.Proper) :
  ¬ ['\n', '`'] <:+: (dump j).toList
  := by
  obtain ⟨scalar, hscalar, hlayout⟩ := h.layout
  have hcalm : Json.Calm (j.layout scalar 0 ++ []) :=
    Json.calm_layout hscalar hj 0 (by simp [Json.Calm])
  rwa [List.append_nil, ← hlayout] at hcalm

end Agamemnon
