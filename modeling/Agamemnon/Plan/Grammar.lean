import Agamemnon.Lib.Lists
import Agamemnon.Plan.ImplRef
import Mathlib

/-!
# The grammar of issue references

A text refers to an issue if it starts with blanks and `#digits`.  What it depends on are the
tokens `#digits` between the first marker behind that and the first bracket behind the marker.
Every text is read so, as long as its numbers fit an `int`.
-/

namespace Agamemnon

open Numerals (decimalValue decimalValue_toDigits intMax isDigit_toDigits)

namespace ImplRef

/-- The loop over the annotation as the source has it, which goes on behind the digits. -/
def scanLoop : List Char → Except Exn (List ℤ)
  | [] => .ok []
  | c :: cs =>
      have : (cs.dropWhile Char.isDigit).length ≤ cs.length := (List.dropWhile_suffix _).length_le
      if c = '#' then
        if cs.takeWhile Char.isDigit = [] then scanLoop (cs.dropWhile Char.isDigit)
        else do
          let n ← stoi (cs.takeWhile Char.isDigit)
          let rest ← scanLoop (cs.dropWhile Char.isDigit)
          return n :: rest
      else scanLoop cs
termination_by text => text.length

section Tokens

variable {text digits rest deps : List Char}

theorem depNumbers_append :
  ∀ {digits : List Char}, (∀ c ∈ digits, c.isDigit) → depNumbers (digits ++ rest) = depNumbers rest
  | [], _ => rfl
  | c :: cs, h => by
      obtain ⟨hc, hcs⟩ := List.forall_mem_cons.mp h
      have hne : c ≠ '#' := by
        rintro rfl
        exact absurd hc (by decide)
      simp [depNumbers, hne, depNumbers_append hcs]

theorem scanDeps_eq_mapM :
  ∀ text : List Char, scanDeps text = (depNumbers text).mapM stoi
  | [] => rfl
  | c :: cs => by
      rw [scanDeps, depNumbers, scanDeps_eq_mapM cs]
      split
      · rw [List.mapM_cons]
      · rfl

/-- As no digit opens a reference, both loops read the same numbers. -/
theorem scanLoop_eq (text : List Char) :
  scanLoop text = scanDeps text
  := by
  have hdrop (cs : List Char) : scanDeps (cs.dropWhile Char.isDigit) = scanDeps cs := by
    conv_rhs => rw [← List.takeWhile_append_dropWhile (p := Char.isDigit) (l := cs)]
    rw [scanDeps_eq_mapM, scanDeps_eq_mapM, depNumbers_append fun c hc => List.mem_takeWhile_imp hc]
  fun_induction scanLoop text with
  | case1 => rfl
  | case2 cs _ hnone ih => simp [scanDeps, hnone, ih, hdrop]
  | case3 cs _ hsome ih => simp [scanDeps, hsome, ih, hdrop]
  | case4 c cs _ hc ih => simp [scanDeps, hc, ih]

/-- The digits of the token at the start of a text. -/
def token : List Char → Option (List Char)
  | [] => none
  | c :: cs =>
      if c = '#' ∧ cs.takeWhile Char.isDigit ≠ [] then some (cs.takeWhile Char.isDigit) else none

/-- The tokens of a text, in order. -/
def tokens (text : List Char) : List (List Char) :=
  text.tails.filterMap token

theorem mem_tokens :
  digits ∈ tokens text ↔ ∃ s, s <:+ text ∧ token s = some digits
  := by
  simp [tokens, List.mem_filterMap]

theorem tokens_eq :
  ∀ text : List Char, tokens text = depNumbers text
  | [] => rfl
  | c :: cs => by
      have ih := tokens_eq cs
      rw [tokens] at ih ⊢
      rw [List.tails_cons, List.filterMap_cons, token, depNumbers, ih]
      by_cases hc : c = '#' ∧ cs.takeWhile Char.isDigit ≠ []
      · rw [if_pos hc, if_pos hc]
      · rw [if_neg hc, if_neg hc]

/-- Their values. -/
def values (text : List Char) : List ℤ :=
  (tokens text).map fun digits => (decimalValue digits : ℤ)

/-- The numbers of the text fit an `int`. -/
def Fits (text : List Char) : Prop :=
  ∀ digits ∈ tokens text, decimalValue digits ≤ intMax

theorem scanDeps_eq (h : Fits text) :
  scanDeps text = .ok (values text)
  := by
  rw [scanDeps_eq_mapM, ← tokens_eq, values]
  apply Lists.mapM_eq_ok
  intro digits hdigits
  obtain ⟨s, -, hs⟩ := mem_tokens.mp hdigits
  cases s with
  | nil => cases hs
  | cons c cs =>
    rw [token] at hs
    split_ifs at hs with hsome
    cases hs
    rw [stoi_of_digits hsome.2 fun c hc => List.mem_takeWhile_imp hc, if_pos (h _ hdigits)]

/-- A run of digits ends before what is no digit. -/
theorem takeWhile_append_stop (h : ∀ c ∈ rest.head?, ¬ c.isDigit) (text : List Char) :
  (text ++ rest).takeWhile Char.isDigit = text.takeWhile Char.isDigit
  := by
  have hrest : rest.takeWhile Char.isDigit = [] := by
    cases rest with
    | nil => rfl
    | cons c rest => exact List.takeWhile_cons_of_neg (h c rfl)
  rw [List.takeWhile_append, hrest, List.append_nil]
  split
  · rename_i hlength
    exact ((List.takeWhile_prefix _).eq_of_length hlength).symm
  · rfl

/-- The numbers of a part fit, if it ends before what is no digit. -/
theorem Fits.part {u : List Char} (h : Fits (u ++ (text ++ rest)))
    (hrest : ∀ c ∈ rest.head?, ¬ c.isDigit) :
  Fits text
  := by
  intro digits hdigits
  obtain ⟨s, hsuffix, hs⟩ := mem_tokens.mp hdigits
  apply h
  apply mem_tokens.mpr
  use s ++ rest
  constructor
  · obtain ⟨t, rfl⟩ := hsuffix
    exact ⟨u ++ t, by simp⟩
  · cases s with
    | nil => cases hs
    | cons c cs =>
      rw [List.cons_append, token, takeWhile_append_stop hrest]
      exact hs

end Tokens

/-! ### The annotation -/

section Annotation

variable {m text rest deps : List Char}

theorem afterFirst_none :
  ∀ {text : List Char}, m ≠ [] → afterFirst m text = none → ¬ m <:+: text
  | [], hm, _ => by simpa using hm
  | c :: cs, hm, h => by
      rw [afterFirst] at h
      split at h
      · cases h
      · rename_i hc
        rw [List.infix_cons_iff, not_or]
        exact ⟨by simpa using hc, afterFirst_none hm h⟩

theorem afterFirst_append (hm : m ≠ []) :
  afterFirst m (m ++ rest) = some rest
  := by
  cases m with
  | nil => contradiction
  | cons c m =>
    rw [List.cons_append, afterFirst, if_pos (by simp), ← List.cons_append, List.drop_left]

/-- What is found is behind the first occurrence. -/
theorem afterFirst_some :
  ∀ {text : List Char}, afterFirst m text = some rest →
    ∃ u, text = u ++ m ++ rest ∧ ∀ u' v', text = u' ++ m ++ v' → u.length ≤ u'.length
  | c :: cs, h => by
      rw [afterFirst] at h
      split at h
      · rename_i hc
        obtain ⟨v, hv⟩ := List.isPrefixOf_iff_prefix.mp hc
        use []
        constructor
        · rw [← Option.some.inj h, ← hv, List.drop_left]
          rfl
        · intro u' v' _
          apply Nat.zero_le
      · rename_i hc
        obtain ⟨u, rfl, hfirst⟩ := afterFirst_some h
        use c :: u
        constructor
        · rfl
        · intro u' v' hu'
          cases u' with
          | nil => exact absurd (List.isPrefixOf_iff_prefix.mpr ⟨v', hu'.symm⟩) hc
          | cons d u' =>
            apply Nat.succ_le_succ
            apply hfirst u' v'
            exact (List.cons.inj hu').2

/-- The text between the first marker and the first bracket behind it. -/
def Annotates (rest deps : List Char) : Prop :=
  ∃ u w, rest = u ++ marker ++ (deps ++ ')' :: w) ∧ ')' ∉ deps
    ∧ ∀ u' v', rest = u' ++ marker ++ v' → u.length ≤ u'.length

theorem depsText_eq {w : List Char} (h : afterFirst marker rest = some (deps ++ ')' :: w))
    (hdeps : ')' ∉ deps) :
  depsText rest = some deps
  := by
  have htake : (deps ++ ')' :: w).takeWhile (· ≠ ')') = deps := by
    rw [List.takeWhile_append_of_pos, List.takeWhile_cons_of_neg (by simp), List.append_nil]
    intro c hc
    simpa using ne_of_mem_of_not_mem hc hdeps
  simp only [depsText, h]
  rw [if_pos (by simp), htake]

theorem annotates_of_depsText (h : depsText rest = some deps) :
  Annotates rest deps
  := by
  cases hbehind : afterFirst marker rest with
  | none => simp [depsText, hbehind] at h
  | some behind =>
    obtain ⟨u, hu, hfirst⟩ := afterFirst_some hbehind
    by_cases hmem : ')' ∈ behind
    · obtain ⟨v, w, rfl, hv⟩ := List.eq_append_cons_of_mem hmem
      obtain rfl := Option.some.inj ((depsText_eq hbehind hv).symm.trans h)
      exact ⟨u, w, hu, hv, hfirst⟩
    · simp [depsText, hbehind, hmem] at h

/-- If there is no such text, there is no bracket behind any marker. -/
theorem depsText_none (h : depsText rest = none) :
  ¬ ∃ u v w, rest = u ++ marker ++ (v ++ ')' :: w)
  := by
  rintro ⟨u, v, w, hrest⟩
  rw [depsText] at h
  split at h
  · rename_i hnone
    apply afterFirst_none (by decide) hnone
    exact ⟨u, v ++ ')' :: w, hrest.symm⟩
  · rename_i behind hbehind
    obtain ⟨u₀, hu₀, hfirst⟩ := afterFirst_some hbehind
    have hle := hfirst u _ hrest
    have hsuffix : v ++ ')' :: w <:+ behind := by
      apply List.suffix_of_suffix_length_le (hrest ▸ List.suffix_append (u ++ marker) _)
        (hu₀ ▸ List.suffix_append (u₀ ++ marker) _)
      have hlength := congrArg List.length (hu₀.symm.trans hrest)
      simp only [List.length_append] at hlength ⊢
      omega
    split at h
    · cases h
    · rename_i hmem
      apply hmem
      apply hsuffix.subset
      simp

end Annotation

/-! ### The reference -/

variable {text digits rest : List Char}

/-- The text starts with blanks and a token, and `rest` is what follows. -/
def Refers (text digits rest : List Char) : Prop :=
  ∃ blanks, text = blanks ++ '#' :: (digits ++ rest) ∧ (∀ c ∈ blanks, isBlank c)
    ∧ digits ≠ [] ∧ (∀ c ∈ digits, c.isDigit) ∧ ∀ c ∈ rest.head?, ¬ c.isDigit

theorem parse_of_refers (hfits : Fits text) (h : Refers text digits rest) :
  parse text = .ok ((depsText rest).elim { issue := decimalValue digits }
    fun deps => ⟨decimalValue digits, values deps, true⟩)
  := by
  obtain ⟨blanks, rfl, hblanks, hne, hdigits, hrest⟩ := h
  have hstart : (blanks ++ '#' :: (digits ++ rest)).dropWhile isBlank = '#' :: (digits ++ rest)
    := by
    rw [List.dropWhile_append_of_pos hblanks]
    rfl
  have htake : (digits ++ rest).takeWhile Char.isDigit = digits := by
    rw [takeWhile_append_stop hrest, List.takeWhile_eq_self_iff.mpr hdigits]
  have hdrop : (digits ++ rest).dropWhile Char.isDigit = rest := by
    have hsplit := List.takeWhile_append_dropWhile (p := Char.isDigit) (l := digits ++ rest)
    rw [htake] at hsplit
    exact List.append_cancel_left hsplit
  have hissue : decimalValue digits ≤ intMax := by
    apply hfits
    apply mem_tokens.mpr
    use '#' :: (digits ++ rest)
    constructor
    · apply List.suffix_append
    · rw [token, htake, if_pos ⟨rfl, hne⟩]
  simp only [parse, hstart, htake, hdrop, hne, if_false, stoi_of_digits hne hdigits, if_pos hissue]
  cases hdeps : depsText rest with
  | none => rfl
  | some deps =>
    obtain ⟨u, w, rfl, -, -⟩ := annotates_of_depsText hdeps
    have hdeps : Fits deps := by
      apply @Fits.part _ (')' :: w) (blanks ++ '#' :: (digits ++ (u ++ marker)))
      · simpa using hfits
      · simp
    simp only [scanDeps_eq hdeps]
    rfl

/-- A text that does not refer to an issue gives the empty reference. -/
theorem parse_of_not_refers (h : ¬ ∃ digits rest, Refers text digits rest) :
  parse text = .ok {}
  := by
  rw [parse]
  split
  · rename_i behind hbehind
    split
    · rfl
    · rename_i hne
      exfalso
      apply h
      use behind.takeWhile Char.isDigit, behind.dropWhile Char.isDigit, text.takeWhile isBlank
      constructor
      · rw [List.takeWhile_append_dropWhile, ← hbehind, List.takeWhile_append_dropWhile]
      · refine ⟨fun _ => List.mem_takeWhile_imp, hne, fun _ => List.mem_takeWhile_imp, ?_⟩
        intro c hc
        have hhead := List.head?_dropWhile_not Char.isDigit behind
        rw [hc] at hhead
        simp [hhead]
  · rfl

/-- `#a, #b, …` -/
def listed (ns : List ℕ) : String :=
  ", ".intercalate (ns.map fun a => "#" ++ toString a)

/-- `#n (depends on: #a, #b, …)` -/
def annotated (n : ℕ) (ns : List ℕ) : String :=
  "#" ++ toString n ++ " (depends on: " ++ listed ns ++ ")"

theorem depNumbers_cons (n : ℕ) (hrest : ∀ c ∈ rest.head?, ¬ c.isDigit) :
  depNumbers ('#' :: (Nat.toDigits 10 n ++ rest)) = Nat.toDigits 10 n :: depNumbers rest
  := by
  have htake : (Nat.toDigits 10 n ++ rest).takeWhile Char.isDigit = Nat.toDigits 10 n := by
    rw [takeWhile_append_stop hrest, List.takeWhile_eq_self_iff.mpr isDigit_toDigits]
  rw [depNumbers, htake, if_pos ⟨rfl, Nat.toDigits_ne_nil⟩, depNumbers_append isDigit_toDigits]

theorem toList_listed (a b : ℕ) (ns : List ℕ) :
  (listed (a :: b :: ns)).toList
    = '#' :: (Nat.toDigits 10 a ++ (',' :: ' ' :: (listed (b :: ns)).toList))
  := by
  simp [listed, String.toList_intercalate]

/-- The list is a list of tokens. -/
theorem depNumbers_listed :
  ∀ ns : List ℕ, depNumbers (listed ns).toList = ns.map (Nat.toDigits 10)
  | [] => by simp [listed, depNumbers]
  | [a] => by
      have h := @depNumbers_cons [] a (by simp)
      simpa [listed, String.toList_intercalate, depNumbers] using h
  | a :: b :: ns => by
      have hrest := depNumbers_listed (b :: ns)
      rw [toList_listed, depNumbers_cons a (by simp)]
      simpa [depNumbers] using hrest

theorem not_mem_listed :
  ∀ ns : List ℕ, ')' ∉ (listed ns).toList
  | [] => by simp [listed]
  | [a] => by
      have h : ')' ∉ Nat.toDigits 10 a := fun h => absurd (isDigit_toDigits _ h) (by decide)
      simpa [listed, String.toList_intercalate] using h
  | a :: b :: ns => by
      have h : ')' ∉ Nat.toDigits 10 a := fun h => absurd (isDigit_toDigits _ h) (by decide)
      have hrest := not_mem_listed (b :: ns)
      rw [toList_listed]
      simp [h, hrest]

theorem depsText_listed (ns : List ℕ) (trailing : List Char) :
  depsText (' ' :: (marker ++ (' ' :: (listed ns).toList ++ ')' :: trailing)))
    = some (' ' :: (listed ns).toList)
  := by
  apply depsText_eq
  · rw [afterFirst, if_neg (by exact Bool.false_ne_true)]
    exact afterFirst_append (by decide)
  · simp [not_mem_listed]

/-- The list is read back. -/
theorem parse_annotated {n : ℕ} {ns : List ℕ} {trailing : List Char}
    (hfits : Fits ((annotated n ns).toList ++ trailing)) :
  parse ((annotated n ns).toList ++ trailing) = .ok ⟨n, ns.map fun a : ℕ => (a : ℤ), true⟩
  := by
  have hrefers : Refers ((annotated n ns).toList ++ trailing) (Nat.toDigits 10 n)
      (' ' :: (marker ++ (' ' :: (listed ns).toList ++ ')' :: trailing))) := by
    refine ⟨[], ?_, by simp, Nat.toDigits_ne_nil, isDigit_toDigits, ?_⟩
    · simp only [annotated, String.toList_append, List.append_assoc, Nat.toString_eq_repr,
        Nat.toList_repr]
      rfl
    · intro c hc
      obtain rfl : ' ' = c := Option.some.inj hc
      decide
  have hvalues : values (' ' :: (listed ns).toList) = ns.map fun a : ℕ => (a : ℤ) := by
    simp [values, tokens_eq, depNumbers, depNumbers_listed, decimalValue_toDigits]
  rw [parse_of_refers hfits hrefers, depsText_listed, Option.elim, decimalValue_toDigits, hvalues]

/-- A text whose numbers fit is read by the grammar: the issue and the dependencies of a text that
refers to an issue, and otherwise the empty reference. -/
theorem parse_grammar (text : List Char) (hfits : Fits text) :
  (∀ digits rest, Refers text digits rest →
    ((∃ u v w, rest = u ++ marker ++ (v ++ ')' :: w)) →
      ∃ deps, Annotates rest deps ∧ parse text = .ok ⟨decimalValue digits, values deps, true⟩)
    ∧ ((¬ ∃ u v w, rest = u ++ marker ++ (v ++ ')' :: w)) →
      parse text = .ok ⟨decimalValue digits, [], false⟩))
  ∧ ((¬ ∃ digits rest, Refers text digits rest) → parse text = .ok ⟨0, [], false⟩)
  ∧ ∀ (n : ℕ) (ns : List ℕ) trailing, text = (annotated n ns).toList ++ trailing →
      parse text = .ok ⟨n, ns.map fun a : ℕ => (a : ℤ), true⟩
  := by
  refine ⟨?_, parse_of_not_refers, ?_⟩
  · intro digits rest hrefers
    rw [parse_of_refers hfits hrefers]
    cases hdeps : depsText rest with
    | none =>
      have hnone := depsText_none hdeps
      exact ⟨fun hsome => absurd hsome hnone, fun _ => rfl⟩
    | some deps =>
      have hannotates := annotates_of_depsText hdeps
      constructor
      · intro _
        exact ⟨deps, hannotates, rfl⟩
      · intro hnone
        obtain ⟨u, w, hrest, -, -⟩ := hannotates
        exact absurd ⟨u, deps, w, hrest⟩ hnone
  · rintro n ns trailing rfl
    exact parse_annotated hfits

theorem parse_grammar_pair :
  Fits ((annotated 7 [5, 6]).toList ++ " soon".toList)
    ∧ parse ((annotated 7 [5, 6]).toList ++ " soon".toList) = .ok ⟨7, [5, 6], true⟩
  := by
  have hfits : Fits ((annotated 7 [5, 6]).toList ++ " soon".toList) := by
    rw [Fits, tokens_eq]
    decide
  exact ⟨hfits, (parse_grammar _ hfits).2.2 7 [5, 6] " soon".toList rfl⟩

end ImplRef

end Agamemnon
