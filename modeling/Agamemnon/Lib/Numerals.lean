import Mathlib.Data.List.TakeWhile
import Mathlib.Data.Nat.Digits.Defs

/-!
# Numbers in texts

The decimal numbers that the functions of C and C++ read: after white space and a sign they take
the digits, as many as there are, and look at nothing behind them.  `stoi` gives an `int`, for any
two exceptions; of a text that consists of digits it gives their value, if this is an `int`
(`stoi_of_digits`).
-/

namespace Numerals

/-- `std::isspace`. -/
def isSpace (c : Char) : Bool :=
  c ∈ [' ', '\t', '\n', '\x0b', '\x0c', '\r']

/-- The number a run of decimal digits denotes. -/
def decimalValue (digits : List Char) : ℕ :=
  digits.foldl (fun n c => 10 * n + (c.toNat - '0'.toNat)) 0

theorem isDigit_toDigits {n : ℕ} :
  ∀ c ∈ Nat.toDigits 10 n, c.isDigit
  := fun _ hc => Nat.isDigit_of_mem_toDigits (by decide) (by decide) hc

theorem decimalValue_toDigits (n : ℕ) :
  decimalValue (Nat.toDigits 10 n) = n
  := Nat.ofDigitChars_toDigits (by decide) (by decide)

/-- A number is known by its digits. -/
theorem toString_inj {m n : ℕ} :
  toString m = toString n ↔ m = n
  := by
  constructor
  · intro h
    have hdigits : Nat.toDigits 10 m = Nat.toDigits 10 n := by
      rw [← Nat.toList_repr, ← Nat.toList_repr]
      exact congrArg String.toList h
    rw [← decimalValue_toDigits m, hdigits, decimalValue_toDigits]
  · rintro rfl
    rfl

/-- The largest `int`. -/
def intMax : ℕ := 2147483647

/-- A text after its white space: whether there is a minus sign, and what follows the sign. -/
def afterSign (text : List Char) : Bool × List Char :=
  match text.dropWhile isSpace with
  | '-' :: cs => (true, cs)
  | '+' :: cs => (false, cs)
  | cs => (false, cs)

/-- The digits that are read. -/
def leadingDigits (text : List Char) : List Char :=
  (afterSign text).2.takeWhile Char.isDigit

/-- `std::stoi`, with the exceptions for a text without a number and for a number that is no
`int`. -/
def stoi {ε : Type} (invalid range : ε) (text : List Char) : Except ε ℤ :=
  let magnitude : ℤ := decimalValue (leadingDigits text)
  let value := if (afterSign text).1 = true then -magnitude else magnitude
  if leadingDigits text = [] then .error invalid
  else if -2 ^ 31 ≤ value ∧ value < 2 ^ 31 then .ok value
  else .error range

theorem isSpace_of_isDigit {c : Char} (h : c.isDigit = true) :
  isSpace c = false
  := by
  apply Bool.eq_false_iff.mpr
  intro hspace
  rw [isSpace, decide_eq_true_eq] at hspace
  simp only [List.mem_cons, List.not_mem_nil, or_false] at hspace
  rcases hspace with rfl | rfl | rfl | rfl | rfl | rfl <;> cases h

variable {text : List Char}

/-- A digit is neither white space nor a sign, so a run of digits is read from its start. -/
theorem afterSign_of_digits (h : ∀ c ∈ text, c.isDigit = true) :
  afterSign text = (false, text)
  := by
  rw [afterSign]
  cases text with
  | nil => rfl
  | cons c cs =>
    have hc : c.isDigit = true := h c List.mem_cons_self
    rw [List.dropWhile_cons_of_neg (by simp [isSpace_of_isDigit hc])]
    split
    · rename_i heq
      cases heq
      cases hc
    · rename_i heq
      cases heq
      cases hc
    · rfl

theorem leadingDigits_of_digits (h : ∀ c ∈ text, c.isDigit = true) :
  leadingDigits text = text
  := by
  rw [leadingDigits, afterSign_of_digits h, List.takeWhile_eq_self_iff]
  exact h

variable {ε : Type} {invalid range : ε}

theorem stoi_bounds {n : ℤ} (h : stoi invalid range text = .ok n) :
  -2 ^ 31 ≤ n ∧ n < 2 ^ 31
  := by
  simp only [stoi] at h
  split_ifs at h with _ hsign hbounds hbounds
  · cases h
    exact hbounds
  · cases h
    exact hbounds

theorem stoi_of_digits (hsome : text ≠ []) (h : ∀ c ∈ text, c.isDigit = true) :
  stoi invalid range text
    = if decimalValue text ≤ intMax then .ok (decimalValue text : ℤ) else .error range
  := by
  have hrange : (-2 ^ 31 ≤ (decimalValue text : ℤ) ∧ (decimalValue text : ℤ) < 2 ^ 31)
      ↔ decimalValue text ≤ intMax := by
    rw [intMax]
    omega
  rw [stoi, leadingDigits_of_digits h, afterSign_of_digits h]
  simp only [Bool.false_eq_true, if_false, hsome, hrange]

end Numerals
