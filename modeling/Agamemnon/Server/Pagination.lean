import Agamemnon.Plan.ImplRef
import Agamemnon.Server.Handlers
import Mathlib.Data.List.TakeWhile

/-!
# The parameters of a page

`parse_pagination` reads the `limit` and the `offset` of a listing with `std::stoul`, which skips
white space, takes a sign, negates modulo `2^64`, and ignores what follows the digits.  A parameter
is hence read also when it is no number, such as `-1`, `" 5"` or `5x`, and the parameters are parsed
strictly exactly if this does not happen to all of them at once (`parsedStrictly_iff`).
-/

namespace Agamemnon

open Numerals

/-! ### The parser -/

def kDefaultLimit : ℕ := 100

def kMaxLimit : ℕ := 1000

structure PaginationParams where
  limit : ℕ
  offset : ℕ
deriving DecidableEq

/-- `std::stoul`, for a `long` of 64 bits. -/
def stoul (text : String) : Except Exn ℕ :=
  let value := decimalValue (leadingDigits text.toList)
  if leadingDigits text.toList = [] then .error (.invalidArgument "stoul")
  else if 2 ^ 64 ≤ value then .error .outOfRange
  -- A number with a minus sign is negated as an `unsigned long`.
  else if (afterSign text.toList).1 = true then .ok ((2 ^ 64 - value) % 2 ^ 64)
  else .ok value

/-- The limit: as it is given, but at most `kMaxLimit`. -/
def readLimit : Option String → Except Exn ℕ
  | some text => (stoul text).map fun v => min v kMaxLimit
  | none => .ok kDefaultLimit

/-- The offset. -/
def readOffset : Option String → Except Exn ℕ
  | some text => stoul text
  | none => .ok 0

/-- The body of the `try` block. -/
def readPagination (limit offset : Option String) : Except Exn PaginationParams := do
  let limit ← readLimit limit
  let offset ← readOffset offset
  pure ⟨limit, offset⟩

/-- `parse_pagination`: the parameters, or the refusal. -/
def parsePagination (limit offset : Option String) : Except Response PaginationParams :=
  match readPagination limit offset with
  | .ok params => .ok params
  | .error _ => .error (replyBadRequest "limit and offset must be non-negative integers")

/-! ### Strict parsing -/

/-- The text consists of decimal digits. -/
def OnlyDigits (text : String) : Prop :=
  ∀ c ∈ text.toList, c.isDigit = true

instance (text : String) : Decidable (OnlyDigits text) :=
  List.decidableBAll (fun c : Char ↦ c.isDigit = true) text.toList

/-- The text is a number that fits the unsigned type. -/
structure IsNumber (text : String) : Prop where
  nonempty : text.toList ≠ []
  digits : OnlyDigits text
  fits : decimalValue text.toList < 2 ^ 64

/-- The text starts with a number that fits, after white space and a sign. -/
structure StartsWithNumber (text : String) : Prop where
  nonempty : leadingDigits text.toList ≠ []
  fits : decimalValue (leadingDigits text.toList) < 2 ^ 64

/-- What a limit should be read as. -/
def limitOf : Option String → ℕ
  | some text => min (decimalValue text.toList) 1000
  | none => 100

/-- What an offset should be read as. -/
def offsetOf : Option String → ℕ
  | some text => decimalValue text.toList
  | none => 0

/-- The parameters that are given satisfy `P`. -/
def Given (P : String → Prop) (limit offset : Option String) : Prop :=
  (∀ text, limit = some text → P text) ∧ ∀ text, offset = some text → P text

/-- Numbers are read, and everything else is refused. -/
structure ParsedStrictly (limit offset : Option String) : Prop where
  accepts : Given IsNumber limit offset →
    parsePagination limit offset = .ok ⟨limitOf limit, offsetOf offset⟩
  refuses : ¬ Given IsNumber limit offset →
    ∃ reply, parsePagination limit offset = .error reply ∧ reply.status = 400

section Stoul

variable {text : String}

/-- What `stoul` reads, if it reads a number. -/
theorem stoul_of_startsWithNumber (h : StartsWithNumber text) :
  ∃ v, stoul text = .ok v
  := by
  rw [stoul, if_neg h.nonempty, if_neg (not_le.mpr h.fits)]
  split
  · exact ⟨_, rfl⟩
  · exact ⟨_, rfl⟩

theorem stoul_of_not_startsWithNumber (h : ¬ StartsWithNumber text) :
  ∃ exn, stoul text = .error exn
  := by
  rw [stoul]
  split
  · exact ⟨_, rfl⟩
  · rename_i hnonempty
    rw [if_pos]
    · exact ⟨_, rfl⟩
    · by_contra hfits
      apply h
      exact ⟨hnonempty, not_le.mp hfits⟩

/-- Of the texts that consist of digits, the numbers are those that start with one. -/
theorem isNumber_iff_startsWithNumber (h : OnlyDigits text) :
  IsNumber text ↔ StartsWithNumber text
  := by
  constructor
  · rintro ⟨hnonempty, -, hfits⟩
    rw [← leadingDigits_of_digits h] at hnonempty hfits
    exact ⟨hnonempty, hfits⟩
  · rintro ⟨hnonempty, hfits⟩
    rw [leadingDigits_of_digits h] at hnonempty hfits
    exact ⟨hnonempty, h, hfits⟩

/-- A number is read as its value. -/
theorem stoul_of_isNumber (h : IsNumber text) :
  stoul text = .ok (decimalValue text.toList)
  := by
  obtain ⟨hnonempty, hdigits, hfits⟩ := h
  rw [stoul, leadingDigits_of_digits hdigits, afterSign_of_digits hdigits]
  rw [if_neg hnonempty, if_neg (not_le.mpr hfits), if_neg Bool.false_ne_true]

end Stoul

section Parse

variable {limit offset : Option String}

/-- What is read, if the given parameters start with numbers. -/
theorem readPagination_of_given (h : Given StartsWithNumber limit offset) :
  ∃ params, readPagination limit offset = .ok params
  := by
  have hlimit : ∃ v, readLimit limit = .ok v := by
    cases limit with
    | none => exact ⟨_, rfl⟩
    | some text =>
      obtain ⟨v, hv⟩ := stoul_of_startsWithNumber (h.1 text rfl)
      use min v kMaxLimit
      rw [readLimit, hv]
      rfl
  have hoffset : ∃ v, readOffset offset = .ok v := by
    cases offset with
    | none => exact ⟨_, rfl⟩
    | some text => apply stoul_of_startsWithNumber (h.2 text rfl)
  obtain ⟨l, hl⟩ := hlimit
  obtain ⟨o, ho⟩ := hoffset
  use ⟨l, o⟩
  rw [readPagination, hl, ho]
  rfl

/-- A parameter that does not start with a number makes the parser throw. -/
theorem readPagination_of_not_given (h : ¬ Given StartsWithNumber limit offset) :
  ∃ exn, readPagination limit offset = .error exn
  := by
  rw [Given, not_and_or] at h
  push Not at h
  rw [readPagination]
  rcases h with ⟨text, rfl, htext⟩ | ⟨text, rfl, htext⟩
  · obtain ⟨exn, hexn⟩ := stoul_of_not_startsWithNumber htext
    use exn
    rw [readLimit, hexn]
    rfl
  · cases readLimit limit with
    | error exn => exact ⟨exn, rfl⟩
    | ok l =>
      obtain ⟨exn, hexn⟩ := stoul_of_not_startsWithNumber htext
      use exn
      rw [readOffset, hexn]
      rfl

/-- Numbers are read as their values. -/
theorem readPagination_of_isNumber (h : Given IsNumber limit offset) :
  readPagination limit offset = .ok ⟨limitOf limit, offsetOf offset⟩
  := by
  have hlimit : readLimit limit = .ok (limitOf limit) := by
    cases limit with
    | none => rfl
    | some text =>
      rw [readLimit, stoul_of_isNumber (h.1 text rfl)]
      rfl
  have hoffset : readOffset offset = .ok (offsetOf offset) := by
    cases offset with
    | none => rfl
    | some text => apply stoul_of_isNumber (h.2 text rfl)
  rw [readPagination, hlimit, hoffset]
  rfl

theorem parsePagination_of_error {exn : Exn} (h : readPagination limit offset = .error exn) :
  ∃ reply, parsePagination limit offset = .error reply ∧ reply.status = 400
  := by
  use replyBadRequest "limit and offset must be non-negative integers"
  rw [parsePagination, h]
  exact ⟨rfl, rfl⟩

theorem Given.imp {P Q : String → Prop} (h : Given P limit offset) (hPQ : ∀ text, P text → Q text) :
  Given Q limit offset
  := by
  constructor
  · intro text htext
    apply hPQ text (h.1 text htext)
  · intro text htext
    apply hPQ text (h.2 text htext)

/-- Parameters that consist of digits and start with numbers are numbers. -/
theorem Given.isNumber (hdigits : Given OnlyDigits limit offset)
    (hstarts : Given StartsWithNumber limit offset) :
  Given IsNumber limit offset
  := by
  constructor
  · intro text htext
    apply (isNumber_iff_startsWithNumber (hdigits.1 text htext)).mpr (hstarts.1 text htext)
  · intro text htext
    apply (isNumber_iff_startsWithNumber (hdigits.2 text htext)).mpr (hstarts.2 text htext)

end Parse

/-- The parameters are parsed strictly exactly if they consist of digits, or one of them does not
start with a number. -/
theorem parsedStrictly_iff (limit offset : Option String) :
  ParsedStrictly limit offset
    ↔ Given OnlyDigits limit offset ∨ ¬ Given StartsWithNumber limit offset
  := by
  constructor
  · intro h
    by_contra hcondition
    push Not at hcondition
    obtain ⟨hother, hstarts⟩ := hcondition
    -- The parameters are read, although one of them has something else than digits.
    obtain ⟨params, hparams⟩ := readPagination_of_given hstarts
    have hnumbers : ¬ Given IsNumber limit offset
      := fun hnumbers => hother (hnumbers.imp fun _ => IsNumber.digits)
    obtain ⟨reply, hreply, -⟩ := h.refuses hnumbers
    rw [parsePagination, hparams] at hreply
    cases hreply
  · intro hcondition
    constructor
    · intro hnumbers
      rw [parsePagination, readPagination_of_isNumber hnumbers]
    · intro hnumbers
      have hstarts : ¬ Given StartsWithNumber limit offset := by
        rcases hcondition with hdigits | hstarts
        · intro hstarts
          apply hnumbers
          apply hdigits.isNumber hstarts
        · apply hstarts
      obtain ⟨exn, hexn⟩ := readPagination_of_not_given hstarts
      apply parsePagination_of_error hexn

/-- `limit=-1` is read as the largest limit, `offset= 5x` as 5. -/
theorem not_parsedStrictly_minusOne :
  parsePagination (some "-1") (some " 5x") = .ok ⟨1000, 5⟩
    ∧ ¬ ParsedStrictly (some "-1") (some " 5x")
  := by
  have hparse : parsePagination (some "-1") (some " 5x") = .ok ⟨1000, 5⟩ := by rfl
  use hparse
  intro h
  have hnumbers : ¬ Given IsNumber (some "-1") (some " 5x") := by
    intro hnumbers
    have hdigits : ¬ OnlyDigits "-1" := by decide
    apply hdigits (hnumbers.1 "-1" rfl).digits
  obtain ⟨reply, hreply, -⟩ := h.refuses hnumbers
  rw [hparse] at hreply
  cases hreply

end Agamemnon
