import Agamemnon.Json.Value
import Agamemnon.Lib.Numerals

/-!
# Issue references of implementation tasks

`parse_impl_ref` reads a leading issue reference `#N` off the text of an implementation
task, and behind it the annotation `(depends on: #A, #B)`.  The text is read as a list
of characters; the marker, the digits and the delimiters are ASCII, so positions in the
list and in the bytes of the text delimit the same parts.
-/

namespace Agamemnon

open Numerals (decimalValue intMax)

/-- `std::stoi`. -/
def stoi (text : List Char) : Except Exn ℤ :=
  Numerals.stoi (.invalidArgument "stoi") .outOfRange text

theorem stoi_of_digits {text : List Char} (hsome : text ≠ []) (h : ∀ c ∈ text, c.isDigit = true) :
  stoi text = if decimalValue text ≤ intMax then .ok ↑(decimalValue text) else .error .outOfRange
  := Numerals.stoi_of_digits hsome h

/-- `ImplRef`. -/
structure ImplRef where
  issue : ℤ := 0
  dependsOn : List ℤ := []
  hasExplicitDeps : Bool := false
deriving DecidableEq, Repr

namespace ImplRef

/-- A space or a tab. -/
def isBlank (c : Char) : Bool :=
  c = ' ' || c = '\t'

/-- The text that opens an annotation. -/
def marker : List Char :=
  "(depends on:".toList

/-- What follows the first occurrence of `m` in a text. -/
def afterFirst (m : List Char) : List Char → Option (List Char)
  | [] => none
  | c :: cs =>
      if m.isPrefixOf (c :: cs) then some ((c :: cs).drop m.length) else afterFirst m cs

/-- The text between the first marker and the first `)` behind it. -/
def depsText (text : List Char) : Option (List Char) :=
  match afterFirst marker text with
  | none => none
  | some rest => if ')' ∈ rest then some (rest.takeWhile (· ≠ ')')) else none

/-- The numbers of the references `#N` in the text of an annotation, in order.  The
source goes on behind the digits; as no digit opens a reference, going on behind the
`#` reads the same numbers. -/
def scanDeps : List Char → Except Exn (List ℤ)
  | [] => .ok []
  | c :: cs => do
      if c = '#' ∧ cs.takeWhile Char.isDigit ≠ [] then
        let n ← stoi (cs.takeWhile Char.isDigit)
        let rest ← scanDeps cs
        return n :: rest
      else scanDeps cs

/-- `parse_impl_ref` on the characters of the text. -/
def parse (text : List Char) : Except Exn ImplRef :=
  match text.dropWhile isBlank with
  | '#' :: rest =>
      if rest.takeWhile Char.isDigit = [] then .ok {}
      else do
        let issue ← stoi (rest.takeWhile Char.isDigit)
        match depsText (rest.dropWhile Char.isDigit) with
        | none => return { issue }
        | some deps =>
            let dependsOn ← scanDeps deps
            return { issue, dependsOn, hasExplicitDeps := true }
  | _ => .ok {}

/-- A reference with dependencies carries an annotation. -/
theorem hasExplicitDeps_of_dependsOn {text : List Char} {ref : ImplRef} {n : ℤ}
    (h : parse text = .ok ref) (hn : n ∈ ref.dependsOn) :
  ref.hasExplicitDeps = true
  := by
  rw [parse] at h
  split at h
  · split at h
    · obtain rfl := Except.ok.inj h
      simp at hn
    · obtain ⟨issue, -, h⟩ := exists_of_bind_eq_ok h
      split at h
      · obtain rfl := Except.ok.inj h
        simp at hn
      · obtain ⟨dependsOn, -, h⟩ := exists_of_bind_eq_ok h
        obtain rfl := Except.ok.inj h
        rfl
  · obtain rfl := Except.ok.inj h
    simp at hn

/-! ### The numbers of a text -/

/-- The runs of digits behind a `#` in the text of an annotation. -/
def depNumbers : List Char → List (List Char)
  | [] => []
  | c :: cs =>
      if c = '#' ∧ cs.takeWhile Char.isDigit ≠ [] then
        cs.takeWhile Char.isDigit :: depNumbers cs
      else depNumbers cs

/-- The runs of digits that are read as issue numbers: the one behind the leading `#`
and those of the annotation. -/
def numbers (text : List Char) : List (List Char) :=
  match text.dropWhile isBlank with
  | '#' :: rest =>
      if rest.takeWhile Char.isDigit = [] then []
      else rest.takeWhile Char.isDigit ::
        ((depsText (rest.dropWhile Char.isDigit)).map depNumbers).getD []
  | _ => []

/-- Every issue number of the text fits an `int`. -/
def NumbersFit (text : List Char) : Prop :=
  ∀ digits ∈ numbers text, decimalValue digits ≤ intMax

instance (text : List Char) : Decidable (NumbersFit text) :=
  inferInstanceAs (Decidable (∀ digits ∈ numbers text, decimalValue digits ≤ intMax))

theorem stoi_isOk {cs : List Char} (hsome : cs.takeWhile Char.isDigit ≠ []) :
  (stoi (cs.takeWhile Char.isDigit)).isOk ↔ decimalValue (cs.takeWhile Char.isDigit) ≤ intMax
  := by
  rw [stoi_of_digits hsome fun c hc => List.mem_takeWhile_imp hc]
  split <;> simp [Except.isOk, Except.toBool, *]

/-- Scanning an annotation throws unless its numbers fit. -/
theorem scanDeps_isOk :
  ∀ deps : List Char,
    (scanDeps deps).isOk ↔ ∀ digits ∈ depNumbers deps, decimalValue digits ≤ intMax
  | [] => by simp [scanDeps, depNumbers, Except.isOk, Except.toBool]
  | c :: cs => by
      rw [scanDeps, depNumbers]
      split
      · rename_i hsome
        rw [List.forall_mem_cons, ← scanDeps_isOk cs, ← stoi_isOk hsome.2]
        cases stoi (cs.takeWhile Char.isDigit) with
        | error e => simp [bind, Except.bind, Except.isOk, Except.toBool]
        | ok n =>
          cases scanDeps cs <;> simp [bind, Except.bind, pure, Except.pure, Except.isOk,
            Except.toBool]
      · apply scanDeps_isOk cs

/-- Parsing throws unless the issue numbers fit. -/
theorem parse_isOk (text : List Char) :
  (parse text).isOk ↔ NumbersFit text
  := by
  rw [parse, NumbersFit, numbers]
  split
  · rename_i rest _
    split
    · simp [Except.isOk, Except.toBool]
    · rename_i hsome
      rw [List.forall_mem_cons, ← stoi_isOk hsome]
      cases stoi (rest.takeWhile Char.isDigit) with
      | error e => simp [bind, Except.bind, Except.isOk, Except.toBool]
      | ok issue =>
        cases depsText (rest.dropWhile Char.isDigit) with
        | none => simp [bind, Except.bind, pure, Except.pure, Except.isOk, Except.toBool]
        | some deps =>
          rw [Option.map_some, Option.getD_some, ← scanDeps_isOk]
          cases hdeps : scanDeps deps <;> simp [hdeps, bind, Except.bind, pure, Except.pure,
            Except.isOk, Except.toBool]
  · simp [Except.isOk, Except.toBool]

end ImplRef

end Agamemnon
