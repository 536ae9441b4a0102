import Agamemnon.Json.Text
import Agamemnon.Lib.Numerals
import Mathlib.Tactic.FieldSimp

/-!
# A printer and a reader of JSON texts

`print` writes a value as `dump(2)` does: with its layout and its escapes.  A floating-point number
is written with as many decimals as it has, where the library takes the fewest that determine the
`double`.  `read` reads texts as `json::parse` does, apart from numbers with an exponent and
surrogate pairs, which it refuses; it does not round.

What is printed is read again (`codec`).
-/

namespace Agamemnon

namespace Json

/-! ### Strings -/

/-- The letters that are escaped with one letter. -/
def shortEscapes : List (Char × Char) :=
  [('"', '"'), ('\\', '\\'), ('\x08', 'b'), ('\x0c', 'f'), ('\n', 'n'), ('\r', 'r'), ('\t', 't')]

/-- `dump_escaped`, for one letter. -/
def escape (c : Char) : List Char :=
  match shortEscapes.lookup c with
  | some e => ['\\', e]
  | none =>
      if c < ' ' then
        ['\\', 'u', '0', '0', Nat.digitChar (c.toNat / 16), Nat.digitChar (c.toNat % 16)]
      else [c]

/-- The text of a string. -/
def quoted (s : String) : List Char :=
  '"' :: (s.toList.flatMap escape ++ ['"'])

/-- The letter that an escape with one letter stands for. -/
def unescape (e : Char) : Option Char :=
  (('/', '/') :: shortEscapes.map Prod.swap).lookup e

/-- The number that hexadecimal digits denote. -/
def hexValue (digits : List Char) : Option ℕ :=
  digits.foldlM (fun n c =>
    let d := "0123456789abcdef".toList.idxOf c.toLower
    if d < 16 then some (16 * n + d) else none) 0

/-- The letters of a string up to its closing quote, and what follows. -/
def readString : List Char → Option (List Char × List Char)
  | [] => none
  | '"' :: cs => some ([], cs)
  | '\\' :: 'u' :: h₃ :: h₂ :: h₁ :: h₀ :: cs => do
      let n ← hexValue [h₃, h₂, h₁, h₀]
      let (s, rest) ← readString cs
      if n.isValidChar then some (Char.ofNat n :: s, rest) else none
  | '\\' :: e :: cs => do
      let c ← unescape e
      let (s, rest) ← readString cs
      some (c :: s, rest)
  | c :: cs => do
      let (s, rest) ← readString cs
      if c = '\\' ∨ c < ' ' then none else some (c :: s, rest)
termination_by structural cs => cs

/-- Control characters are escaped. -/
theorem le_escape (c : Char) :
  ∀ d ∈ escape c, ' ' ≤ d
  := by
  have hshort : ∀ p ∈ shortEscapes, ' ' ≤ p.2 := by decide
  have hhex : ∀ n < 32, ' ' ≤ Nat.digitChar (n / 16) ∧ ' ' ≤ Nat.digitChar (n % 16) := by decide
  rw [escape]
  cases hlookup : shortEscapes.lookup c with
  | some e =>
    have he := hshort (c, e) (Lists.mem_of_lookup hlookup)
    simp [he]
  | none =>
    dsimp only
    split_ifs with hcontrol
    · simp [hhex c.toNat hcontrol]
    · simpa using hcontrol

/-- An escaped letter is read as this letter. -/
theorem readString_escape (c : Char) (cs : List Char) :
  readString (escape c ++ cs) = (readString cs).map fun r => (c :: r.1, r.2)
  := by
  have hshort : ∀ p ∈ shortEscapes, unescape p.2 = some p.1 ∧ p.2 ≠ 'u' := by decide
  have hhex : ∀ n < 32, hexValue ['0', '0', Nat.digitChar (n / 16), Nat.digitChar (n % 16)]
      = some n := by decide
  rw [escape]
  cases hlookup : shortEscapes.lookup c with
  | some e =>
    obtain ⟨hunescape, hu⟩ := hshort (c, e) (Lists.mem_of_lookup hlookup)
    rw [List.cons_append, List.cons_append, List.nil_append, readString]
    · rw [hunescape]
      cases readString cs <;> rfl
    · intro _ _ _ _ _ he
      exact absurd he hu
  | none =>
    rw [List.lookup_eq_none_iff] at hlookup
    have hquote : c ≠ '"' := by simpa using hlookup ('"', '"') (by decide)
    have hslash : c ≠ '\\' := by simpa using hlookup ('\\', '\\') (by decide)
    dsimp only
    split_ifs with hcontrol
    · have hlt : c.toNat < 32 := hcontrol
      have hvalid : c.toNat.isValidChar := .inl (by omega)
      simp only [List.cons_append, List.nil_append, readString, hhex c.toNat hlt]
      cases readString cs with
      | none => rfl
      | some r =>
        change (if c.toNat.isValidChar then _ else _) = _
        rw [if_pos hvalid, Char.ofNat_toNat]
        rfl
    · rw [List.cons_append, List.nil_append, readString]
      · cases readString cs <;> simp [hslash, hcontrol]
      · exact hquote
      · exact fun _ _ _ _ _ h _ => hslash h
      · exact fun _ _ h _ => hslash h

/-- A string is read up to its closing quote. -/
theorem readString_quoted (s : String) (rest : List Char) :
  readString (s.toList.flatMap escape ++ '"' :: rest) = some (s.toList, rest)
  := by
  induction s.toList with
  | nil => rfl
  | cons c cs ih => rw [List.flatMap_cons, List.append_assoc, readString_escape, ih, Option.map_some]

/-! ### Numbers -/

/-- How many decimals a number has, if it is a `double`. -/
def decimals (x : ℚ) : ℕ :=
  ((List.range 1075).find? fun k => 0 < k ∧ x.den ∣ 10 ^ k).getD 1

/-- The digits of a number with its decimals, and at least one before the point. -/
def decimalDigits (x : ℚ) : List Char :=
  (Nat.toDigits 10 (x.num.natAbs * 10 ^ decimals x / x.den)).leftpad (decimals x + 1) '0'

def sign (negative : Bool) : List Char :=
  if negative then ['-'] else []

/-- The text of a value that is neither an array nor an object. -/
def scalarText : Json → List Char
  | null => "null".toList
  | boolean b => if b then "true".toList else "false".toList
  | integer n => sign (n < 0) ++ Nat.toDigits 10 n.natAbs
  | float x =>
      let digits := decimalDigits x
      let whole := digits.length - decimals x
      sign (x < 0) ++ (digits.take whole ++ '.' :: digits.drop whole)
  | string s => quoted s
  | array _ | object _ => []

/-- A number without its sign, and what follows. -/
def readUnsigned (negative : Bool) (cs : List Char) : Option (Json × List Char) :=
  let whole := cs.takeWhile Char.isDigit
  match cs.dropWhile Char.isDigit with
  | '.' :: cs =>
      let fraction := cs.takeWhile Char.isDigit
      let value : ℚ := Numerals.decimalValue (whole ++ fraction) / 10 ^ fraction.length
      if whole = [] ∨ fraction = [] then none
      else some (.float (if negative then -value else value), cs.dropWhile Char.isDigit)
  | cs =>
      let value : ℤ := Numerals.decimalValue whole
      let value := if negative then -value else value
      if whole = [] then none
      else if -2 ^ 63 ≤ value ∧ value < 2 ^ 64 then some (.integer value, cs)
      else some (.float value, cs)

/-- A number and what follows. -/
def readNumber : List Char → Option (Json × List Char)
  | '-' :: cs => readUnsigned true cs
  | cs => readUnsigned false cs

/-! ### Values -/

/-- White space of a JSON text. -/
def isWhite (c : Char) : Bool :=
  c ∈ [' ', '\n', '\r', '\t']

variable {α : Type}

/-- The items behind one of a list: each after a comma, up to the closing bracket. -/
def readItems (item : List Char → Option (α × List Char)) (closing : Char) :
    ℕ → List Char → Option (List α × List Char)
  | 0, _ => none
  | n + 1, cs =>
      match cs.dropWhile isWhite with
      | [] => none
      | c :: cs =>
          if c = closing then some ([], cs)
          else if c = ',' then do
            let (a, cs) ← item cs
            let (as, cs) ← readItems item closing n cs
            some (a :: as, cs)
          else none

/-- The items of a list behind its opening bracket. -/
def readBlock (item : List Char → Option (α × List Char)) (closing : Char) (n : ℕ)
    (cs : List Char) : Option (List α × List Char) :=
  if (cs.dropWhile isWhite).head? = some closing then some ([], (cs.dropWhile isWhite).tail)
  else do
    let (a, cs) ← item cs
    let (as, cs) ← readItems item closing n cs
    some (a :: as, cs)

/-- A member of an object, where `value` reads its value. -/
def readMember (value : List Char → Option (Json × List Char)) (cs : List Char) :
    Option ((String × Json) × List Char) :=
  match cs.dropWhile isWhite with
  | '"' :: cs => do
      let (k, cs) ← readString cs
      match cs.dropWhile isWhite with
      | ':' :: cs => do
          let (v, cs) ← value cs
          some ((.ofList k, v), cs)
      | _ => none
  | _ => none

/-- One of the words `null`, `true` and `false`, and what follows. -/
def readWord : List Char → Option (Json × List Char)
  | 'n' :: 'u' :: 'l' :: 'l' :: cs => some (null, cs)
  | 't' :: 'r' :: 'u' :: 'e' :: cs => some (boolean true, cs)
  | 'f' :: 'a' :: 'l' :: 's' :: 'e' :: cs => some (boolean false, cs)
  | _ => none

/-- A value and what follows. -/
def readValue : ℕ → List Char → Option (Json × List Char)
  | 0, _ => none
  | n + 1, cs =>
      match cs.dropWhile isWhite with
      | [] => none
      | c :: cs =>
          if c = '"' then (readString cs).map fun r => (.string (.ofList r.1), r.2)
          else if c = '[' then (readBlock (readValue n) ']' n cs).map fun r => (.array r.1, r.2)
          else if c = '\x7b' then
            (readBlock (readMember (readValue n)) '\x7d' n cs).map fun r =>
              (.object (r.1.foldl (fun ms m => setMember m.1 m.2 ms) []), r.2)
          else if c = '-' ∨ c.isDigit then readNumber (c :: cs)
          else readWord (c :: cs)

/-- `dump(2)` -/
def print (j : Json) : String :=
  .ofList (j.layout scalarText 0)

/-- `json::parse` -/
def read (text : String) : Option Json :=
  match readValue text.toList.length.succ text.toList with
  | some (j, rest) => if rest.all isWhite then some j else none
  | none => none

/-! ### Reading what is printed -/

/-- No number goes on in this text. -/
def Stops (rest : List Char) : Prop :=
  ∀ c ∈ rest.head?, c.isDigit = false ∧ c ≠ '.'

/-- The text is read as this item, wherever it stands. -/
structure Reads (item : List Char → Option (α × List Char)) (text : List Char) (a : α) : Prop where
  starts : ∃ c cs, text = c :: cs ∧ isWhite c = false ∧ c ≠ ']' ∧ c ≠ '\x7d'
  reads : ∀ {white rest : List Char}, (∀ c ∈ white, isWhite c = true) → Stops rest →
    item (white ++ (text ++ rest)) = some (a, rest)

/-- White space before a letter is skipped. -/
theorem dropWhile_white {white cs : List Char} {c : Char} (hwhite : ∀ c ∈ white, isWhite c = true)
    (hc : isWhite c = false) :
  (white ++ c :: cs).dropWhile isWhite = c :: cs
  := (Lists.while_append hwhite (by simpa using hc)).2

theorem isWhite_line (indent : ℕ) :
  ∀ c ∈ '\n' :: List.replicate indent ' ', isWhite c = true
  := by
  rw [List.forall_mem_cons]
  refine ⟨rfl, ?_⟩
  intro c hc
  rw [List.eq_of_mem_replicate hc]
  rfl

section Blocks

variable {item : List Char → Option (α × List Char)} {closing : Char} {texts : List (List Char)}
  {as : List α} {n : ℕ}

/-- A number ends at a comma or at the end of a line. -/
theorem stops_followers (indent : ℕ) (rest : List Char) :
  Stops (followers closing indent texts ++ rest)
  := by
  cases texts <;> simp [followers, Stops]

/-- An item on its line, and those that follow it. -/
theorem Reads.line {text : List Char} {a : α} (h : Reads item text a) (indent : ℕ)
    (rest : List Char) :
  item ('\n' :: (List.replicate (indent + 2) ' ' ++ (text ++ followers closing indent texts))
      ++ rest)
    = some (a, followers closing indent texts ++ rest)
  := by
  have hread := h.reads (isWhite_line (indent + 2)) (@stops_followers closing texts indent rest)
  simpa using hread

/-- The items behind the first one of a list are read, given enough fuel. -/
theorem readItems_followers (hclosing : isWhite closing = false ∧ closing ≠ ',')
    (h : List.Forall₂ (Reads item) texts as) (hn : as.length < n) (indent : ℕ) (rest : List Char) :
  readItems item closing n (followers closing indent texts ++ rest) = some (as, rest)
  := by
  induction h generalizing n with
  | nil =>
    obtain ⟨n, rfl⟩ := Nat.exists_eq_add_one_of_ne_zero (Nat.ne_zero_of_lt hn)
    have hskip := @dropWhile_white _ rest closing (isWhite_line indent) hclosing.1
    rw [readItems, followers, List.cons_append, List.append_assoc, ← List.cons_append]
    rw [List.singleton_append, hskip]
    exact if_pos rfl
  | cons htext _ ih =>
    obtain ⟨n, rfl⟩ := Nat.exists_eq_add_one_of_ne_zero (Nat.ne_zero_of_lt hn)
    rw [readItems, followers, List.cons_append, List.dropWhile_cons_of_neg (by decide)]
    simp only [hclosing.2.symm, if_false, if_true]
    rw [htext.line]
    simp only [Option.bind_eq_bind, Option.bind_some, ih (Nat.lt_of_succ_lt_succ hn)]

/-- The items of a list are read behind its opening bracket. -/
theorem readBlock_block (hclosing : closing = ']' ∨ closing = '\x7d')
    (h : List.Forall₂ (Reads item) texts as) (hn : as.length < n) (indent : ℕ) (opening : Char)
    (rest : List Char) :
  readBlock item closing n ((block opening closing indent texts).tail ++ rest) = some (as, rest)
  := by
  have hclosed : isWhite closing = false ∧ closing ≠ ',' := by
    rcases hclosing with rfl | rfl <;> decide
  cases h with
  | nil =>
    rw [readBlock, block, List.tail_cons, List.singleton_append,
      List.dropWhile_cons_of_neg (by simp [hclosed.1])]
    exact if_pos rfl
  | @cons text a texts as htext htexts =>
    obtain ⟨c, cs, rfl, hwhite, hne⟩ := htext.starts
    have hskip := @dropWhile_white _ (cs ++ followers closing indent texts ++ rest) c
      (isWhite_line (indent + 2)) hwhite
    have hhead : c ≠ closing := by
      rcases hclosing with rfl | rfl
      · exact hne.1
      · exact hne.2
    rw [readBlock, block, List.tail_cons, if_neg]
    · rw [htext.line]
      simp only [Option.bind_eq_bind, Option.bind_some,
        readItems_followers hclosed htexts (Nat.lt_of_succ_lt hn)]
    · simp only [List.cons_append, List.append_assoc] at hskip ⊢
      rw [hskip]
      simpa using hhead

/-- An item is shorter than its list, and a list has fewer items than letters. -/
theorem length_block (opening : Char) (indent : ℕ) (texts : List (List Char)) :
  texts.length < (block opening closing indent texts).length
    ∧ ∀ text ∈ texts, text.length < (block opening closing indent texts).length
  := by
  have hfollow : ∀ texts : List (List Char),
      texts.length < (followers closing indent texts).length
        ∧ ∀ text ∈ texts, text.length < (followers closing indent texts).length := by
    intro texts
    induction texts with
    | nil => simp [followers]
    | cons text texts ih =>
      simp only [followers, List.length_cons, List.length_append, List.length_replicate,
        List.forall_mem_cons]
      refine ⟨by omega, by omega, fun text htext => ?_⟩
      have := ih.2 text htext
      omega
  cases texts with
  | nil => simp [block]
  | cons text texts => exact hfollow (text :: texts)

end Blocks

section Scalars

variable {n : ℕ}

/-- The sign of a number is read. -/
theorem readNumber_sign {cs : List Char} (negative : Bool) (h : ∃ c ∈ cs.head?, c.isDigit = true) :
  readNumber (sign negative ++ cs) = readUnsigned negative cs
  := by
  cases negative with
  | true => rfl
  | false =>
    cases cs with
    | nil => simp at h
    | cons c cs =>
      rw [sign, if_neg Bool.false_ne_true, List.nil_append, readNumber]
      rintro cs ⟨⟩
      simp at h

/-- A text that starts with a sign or a digit is read as a number. -/
theorem reads_number {negative : Bool} {cs : List Char} {j : Json}
    (hcs : ∃ c ∈ cs.head?, c.isDigit = true)
    (h : ∀ {rest}, Stops rest → readUnsigned negative (cs ++ rest) = some (j, rest)) :
  Reads (readValue (n + 1)) (sign negative ++ cs) j
  := by
  obtain ⟨c, t, htext, hc⟩ : ∃ c t, sign negative ++ cs = c :: t ∧ (c = '-' ∨ c.isDigit = true) := by
    cases negative with
    | true => exact ⟨'-', cs, rfl, .inl rfl⟩
    | false =>
      obtain ⟨d, hd, hdigit⟩ := hcs
      exact ⟨d, cs.tail, List.eq_cons_of_mem_head? hd, .inr hdigit⟩
  have hspecial : ∀ x ∈ [' ', '\n', '\r', '\t', ']', '\x7d', '"', '[', '\x7b'],
      x ≠ '-' ∧ x.isDigit = false := by simp
  have hother : ∀ x ∈ [' ', '\n', '\r', '\t', ']', '\x7d', '"', '[', '\x7b'], c ≠ x := by
    rintro x hx rfl
    obtain ⟨hminus, hdigit⟩ := hspecial c hx
    rcases hc with rfl | hc
    · exact hminus rfl
    · exact Bool.false_ne_true (hdigit.symm.trans hc)
  simp only [List.forall_mem_cons] at hother
  obtain ⟨hspace, hline, hreturn, htab, hbracket, hbrace, hquote, hopen, hopening, -⟩ := hother
  have hwhite : isWhite c = false := by simp [isWhite, *]
  refine ⟨⟨c, t, htext, hwhite, hbracket, hbrace⟩, ?_⟩
  intro white rest hspaces hrest
  rw [htext, List.cons_append, readValue, dropWhile_white hspaces hwhite]
  simp only [hquote, hopen, hopening, hc, if_true, if_false]
  rw [← List.cons_append, ← htext, List.append_assoc, readNumber_sign, h hrest]
  obtain ⟨d, hd, hdigit⟩ := hcs
  refine ⟨d, ?_, hdigit⟩
  rw [List.eq_cons_of_mem_head? hd]
  rfl

theorem reads_integer {m : ℤ} (hm : -2 ^ 63 ≤ m ∧ m < 2 ^ 64) :
  Reads (readValue (n + 1)) (scalarText (.integer m)) (.integer m)
  := by
  apply reads_number
  · obtain ⟨d, ds, hds⟩ := List.exists_cons_of_ne_nil (@Nat.toDigits_ne_nil m.natAbs 10)
    refine ⟨d, by rw [hds]; rfl, Numerals.isDigit_toDigits d (hds ▸ List.mem_cons_self)⟩
  · intro rest hrest
    obtain ⟨htake, hdrop⟩ := Lists.while_append (@Numerals.isDigit_toDigits m.natAbs)
      fun c hc => (hrest c hc).1
    have hvalue : (if decide (m < 0) = true then -(m.natAbs : ℤ) else (m.natAbs : ℤ)) = m := by
      split_ifs with h <;> simp at h <;> omega
    rw [readUnsigned, htake, hdrop]
    split
    · simp [Stops] at hrest
    · simp only [Numerals.decimalValue_toDigits, hvalue, hm, Nat.toDigits_ne_nil, if_false, and_self,
        if_true]

/-- The denominator of a number with so many binary places. -/
theorem den_dvd (m e : ℤ) {t : ℕ} (h : -t ≤ e) :
  (m * 2 ^ e : ℚ).den ∣ 2 ^ t
  := by
  have hpow : (2 : ℚ) ^ (e + t) = 2 ^ (e + t).toNat := by
    rw [← zpow_natCast, Int.toNat_of_nonneg (by omega)]
  have hsplit : (m * 2 ^ e : ℚ) = ((m * 2 ^ (e + t).toNat : ℤ) : ℚ) / ((2 ^ t : ℤ) : ℚ) := by
    push_cast
    rw [← hpow, zpow_add₀ two_ne_zero, zpow_natCast]
    field_simp
  have hdvd := Rat.den_dvd (m * 2 ^ (e + t).toNat) (2 ^ t)
  rw [Rat.divInt_eq_div, ← hsplit] at hdvd
  exact_mod_cast hdvd

/-- Every `double` has finitely many decimals. -/
theorem decimals_spec {x : ℚ} (h : IsDouble x) :
  0 < decimals x ∧ x.den ∣ 10 ^ decimals x
  := by
  obtain ⟨m, e, -, hlower, -, hx⟩ := h
  have hten : x.den ∣ 10 ^ 1074 := by
    rw [hx]
    exact (den_dvd m e (by exact_mod_cast hlower)).trans (pow_dvd_pow_of_dvd (by decide) _)
  have hsome : ((List.range 1075).find? fun k => 0 < k ∧ x.den ∣ 10 ^ k).isSome := by
    rw [List.find?_isSome]
    exact ⟨1074, List.mem_range.mpr (by decide), decide_eq_true ⟨by decide, hten⟩⟩
  obtain ⟨k, hk⟩ := Option.isSome_iff_exists.mp hsome
  have hspec := List.find?_some hk
  rw [decimals, hk]
  exact of_decide_eq_true hspec

/-- Zeros before a number do not change it. -/
theorem decimalValue_zeros (k : ℕ) (digits : List Char) :
  Numerals.decimalValue (List.replicate k '0' ++ digits) = Numerals.decimalValue digits
  := by
  induction k with
  | zero => rfl
  | succ k ih => exact ih

/-- The digits of a number with its decimals denote its absolute value. -/
theorem natAbs_div_eq_abs {x : ℚ} {k : ℕ} (h : x.den ∣ 10 ^ k) :
  ((x.num.natAbs * 10 ^ k / x.den : ℕ) : ℚ) / 10 ^ k = |x|
  := by
  have hexact := Nat.div_mul_cancel (h.mul_left x.num.natAbs)
  have hden : (x.den : ℚ) ≠ 0 := Nat.cast_ne_zero.mpr x.den_nz
  rw [div_eq_iff (by positivity), Rat.abs_def, Rat.divInt_eq_div]
  rw [Int.cast_natCast, Int.cast_natCast, div_mul_eq_mul_div, eq_div_iff hden]
  exact_mod_cast hexact

theorem isDigit_decimalDigits (x : ℚ) :
  ∀ c ∈ decimalDigits x, c.isDigit = true
  := by
  intro c hc
  rcases List.mem_append.mp hc with hc | hc
  · rw [List.eq_of_mem_replicate hc]
    rfl
  · exact Numerals.isDigit_toDigits c hc

/-- A `double` that is written with all its decimals is read without rounding. -/
theorem reads_float {x : ℚ} (hx : IsDouble x) :
  Reads (readValue (n + 1)) (scalarText (.float x)) (.float x)
  := by
  obtain ⟨hpos, hden⟩ := decimals_spec hx
  have hdigits := isDigit_decimalDigits x
  have hlength : decimals x < (decimalDigits x).length := by
    rw [decimalDigits, List.length_leftpad]
    omega
  have hnumber : (Numerals.decimalValue (decimalDigits x) : ℚ) / 10 ^ decimals x = |x| := by
    rw [decimalDigits, List.leftpad, decimalValue_zeros, Numerals.decimalValue_toDigits,
      natAbs_div_eq_abs hden]
  have hvalue : (if decide (x < 0) = true then -|x| else |x|) = x := by
    by_cases hneg : x < 0
    · rw [if_pos (decide_eq_true hneg), abs_of_neg hneg, neg_neg]
    · rw [if_neg (by simpa using hneg), abs_of_nonneg (not_lt.mp hneg)]
  rw [scalarText]
  generalize hwhole : (decimalDigits x).length - decimals x = w
  have hfraction : ((decimalDigits x).drop w).length = decimals x := by
    rw [List.length_drop]
    omega
  have htake : (decimalDigits x).take w ≠ [] := by
    rw [← List.length_pos_iff, List.length_take]
    omega
  have hdrop : (decimalDigits x).drop w ≠ [] := by
    rw [← List.length_pos_iff, hfraction]
    exact hpos
  apply reads_number
  · obtain ⟨d, ds, hds⟩ := List.exists_cons_of_ne_nil htake
    refine ⟨d, by rw [hds]; rfl, hdigits d (List.mem_of_mem_take (hds ▸ List.mem_cons_self))⟩
  · intro rest hrest
    obtain ⟨hwhile, hpoint⟩ := @Lists.while_append _ Char.isDigit _
      ('.' :: ((decimalDigits x).drop w ++ rest)) (fun c hc => hdigits c (List.mem_of_mem_take hc))
      (by simp)
    obtain ⟨hwhile', hend⟩ := @Lists.while_append _ Char.isDigit ((decimalDigits x).drop w) rest
      (fun c hc => hdigits c (List.mem_of_mem_drop hc)) fun c hc => (hrest c hc).1
    rw [List.append_assoc, List.cons_append, readUnsigned, hwhile, hpoint]
    simp only [hwhile', hend, List.take_append_drop, hfraction, hnumber, hvalue, htake, hdrop,
      or_self, if_false]

theorem reads_word {c : Char} {cs : List Char} {j : Json} (hc : c ∈ ['n', 't', 'f'])
    (h : ∀ rest, readWord (c :: (cs ++ rest)) = some (j, rest)) :
  Reads (readValue (n + 1)) (c :: cs) j
  := by
  have hletters : ∀ c ∈ ['n', 't', 'f'], isWhite c = false ∧ c ≠ ']' ∧ c ≠ '\x7d' := by
    simp [isWhite]
  have hletter := hletters c hc
  refine ⟨⟨c, cs, rfl, hletter⟩, ?_⟩
  intro white rest hwhite _
  rw [List.cons_append, readValue, dropWhile_white hwhite hletter.1, ← h rest]
  simp only [List.mem_cons, List.not_mem_nil, or_false] at hc
  rcases hc with rfl | rfl | rfl <;> rfl

theorem reads_string (s : String) :
  Reads (readValue (n + 1)) (scalarText (.string s)) (.string s)
  := by
  refine ⟨⟨'"', _, rfl, by decide⟩, ?_⟩
  intro white rest hwhite _
  rw [scalarText, quoted, List.cons_append, readValue, dropWhile_white hwhite rfl]
  simp [readString_quoted]

/-- A member is read with its key. -/
theorem reads_member {k : String} {text : List Char} {v : Json} (h : Reads (readValue n) text v) :
  Reads (readMember (readValue n)) (scalarText (.string k) ++ ':' :: ' ' :: text) (k, v)
  := by
  refine ⟨⟨'"', _, rfl, by decide⟩, ?_⟩
  intro white rest hwhite hrest
  have hvalue : readValue n (' ' :: (text ++ rest)) = some (v, rest) :=
    @Reads.reads _ _ _ _ h [' '] rest (by simp [isWhite]) hrest
  have htext : scalarText (.string k) ++ ':' :: ' ' :: text ++ rest
      = '"' :: (k.toList.flatMap escape ++ '"' :: ':' :: ' ' :: (text ++ rest)) := by
    simp [scalarText, quoted]
  rw [htext, readMember, dropWhile_white hwhite rfl]
  simp [readString_quoted, isWhite, hvalue]

end Scalars

/-- Assigning the members in their order gives the object. -/
theorem foldl_setMember {front ms : List (String × Json)}
    (hsorted : (front ++ ms).Pairwise (fun x y => x.1 < y.1)) :
  ms.foldl (fun ms m => setMember m.1 m.2 ms) front = front ++ ms
  := by
  have hlast : ∀ {front : List (String × Json)} {k : String} {v : Json},
      (∀ m ∈ front, m.1 < k) → setMember k v front = front ++ [(k, v)] := by
    intro front k v h
    induction front with
    | nil => rfl
    | cons m front ih =>
      obtain ⟨hm, hfront⟩ := List.forall_mem_cons.mp h
      rw [setMember, if_neg hm.ne', if_neg hm.not_gt, ih hfront, List.cons_append]
  induction ms generalizing front with
  | nil => exact (List.append_nil front).symm
  | cons m ms ih =>
    have hfront : ∀ m' ∈ front, m'.1 < m.1 := by
      intro m' hm'
      exact (List.pairwise_append.mp hsorted).2.2 m' hm' m List.mem_cons_self
    rw [List.foldl_cons, hlast hfront, ih]
    · simp
    · simpa using hsorted

theorem block_eq_cons (opening closing : Char) (indent : ℕ) (texts : List (List Char)) :
  block opening closing indent texts = opening :: (block opening closing indent texts).tail
  := by
  cases texts <;> rfl

/-- What is laid out is read. -/
theorem reads_layout {j : Json} (hj : j.Proper) (indent : ℕ) {n : ℕ}
    (hn : (layout scalarText indent j).length ≤ n) :
  Reads (readValue (n + 1)) (layout scalarText indent j) j
  := by
  induction hj generalizing indent n with
  | null => exact reads_word (by decide) fun _ => rfl
  | boolean b =>
    cases b with
    | true => exact reads_word (by decide) fun _ => rfl
    | false => exact reads_word (by decide) fun _ => rfl
  | integer lower upper => exact reads_integer ⟨lower, upper⟩
  | float double => exact reads_float double
  | string s => exact reads_string s
  | @array es _ ih =>
    rw [layout, elementTexts_eq] at hn ⊢
    obtain ⟨hcount, hlengths⟩ := @length_block ']' '[' indent
      (es.map (layout scalarText (indent + 2)))
    rw [List.length_map] at hcount
    obtain ⟨n, rfl⟩ := Nat.exists_eq_add_one_of_ne_zero (Nat.ne_zero_of_lt (hcount.trans_le hn))
    have hitems : List.Forall₂ (Reads (readValue (n + 1)))
        (es.map (layout scalarText (indent + 2))) es := by
      rw [List.forall₂_map_left_iff, List.forall₂_same]
      intro e he
      apply ih e he
      have := hlengths _ (List.mem_map_of_mem he)
      omega
    have hread := readBlock_block (.inl rfl) hitems (hcount.trans_le hn) indent '['
    rw [block_eq_cons]
    refine ⟨⟨'[', _, rfl, by decide⟩, ?_⟩
    intro white rest hwhite _
    rw [List.cons_append, readValue, dropWhile_white hwhite rfl]
    simp [hread]
  | @object ms sorted _ ih =>
    rw [layout, memberTexts_eq] at hn ⊢
    obtain ⟨hcount, hlengths⟩ := @length_block '\x7d' '\x7b' indent (ms.map fun m =>
      scalarText (string m.1) ++ ':' :: ' ' :: layout scalarText (indent + 2) m.2)
    rw [List.length_map] at hcount
    obtain ⟨n, rfl⟩ := Nat.exists_eq_add_one_of_ne_zero (Nat.ne_zero_of_lt (hcount.trans_le hn))
    have hitems : List.Forall₂ (Reads (readMember (readValue (n + 1)))) (ms.map fun m =>
        scalarText (string m.1) ++ ':' :: ' ' :: layout scalarText (indent + 2) m.2) ms := by
      rw [List.forall₂_map_left_iff, List.forall₂_same]
      intro m hm
      apply reads_member
      apply ih m hm
      have := hlengths _ (List.mem_map_of_mem hm)
      simp only [List.length_append, List.length_cons] at this
      omega
    have hread := readBlock_block (.inr rfl) hitems (hcount.trans_le hn) indent '\x7b'
    rw [block_eq_cons]
    refine ⟨⟨'\x7b', _, rfl, by decide⟩, ?_⟩
    intro white rest hwhite _
    rw [List.cons_append, readValue, dropWhile_white hwhite rfl]
    simp [hread, @foldl_setMember [] ms sorted]

/-- The texts have no control characters. -/
theorem le_scalarText (j : Json) :
  ∀ c ∈ scalarText j, ' ' ≤ c
  := by
  have hdigit : ∀ {c : Char}, c.isDigit = true → ' ' ≤ c := by
    intro c hc
    have hzero : '0'.toNat ≤ c.toNat := (Char.isDigit_iff_toNat.mp hc).1
    exact (show 32 ≤ '0'.toNat by decide).trans hzero
  have hsign : ∀ negative, ∀ c ∈ sign negative, ' ' ≤ c := by
    simp [sign]
  cases j with
  | null => simp [scalarText]
  | boolean b => cases b <;> simp [scalarText]
  | integer m =>
    intro c hc
    rcases List.mem_append.mp hc with hc | hc
    · exact hsign _ c hc
    · exact hdigit (Numerals.isDigit_toDigits c hc)
  | float x =>
    intro c hc
    simp only [scalarText, List.mem_append, List.mem_cons] at hc
    rcases hc with hc | hc | rfl | hc
    · exact hsign _ c hc
    · exact hdigit (isDigit_decimalDigits x c (List.mem_of_mem_take hc))
    · decide
    · exact hdigit (isDigit_decimalDigits x c (List.mem_of_mem_drop hc))
  | string s =>
    intro c hc
    simp only [scalarText, quoted, List.mem_append, List.mem_cons, List.mem_flatMap,
      List.not_mem_nil, or_false] at hc
    rcases hc with rfl | ⟨d, -, hc⟩ | rfl
    · decide
    · exact le_escape d c hc
    · decide
  | _ => simp [scalarText]

/-- What is printed is read again. -/
theorem codec :
  Codec print read
  := by
  constructor
  · intro j hj
    have hread := @Reads.reads _ _ _ _ (reads_layout hj 0 le_rfl) [] [] (by simp) (by simp [Stops])
    rw [List.nil_append, List.append_nil] at hread
    rw [read, print, String.toList_ofList, hread]
    rfl
  · exact ⟨scalarText, le_scalarText, fun j => String.toList_ofList⟩

end Json

end Agamemnon
