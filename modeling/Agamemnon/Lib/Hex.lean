import Mathlib.Data.Nat.Basic
import Mathlib.Tactic.SplitIfs
import Mathlib.Tactic.Use

/-!
# Hexadecimal text

Bytes are written with two digits each, in lower case.  A digit of either case denotes a number, and
a text denotes bytes if it is their hexadecimal text after its letters are made lower-case.
-/

namespace Hex

/-- The number that a digit denotes, of either case. -/
def value? (c : UInt8) : Option ℕ :=
  if 48 ≤ c.toNat ∧ c.toNat ≤ 57 then some (c.toNat - 48)
  else if 65 ≤ c.toNat ∧ c.toNat ≤ 70 then some (c.toNat - 55)
  else if 97 ≤ c.toNat ∧ c.toNat ≤ 102 then some (c.toNat - 87)
  else none

/-- The digit for a number below 16, in lower case. -/
def digit (n : ℕ) : UInt8 :=
  if n < 10 then .ofNat (48 + n) else .ofNat (87 + n)

/-- Make a letter lower-case. -/
def lower (c : UInt8) : UInt8 :=
  if 65 ≤ c.toNat ∧ c.toNat ≤ 90 then .ofNat (c.toNat + 32) else c

/-- The text of bytes. -/
def encode (bytes : List UInt8) : List UInt8 :=
  bytes.flatMap fun b => [digit (b.toNat / 16), digit (b.toNat % 16)]

/-- The text denotes the bytes. -/
def Denotes (text bytes : List UInt8) : Prop :=
  text.map lower = encode bytes

section Digits

variable {c : UInt8} {n : ℕ}

theorem toNat_digit (h : n < 16) :
  (digit n).toNat = if n < 10 then 48 + n else 87 + n
  := by
  rw [digit]
  split_ifs
  · rw [UInt8.toNat_ofNat']
    omega
  · rw [UInt8.toNat_ofNat']
    omega

theorem toNat_lower :
  (lower c).toNat = if 65 ≤ c.toNat ∧ c.toNat ≤ 90 then c.toNat + 32 else c.toNat
  := by
  rw [lower]
  split_ifs
  · rw [UInt8.toNat_ofNat']
    omega
  · rfl

/-- A byte denotes a number if it is its digit, up to case. -/
theorem value?_eq_some_iff :
  value? c = some n ↔ n < 16 ∧ lower c = digit n
  := by
  constructor
  · intro h
    have hn : n < 16 := by
      rw [value?] at h
      split_ifs at h <;> cases h <;> omega
    use hn
    rw [← UInt8.toNat_inj, toNat_lower, toNat_digit hn]
    rw [value?] at h
    split_ifs at h <;> cases h <;> split_ifs <;> omega
  · rintro ⟨hn, h⟩
    rw [← UInt8.toNat_inj, toNat_lower, toNat_digit hn] at h
    rw [value?]
    split_ifs at h ⊢ <;> (congr 1; omega)

end Digits

/-! ### Texts -/

variable {text bytes : List UInt8}

theorem encode_cons (b : UInt8) :
  encode (b :: bytes) = digit (b.toNat / 16) :: digit (b.toNat % 16) :: encode bytes
  := rfl

theorem length_encode :
  (encode bytes).length = 2 * bytes.length
  := by
  induction bytes with
  | nil => rfl
  | cons b bytes ih =>
    rw [encode_cons, List.length_cons, List.length_cons, ih, List.length_cons]
    omega

theorem Denotes.length_eq (h : Denotes text bytes) :
  text.length = 2 * bytes.length
  := by
  rw [← length_encode, ← h, List.length_map]

/-- A text that denotes bytes consists of digits. -/
theorem Denotes.isSome_value? (h : Denotes text bytes) :
  ∀ c ∈ text, (value? c).isSome = true
  := by
  intro c hc
  have hlower : lower c ∈ encode bytes := by
    rw [← h]
    apply List.mem_map_of_mem hc
  rw [encode, List.mem_flatMap] at hlower
  obtain ⟨b, -, hb⟩ := hlower
  have hlt := b.toNat_lt
  rw [List.mem_cons, List.mem_singleton] at hb
  rcases hb with hb | hb
  · rw [value?_eq_some_iff.mpr ⟨by omega, hb⟩]
    rfl
  · rw [value?_eq_some_iff.mpr ⟨by omega, hb⟩]
    rfl

theorem denotes_nil_iff :
  Denotes [] bytes ↔ bytes = []
  := by
  constructor
  · intro h
    have hlength := h.length_eq
    rw [List.length_nil] at hlength
    apply List.eq_nil_of_length_eq_zero
    omega
  · rintro rfl
    rfl

/-- The first two digits denote the first byte. -/
theorem denotes_cons_cons_iff {high low : UInt8} :
  Denotes (high :: low :: text) bytes
    ↔ ∃ h l bs, value? high = some h ∧ value? low = some l
      ∧ bytes = .ofNat (16 * h + l) :: bs ∧ Denotes text bs
  := by
  constructor
  · intro hdenotes
    cases bytes with
    | nil => cases hdenotes
    | cons b bs =>
      rw [Denotes, encode_cons, List.map_cons, List.map_cons] at hdenotes
      injection hdenotes with hhigh hdenotes
      injection hdenotes with hlow hbs
      have hlt := b.toNat_lt
      use b.toNat / 16, b.toNat % 16, bs
      refine ⟨value?_eq_some_iff.mpr ⟨by omega, hhigh⟩,
        value?_eq_some_iff.mpr ⟨by omega, hlow⟩, ?_, hbs⟩
      rw [Nat.div_add_mod, UInt8.ofNat_toNat]
  · rintro ⟨h, l, bs, hhigh, hlow, rfl, hbs⟩
    obtain ⟨hh, hhigh⟩ := value?_eq_some_iff.mp hhigh
    obtain ⟨hl, hlow⟩ := value?_eq_some_iff.mp hlow
    have htoNat : (UInt8.ofNat (16 * h + l)).toNat = 16 * h + l := by
      rw [UInt8.toNat_ofNat']
      omega
    have hdiv : (16 * h + l) / 16 = h := by omega
    have hmod : (16 * h + l) % 16 = l := by omega
    rw [Denotes, encode_cons, htoNat, hdiv, hmod, List.map_cons, List.map_cons, hhigh, hlow, hbs]

end Hex
