import Agamemnon.Lib.Hex
import Mathlib.Tactic.Use

/-!
# Signatures of webhooks

`verify_github_signature` checks the signature that GitHub sends with a webhook: the text `sha256=`
and the HMAC of the body under the secret, in hexadecimal.  Texts are lists of bytes, and
the HMAC is any function whose values have 32 bytes.

The check accepts exactly the texts that denote the HMAC, in any mix of cases
(`verifyGithubSignature_iff`).
-/

namespace Agamemnon

namespace Webhook

/-! ### The check -/

/-- `kSha256Prefix`, the text `sha256=`. -/
def kSha256Prefix : List UInt8 :=
  [115, 104, 97, 50, 53, 54, 61]

def kSha256HexLength : ℕ := 64

/-- The loop of `hex_decode`.  A character that is not `std::isxdigit` has no value, any other
character has that of `std::stoi` in base 16. -/
def hexDecodeFrom : (hex output : List UInt8) → Option (List UInt8)
  | high :: low :: hex, output =>
      match Hex.value? high, Hex.value? low with
      | some high, some low => hexDecodeFrom hex (output ++ [.ofNat (high <<< 4 ||| low)])
      | _, _ => none
  | _, output => some output

/-- `hex_decode`: the bytes, if the text is valid. -/
def hexDecode (hex : List UInt8) : Option (List UInt8) :=
  if hex.length % 2 ≠ 0 then none else hexDecodeFrom hex []

/-- A function with the type of HMAC-SHA-256, of a secret and a body. -/
abbrev Hmac : Type :=
  (secret body : List UInt8) → { sig : List UInt8 // sig.length = 32 }

/-- `verify_github_signature`. -/
def verifyGithubSignature (hmac : Hmac) (secret headerValue rawBody : List UInt8) : Bool :=
  if secret = [] then false
  else if headerValue.length ≠ kSha256Prefix.length + kSha256HexLength then false
  else if ¬ kSha256Prefix <+: headerValue then false
  else
    match hexDecode (headerValue.drop kSha256Prefix.length) with
    | none => false
    | some expectedSig =>
        let computedSig := (hmac secret rawBody).1
        if computedSig.length ≠ expectedSig.length then false else computedSig = expectedSig

/-! ### What it accepts -/

section Decoder

variable {hex output bytes : List UInt8}

theorem shiftLeft_or_eq {h l : ℕ} (hl : l < 16) :
  h <<< 4 ||| l = 16 * h + l
  := by
  rw [← Nat.shiftLeft_add_eq_or_of_lt (i := 4) hl, Nat.shiftLeft_eq, Nat.mul_comm]

/-- The loop appends the bytes that the rest of the text denotes. -/
theorem hexDecodeFrom_eq_some_iff (heven : hex.length % 2 = 0) :
  hexDecodeFrom hex output = some bytes ↔ ∃ rest, Hex.Denotes hex rest ∧ bytes = output ++ rest
  := by
  fun_induction hexDecodeFrom with
  | case1 high low hex output h l hlow hhigh ih =>
    have hrest : hex.length % 2 = 0 := by
      rw [List.length_cons, List.length_cons] at heven
      omega
    rw [ih hrest]
    have hbyte : h <<< 4 ||| l = 16 * h + l := shiftLeft_or_eq (Hex.value?_eq_some_iff.mp hlow).1
    constructor
    · rintro ⟨rest, hrest, rfl⟩
      use .ofNat (16 * h + l) :: rest
      constructor
      · apply Hex.denotes_cons_cons_iff.mpr
        exact ⟨h, l, rest, hhigh, hlow, rfl, hrest⟩
      · rw [hbyte, List.append_assoc, List.singleton_append]
    · rintro ⟨bs, hbs, rfl⟩
      obtain ⟨h', l', rest, hhigh', hlow', rfl, hrest⟩ := Hex.denotes_cons_cons_iff.mp hbs
      cases hhigh.symm.trans hhigh'
      cases hlow.symm.trans hlow'
      use rest, hrest
      rw [hbyte, List.append_assoc, List.singleton_append]
  | case2 high low hex output hvalues =>
    constructor
    · intro h
      cases h
    · rintro ⟨bs, hbs, -⟩
      obtain ⟨h, l, -, hhigh, hlow, -⟩ := Hex.denotes_cons_cons_iff.mp hbs
      cases hvalues h l hhigh hlow
  | case3 hex output hshort =>
    -- A text of even length that has no first two characters is empty.
    have hnil : hex = [] := by
      match hex with
      | [] => rfl
      | [_] => cases heven
      | high :: low :: hex => cases hshort high low hex rfl
    subst hnil
    simp [Hex.denotes_nil_iff, eq_comm]

/-- The decoder is the inverse of the hexadecimal text, up to the case of the letters. -/
theorem hexDecode_eq_some_iff :
  hexDecode hex = some bytes ↔ Hex.Denotes hex bytes
  := by
  rw [hexDecode]
  split_ifs with hodd
  · constructor
    · intro h
      cases h
    · intro h
      rw [h.length_eq] at hodd
      omega
  · rw [hexDecodeFrom_eq_some_iff (not_not.mp hodd)]
    simp

end Decoder

section Signature

variable {hmac : Hmac} {secret headerValue rawBody : List UInt8}

/-- After the checks of the secret, the length and the first characters, the text of the digits
decides. -/
theorem verifyGithubSignature_eq {digits : List UInt8} (hsecret : secret ≠ [])
    (hlength : digits.length = 64) :
  verifyGithubSignature hmac secret (kSha256Prefix ++ digits) rawBody = true
    ↔ Hex.Denotes digits (hmac secret rawBody).1
  := by
  have hall : (kSha256Prefix ++ digits).length = kSha256Prefix.length + kSha256HexLength := by
    rw [List.length_append, hlength]
    rfl
  rw [verifyGithubSignature, if_neg hsecret, if_neg (not_not.mpr hall),
    if_neg (not_not.mpr (List.prefix_append _ _)), List.drop_left, ← hexDecode_eq_some_iff]
  cases hdecode : hexDecode digits with
  | none => simp
  | some expectedSig =>
    simp only [Option.some.injEq]
    constructor
    · intro h
      split_ifs at h with hsize
      exact (of_decide_eq_true h).symm
    · rintro rfl
      rw [if_neg (not_not.mpr rfl)]
      exact decide_eq_true rfl

/-- A header that is accepted has the length and the first characters. -/
theorem header_of_verifyGithubSignature
    (h : verifyGithubSignature hmac secret headerValue rawBody = true) :
  secret ≠ [] ∧ ∃ digits, headerValue = kSha256Prefix ++ digits ∧ digits.length = 64
  := by
  rw [verifyGithubSignature] at h
  split_ifs at h with hsecret hlength hstart
  use hsecret
  obtain ⟨digits, rfl⟩ := hstart
  use digits, rfl
  rw [List.length_append] at hlength
  exact Nat.add_left_cancel (not_not.mp hlength)

end Signature

/-- The signature is accepted exactly if it is the text of the HMAC. -/
theorem verifyGithubSignature_iff (hmac : Hmac) (secret headerValue rawBody : List UInt8) :
  verifyGithubSignature hmac secret headerValue rawBody = true
    ↔ secret ≠ [] ∧ ∃ digits, headerValue = kSha256Prefix ++ digits ∧ digits.length = 64
      ∧ (∀ c ∈ digits, (Hex.value? c).isSome = true) ∧ Hex.Denotes digits (hmac secret rawBody).1
  := by
  constructor
  · intro h
    obtain ⟨hsecret, digits, rfl, hlength⟩ := header_of_verifyGithubSignature h
    have hdenotes := (verifyGithubSignature_eq hsecret hlength).mp h
    exact ⟨hsecret, digits, rfl, hlength, hdenotes.isSome_value?, hdenotes⟩
  · rintro ⟨hsecret, digits, rfl, hlength, -, hdenotes⟩
    apply (verifyGithubSignature_eq hsecret hlength).mpr hdenotes

end Webhook

end Agamemnon
