import Agamemnon.Lib.Attempt
import Agamemnon.Lib.Program

/-!
# Programs carried out by attempts

Where the operations of a program may throw, the program is carried out as an attempt.  A
program that calls only operations which answer returns or throws as its own text says:
`Returns` and `Throws` are read off the text, and hold whatever the operations answer.
-/

namespace Program

variable {Op : Type} {Res : Op → Type} {ε ε' σ α β : Type}

/-- Carry out a program, with its own exceptions among those of the operations. -/
def carryOut (perform : (op : Op) → Attempt ε' σ (Res op)) (own : ε → ε') :
    Program Op Res ε α → Attempt ε' σ α
  | ret a => pure a
  | throw e => .lift (.error (own e))
  | call op next => do carryOut perform own (next (← perform op))

/-- The program calls operations of `P` only, and returns a value of `Q`. -/
def Returns (P : Op → Prop) (Q : α → Prop) : Program Op Res ε α → Prop
  | ret a => Q a
  | throw _ => False
  | call op next => P op ∧ ∀ r, Returns P Q (next r)

/-- The program does not return. -/
def Throws : Program Op Res ε α → Prop
  | ret _ => False
  | throw _ => True
  | call _ next => ∀ r, Throws (next r)

section Text

variable {P : Op → Prop} {Q : α → Prop}

theorem returns_request {op : Op} (hop : P op) :
  Returns P (fun _ => True) (request op : Program Op Res ε (Res op))
  := ⟨hop, fun _ => trivial⟩

theorem Returns.bind {R : β → Prop} {f : α → Program Op Res ε β}
    (hf : ∀ a, Q a → Returns P R (f a)) :
  ∀ {p : Program Op Res ε α}, Returns P Q p → Returns P R (p >>= f)
  | ret a, hp => hf a hp
  | call _ _, hp => ⟨hp.1, fun r => Returns.bind hf (hp.2 r)⟩

variable {f : α → Program Op Res ε β}

theorem returns_ok_bind {a : α} {R : β → Prop} :
  Returns P R (ofExcept (.ok a) >>= f) ↔ Returns P R (f a)
  := Iff.rfl

theorem throws_ok_bind {a : α} :
  Throws (ofExcept (.ok a) >>= f) ↔ Throws (f a)
  := Iff.rfl

theorem throws_error_bind {e : ε} :
  Throws (ofExcept (.error e) >>= f)
  := trivial

theorem Throws.bind :
  ∀ {p : Program Op Res ε α}, Throws p → Throws (p >>= f)
  | throw _, _ => trivial
  | call _ _, hp => fun r => Throws.bind (hp r)

end Text

variable {perform : (op : Op) → Attempt ε' σ (Res op)} {own : ε → ε'}

theorem exec_carryOut_of_returns {P : Op → Prop} {Q : α → Prop}
    (hperform : ∀ op, P op → ∀ s, (perform op).Returns s) :
  ∀ {p : Program Op Res ε α}, Returns P Q p →
    ∀ s, ∃ a s', (carryOut perform own p).exec s = (.ok a, s') ∧ Q a
  | ret a, hp, s => ⟨a, s, rfl, hp⟩
  | call op next, hp, s => by
      obtain ⟨r, s', hexec⟩ := hperform op hp.1 s
      rw [carryOut, Attempt.exec_bind, hexec]
      exact exec_carryOut_of_returns hperform (hp.2 r) s'

theorem not_returns_of_throws :
  ∀ {p : Program Op Res ε α}, Throws p → ∀ s, ¬ (carryOut perform own p).Returns s
  | throw e, _, s => by simp [carryOut, Attempt.returns_lift]
  | call op next, hp, s => by
      intro h
      obtain ⟨r, s', -, h⟩ := Attempt.returns_bind.mp h
      exact not_returns_of_throws (hp r) s' h

end Program
