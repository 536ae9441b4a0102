import Mathlib.Order.Basic
import Mathlib.Tactic.Use

/-!
# Programs over atomic operations

A program calls operations of an interface one after the other, and returns a value or
throws an exception.  What the operations do is given by a handler, and what a program does
with it by `exec`.
-/

/-- A program over the operations `Op`, which answer in `Res`, with exceptions `ε`. -/
inductive Program (Op : Type) (Res : Op → Type) (ε α : Type) : Type where
  | ret (a : α)
  | throw (e : ε)
  | call (op : Op) (next : Res op → Program Op Res ε α)

/-- What the operations answer, and what they do to a state. -/
abbrev Handler (Op : Type) (Res : Op → Type) (σ : Type) : Type :=
  σ → (op : Op) → Res op × σ

namespace Program

variable {Op : Type} {Res : Op → Type} {ε α β σ τ : Type}

/-- Run the second program on the result of the first. -/
protected def bind : Program Op Res ε α → (α → Program Op Res ε β) → Program Op Res ε β
  | ret a, f => f a
  | throw e, _ => throw e
  | call op next, f => call op fun r => (next r).bind f

instance : Monad (Program Op Res ε) where
  pure := ret
  bind := Program.bind

/-- A single operation. -/
def request (op : Op) : Program Op Res ε (Res op) :=
  call op ret

/-- A computation that calls no operation. -/
def ofExcept : Except ε α → Program Op Res ε α
  | .ok a => ret a
  | .error e => throw e

/-- Run a program, and a handler for its exceptions. -/
def tryCatch : Program Op Res ε α → (ε → Program Op Res ε α) → Program Op Res ε α
  | ret a, _ => ret a
  | throw e, f => f e
  | call op next, f => call op fun r => (next r).tryCatch f

/-- Run a program for each entry of a list. -/
def forEach : List β → (β → Program Op Res ε Unit) → Program Op Res ε Unit
  | [], _ => ret ()
  | x :: xs, f => (f x).bind fun _ => forEach xs f

theorem ok_bind (a : α) (f : α → Program Op Res ε β) :
  (ofExcept (.ok a) >>= f) = f a
  := rfl

/-! ### One program -/

/-- The outcome of a program run alone. -/
def exec (h : Handler Op Res σ) : Program Op Res ε α → σ → Except ε α × σ
  | ret a, s => (.ok a, s)
  | throw e, s => (.error e, s)
  | call op next, s => exec h (next (h s op).1) (h s op).2

section Exec

variable (h : Handler Op Res σ) (s : σ)

@[simp]
theorem exec_pure (a : α) :
  exec h (pure a : Program Op Res ε α) s = (.ok a, s)
  := rfl

/-- The second program starts where the first one ends. -/
theorem exec_bind (f : α → Program Op Res ε β) :
  ∀ (p : Program Op Res ε α) (s : σ), exec h (p >>= f) s
    = match exec h p s with
      | (.ok a, s') => exec h (f a) s'
      | (.error e, s') => (.error e, s')
  | ret _, _ => rfl
  | throw _, _ => rfl
  | call op next, s => exec_bind f (next (h s op).1) (h s op).2

@[simp]
theorem exec_request_bind (op : Op) (f : Res op → Program Op Res ε β) :
  exec h (request op >>= f) s = exec h (f (h s op).1) (h s op).2
  := rfl

@[simp]
theorem exec_ok_bind (a : α) (f : α → Program Op Res ε β) :
  exec h (ofExcept (.ok a) >>= f) s = exec h (f a) s
  := rfl

/-- What only changes the result leaves the state. -/
theorem exec_bind_pure_snd (p : Program Op Res ε α) (g : α → β) :
  (exec h (p >>= fun a => pure (g a)) s).2 = (exec h p s).2
  := by
  rw [exec_bind]
  split
  · simp [*]
  · simp [*]

theorem exec_tryCatch (f : ε → Program Op Res ε α) :
  ∀ (p : Program Op Res ε α) (s : σ), exec h (p.tryCatch f) s
    = match exec h p s with
      | (.ok a, s') => (.ok a, s')
      | (.error e, s') => exec h (f e) s'
  | ret _, _ => rfl
  | throw _, _ => rfl
  | call op next, s => exec_tryCatch f (next (h s op).1) (h s op).2

/-- A handler that returns at once leaves the state as the exception found it. -/
theorem exec_tryCatch_ret_snd (p : Program Op Res ε α) (a : α) :
  (exec h (p.tryCatch fun _ => pure a) s).2 = (exec h p s).2
  := by
  rw [exec_tryCatch]
  split
  · simp [*]
  · simp [*]

end Exec

/-! ### Operations that are called -/

/-- As long as the operations answer what `A` allows, the program calls operations of `P` only. -/
def Guards (A : (op : Op) → Res op → Prop) (P : Op → Prop) : Program Op Res ε α → Prop
  | ret _ => True
  | throw _ => True
  | call op next => P op ∧ ∀ r, A op r → Guards A P (next r)

section Guards

variable {A : (op : Op) → Res op → Prop} {P : Op → Prop}

theorem guards_request {op : Op} (hop : P op) :
  Guards A P (request op : Program Op Res ε (Res op))
  := ⟨hop, fun _ _ => trivial⟩

theorem guards_request_bind {op : Op} {f : Res op → Program Op Res ε β} (hop : P op)
    (hf : ∀ r, A op r → Guards A P (f r)) :
  Guards A P (request op >>= f)
  := ⟨hop, hf⟩

theorem guards_ofExcept_bind {x : Except ε α} {f : α → Program Op Res ε β}
    (hf : ∀ a, x = .ok a → Guards A P (f a)) :
  Guards A P (ofExcept x >>= f)
  := by
  cases x with
  | ok a => exact hf a rfl
  | error e => trivial

theorem Guards.bind {f : α → Program Op Res ε β} (hf : ∀ a, Guards A P (f a)) :
  ∀ {p : Program Op Res ε α}, Guards A P p → Guards A P (p >>= f)
  | ret a, _ => hf a
  | throw _, _ => trivial
  | call _ _, hp => ⟨hp.1, fun r hr => Guards.bind hf (hp.2 r hr)⟩

theorem Guards.tryCatch {f : ε → Program Op Res ε α} (hf : ∀ e, Guards A P (f e)) :
  ∀ {p : Program Op Res ε α}, Guards A P p → Guards A P (p.tryCatch f)
  | ret _, _ => trivial
  | throw e, _ => hf e
  | call _ _, hp => ⟨hp.1, fun r hr => Guards.tryCatch hf (hp.2 r hr)⟩

theorem guards_forEach {f : β → Program Op Res ε Unit} :
  ∀ {xs : List β}, (∀ x ∈ xs, Guards A P (f x)) → Guards A P (forEach xs f)
  | [], _ => trivial
  | x :: _, hf =>
      Guards.bind (fun _ => guards_forEach fun y hy => hf y (List.mem_cons_of_mem x hy))
        (hf x List.mem_cons_self)

/-- What the operations of `P` keep holds at the end, if the answers are allowed where it
holds. -/
theorem Guards.exec_invariant {h : Handler Op Res σ} {I : σ → Prop}
    (hstep : ∀ s op, I s → P op → A op (h s op).1 ∧ I (h s op).2) :
  ∀ {p : Program Op Res ε α}, Guards A P p → ∀ s, I s → I (exec h p s).2
  | ret _, _, _, hs => hs
  | throw _, _, _, hs => hs
  | call op _, hp, s, hs =>
      Guards.exec_invariant hstep (hp.2 _ (hstep s op hs hp.1).1) _ (hstep s op hs hp.1).2

end Guards

/-! ### Changing the state -/

/-- The operations answer alike and act alike through `π`. -/
structure HandlerHom (h : Handler Op Res σ) (g : Handler Op Res τ) (π : σ → τ)  : Prop where
  answer : ∀ s op, (h s op).1 = (g (π s) op).1
  effect : ∀ s op, π (h s op).2 = (g (π s) op).2

variable {h : Handler Op Res σ} {g : Handler Op Res τ} {π : σ → τ}

/-- A program has the same result through `π`, and ends in the image of the state. -/
theorem exec_hom (hπ : HandlerHom h g π) :
  ∀ (p : Program Op Res ε α) (s : σ),
    exec g p (π s) = ((exec h p s).1, π (exec h p s).2)
  | ret _, _ => rfl
  | throw _, _ => rfl
  | call op next, s => by
      rw [exec, exec, ← hπ.answer, ← hπ.effect]
      apply exec_hom hπ

end Program
