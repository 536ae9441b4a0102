import Mathlib.Logic.Basic

/-!
# Attempts

An attempt changes a state and may throw, and what it changed before an exception stays.
`FailsTo P x s` says that `P` holds of what `x` leaves when it throws, started from `s`.  The
rules give it for a sequence from its first step, so that it can be read off the text of an
attempt.  `Returns x s` says that `x` does not throw, and has the same kind of rules.
-/

/-- A computation on a state `σ` with exceptions `ε`; an exception leaves the state. -/
abbrev Attempt (ε σ : Type) : Type → Type :=
  ExceptT ε (StateM σ)

namespace Attempt

variable {ε σ τ α β : Type}

/-- The outcome of an attempt, and the state it leaves. -/
def exec (x : Attempt ε σ α) (s : σ) : Except ε α × σ :=
  x.run s

/-- An attempt given by its outcomes. -/
def ofExec (f : σ → Except ε α × σ) : Attempt ε σ α :=
  ExceptT.mk f

/-- A computation that does not change the state. -/
def lift (r : Except ε α) : Attempt ε σ α :=
  ofExec fun s => (r, s)

/-- An attempt on a part of the state. -/
def focus (part : σ → τ) (put : σ → τ → σ) (x : Attempt ε τ α) : Attempt ε σ α :=
  ofExec fun s => ((exec x (part s)).1, put s (exec x (part s)).2)

/-- An attempt, and another one for each exception it throws. -/
def catching (x : Attempt ε σ α) (f : ε → Attempt ε σ α) : Attempt ε σ α :=
  ofExec fun s =>
    match exec x s with
    | (.ok a, s') => (.ok a, s')
    | (.error e, s') => exec (f e) s'

variable {s : σ}

@[simp]
theorem exec_ofExec (f : σ → Except ε α × σ) :
  exec (ofExec f) s = f s
  := rfl

@[simp]
theorem exec_lift (r : Except ε α) :
  exec (lift r) s = (r, s)
  := rfl

@[simp]
theorem exec_focus (part : σ → τ) (put : σ → τ → σ) (x : Attempt ε τ α) :
  exec (focus part put x) s = ((exec x (part s)).1, put s (exec x (part s)).2)
  := rfl

@[simp]
theorem exec_pure (a : α) :
  exec (pure a : Attempt ε σ α) s = (.ok a, s)
  := rfl

@[simp]
theorem exec_get :
  exec (get : Attempt ε σ σ) s = (.ok s, s)
  := rfl

@[simp]
theorem exec_modify (f : σ → σ) :
  exec (modify f : Attempt ε σ Unit) s = (.ok (), f s)
  := rfl

theorem exec_bind (x : Attempt ε σ α) (f : α → Attempt ε σ β) :
  exec (x >>= f) s
    = match exec x s with
      | (.ok a, s') => exec (f a) s'
      | (.error e, s') => (.error e, s')
  := by
  have hbind : exec (x >>= f) s = (ExceptT.bindCont f (exec x s).1) (exec x s).2 := rfl
  rw [hbind]
  rcases exec x s with ⟨r, s'⟩
  cases r <;> rfl

theorem exec_get_bind (f : σ → Attempt ε σ β) :
  exec (get >>= f) s = exec (f s) s
  := rfl

/-- What follows an attempt without touching the state leaves the state of the attempt. -/
theorem exec_bind_pure_snd (x : Attempt ε σ α) (b : β) :
  (exec (do let _ ← x; return b) s).2 = (exec x s).2
  := by
  rw [exec_bind]
  rcases exec x s with ⟨r, s'⟩
  cases r <;> rfl

/-! ### How an attempt ends -/

/-- `Q` holds of the outcome of the attempt and of the state it leaves. -/
def Ends (Q : Except ε α → σ → Prop) (x : Attempt ε σ α) (s : σ) : Prop :=
  Q (exec x s).1 (exec x s).2

variable {f : α → Attempt ε σ β}

section Ends

variable {Q : Except ε β → σ → Prop}

/-- A sequence ends in its first step, or after it. -/
theorem ends_bind {x : Attempt ε σ α} :
  Ends Q (x >>= f) s
    ↔ Ends (fun r s' => (∀ e, r = .error e → Q (.error e) s') ∧ ∀ a, r = .ok a → Ends Q (f a) s')
        x s
  := by
  rw [Ends, Ends, exec_bind]
  rcases exec x s with ⟨r, s'⟩
  cases r with
  | error e => simp
  | ok a => simp [Ends]

@[simp]
theorem ends_pure (b : β) :
  Ends Q (pure b) s ↔ Q (.ok b) s
  := Iff.rfl

@[simp]
theorem ends_lift (r : Except ε β) :
  Ends Q (lift r) s ↔ Q r s
  := Iff.rfl

@[simp]
theorem ends_get_bind {f : σ → Attempt ε σ β} :
  Ends Q (get >>= f) s ↔ Ends Q (f s) s
  := Iff.rfl

theorem ends_lift_bind {r : Except ε α} :
  Ends Q (lift r >>= f) s
    ↔ (∀ e, r = .error e → Q (.error e) s) ∧ ∀ a, r = .ok a → Ends Q (f a) s
  := ends_bind

@[simp]
theorem ends_modify_bind {f : σ → σ} {g : Unit → Attempt ε σ β} :
  Ends Q (modify f >>= g) s ↔ Ends Q (g ()) (f s)
  := Iff.rfl

end Ends

/-! ### What is left of a failure -/

/-- If the attempt throws, `P` holds of what it leaves. -/
def FailsTo (P : σ → Prop) (x : Attempt ε σ α) (s : σ) : Prop :=
  ∀ e s', exec x s = (.error e, s') → P s'

variable {r : Except ε α}

section Rules

variable {P : σ → Prop} {e : ε}

@[simp]
theorem failsTo_pure (a : α) :
  FailsTo P (pure a : Attempt ε σ α) s
  := by
  intro e s' h
  cases h

theorem failsTo_lift :
  FailsTo P (lift r) s ↔ ((∃ e, r = .error e) → P s)
  := by
  simp [FailsTo]

@[simp]
theorem failsTo_modify (f : σ → σ) :
  FailsTo P (modify f : Attempt ε σ Unit) s
  := by
  intro e s' h
  cases h

/-- A sequence throws in its first step or after it. -/
theorem failsTo_bind {x : Attempt ε σ α} :
  FailsTo P (x >>= f) s
    ↔ FailsTo P x s ∧ ∀ a s', exec x s = (.ok a, s') → FailsTo P (f a) s'
  := by
  rw [FailsTo, FailsTo, exec_bind]
  rcases exec x s with ⟨r, s'⟩
  cases r with
  | error e => simp
  | ok a => simp [FailsTo]

theorem failsTo_get_bind {f : σ → Attempt ε σ β} :
  FailsTo P (get >>= f) s ↔ FailsTo P (f s) s
  := by
  rw [FailsTo, exec_bind, exec_get, FailsTo]

theorem failsTo_modify_bind {f : σ → σ} {g : Unit → Attempt ε σ β} :
  FailsTo P (modify f >>= g) s ↔ FailsTo P (g ()) (f s)
  := by
  rw [FailsTo, exec_bind, exec_modify, FailsTo]

theorem failsTo_lift_bind :
  FailsTo P (lift r >>= f) s
    ↔ ((∃ e, r = .error e) → P s) ∧ ∀ a, r = .ok a → FailsTo P (f a) s
  := by
  rw [failsTo_bind, failsTo_lift]
  simp

end Rules

/-! ### Attempts that do not throw -/

/-- The attempt does not throw. -/
def Returns (x : Attempt ε σ α) (s : σ) : Prop :=
  ∃ a s', exec x s = (.ok a, s')

@[simp]
theorem returns_pure (a : α) :
  Returns (pure a : Attempt ε σ α) s
  := ⟨a, s, rfl⟩

theorem returns_lift :
  Returns (lift r : Attempt ε σ α) s ↔ ∃ a, r = .ok a
  := by
  simp [Returns]

variable {x : Attempt ε σ α}

/-- A sequence returns if its first step does and what follows does. -/
theorem returns_bind :
  Returns (x >>= f) s ↔ ∃ a s', exec x s = (.ok a, s') ∧ Returns (f a) s'
  := by
  rw [Returns, exec_bind]
  rcases exec x s with ⟨r, s'⟩
  cases r with
  | error e => simp
  | ok a => simp [Returns, and_assoc]

theorem returns_get_bind {f : σ → Attempt ε σ β} :
  Returns (get >>= f) s ↔ Returns (f s) s
  := by
  rw [Returns, exec_bind, exec_get, Returns]

theorem returns_modify_bind {f : σ → σ} {g : Unit → Attempt ε σ β} :
  Returns (modify f >>= g) s ↔ Returns (g ()) (f s)
  := by
  rw [Returns, exec_bind, exec_modify, Returns]

theorem returns_lift_bind :
  Returns (lift r >>= f) s ↔ ∃ a, r = .ok a ∧ Returns (f a) s
  := by
  rw [returns_bind]
  simp [and_assoc]

theorem returns_bind_bind {γ : Type} {g : β → Attempt ε σ γ} :
  Returns (x >>= f >>= g) s ↔ ∃ a s', exec x s = (.ok a, s') ∧ Returns (f a >>= g) s'
  := by
  simp only [Returns, exec_bind]
  rcases exec x s with ⟨r, s'⟩
  cases r with
  | error e => simp
  | ok a => simp [and_assoc]

variable {part : σ → τ} {put : σ → τ → σ}

theorem returns_focus {x : Attempt ε τ α} :
  Returns (focus part put x) s ↔ Returns x (part s)
  := by
  rw [Returns, Returns, exec_focus]
  rcases exec x (part s) with ⟨r, t⟩
  simp

theorem returns_focus_bind {x : Attempt ε τ α} :
  Returns (focus part put x >>= f) s
    ↔ ∃ a t, exec x (part s) = (.ok a, t) ∧ Returns (f a) (put s t)
  := by
  rw [returns_bind]
  simp only [focus, exec_ofExec]
  rcases exec x (part s) with ⟨r, t⟩
  simp [and_assoc]

/-- Where every exception is answered, none is left. -/
theorem returns_catching {f : ε → Attempt ε σ α} (hf : ∀ e s', Returns (f e) s') :
  Returns (catching x f) s
  := by
  rw [Returns, catching, exec_ofExec]
  rcases exec x s with ⟨r, s'⟩
  cases r with
  | ok a => exact ⟨a, s', rfl⟩
  | error e => exact hf e s'

end Attempt
