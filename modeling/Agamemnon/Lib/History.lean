import Mathlib.Data.List.Infix

/-!
# Histories

Calls take a state from one to the next.  A history lists the calls that were made, the last one
first, and what holds in every state that it visits is settled call by call (`always_iff`).

While a property of the state holds, it has held since the call that brought it about, or since
the start.  An observation of the state shows that time in every state exactly when each call
leaves what is shown while the property lasts, and shows its own time when it brings the property
about (`shown_iff`).
-/

namespace History

variable {σ α τ : Type} (step : σ → α → σ) (s : σ)

/-- The state after some calls, the last of which comes first. -/
def after : List α → σ
  | [] => s
  | c :: earlier => step (after earlier) c

/-- Where a call keeps `P` if and only if it is made under the condition `Q`, the property holds in
every state exactly when it holds at the start and every call is made under the condition.  The
calls are known to meet `F`. -/
theorem always_iff {P : σ → Prop} {F Q : σ → α → Prop} {calls : List α}
    (hF : ∀ c earlier, c :: earlier <:+ calls → F (after step s earlier) c)
    (hstep : ∀ s c, P s → F s c → (P (step s c) ↔ Q s c)) :
  (∀ l, l <:+ calls → P (after step s l))
    ↔ P s ∧ ∀ c earlier, c :: earlier <:+ calls → Q (after step s earlier) c
  := by
  constructor
  · intro h
    use h [] List.nil_suffix
    intro c earlier hl
    have hbefore := h earlier ((List.suffix_cons c earlier).trans hl)
    exact (hstep _ c hbefore (hF c earlier hl)).mp (h (c :: earlier) hl)
  · rintro ⟨hstart, hcalls⟩ l hl
    induction l with
    | nil => exact hstart
    | cons c earlier ih =>
      have hbefore := ih ((List.suffix_cons c earlier).trans hl)
      exact (hstep _ c hbefore (hF c earlier hl)).mpr (hcalls c earlier hl)

variable (p : σ → Prop) (shown : σ → τ) (time : α → τ)

/-- After the calls the property holds, and has held since the time `t`.  A property that holds
at the start has held since the time that is shown there. -/
inductive Since : List α → τ → Prop
  | start (holds : p s) : Since [] (shown s)
  | began {c : α} {earlier : List α} (off : ¬ p (after step s earlier))
      (holds : p (after step s (c :: earlier))) : Since (c :: earlier) (time c)
  | lasts {c : α} {earlier : List α} {t : τ} (since : Since earlier t)
      (holds : p (after step s (c :: earlier))) : Since (c :: earlier) t

variable {step s p shown time}

theorem Since.holds {calls : List α} {t : τ} (h : Since step s p shown time calls t) :
  p (after step s calls)
  := by
  cases h with
  | start holds => exact holds
  | began _ holds => exact holds
  | lasts _ holds => exact holds

/-- A property that holds has held since some time. -/
theorem exists_since (shown : σ → τ) (time : α → τ) {calls : List α} (h : p (after step s calls)) :
  ∃ t, Since step s p shown time calls t
  := by
  induction calls with
  | nil => use shown s, .start h
  | cons c earlier ih =>
    by_cases hbefore : p (after step s earlier)
    · obtain ⟨t, ht⟩ := ih hbefore
      use t, ht.lasts h
    · use time c, .began hbefore h

/-- A call shows the time: it leaves what is shown while the property lasts, and shows its own
time when the property begins. -/
def Shows (step : σ → α → σ) (p : σ → Prop) (shown : σ → τ) (time : α → τ) (s : σ) (c : α) :
    Prop :=
  p (step s c) → (p s → shown (step s c) = shown s) ∧ (¬ p s → shown (step s c) = time c)

/-- The time since when the property holds is shown in every state, if and only if each call
shows it. -/
theorem shown_iff {calls : List α} :
  (∀ l, l <:+ calls → ∀ t, Since step s p shown time l t → shown (after step s l) = t)
    ↔ ∀ c earlier, c :: earlier <:+ calls → Shows step p shown time (after step s earlier) c
  := by
  constructor
  · intro h c earlier hl hholds
    constructor
    · intro hbefore
      obtain ⟨t, ht⟩ := exists_since shown time hbefore
      have hearlier := h earlier ((List.suffix_cons c earlier).trans hl) t ht
      exact (h _ hl t (ht.lasts hholds)).trans hearlier.symm
    · intro hbefore
      exact h _ hl _ (.began hbefore hholds)
  · intro h l hl t ht
    -- on the calls since the property began
    induction ht with
    | start => rfl
    | began off holds => exact (h _ _ hl holds).2 off
    | @lasts c earlier t since holds ih =>
      exact ((h _ _ hl holds).1 since.holds).trans (ih ((List.suffix_cons c earlier).trans hl))

end History
