import Mathlib.Algebra.BigOperators.Group.Finset.Basic
import Mathlib.Data.Fintype.Basic

/-!
# Machines that act

A machine takes a state and an action to a state, or refuses the action.  An interleaving of the
actions of several threads is a list of actions, none of which is refused.  What every action
keeps holds at the end of every run, and what the actions keep that meet a condition holds at the
end of every run along which they do.  Where an action can always bring a goal nearer, the machine
is never stuck before it (`exists_run`).  For a machine of several threads, `sum_update` follows a
sum over the threads when one of them moves.
-/

namespace Machine

variable {σ α : Type} {act : σ → α → Option σ}

/-- The state after the actions. -/
def run (act : σ → α → Option σ) (s : σ) (actions : List α) : Option σ :=
  actions.foldlM act s

variable {actions : List α} {s t : σ}

theorem run_cons {a : α} :
  run act s (a :: actions) = some t ↔ ∃ s', act s a = some s' ∧ run act s' actions = some t
  := by
  rw [run, List.foldlM_cons]
  exact Option.bind_eq_some_iff

theorem run_append {as bs : List α} :
  run act s (as ++ bs) = some t ↔ ∃ s', run act s as = some s' ∧ run act s' bs = some t
  := by
  rw [run, List.foldlM_append]
  exact Option.bind_eq_some_iff

/-- What the actions of a run keep holds at its end. -/
theorem run_invariant_of_mem {P : σ → Prop}
    (hstep : ∀ {s a s'}, a ∈ actions → P s → act s a = some s' → P s') (hs : P s)
    (hrun : run act s actions = some t) :
  P t
  := by
  induction actions generalizing s with
  | nil =>
    obtain rfl := Option.some.inj hrun
    exact hs
  | cons a actions ih =>
    obtain ⟨s', hact, hrest⟩ := run_cons.mp hrun
    apply ih (fun hmem => hstep (List.mem_cons_of_mem a hmem)) _ hrest
    exact hstep List.mem_cons_self hs hact

/-- What every action keeps holds at the end of a run. -/
theorem run_invariant {P : σ → Prop} (hstep : ∀ {s a s'}, P s → act s a = some s' → P s') (hs : P s)
    (hrun : run act s actions = some t) :
  P t
  := run_invariant_of_mem (fun _ => hstep) hs hrun

/-- Every action of a run meets `P` in the state before it. -/
def Along (act : σ → α → Option σ) (P : σ → α → Prop) : σ → List α → Prop
  | _, [] => True
  | s, a :: actions =>
      P s a ∧ match act s a with
        | none => True
        | some s' => Along act P s' actions

variable {P : σ → α → Prop}

theorem along_cons {s' : σ} {a : α} (hact : act s a = some s') :
  Along act P s (a :: actions) ↔ P s a ∧ Along act P s' actions
  := by
  rw [Along, hact]

instance decidableAlong {P : σ → α → Prop} [∀ s a, Decidable (P s a)] :
    ∀ (s : σ) (actions : List α), Decidable (Along act P s actions)
  | _, [] => isTrue trivial
  | s, a :: actions =>
      match h : act s a with
      | none => decidable_of_iff (P s a) (by simp [Along, h])
      | some s' =>
          have := decidableAlong (P := P) s' actions
          decidable_of_iff (P s a ∧ Along act P s' actions) (along_cons h).symm

variable {Q : σ → Prop}

/-- What the actions keep that meet a condition holds at the end of a run of such actions. -/
theorem run_invariant_along (hstep : ∀ {s a s'}, P s a → Q s → act s a = some s' → Q s') (hs : Q s)
    (halong : Along act P s actions) (hrun : run act s actions = some t) :
  Q t
  := by
  induction actions generalizing s with
  | nil =>
    obtain rfl := Option.some.inj hrun
    exact hs
  | cons a actions ih =>
    obtain ⟨s', hact, hrest⟩ := run_cons.mp hrun
    obtain ⟨ha, hactions⟩ := (along_cons hact).mp halong
    exact ih (hstep ha hs hact) hactions hrest

/-- What follows in every state of a run from a condition on the actions and an invariant. -/
theorem along_of_invariant {P' : σ → α → Prop}
    (hstep : ∀ {s a s'}, P s a → Q s → act s a = some s' → Q s')
    (hP : ∀ {s a}, P s a → Q s → P' s a) (hs : Q s) (halong : Along act P s actions) :
  Along act P' s actions
  := by
  induction actions generalizing s with
  | nil => trivial
  | cons a actions ih =>
    rw [Along] at halong ⊢
    refine ⟨hP halong.1 hs, ?_⟩
    cases hact : act s a with
    | none => trivial
    | some s' =>
      rw [hact] at halong
      exact ih (hstep halong.1 hs hact) halong.2

/-- Where an action can always bring a goal nearer, a run leads to it. -/
theorem exists_run {P G : σ → Prop} (effort : σ → ℕ)
    (hstep : ∀ {s}, P s → ¬ G s → ∃ a s', act s a = some s' ∧ P s' ∧ effort s' < effort s)
    (hs : P s) :
  ∃ actions t, run act s actions = some t ∧ P t ∧ G t
  := by
  induction hn : effort s using Nat.strong_induction_on generalizing s with
  | _ n ih =>
    by_cases hgoal : G s
    · exact ⟨[], s, rfl, hs, hgoal⟩
    · obtain ⟨a, s', hact, hs', hless⟩ := hstep hs hgoal
      obtain ⟨actions, t, hrun, ht⟩ := ih (effort s') (hn ▸ hless) hs' rfl
      exact ⟨a :: actions, t, run_cons.mpr ⟨s', hact, hrun⟩, ht⟩

/-- A sum over the threads when one of them moves. -/
theorem sum_update {τ β : Type} [Fintype τ] [DecidableEq τ] (g : β → ℕ) (f : τ → β) (i : τ)
    (b : β) :
  ∑ j, g (Function.update f i b j) + g (f i) = ∑ j, g (f j) + g b
  := by
  have hrest : ∑ j ∈ Finset.univ.erase i, g (Function.update f i b j)
      = ∑ j ∈ Finset.univ.erase i, g (f j) := by
    apply Finset.sum_congr rfl
    intro j hj
    rw [Function.update_of_ne (Finset.ne_of_mem_erase hj)]
  rw [← Finset.sum_erase_add _ _ (Finset.mem_univ i), hrest, Function.update_self,
    ← Finset.sum_erase_add Finset.univ (fun j => g (f j)) (Finset.mem_univ i)]
  omega

end Machine
