import Mathlib.Data.List.Infix
import Mathlib.Tactic.Use

/-!
# Search in lists

`cut` splits a list at the first occurrence of another.
-/

namespace Lists

variable {α : Type} [DecidableEq α]

/-- What stands before and after the first occurrence of `pat`. -/
def cut (pat : List α) : List α → Option (List α × List α)
  | [] => if pat = [] then some ([], []) else none
  | x :: xs =>
      if pat <+: x :: xs then some ([], (x :: xs).drop pat.length)
      else (cut pat xs).map fun (u, v) => (x :: u, v)

theorem cut_append_self (pat v : List α) :
  cut pat (pat ++ v) = some ([], v)
  := by
  cases h : pat ++ v with
  | nil =>
    obtain ⟨rfl, rfl⟩ := List.append_eq_nil_iff.mp h
    rfl
  | cons x xs =>
    have hstart : pat <+: x :: xs := ⟨v, h⟩
    rw [cut, if_pos hstart, ← h, List.drop_left]

/-- The first occurrence is found where no other starts before it. -/
theorem cut_append {pat v : List α} :
  ∀ {u : List α}, (∀ u', u' ≠ [] → u' <:+ u → ¬ pat <+: u' ++ (pat ++ v)) →
    cut pat (u ++ (pat ++ v)) = some (u, v)
  | [], _ => cut_append_self pat v
  | x :: u, h => by
      have hx : ¬ pat <+: x :: (u ++ (pat ++ v))
        := h (x :: u) (List.cons_ne_nil x u) (List.suffix_refl _)
      have hrest : cut pat (u ++ (pat ++ v)) = some (u, v) := by
        apply cut_append
        intro u' hne hsuffix
        apply h u' hne
        apply hsuffix.trans (List.suffix_cons x u)
      rw [List.cons_append, cut, if_neg hx, hrest]
      rfl

/-- A pattern that ends with `c`, and has no other `c`, is not found across the end of a text that
ends with `c`. -/
theorem cut_of_ends {c : α} {pat u v : List α} (hc : c ∉ pat) (h : ¬ pat ++ [c] <:+: u ++ [c]) :
  cut (pat ++ [c]) (u ++ [c] ++ (pat ++ [c] ++ v)) = some (u ++ [c], v)
  := by
  apply cut_append
  intro u' hne hsuffix hstart
  apply h
  apply List.IsInfix.trans _ hsuffix.isInfix
  apply List.IsPrefix.isInfix
  obtain ⟨u', rfl⟩ : ∃ u'', u' = u'' ++ [c] := by
    rcases List.suffix_concat_iff.mp hsuffix with rfl | ⟨u'', rfl, -⟩
    · contradiction
    · exact ⟨u'', rfl⟩
  rcases List.prefix_or_prefix_of_prefix hstart (List.prefix_append _ _) with hstart | hstart
  · apply hstart
  · rcases List.prefix_concat_iff.mp hstart with heq | hshort
    · rw [heq]
    · exact absurd (hshort.subset (List.mem_append_right u' (List.mem_singleton_self c))) hc

/-- A pattern that occurs in a text is found there, whatever follows. -/
theorem exists_cut_append {pat : List α} (hpat : pat ≠ []) :
  ∀ {xs : List α}, pat <:+: xs → ∃ u v, ∀ ys, cut pat (xs ++ ys) = some (u, v ++ ys)
  | [], h => absurd (List.eq_nil_of_infix_nil h) hpat
  | x :: xs, h => by
      by_cases hstart : pat <+: x :: xs
      · obtain ⟨w, hw⟩ := hstart
        use [], w
        intro ys
        rw [← hw, List.append_assoc]
        apply cut_append_self
      · have hrest := (List.infix_cons_iff.mp h).resolve_left hstart
        obtain ⟨u, v, hcut⟩ := exists_cut_append hpat hrest
        use x :: u, v
        intro ys
        rw [List.cons_append, cut, if_neg, hcut]
        · rfl
        · intro hlong
          apply hstart
          apply List.prefix_of_prefix_length_le hlong (List.prefix_append (x :: xs) ys)
          exact hrest.length_le.trans (Nat.le_succ _)

/-- A pattern is not found in a text without its first two letters. -/
theorem cut_of_not_infix {c d : α} {pat u v : List α} (hne : c ≠ d) (h : ¬ [c, d] <:+: u) :
  cut (c :: d :: pat) (u ++ (c :: d :: pat ++ v)) = some (u, v)
  := by
  apply cut_append
  intro u' hne' hsuffix hstart
  obtain ⟨x, u', rfl⟩ := List.exists_cons_of_ne_nil hne'
  rw [List.cons_append, List.cons_prefix_cons] at hstart
  obtain ⟨rfl, hstart⟩ := hstart
  cases u' with
  | nil => exact hne (List.cons_prefix_cons.mp hstart).1.symm
  | cons y u' =>
    obtain ⟨rfl, -⟩ := List.cons_prefix_cons.mp hstart
    apply h
    apply List.IsInfix.trans _ hsuffix.isInfix
    exact ⟨[], u', rfl⟩

end Lists
