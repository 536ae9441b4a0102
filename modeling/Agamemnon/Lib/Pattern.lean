import Agamemnon.Lib.Lists
import Mathlib.Computability.RegularExpressions
import Mathlib.Data.List.TakeWhile

/-!
# Patterns

Regular expressions as they are written in programs: literal words, classes of letters, and one
or more copies.  A word that starts with a literal is known up to there, and a letter of a
word that matches is one of the letters of the expression.

The matches of one or more letters of a class are the longest runs of such letters
(`scan_eq_runs`).
-/

namespace Pattern

variable {α : Type}

/-- The word itself. -/
def word : List α → RegularExpression α
  | [] => 1
  | a :: w => .char a * word w

/-- One of these letters. -/
def oneOf : List α → RegularExpression α
  | [] => 0
  | a :: as => .char a + oneOf as

/-- One or more copies. -/
def oneOrMore (r : RegularExpression α) : RegularExpression α :=
  r * r.star

/-- The expression or nothing. -/
def optional (r : RegularExpression α) : RegularExpression α :=
  1 + r

/-- The matches in a word from left to right, each after the end of the one before it, where
`matchAt` tells a match at the start of a word and its length.  The first argument counts the
letters that still belong to a match. -/
def scan {β : Type} (matchAt : List α → Option (β × ℕ)) : ℕ → List α → List β
  | _, [] => []
  | skip + 1, _ :: w => scan matchAt skip w
  | 0, a :: w =>
      match matchAt (a :: w) with
      | some (b, n) => b :: scan matchAt (n - 1) w
      | none => scan matchAt 0 w

/-- The letters of an expression. -/
def letters : RegularExpression α → List α
  | .zero => []
  | .epsilon => []
  | .char a => [a]
  | .plus r s => letters r ++ letters s
  | .comp r s => letters r ++ letters s
  | .star r => letters r

variable {w x : List α}

theorem mem_word :
  x ∈ (word w).matches' ↔ x = w
  := by
  induction w generalizing x with
  | nil => rfl
  | cons a w ih =>
    rw [word, RegularExpression.matches'_mul, Language.mem_mul]
    constructor
    · rintro ⟨_, rfl, v, hv, rfl⟩
      rw [ih.mp hv]
      rfl
    · rintro rfl
      exact ⟨[a], rfl, w, ih.mpr rfl, rfl⟩

variable {r : RegularExpression α}

/-- A word that matches starts with the literal. -/
theorem exists_of_word_mul (h : x ∈ (word w * r).matches') :
  ∃ y ∈ r.matches', x = w ++ y
  := by
  obtain ⟨u, hu, y, hy, rfl⟩ := Language.mem_mul.mp h
  rw [mem_word.mp hu]
  exact ⟨y, hy, rfl⟩

/-- The letters of a word that matches are letters of the expression. -/
theorem mem_letters (h : x ∈ r.matches') :
  ∀ a ∈ x, a ∈ letters r
  := by
  induction r generalizing x with
  | zero => exact absurd h (Language.notMem_zero x)
  | epsilon =>
    rw [(Language.mem_one x).mp h]
    simp
  | char a =>
    intro b hb
    rw [Set.mem_singleton_iff.mp h] at hb
    exact hb
  | plus r s ihr ihs =>
    intro a ha
    rcases (Language.mem_add _ _ _).mp h with h | h
    · exact List.mem_append_left _ (ihr h a ha)
    · exact List.mem_append_right _ (ihs h a ha)
  | comp r s ihr ihs =>
    obtain ⟨u, hu, v, hv, rfl⟩ := Language.mem_mul.mp h
    intro a ha
    rcases List.mem_append.mp ha with ha | ha
    · exact List.mem_append_left _ (ihr hu a ha)
    · exact List.mem_append_right _ (ihs hv a ha)
  | star r ih =>
    obtain ⟨words, rfl, hwords⟩ := Language.mem_kstar.mp h
    intro a ha
    obtain ⟨w, hw, ha⟩ := List.mem_flatten.mp ha
    exact ih (hwords w hw) a ha

/-! ### Scanning -/

section Scan

variable {β : Type} {matchAt : List α → Option (β × ℕ)}

theorem scan_length_append (w rest : List α) :
  scan matchAt w.length (w ++ rest) = scan matchAt 0 rest
  := by
  induction w with
  | nil => rfl
  | cons a w ih => exact ih

/-- What is found is a match somewhere. -/
theorem exists_of_mem_scan {b : β} {skip : ℕ} (h : b ∈ scan matchAt skip w) :
  ∃ v n, matchAt v = some (b, n)
  := by
  induction w generalizing skip with
  | nil => cases skip <;> cases h
  | cons a w ih =>
    cases skip with
    | succ skip => exact ih h
    | zero =>
      rw [scan] at h
      cases hmatch : matchAt (a :: w) with
      | none =>
        rw [hmatch] at h
        exact ih h
      | some found =>
        obtain ⟨b', n⟩ := found
        rw [hmatch] at h
        rcases List.mem_cons.mp h with rfl | h
        · exact ⟨a :: w, n, hmatch⟩
        · exact ih h

end Scan

/-! ### Runs -/

variable {p : α → Bool} {a : α}

/-- The longest runs of letters of a class, from left to right. -/
def runs (p : α → Bool) (w : List α) : List (List α) :=
  (w.splitOnP fun a => !p a).filter fun run => !run.isEmpty

theorem runs_append_cons (v w : List α) (ha : p a = false) :
  runs p (v ++ a :: w) = runs p v ++ runs p w
  := by
  rw [runs, List.splitOnP_append_cons v w (by simp [ha]), List.filter_append]
  rfl

theorem runs_of_forall (hw : w ≠ []) (h : ∀ a ∈ w, p a = true) :
  runs p w = [w]
  := by
  have hsplit : (w.splitOnP fun a => !p a) = [w] := by
    apply List.splitOnP_eq_singleton
    intro a ha
    simp [h a ha]
  simp [runs, hsplit, hw]

theorem runs_cons_of_neg (ha : p a = false) :
  runs p (a :: w) = runs p w
  := runs_append_cons [] w ha

theorem runs_cons_of_pos (ha : p a = true) :
  runs p (a :: w) = (a :: w.takeWhile p) :: runs p (w.dropWhile p)
  := by
  have hrun : runs p (a :: w.takeWhile p) = [a :: w.takeWhile p] := by
    apply runs_of_forall (List.cons_ne_nil _ _)
    intro b hb
    rcases List.mem_cons.mp hb with rfl | hb
    · exact ha
    · exact List.mem_takeWhile_imp hb
  have hsplit : a :: w = (a :: w.takeWhile p) ++ w.dropWhile p := by
    rw [List.cons_append, List.takeWhile_append_dropWhile]
  cases hrest : w.dropWhile p with
  | nil =>
    rw [hrest, List.append_nil] at hsplit
    rw [hsplit, hrun]
    rfl
  | cons b rest =>
    have hb : p b = false := by
      have hhead := List.head?_dropWhile_not p w
      rw [hrest] at hhead
      simpa using hhead
    rw [hsplit, hrest, runs_append_cons _ _ hb, hrun, runs_cons_of_neg hb]
    rfl

/-- A run consists of one or more letters of the class. -/
theorem of_mem_runs {run : List α} (h : run ∈ runs p w) :
  run ≠ [] ∧ ∀ a ∈ run, p a = true
  := by
  obtain ⟨hsplit, hsome⟩ := List.mem_filter.mp h
  constructor
  · simpa using hsome
  · intro a ha
    simpa using Lists.not_of_mem_splitOnP hsplit a ha

theorem runs_eq_nil_iff :
  runs p w = [] ↔ ∀ a ∈ w, p a = false
  := by
  induction w with
  | nil => simp [runs]
  | cons a w ih =>
    cases ha : p a with
    | false => simp [runs_cons_of_neg ha, ih, ha]
    | true => simp [runs_cons_of_pos ha, ha]

/-- Scanning for one or more letters of a class finds the runs. -/
theorem scan_eq_runs {β : Type} {f : List α → β} {matchAt : List α → Option (β × ℕ)}
    (hmatch : ∀ w, matchAt w = if w.takeWhile p = [] then none
      else some (f (w.takeWhile p), (w.takeWhile p).length)) (w : List α) :
  scan matchAt 0 w = (runs p w).map f
  := by
  induction hn : w.length using Nat.strong_induction_on generalizing w with
  | h n ih =>
    subst hn
    cases w with
    | nil => rfl
    | cons a w =>
      cases ha : p a with
      | false =>
        have hnone : matchAt (a :: w) = none := by simp [hmatch, ha]
        rw [scan, hnone, runs_cons_of_neg ha]
        exact ih w.length (Nat.lt_succ_self _) w rfl
      | true =>
        have hsome : matchAt (a :: w) = some (f (a :: w.takeWhile p), (w.takeWhile p).length + 1)
          := by simp [hmatch, ha]
        have hrest : scan matchAt (w.takeWhile p).length w = scan matchAt 0 (w.dropWhile p) := by
          have hskip := @scan_length_append _ _ matchAt (w.takeWhile p) (w.dropWhile p)
          rwa [List.takeWhile_append_dropWhile] at hskip
        rw [scan, hsome, runs_cons_of_pos ha, List.map_cons]
        change _ :: scan matchAt (w.takeWhile p).length w = _
        rw [hrest, ih (w.dropWhile p).length _ _ rfl]
        exact Nat.lt_succ_of_le (List.dropWhile_sublist p).length_le

end Pattern
