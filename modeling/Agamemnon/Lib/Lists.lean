import Mathlib.Data.List.Basic
import Mathlib.Data.List.Nodup
import Mathlib.Data.List.Perm.Subperm

/-!
# Lists filled in by loops

A loop that builds a list and writes back into earlier entries is a fold.  The lemmas
below follow such a loop: `foldlM_eq_of_step` and `foldlM_ok_of_step` give its result
from what one iteration does, `foldlM_invariant` carries an invariant to its end,
`map_modify` is the effect of writing back into a list of the form `ns.map f`, and `pushNew`
collects elements without repeating them.
-/

/-- A computation that succeeds does so step by step. -/
theorem exists_of_bind_eq_ok {ε α β : Type} {x : Except ε α} {f : α → Except ε β} {b : β}
    (h : (x >>= f) = .ok b) :
  ∃ a, x = .ok a ∧ f a = .ok b
  := by
  cases x with
  | error e => contradiction
  | ok a => exact ⟨a, rfl, h⟩

namespace Lists

/-! ### Folds from their steps -/

/-- A loop in `Except` that takes the state `S i` to `S (i + 1)` once the check of the
`i`-th element has passed takes `S 0` to `S n`, where `n` is the number of elements,
once all checks have passed in turn. -/
theorem foldlM_eq_of_step {α σ ε : Type} {f : σ → α → Except ε σ} {check : α → Except ε PUnit} :
  ∀ (xs : List α) (S : ℕ → σ),
    (∀ i (hi : i < xs.length), f (S i) xs[i] = (do check xs[i]; return S (i + 1))) →
    xs.foldlM f (S 0) = (do forM xs check; return S xs.length)
  | [], S, _ => rfl
  | x :: xs, S, h => by
      have hhead := h 0 (Nat.zero_lt_succ _)
      have htail := foldlM_eq_of_step xs (fun i => S (i + 1)) (by
        intro i hi
        have := h (i + 1) (Nat.succ_lt_succ hi)
        simpa using this)
      simp only [List.getElem_cons_zero, Nat.zero_add] at hhead htail
      rw [List.foldlM_cons, hhead, List.forM_cons]
      cases hx : check x with
      | error e => rfl
      | ok u =>
        apply Eq.trans htail
        rfl

/-- A loop of checks passes when every check passes. -/
theorem forM_eq_ok {α ε : Type} {check : α → Except ε PUnit} :
  ∀ xs : List α, forM xs check = .ok ⟨⟩ ↔ ∀ x ∈ xs, check x = .ok ⟨⟩
  | [] => by simp [pure, Except.pure]
  | x :: xs => by
      rw [List.forM_cons, List.forall_mem_cons, ← forM_eq_ok xs]
      cases check x <;> simp [bind, Except.bind]

/-- A loop in `Except` that takes the state `S i` to `S (i + 1)` without an exception
takes `S 0` to `S n`, where `n` is the number of iterations. -/
theorem foldlM_ok_of_step {α σ ε : Type} {f : σ → α → Except ε σ} (xs : List α) (S : ℕ → σ)
    (h : ∀ i (hi : i < xs.length), f (S i) xs[i] = .ok (S (i + 1))) :
  xs.foldlM f (S 0) = .ok (S xs.length)
  := by
  rw [@foldlM_eq_of_step _ _ _ f (fun _ => .ok ⟨⟩) xs S h, (forM_eq_ok xs).mpr fun _ _ => rfl]
  rfl

/-- What every iteration of a loop keeps holds when the loop ends. -/
theorem foldlM_invariant {α σ ε : Type} {f : σ → α → Except ε σ} {P : σ → Prop}
    (hstep : ∀ {s x s'}, P s → f s x = .ok s' → P s') :
  ∀ {xs : List α} {s s' : σ}, P s → xs.foldlM f s = .ok s' → P s'
  | [], s, s', hs, h => by
      obtain rfl := Except.ok.inj h
      exact hs
  | x :: xs, s, s', hs, h => by
      rw [List.foldlM_cons] at h
      obtain ⟨s₁, hx, h⟩ := exists_of_bind_eq_ok h
      apply foldlM_invariant hstep (hstep hs hx) h

/-- Every entry is read. -/
theorem mapM_eq_ok {α β ε : Type} {f : α → Except ε β} {g : α → β} :
  ∀ {xs : List α}, (∀ x ∈ xs, f x = .ok (g x)) → xs.mapM f = .ok (xs.map g)
  | [], _ => rfl
  | x :: xs, h => by
      obtain ⟨hx, hxs⟩ := List.forall_mem_cons.mp h
      rw [List.mapM_cons, hx, mapM_eq_ok hxs]
      rfl

/-- What a check of the entries one by one has found holds of every entry. -/
theorem forall_of_all {p : α → Prop} [DecidablePred p] {xs : List α}
    (h : (xs.all fun x => decide (p x)) = true) :
  ∀ x ∈ xs, p x
  := by simpa using h

/-- No part of a list that is split has a separator in it. -/
theorem not_of_mem_splitOnP {p : α → Bool} {xs part : List α} (h : part ∈ xs.splitOnP p) :
  ∀ x ∈ part, p x = false
  := by
  induction xs generalizing part with
  | nil =>
    rw [List.splitOnP_nil, List.mem_singleton] at h
    simp [h]
  | cons y ys ih =>
    rw [List.splitOnP_cons_eq_if_modifyHead] at h
    split at h
    · rcases List.mem_cons.mp h with rfl | h
      · simp
      · exact ih h
    · rename_i hy
      cases hparts : ys.splitOnP p with
      | nil =>
        rw [hparts] at h
        simp at h
      | cons first rest =>
        rw [hparts] at h ih
        rcases List.mem_cons.mp h with rfl | h
        · intro x hx
          rcases List.mem_cons.mp hx with rfl | hx
          · simpa using hy
          · exact ih List.mem_cons_self x hx
        · exact ih (List.mem_cons_of_mem _ h)

/-! ### Writing back into a list -/

variable {β : Type} {i : ℕ}

/-- Writing back at the position of `p` changes the entry of `p` only. -/
theorem map_modify [DecidableEq α] {ns : List α} (hns : ns.Nodup) {p : α} (hi : ns[i]? = some p)
    (f : α → β) (g : β → β) :
  (ns.map f).modify i g = ns.map (fun c => if c = p then g (f c) else f c)
  := by
  apply List.ext_getElem?
  intro j
  rw [List.getElem?_modify, List.getElem?_map, List.getElem?_map]
  cases hj : ns[j]? with
  | none => rfl
  | some c =>
    by_cases hij : i = j
    · subst hij
      obtain rfl : p = c := Option.some.inj (hi.symm.trans hj)
      simp
    · have hcp : c ≠ p := by
        rintro rfl
        apply hij
        obtain ⟨hi', hic⟩ := List.getElem?_eq_some_iff.mp hi
        obtain ⟨hj', hjc⟩ := List.getElem?_eq_some_iff.mp hj
        apply (hns.getElem_inj_iff).mp (hic.trans hjc.symm)
      simp [hij, hcp]

/-- In a list without repetitions, the index of an entry is its position. -/
theorem idxOf_of_getElem? [DecidableEq α] {ns : List α} {c : α} (hns : ns.Nodup)
    (h : ns[i]? = some c) :
  ns.idxOf c = i
  := by
  obtain ⟨hi, rfl⟩ := List.getElem?_eq_some_iff.mp h
  apply hns.idxOf_getElem

/-- In a list without repetitions, the index of an entry is the number of entries before
it. -/
theorem idxOf_of_isPrefix [DecidableEq α] {front ns : List α} {c : α} (hns : ns.Nodup)
    (h : front ++ [c] <+: ns) :
  ns.idxOf c = front.length
  := by
  obtain ⟨back, rfl⟩ := h
  apply idxOf_of_getElem? hns
  simp

/-- In a list without repetitions, an entry before `c` has a smaller index. -/
theorem idxOf_lt_of_isPrefix [DecidableEq α] {front ns : List α} {c p : α} (hns : ns.Nodup)
    (h : front ++ [c] <+: ns) (hp : p ∈ front) :
  ns.idxOf p < ns.idxOf c
  := by
  rw [idxOf_of_isPrefix hns h]
  obtain ⟨back, rfl⟩ := h
  rw [List.append_assoc, List.idxOf_append_of_mem hp]
  apply List.idxOf_lt_length_of_mem hp

/-- An entry of a list without repetitions splits it in two parts without the entry. -/
theorem split_of_getElem? {ns : List α} (hns : ns.Nodup) {c : α} (hi : ns[i]? = some c) :
  ns = ns.take i ++ c :: ns.drop (i + 1) ∧ c ∉ ns.take i ∧ c ∉ ns.drop (i + 1)
  := by
  have hsplit : ns = ns.take i ++ c :: ns.drop (i + 1) := by
    obtain ⟨hi', rfl⟩ := List.getElem?_eq_some_iff.mp hi
    simp
  have hnodup := hns
  rw [hsplit, List.nodup_append, List.nodup_cons] at hnodup
  obtain ⟨-, ⟨hback, -⟩, hfront⟩ := hnodup
  use hsplit
  constructor
  · intro h
    apply hfront c h c
    · simp
    · rfl
  · apply hback

/-- Where `p` holds nowhere from the position `i` of `c` on, and `q` differs from `p` in
that it holds of `c`, filtering by `q` appends `c`. -/
theorem filter_append_of_last {ns : List α} (hns : ns.Nodup) {c : α} (hi : ns[i]? = some c)
    {p q : α → Bool} (hne : ∀ d, d ≠ c → q d = p d) (hq : q c = true) (hp : p c = false)
    (hlast : ∀ d ∈ ns.drop (i + 1), p d = false) :
  ns.filter q = ns.filter p ++ [c]
  := by
  obtain ⟨hsplit, hfront, hback⟩ := split_of_getElem? hns hi
  have hagree : ∀ l : List α, c ∉ l → l.filter q = l.filter p := by
    intro l hl
    apply List.filter_congr
    intro d hd
    apply hne
    rintro rfl
    apply hl hd
  have hnone : (ns.drop (i + 1)).filter p = [] := by
    apply List.filter_eq_nil_iff.mpr
    intro d hd
    simp [hlast d hd]
  rw [hsplit, List.filter_append, List.filter_append, List.filter_cons_of_pos hq,
    List.filter_cons_of_neg (by simp [hp]), hagree _ hback, hagree _ hfront, hnone]
  simp

/-- A list of lists that are empty except at `x`. -/
theorem flatMap_of_single {α β : Type} {f : α → List β} {x : α} :
  ∀ {xs : List α}, xs.Nodup → x ∈ xs → (∀ y ∈ xs, y ≠ x → f y = []) → xs.flatMap f = f x
  | y :: ys, hnodup, hx, h => by
      obtain ⟨hy, hys⟩ := List.nodup_cons.mp hnodup
      rw [List.flatMap_cons]
      by_cases hyx : y = x
      · subst hyx
        have hnone : ys.flatMap f = [] := by
          apply List.flatMap_eq_nil_iff.mpr
          intro z hz
          apply h z (List.mem_cons_of_mem _ hz)
          rintro rfl
          apply hy hz
        rw [hnone, List.append_nil]
      · rw [h y List.mem_cons_self hyx, List.nil_append]
        apply flatMap_of_single hys ((List.mem_cons.mp hx).resolve_left (Ne.symm hyx))
        intro z hz
        apply h z (List.mem_cons_of_mem _ hz)

/-- Two entries in a row of a list given by positions. -/
theorem pair_infix_map_range {f : ℕ → α} {n : ℕ} {a b : α} :
  [a, b] <:+: (List.range n).map f ↔ ∃ i, i + 1 < n ∧ a = f i ∧ b = f (i + 1)
  := by
  constructor
  · rintro ⟨front, back, h⟩
    have hlength := congrArg List.length h
    simp only [List.length_append, List.length_cons, List.length_map, List.length_range,
      List.length_nil] at hlength
    have ha := congrArg (·[front.length]?) h
    have hb := congrArg (·[front.length + 1]?) h
    have hlt : front.length < n := by omega
    have hlt' : front.length + 1 < n := by omega
    simp [hlt, hlt'] at ha hb
    exact ⟨front.length, hlt', ha, hb⟩
  · rintro ⟨i, hi, rfl, rfl⟩
    obtain ⟨k, rfl⟩ := Nat.exists_eq_add_of_lt hi
    use (List.range i).map f, ((List.range k).map (i + 1 + 1 + ·)).map f
    have hsum : i + 1 + k + 1 = i + 1 + 1 + k := by omega
    rw [hsum, List.range_add, List.range_succ, List.range_succ]
    simp

/-- Going through a list by positions. -/
theorem map_range_getElem? (xs : List α) (d : α) (f : α → β) :
  (List.range xs.length).map (fun i => f (xs[i]?.getD d)) = xs.map f
  := by
  apply List.ext_getElem
  · simp
  · intro i hi _
    have hlt : i < xs.length := by simpa using hi
    simp [hlt]

/-! ### Association lists -/

theorem lookup_cons
    {κ ν : Type} [BEq κ] [LawfulBEq κ] [DecidableEq κ] (k l : κ) (v : ν) (ms : List (κ × ν)) :
  ((k, v) :: ms).lookup l = if l = k then some v else ms.lookup l
  := by
  by_cases h : l = k
  · simp [h]
  · rw [List.lookup_cons, beq_false_of_ne h, if_neg h]

theorem mem_of_lookup {κ ν : Type} [DecidableEq κ] {k : κ} {v : ν} {xs : List (κ × ν)}
    (h : xs.lookup k = some v) :
  (k, v) ∈ xs
  := by
  obtain ⟨l₁, l₂, hsplit, -⟩ := List.lookup_eq_some_iff.mp h
  simp [hsplit]

/-- Looking up in the entries with certain keys. -/
theorem lookup_filter {κ ν : Type} [DecidableEq κ] (p : κ → Bool) (k : κ) :
  ∀ ms : List (κ × ν),
    (ms.filter fun e => p e.1).lookup k = if p k then ms.lookup k else none
  | [] => by simp
  | (l, v) :: ms => by
      have ih := lookup_filter p k ms
      by_cases hl : p l
      · rw [List.filter_cons, if_pos hl, lookup_cons, lookup_cons, ih]
        by_cases hkl : k = l
        · rw [if_pos hkl, if_pos hkl, hkl, if_pos hl]
        · rw [if_neg hkl, if_neg hkl]
      · rw [List.filter_cons, if_neg hl, ih, lookup_cons]
        by_cases hkl : k = l
        · rw [hkl, if_neg hl, if_neg hl]
        · rw [if_neg hkl]

/-! ### Collecting without repetition -/

/-- Append `x` unless it is there already. -/
def pushNew {α : Type} [DecidableEq α] (acc : List α) (x : α) : List α :=
  if x ∈ acc then acc else acc ++ [x]

/-- The elements of a list without repetition, in the order of their first occurrence. -/
def firsts {α : Type} [DecidableEq α] (xs : List α) : List α :=
  xs.foldl pushNew []

variable {α : Type} [DecidableEq α]

variable {acc : List α}

theorem mem_pushNew {x y : α} :
  y ∈ pushNew acc x ↔ y ∈ acc ∨ y = x
  := by
  rw [pushNew]
  split
  · constructor
    · apply Or.inl
    · rintro (h | rfl)
      · apply h
      · assumption
  · simp

theorem nodup_pushNew {x : α} (h : acc.Nodup) :
  (pushNew acc x).Nodup
  := by
  rw [pushNew]
  split
  · apply h
  · rename_i hx
    apply List.nodup_append.mpr
    use h, List.nodup_singleton x
    rintro a ha b hb rfl
    obtain rfl := List.mem_singleton.mp hb
    apply hx ha

theorem mem_foldl_pushNew {y : α} :
  ∀ {xs acc : List α}, y ∈ xs.foldl pushNew acc ↔ y ∈ acc ∨ y ∈ xs
  | [], acc => by simp
  | x :: xs, acc => by
      rw [List.foldl_cons, mem_foldl_pushNew, mem_pushNew, List.mem_cons, or_assoc]

theorem nodup_foldl_pushNew :
  ∀ {xs acc : List α}, acc.Nodup → (xs.foldl pushNew acc).Nodup
  | [], _, h => h
  | x :: xs, acc, h => by
      rw [List.foldl_cons]
      apply nodup_foldl_pushNew (nodup_pushNew h)

@[simp]
theorem mem_firsts {xs : List α} {y : α} :
  y ∈ firsts xs ↔ y ∈ xs
  := by
  simp [firsts, mem_foldl_pushNew]

theorem nodup_firsts (xs : List α) :
  (firsts xs).Nodup
  := nodup_foldl_pushNew List.nodup_nil

/-! ### Answers -/

section Answers

variable {α : Type} [DecidableEq α] {asked got : List α}

/-- What has been asked for is in the second list as often as in the first. -/
def Answered (asked got : List α) : Prop :=
  ∀ a ∈ asked, got.count a = asked.count a

/-- If nothing that has been asked for is given too often, it is all given exactly if the number
of other things is the difference of the lengths. -/
theorem answered_iff (hlength : asked.length ≤ got.length) :
  Answered asked got
    ↔ (∀ a ∈ asked, got.count a ≤ asked.count a)
      ∧ (got.filter (· ∉ asked)).length = got.length - asked.length
  := by
  have hsplit : got.length
      = (got.filter (· ∈ asked)).length + (got.filter (· ∉ asked)).length := by
    rw [List.length_eq_length_filter_add (· ∈ asked)]
    simp
  have hcount : ∀ a ∈ asked, (got.filter (· ∈ asked)).count a = got.count a
    := fun a ha => List.count_filter (decide_eq_true ha)
  constructor
  · intro h
    have hperm : (got.filter (· ∈ asked)).Perm asked := by
      rw [List.perm_iff_count]
      intro a
      by_cases ha : a ∈ asked
      · rw [hcount a ha, h a ha]
      · rw [List.count_eq_zero_of_not_mem ha, List.count_eq_zero_of_not_mem]
        simp [ha]
    refine ⟨fun a ha => Nat.le_of_eq (h a ha), ?_⟩
    have := hperm.length_eq
    omega
  · rintro ⟨hle, hothers⟩
    have hsub : (got.filter (· ∈ asked)).Subperm asked := by
      rw [List.subperm_ext_iff]
      intro a ha
      have hasked : a ∈ asked := of_decide_eq_true (List.mem_filter.mp ha).2
      rw [hcount a hasked]
      exact hle a hasked
    have hperm := hsub.perm_of_length_le (by omega)
    intro a ha
    rw [← hcount a ha, List.perm_iff_count.mp hperm a]

end Answers

/-! ### The last of its kind -/

/-- A run of elements and what follows it. -/
theorem while_append {α : Type} {p : α → Bool} {run rest : List α} (hrun : ∀ a ∈ run, p a = true)
    (hrest : ∀ a ∈ rest.head?, p a = false) :
  (run ++ rest).takeWhile p = run ∧ (run ++ rest).dropWhile p = rest
  := by
  rw [List.takeWhile_append_of_pos hrun, List.dropWhile_append_of_pos hrun]
  cases rest with
  | nil => exact ⟨List.append_nil run, rfl⟩
  | cons a rest =>
    have ha : ¬ p a = true := Bool.eq_false_iff.mp (hrest a rfl)
    rw [List.takeWhile_cons_of_neg ha, List.dropWhile_cons_of_neg ha]
    exact ⟨List.append_nil run, rfl⟩

section First

variable {α : Type} {Q R : α → Prop}

/-- An element meets `R`, and all elements before it meet `Q`. -/
def First (Q R : α → Prop) (xs : List α) : Prop :=
  ∃ before x after, xs = before ++ x :: after ∧ (∀ y ∈ before, Q y) ∧ R x

theorem first_cons {x : α} {xs : List α} :
  First Q R (x :: xs) ↔ R x ∨ Q x ∧ First Q R xs
  := by
  constructor
  · rintro ⟨before, y, after, hsplit, hbefore, hy⟩
    cases before with
    | nil =>
      obtain ⟨rfl, -⟩ := List.cons.inj hsplit
      exact .inl hy
    | cons z before =>
      obtain ⟨rfl, rfl⟩ := List.cons.inj hsplit
      obtain ⟨hz, hbefore⟩ := List.forall_mem_cons.mp hbefore
      exact .inr ⟨hz, before, y, after, rfl, hbefore, hy⟩
  · rintro (hx | ⟨hx, before, y, after, rfl, hbefore, hy⟩)
    · exact ⟨[], x, xs, rfl, by simp, hx⟩
    · exact ⟨x :: before, y, after, rfl, List.forall_mem_cons.mpr ⟨hx, hbefore⟩, hy⟩

theorem not_first_nil :
  ¬ First Q R []
  := by
  rintro ⟨before, x, after, hsplit, -⟩
  exact List.append_ne_nil_of_right_ne_nil before (List.cons_ne_nil x after) hsplit.symm

end First

section Lasting

variable {α : Type} {P : List α → α → Prop} {Q : α → Prop}

/-- For some element `P` holds, with the list before it, and for none after it `Q` does. -/
def Lasting (P : List α → α → Prop) (Q : α → Prop) (xs : List α) : Prop :=
  ∃ before x after, xs = before ++ x :: after ∧ P before x ∧ ∀ y ∈ after, ¬ Q y

theorem not_lasting_nil :
  ¬ Lasting P Q []
  := by
  rintro ⟨before, x, after, h, -⟩
  simp at h

theorem lasting_snoc {xs : List α} {a : α} :
  Lasting P Q (xs ++ [a]) ↔ P xs a ∨ ¬ Q a ∧ Lasting P Q xs
  := by
  constructor
  · rintro ⟨before, x, after, h, hx, hafter⟩
    obtain rfl | ⟨rest, b, rfl⟩ := List.eq_nil_or_concat after
    · obtain ⟨rfl, hax⟩ := List.append_inj' h rfl
      obtain rfl := List.singleton_inj.mp hax
      exact .inl hx
    · rw [List.concat_eq_append] at h hafter
      rw [← List.cons_append, ← List.append_assoc] at h
      obtain ⟨rfl, hab⟩ := List.append_inj' h rfl
      obtain rfl := List.singleton_inj.mp hab
      right
      use hafter a (by simp)
      exact ⟨before, x, rest, rfl, hx, fun y hy => hafter y (List.mem_append_left _ hy)⟩
  · rintro (ha | ⟨ha, before, x, after, rfl, hx, hafter⟩)
    · exact ⟨xs, a, [], rfl, ha, by simp⟩
    · refine ⟨before, x, after ++ [a], by simp, hx, ?_⟩
      intro y hy
      obtain hy | hy := List.mem_append.mp hy
      · exact hafter y hy
      · rwa [List.mem_singleton.mp hy]

end Lasting

/-! ### Two lists side by side -/

section ZipWith

variable {α γ δ : Type} {f : α → β → γ} {g : γ → δ}

theorem map_zipWith_sublist_left {h : α → δ} (hf : ∀ a b, g (f a b) = h a) :
  ∀ (xs : List α) (ys : List β), ((List.zipWith f xs ys).map g).Sublist (xs.map h)
  | [], _ => List.nil_sublist _
  | _ :: _, [] => List.nil_sublist _
  | x :: xs, y :: ys => by
      rw [List.zipWith_cons_cons, List.map_cons, List.map_cons, hf]
      exact (map_zipWith_sublist_left hf xs ys).cons_cons _

end ZipWith

/-! ### Windows -/

/-- The first windows of a list make up its first elements. -/
theorem flatMap_windows {α : Type} (xs : List α) (size n : ℕ) :
  (List.range n).flatMap (fun k => (xs.drop (k * size)).take size) = xs.take (n * size)
  := by
  induction n with
  | zero => simp
  | succ n ih =>
    rw [List.range_succ, List.flatMap_append, ih, List.flatMap_singleton, Nat.succ_mul,
      List.take_add]

end Lists
