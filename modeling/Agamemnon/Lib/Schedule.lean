import Mathlib.Data.Finset.Card
import Mathlib.Tactic.Use

/-!
# Schedules driven by notifications

In a network every element has blockers, and an element that succeeds notifies the
elements that watch it.  An element that is notified is sent if all its blockers have
succeeded; nothing else looks at it again.  So an element is reached from the root exactly
when its blockers are reached, succeed, and all notify it: `mem_sent_iff`.  The order in
which the elements finish does not matter.
-/

namespace Schedule

variable {α : Type} [DecidableEq α]

/-- Who blocks an element, and whom it notifies. -/
structure Net (α : Type) where
  blockers : α → List α
  watchers : α → List α

/-- The elements sent so far, and those that have finished. -/
@[ext]
structure State (α : Type) where
  sent : Finset α
  finished : Finset α

namespace Net

section Execution

variable (N : Net α) (ok : α → Bool)

/-- All blockers have finished with success. -/
def ready (s : State α) (c : α) : Bool :=
  (N.blockers c).all fun x => x ∈ s.finished && ok x

/-- Send an element if it is ready. -/
def consider (s : State α) (c : α) : State α :=
  if N.ready ok s c then { s with sent := insert c s.sent } else s

/-- An element finishes; if it succeeds, it notifies its watchers. -/
def finish (s : State α) (a : α) : State α :=
  let s := { s with finished := insert a s.finished }
  if ok a then (N.watchers a).foldl (N.consider ok) s else s

/-- The states that can be reached once the root `r` is sent. -/
inductive Reaches (r : α) : State α → Prop
  | start : Reaches r ⟨{r}, ∅⟩
  | finish {s : State α} {a : α} (reaches : Reaches r s) (sent : a ∈ s.sent)
      (unfinished : a ∉ s.finished) : Reaches r (N.finish ok s a)

/-- All blockers notify the element. -/
def Clean (c : α) : Prop :=
  ∀ x ∈ N.blockers c, c ∈ N.watchers x

/-- A blocker that does not notify the element is itself blocked by all that do. -/
def Late (c : α) : Prop :=
  ∃ y ∈ N.blockers c, c ∉ N.watchers y ∧ ∀ x, c ∈ N.watchers x → x ∈ N.blockers y

/-- The elements that are reached from the root. -/
inductive Runs (r : α) : α → Prop
  | root : Runs r r
  | step {c : α} (clean : N.Clean c) (blocked : N.blockers c ≠ [])
      (runs : ∀ x ∈ N.blockers c, Runs r x) (succeeds : ∀ x ∈ N.blockers c, ok x = true) :
      Runs r c

end Execution

variable {N : Net α} {ok : α → Bool} {s : State α} {r a c : α}

theorem ready_iff :
  N.ready ok s c = true ↔ ∀ x ∈ N.blockers c, x ∈ s.finished ∧ ok x = true
  := by
  simp [ready]

/-- Considering elements sends those that are ready. -/
theorem considerAll :
  ∀ (cs : List α) (s : State α),
    (cs.foldl (N.consider ok) s).finished = s.finished
    ∧ ∀ c, c ∈ (cs.foldl (N.consider ok) s).sent
        ↔ c ∈ s.sent ∨ c ∈ cs ∧ N.ready ok s c = true
  | [], s => by simp
  | d :: cs, s => by
      obtain ⟨hfinished, hsent⟩ := considerAll cs (N.consider ok s d)
      have hd : (N.consider ok s d).finished = s.finished := by
        rw [consider]
        split <;> rfl
      have hready : ∀ c, N.ready ok (N.consider ok s d) c = N.ready ok s c := by
        intro c
        rw [ready, hd]
        rfl
      use hfinished.trans hd
      intro c
      rw [List.foldl_cons, hsent, hready, consider]
      split
      · rename_i h
        simp only [Finset.mem_insert, List.mem_cons]
        constructor
        · rintro ((rfl | hc) | hc)
          · apply Or.inr ⟨Or.inl rfl, h⟩
          · apply Or.inl hc
          · apply Or.inr ⟨Or.inr hc.1, hc.2⟩
        · rintro (hc | ⟨rfl | hc, h'⟩)
          · apply Or.inl (Or.inr hc)
          · apply Or.inl (Or.inl rfl)
          · apply Or.inr ⟨hc, h'⟩
      · rename_i h
        simp only [List.mem_cons]
        constructor
        · rintro (hc | hc)
          · apply Or.inl hc
          · apply Or.inr ⟨Or.inr hc.1, hc.2⟩
        · rintro (hc | ⟨rfl | hc, h'⟩)
          · apply Or.inl hc
          · apply absurd h' h
          · apply Or.inr ⟨hc, h'⟩

@[simp]
theorem finished_finish :
  (N.finish ok s a).finished = insert a s.finished
  := by
  rw [finish]
  split
  · apply (considerAll _ _).1
  · rfl

theorem mem_sent_finish :
  c ∈ (N.finish ok s a).sent
    ↔ c ∈ s.sent ∨ ok a = true ∧ c ∈ N.watchers a
        ∧ ∀ x ∈ N.blockers c, x ∈ insert a s.finished ∧ ok x = true
  := by
  rw [finish]
  split
  · rename_i hok
    rw [(considerAll _ _).2, ready_iff]
    simp [hok]
  · rename_i hok
    simp [hok]

/-! ### What is reached -/

/-- The network has the root `r`, and watching is being blocked. -/
structure Rooted (N : Net α) (r : α) : Prop where
  root : N.blockers r = []
  blocked : ∀ {a c}, c ∈ N.watchers a → a ∈ N.blockers c
  dichotomy : ∀ {a c}, c ∈ N.watchers a → N.Clean c ∨ N.Late c

/-- What holds in all states that are reached. -/
structure Inv (N : Net α) (ok : α → Bool) (r : α) (s : State α) : Prop where
  root : r ∈ s.sent
  finished : s.finished ⊆ s.sent
  /-- The blockers of what has been sent have succeeded. -/
  clear : ∀ c ∈ s.sent, ∀ x ∈ N.blockers c, x ∈ s.finished ∧ ok x = true
  /-- What is notified by all its blockers is sent when these have succeeded. -/
  prompt : ∀ c, N.Clean c → N.blockers c ≠ [] →
    (∀ x ∈ N.blockers c, x ∈ s.finished ∧ ok x = true) → c ∈ s.sent
  runs : ∀ c ∈ s.sent, N.Runs ok r c

omit [DecidableEq α] in
theorem inv_start (hN : N.Rooted r) :
  N.Inv ok r ⟨{r}, ∅⟩
  where
  root := Finset.mem_singleton_self r
  finished := Finset.empty_subset _
  clear := by
    intro c hc x hx
    rw [Finset.mem_singleton.mp hc, hN.root] at hx
    contradiction
  prompt := by
    intro c _ hblocked h
    obtain ⟨x, hx⟩ := List.exists_mem_of_ne_nil _ hblocked
    apply absurd (h x hx).1 (Finset.notMem_empty x)
  runs := by
    intro c hc
    rw [Finset.mem_singleton.mp hc]
    apply Runs.root

/-- An element that is sent is notified by all its blockers: one that is late waits for a
blocker that is blocked by the element that has just finished. -/
theorem Inv.clean_of_sent (h : N.Inv ok r s) (hN : N.Rooted r) (ha : a ∉ s.finished)
    (hc : c ∈ N.watchers a) (hready : ∀ x ∈ N.blockers c, x ∈ insert a s.finished ∧ ok x = true) :
  N.Clean c
  := by
  rcases hN.dichotomy hc with hclean | ⟨y, hy, hquiet, hlate⟩
  · apply hclean
  · exfalso
    apply ha
    rcases Finset.mem_insert.mp (hready y hy).1 with rfl | hfinished
    · apply absurd hc hquiet
    · apply (h.clear y (h.finished hfinished) a (hlate a hc)).1

theorem Inv.finish (h : N.Inv ok r s) (hN : N.Rooted r) (hsent : a ∈ s.sent) (ha : a ∉ s.finished) :
  N.Inv ok r (N.finish ok s a)
  where
  root := mem_sent_finish.mpr (Or.inl h.root)
  finished := by
    intro c hc
    rw [finished_finish] at hc
    apply mem_sent_finish.mpr
    left
    rcases Finset.mem_insert.mp hc with rfl | hc
    · apply hsent
    · apply h.finished hc
  clear := by
    intro c hc x hx
    rw [finished_finish]
    rcases mem_sent_finish.mp hc with hc | ⟨-, -, hready⟩
    · obtain ⟨hfinished, hok⟩ := h.clear c hc x hx
      exact ⟨Finset.mem_insert_of_mem hfinished, hok⟩
    · apply hready x hx
  prompt := by
    intro c hclean hblocked hready
    rw [finished_finish] at hready
    apply mem_sent_finish.mpr
    by_cases hac : a ∈ N.blockers c
    · right
      exact ⟨(hready a hac).2, hclean a hac, hready⟩
    · left
      apply h.prompt c hclean hblocked
      intro x hx
      obtain ⟨hfinished, hok⟩ := hready x hx
      rcases Finset.mem_insert.mp hfinished with rfl | hfinished
      · contradiction
      · exact ⟨hfinished, hok⟩
  runs := by
    intro c hc
    rcases mem_sent_finish.mp hc with hc | ⟨-, hwatch, hready⟩
    · apply h.runs c hc
    · apply Runs.step (h.clean_of_sent hN ha hwatch hready)
      · apply List.ne_nil_of_mem (hN.blocked hwatch)
      · intro x hx
        rcases Finset.mem_insert.mp (hready x hx).1 with rfl | hx
        · apply h.runs x hsent
        · apply h.runs x (h.finished hx)
      · intro x hx
        apply (hready x hx).2

theorem Reaches.inv (hN : N.Rooted r) (h : N.Reaches ok r s) :
  N.Inv ok r s
  := by
  induction h with
  | start => apply inv_start hN
  | finish _ sent unfinished ih => apply ih.finish hN sent unfinished

/-- When all that has been sent has finished, what is reached from the root has been sent,
and nothing else has. -/
theorem mem_sent_iff (hN : N.Rooted r) (h : N.Reaches ok r s) (hfinished : s.sent ⊆ s.finished) :
  c ∈ s.sent ↔ N.Runs ok r c
  := by
  have hinv := h.inv hN
  constructor
  · apply hinv.runs
  · intro hc
    induction hc with
    | root => apply hinv.root
    | step clean blocked _ succeeds ih =>
      apply hinv.prompt _ clean blocked
      intro x hx
      exact ⟨hfinished (ih x hx), succeeds x hx⟩

/-- All states in which all that has been sent has finished are the same. -/
theorem Reaches.unique {s' : State α} (hN : N.Rooted r) (h : N.Reaches ok r s)
    (hfinished : s.sent ⊆ s.finished) (h' : N.Reaches ok r s')
    (hfinished' : s'.sent ⊆ s'.finished) :
  s = s'
  := by
  have hsent : s.sent = s'.sent := by
    ext c
    rw [mem_sent_iff hN h hfinished, mem_sent_iff hN h' hfinished']
  have heq : s.finished = s.sent := (h.inv hN).finished.antisymm hfinished
  have heq' : s'.finished = s'.sent := (h'.inv hN).finished.antisymm hfinished'
  ext c
  · rw [hsent]
  · rw [heq, heq', hsent]

/-- Where elements can be made to finish one by one, and there are finitely many, all that
has been sent is made to finish. -/
theorem exists_finished {P : State α → Prop} {all : Finset α}
    (hstep : ∀ s a, P s → a ∈ s.sent → a ∉ s.finished → P (N.finish ok s a))
    (hall : ∀ s, P s → s.sent ⊆ all) (hs : P s) :
  ∃ s', P s' ∧ s'.sent ⊆ s'.finished
  := by
  induction h : (all \ s.finished).card using Nat.strong_induction_on generalizing s with
  | _ n ih =>
    by_cases hfinished : s.sent ⊆ s.finished
    · use s, hs
    · obtain ⟨a, ha, hunfinished⟩ := Finset.not_subset.mp hfinished
      apply ih _ _ (hstep s a hs ha hunfinished) rfl
      rw [← h, finished_finish]
      apply Finset.card_lt_card
      apply Finset.ssubset_iff_subset_ne.mpr
      constructor
      · intro x hx
        simp only [Finset.mem_sdiff, Finset.mem_insert, not_or] at hx ⊢
        exact ⟨hx.1, hx.2.2⟩
      · intro heq
        have hmem : a ∈ all \ s.finished := Finset.mem_sdiff.mpr ⟨hall s hs ha, hunfinished⟩
        rw [← heq] at hmem
        simp at hmem

end Net

end Schedule
