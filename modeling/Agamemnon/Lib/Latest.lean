import Mathlib.Order.Lattice
import Mathlib.Tactic.Use

/-!
# Last writer wins

A register takes a write when the write is newer than what the register holds.  What it holds
after a list of writes is the newest of them, or what it held at first when none is newer.
Where different writes have different times, neither the order of the writes nor their
repetition matters.
-/

namespace Latest

variable {σ ε τ : Type} [LinearOrder τ] (rank : σ → τ) (time : ε → τ) (value : ε → σ)

/-- Write `e` to a register that holds `s`. -/
def write (s : σ) (e : ε) : σ :=
  if rank s < time e then value e else s

/-- The register held `s`, and holds `r` after the writes `es`. -/
inductive Winner (s : σ) (es : List ε) : σ → Prop
  | newest {e : ε} (mem : e ∈ es) (newer : rank s < time e)
      (greatest : ∀ e' ∈ es, time e' ≤ time e) : Winner s es (value e)
  | first (newest : ∀ e ∈ es, time e ≤ rank s) : Winner s es s

variable {rank time value} {s r r' : σ} {es es' : List ε}

/-- What a register holds never gets older. -/
theorem rank_le_write {e : ε} (hvalue : rank (value e) = time e) :
  rank s ≤ rank (write rank time value s e)
  := by
  rw [write]
  split
  · rename_i h
    rw [hvalue]
    exact h.le
  · rfl

/-- One more write in front. -/
theorem Winner.cons {e : ε} (hvalue : rank (value e) = time e)
    (h : Winner rank time value (write rank time value s e) es r) :
  Winner rank time value s (e :: es) r
  := by
  have hrank := rank_le_write (s := s) hvalue
  cases h with
  | @newest f mem newer greatest =>
    apply Winner.newest (List.mem_cons_of_mem e mem) (hrank.trans_lt newer)
    intro f' hf'
    rcases List.mem_cons.mp hf' with rfl | hf'
    · rw [write] at newer
      split at newer
      · rw [← hvalue]
        exact newer.le
      · rename_i hold
        exact (not_lt.mp hold).trans newer.le
    · exact greatest f' hf'
  | first newest =>
    rw [write] at newest ⊢
    split at newest
    · rename_i hnew
      rw [if_pos hnew]
      apply Winner.newest List.mem_cons_self hnew
      intro f' hf'
      rcases List.mem_cons.mp hf' with rfl | hf'
      · rfl
      · rw [← hvalue]
        exact newest f' hf'
    · rename_i hold
      rw [if_neg hold]
      apply Winner.first
      intro f' hf'
      rcases List.mem_cons.mp hf' with rfl | hf'
      · exact not_lt.mp hold
      · exact newest f' hf'

/-- After a list of writes the register holds the newest of them. -/
theorem winner_foldl (hvalue : ∀ e ∈ es, rank (value e) = time e) :
  Winner rank time value s es (es.foldl (write rank time value) s)
  := by
  induction es generalizing s with
  | nil =>
    apply Winner.first
    simp
  | cons e es ih =>
    apply Winner.cons (hvalue e List.mem_cons_self)
    apply ih
    intro f hf
    exact hvalue f (List.mem_cons_of_mem e hf)

/-- The same writes in another order, or some of them more often, leave the same. -/
theorem Winner.unique (htime : ∀ e ∈ es, ∀ e' ∈ es, time e = time e' → e = e')
    (hmem : ∀ e, e ∈ es' ↔ e ∈ es) (h : Winner rank time value s es r)
    (h' : Winner rank time value s es' r') :
  r = r'
  := by
  cases h with
  | @newest e mem newer greatest =>
    cases h' with
    | @newest e' mem' newer' greatest' =>
      have hmem' := (hmem e').mp mem'
      have htimes := (greatest' e ((hmem e).mpr mem)).antisymm (greatest e' hmem')
      rw [htime e mem e' hmem' htimes]
    | first newest' => cases newer.not_ge (newest' e ((hmem e).mpr mem))
  | first newest =>
    cases h' with
    | @newest e' mem' newer' greatest' => cases newer'.not_ge (newest e' ((hmem e').mp mem'))
    | first newest' => rfl

end Latest
