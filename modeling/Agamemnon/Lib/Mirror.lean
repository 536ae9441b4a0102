import Agamemnon.Lib.Lists
import Mathlib.Data.Finmap
import Mathlib.Tactic.Use

/-!
# Mirrors

A map is mirrored by records when every entry is held by one record.  The operations on the
map that also write a record keep the mirror, and the map can be rebuilt from the records, in
whatever order they are read.
-/

variable {κ ν α : Type} [DecidableEq κ]

theorem lookup_insert_iff {m : Finmap fun _ : κ => α} {k k' : κ} {a a' : α} :
  (m.insert k a).lookup k' = some a' ↔ k' = k ∧ a = a' ∨ k' ≠ k ∧ m.lookup k' = some a'
  := by
  by_cases hk : k' = k
  · subst hk
    simp [Finmap.lookup_insert]
  · simp [Finmap.lookup_insert_of_ne _ hk, hk]

/-- What holds of a new entry and of all others holds of all entries. -/
theorem forall_lookup_insert {m : Finmap fun _ : κ => α} {k : κ} {a : α} {P : κ → α → Prop}
    (hk : P k a) (h : ∀ {k' a'}, m.lookup k' = some a' → P k' a') :
  ∀ {k' a'}, (m.insert k a).lookup k' = some a' → P k' a'
  := by
  intro k' a' ha'
  rcases lookup_insert_iff.mp ha' with ⟨rfl, rfl⟩ | ⟨-, ha'⟩
  · exact hk
  · exact h ha'

theorem lookup_erase_iff {m : Finmap fun _ : κ => α} {k k' : κ} {a : α} :
  (m.erase k).lookup k' = some a ↔ k' ≠ k ∧ m.lookup k' = some a
  := by
  by_cases hk : k' = k
  · subst hk
    simp [Finmap.lookup_erase]
  · simp [Finmap.lookup_erase_ne hk, hk]

theorem update_eq_iff {f : κ → α} {k k' : κ} {a a' : α} :
  Function.update f k a k' = a' ↔ k' = k ∧ a = a' ∨ k' ≠ k ∧ f k' = a'
  := by
  by_cases hk : k' = k
  · subst hk
    simp
  · simp [hk]

/-- The record `n` holds the entry `f n`, if any.  The records hold the entries of `m`, each of
them once. -/
structure Mirror (m : Finmap fun _ : κ => α) (f : ν → Option (κ × α)) : Prop where
  exists_record : ∀ {k a}, m.lookup k = some a → ∃ n, f n = some (k, a)
  lookup : ∀ {n k a}, f n = some (k, a) → m.lookup k = some a
  unique : ∀ {n n' k a a'}, f n = some (k, a) → f n' = some (k, a') → n = n'

variable {m : Finmap fun _ : κ => α} {f : ν → Option (κ × α)} {n : ν} {k : κ} {a a' : α}

namespace Mirror

/-- No entry and no record. -/
theorem empty :
  Mirror (∅ : Finmap fun _ : κ => α) (fun _ : ν => none)
  where
  exists_record := by
    intro k a h
    rw [Finmap.lookup_empty] at h
    contradiction
  lookup := by
    intro n k a h
    contradiction
  unique := by
    intro n n' k a a' h
    contradiction

/-! ### Writing a record -/

variable [DecidableEq ν]

/-- Write an entry to a record that holds no other key, when no other record holds the key. -/
theorem put (h : Mirror m f) (hother : ∀ i b, i ≠ n → f i ≠ some (k, b))
    (hold : ∀ k' b, f n = some (k', b) → k' = k) :
  Mirror (m.insert k a) (Function.update f n (some (k, a)))
  where
  exists_record := by
    intro k' b hk
    rw [lookup_insert_iff] at hk
    rcases hk with ⟨rfl, rfl⟩ | ⟨heq, hk⟩
    · use n
      apply Function.update_self
    · obtain ⟨i, hi⟩ := h.exists_record hk
      use i
      rw [Function.update_of_ne _, hi]
      rintro rfl
      apply heq (hold k' b hi)
  lookup := by
    intro i k' b hi
    rw [update_eq_iff] at hi
    rcases hi with ⟨rfl, heq⟩ | ⟨hin, hi⟩
    · obtain ⟨rfl, rfl⟩ := Prod.mk.inj (Option.some.inj heq)
      apply Finmap.lookup_insert
    · rw [Finmap.lookup_insert_of_ne, h.lookup hi]
      rintro rfl
      apply hother i b hin hi
  unique := by
    intro i i' k' b b' hi hi'
    rw [update_eq_iff] at hi
    rcases hi with ⟨rfl, heq⟩ | ⟨hin, hi⟩
    · obtain ⟨rfl, rfl⟩ := Prod.mk.inj (Option.some.inj heq)
      rw [update_eq_iff] at hi'
      rcases hi' with ⟨rfl, -⟩ | ⟨hin', hi'⟩
      · rfl
      · exact absurd hi' (hother i' b' hin')
    · rw [update_eq_iff] at hi'
      rcases hi' with ⟨rfl, heq⟩ | ⟨hin', hi'⟩
      · obtain ⟨rfl, rfl⟩ := Prod.mk.inj (Option.some.inj heq)
        exact absurd hi (hother i b hin)
      · apply h.unique hi hi'

/-- A new entry and a record for it. -/
theorem add (h : Mirror m f) (hn : f n = none) (hk : m.lookup k = none) (a : α) :
  Mirror (m.insert k a) (Function.update f n (some (k, a)))
  := by
  apply h.put
  · intro i b _ hi
    rw [h.lookup hi] at hk
    contradiction
  · intro k' b hn'
    rw [hn'] at hn
    contradiction

/-- A new value for an entry, in the same record. -/
theorem rewrite (h : Mirror m f) (hn : f n = some (k, a)) (a' : α) :
  Mirror (m.insert k a') (Function.update f n (some (k, a')))
  := by
  apply h.put
  · intro i b hin hi
    apply hin (h.unique hi hn)
  · intro k' b hn'
    exact (Prod.mk.inj (Option.some.inj (hn'.symm.trans hn))).1

/-- An entry and its record are dropped. -/
theorem remove (h : Mirror m f) (hn : f n = some (k, a)) :
  Mirror (m.erase k) (Function.update f n none)
  where
  exists_record := by
    intro k' b hk
    obtain ⟨heq, hk⟩ := lookup_erase_iff.mp hk
    obtain ⟨i, hi⟩ := h.exists_record hk
    use i
    rw [Function.update_of_ne _, hi]
    rintro rfl
    apply heq
    exact (Prod.mk.inj (Option.some.inj (hi.symm.trans hn))).1
  lookup := by
    intro i k' b hi
    rw [update_eq_iff] at hi
    rcases hi with ⟨-, hi⟩ | ⟨hin, hi⟩
    · contradiction
    · rw [Finmap.lookup_erase_ne, h.lookup hi]
      rintro rfl
      apply hin (h.unique hi hn)
  unique := by
    intro i i' k' b b' hi hi'
    have hkept : ∀ {j e}, Function.update f n none j = some e → f j = some e := by
      intro j e hj
      rw [update_eq_iff] at hj
      rcases hj with ⟨-, hj⟩ | ⟨-, hj⟩
      · contradiction
      · exact hj
    apply h.unique (hkept hi) (hkept hi')

end Mirror

/-- To insert a value changes the map, unless it is stored. -/
theorem insert_eq_self :
  m.insert k a = m ↔ m.lookup k = some a
  := by
  constructor
  · intro heq
    rw [← heq, Finmap.lookup_insert]
  · intro h
    apply Finmap.ext_lookup
    intro k'
    by_cases hk : k' = k
    · rw [hk, Finmap.lookup_insert, h]
    · rw [Finmap.lookup_insert_of_ne _ hk]

/-! ### Reading the records -/

/-- The map with the entries `es`, inserted in turn. -/
def replay (es : List (κ × α)) (m : Finmap fun _ : κ => α) : Finmap fun _ : κ => α :=
  es.foldl (fun m e => m.insert e.1 e.2) m

theorem lookup_replay_of_not_mem :
  ∀ {es : List (κ × α)} {m : Finmap fun _ : κ => α}, k ∉ es.map (·.1) →
    (replay es m).lookup k = m.lookup k
  | [], _, _ => rfl
  | e :: es, m, hk => by
      rw [List.map_cons, List.mem_cons, not_or] at hk
      apply (lookup_replay_of_not_mem hk.2).trans
      apply Finmap.lookup_insert_of_ne _ hk.1

theorem lookup_replay_of_mem :
  ∀ {es : List (κ × α)} {m : Finmap fun _ : κ => α}, (es.map (·.1)).Nodup → (k, a) ∈ es →
    (replay es m).lookup k = some a
  | e :: es, m, hnodup, hmem => by
      obtain ⟨he, hnodup⟩ := List.nodup_cons.mp hnodup
      rcases List.mem_cons.mp hmem with rfl | hmem
      · apply (lookup_replay_of_not_mem he).trans
        apply Finmap.lookup_insert
      · apply lookup_replay_of_mem hnodup hmem

/-- The record `n` is the last one with the key `k`, and holds `a`. -/
def LastHeld (f : ν → Option (κ × α)) (ns : List ν) (k : κ) (a : α) : Prop :=
  ∃ front n back, ns = front ++ n :: back ∧ f n = some (k, a)
    ∧ ∀ n' ∈ back, ∀ a', f n' ≠ some (k, a')

variable {ns : List ν}

omit [DecidableEq κ] in
theorem lastHeld_concat :
  LastHeld f (ns ++ [n]) k a
    ↔ f n = some (k, a) ∨ (∀ a', f n ≠ some (k, a')) ∧ LastHeld f ns k a
  := by
  have hlasting (ns : List ν) : LastHeld f ns k a
      ↔ Lists.Lasting (fun _ n => f n = some (k, a)) (fun n => ∃ a', f n = some (k, a')) ns := by
    simp [LastHeld, Lists.Lasting]
  rw [hlasting, hlasting, Lists.lasting_snoc, not_exists]

/-- After the records have been read in turn, the last one with a key has its value. -/
theorem lookup_replay_filterMap :
  (replay (ns.filterMap f) ∅).lookup k = some a ↔ LastHeld f ns k a
  := by
  induction ns using List.reverseRecOn generalizing a with
  | nil =>
    constructor
    · intro h
      rw [List.filterMap_nil, replay, List.foldl_nil, Finmap.lookup_empty] at h
      contradiction
    · rintro ⟨front, n, back, hns, -⟩
      simp at hns
  | append_singleton ns n ih =>
    rw [lastHeld_concat, ← ih, List.filterMap_append, List.filterMap_cons, List.filterMap_nil]
    cases hn : f n with
    | none => simp
    | some e =>
      obtain ⟨k', a'⟩ := e
      rw [replay, List.foldl_append, List.foldl_cons, List.foldl_nil]
      by_cases hk : k = k'
      · subst hk
        rw [Finmap.lookup_insert]
        simp
      · rw [Finmap.lookup_insert_of_ne _ hk, ← replay]
        simp [Ne.symm hk]

namespace Mirror

theorem nodup_keys (h : Mirror m f) :
  ∀ {ns : List ν}, ns.Nodup → ((ns.filterMap f).map (·.1)).Nodup
  | [], _ => List.nodup_nil
  | n :: ns, hnodup => by
      obtain ⟨hn, hnodup⟩ := List.nodup_cons.mp hnodup
      rw [List.filterMap_cons]
      split
      · apply h.nodup_keys hnodup
      · rename_i e he
        rw [List.map_cons, List.nodup_cons]
        refine ⟨?_, h.nodup_keys hnodup⟩
        intro hmem
        obtain ⟨e', he', hkey⟩ := List.mem_map.mp hmem
        obtain ⟨n', hn', hf⟩ := List.mem_filterMap.mp he'
        have hf' : f n' = some (e.1, e'.2) := by rw [hf, ← hkey]
        obtain rfl : n = n' := h.unique he hf'
        contradiction

/-- The map is rebuilt from the records, in whatever order they are read. -/
theorem replay_eq (h : Mirror m f) (hnodup : ns.Nodup) (hns : ∀ n, f n ≠ none → n ∈ ns) :
  replay (ns.filterMap f) ∅ = m
  := by
  apply Finmap.ext_lookup
  intro k
  cases hk : m.lookup k with
  | some a =>
    obtain ⟨n, hn⟩ := h.exists_record hk
    apply lookup_replay_of_mem (h.nodup_keys hnodup)
    apply List.mem_filterMap.mpr
    use n
    constructor
    · apply hns
      rw [hn]
      apply Option.some_ne_none
    · exact hn
  | none =>
    rw [lookup_replay_of_not_mem, Finmap.lookup_empty]
    intro hmem
    obtain ⟨⟨k', a⟩, he, rfl⟩ := List.mem_map.mp hmem
    obtain ⟨n, -, hn⟩ := List.mem_filterMap.mp he
    rw [h.lookup hn] at hk
    contradiction

end Mirror
