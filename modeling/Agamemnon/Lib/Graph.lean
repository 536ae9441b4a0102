import Mathlib.Data.Fintype.Card
import Mathlib.Data.Set.Finite.Basic
import Mathlib.Logic.Relation
import Mathlib.Order.Basic

/-!
# Acyclic relations

A relation is acyclic if no element is related to itself by a path.  Acyclicity is
inherited along maps that send an edge to an edge, or to no edge at all while a rank
goes down; it is inherited from the edges along which a rank stays the same; and it is
the same for a relation and its image under an injection.

A graph given by lists of successors is acyclic if its nodes can be listed with the successors
of each node after it: `Finished.acyclic`.  It is not if it has a closed walk:
`ClosedWalk.not_acyclic`.
-/

namespace Graph

open Relation TransGen

variable {α β γ : Type} {r : α → α → Prop} {s : β → β → Prop}

/-- No element is related to itself by a path. -/
def Acyclic (r : α → α → Prop) : Prop :=
  ∀ a, ¬ TransGen r a a

variable {a : α} {t : α → α → Prop}

/-- Along a path the rank goes down, unless all edges of the path keep it. -/
theorem rank_of_path [Preorder γ] (rank : α → γ)
    (h : ∀ a b, r a b → rank b < rank a ∨ rank b = rank a ∧ t a b) {b : α} (hab : TransGen r a b) :
  rank b < rank a ∨ rank b = rank a ∧ TransGen t a b
  := by
  induction hab with
  | single hb =>
    rcases h _ _ hb with hlt | ⟨heq, ht⟩
    · apply Or.inl hlt
    · apply Or.inr ⟨heq, single ht⟩
  | tail _ hbc ih =>
    rcases h _ _ hbc with hlt | ⟨heq, ht⟩
    · rcases ih with hlt' | ⟨heq', -⟩
      · apply Or.inl (hlt.trans hlt')
      · apply Or.inl (heq' ▸ hlt)
    · rcases ih with hlt' | ⟨heq', hpath⟩
      · apply Or.inl (heq ▸ hlt')
      · apply Or.inr ⟨heq.trans heq', hpath.tail ht⟩

/-- A relation along which a rank does not go up is acyclic if its edges that keep the
rank are. -/
theorem Acyclic.of_rank [Preorder γ] (ht : Acyclic t) (rank : α → γ)
    (h : ∀ a b, r a b → rank b < rank a ∨ rank b = rank a ∧ t a b) :
  Acyclic r
  := by
  intro a haa
  rcases rank_of_path rank h haa with hlt | ⟨-, hpath⟩
  · apply lt_irrefl _ hlt
  · apply ht a hpath

/-- Along a path its image is a path, or stays where it is while the rank goes down. -/
theorem image_of_path (f : α → β) (rank : α → ℕ)
    (h : ∀ a b, r a b → s (f a) (f b) ∨ f a = f b ∧ rank b < rank a) {a b : α}
    (hab : TransGen r a b) :
  TransGen s (f a) (f b) ∨ f a = f b ∧ rank b < rank a
  := by
  induction hab with
  | single hb =>
    rcases h _ _ hb with hs | hrank
    · apply Or.inl (single hs)
    · apply Or.inr hrank
  | tail _ hbc ih =>
    rcases h _ _ hbc with hs | ⟨heq, hlt⟩
    · rcases ih with hpath | ⟨heq', -⟩
      · apply Or.inl (hpath.tail hs)
      · rw [heq']
        apply Or.inl (single hs)
    · rcases ih with hpath | ⟨heq', hlt'⟩
      · rw [← heq]
        apply Or.inl hpath
      · apply Or.inr ⟨heq'.trans heq, Nat.lt_trans hlt hlt'⟩

/-- A relation is acyclic if its image under a map is, where the map may contract edges
along which a rank goes down. -/
theorem Acyclic.of_map (hs : Acyclic s) (f : α → β) (rank : α → ℕ)
    (h : ∀ a b, r a b → s (f a) (f b) ∨ f a = f b ∧ rank b < rank a) :
  Acyclic r
  := by
  intro a haa
  rcases image_of_path f rank h haa with hpath | ⟨-, hlt⟩
  · apply hs _ hpath
  · apply Nat.lt_irrefl _ hlt

/-- A relation is acyclic if each of its edges is a path of an acyclic relation. -/
theorem Acyclic.of_path (ht : Acyclic t) (h : ∀ a b, r a b → TransGen t a b) :
  Acyclic r
  := by
  intro a haa
  apply ht a
  apply closed h a a haa

/-- Along an acyclic relation a property of the elements of a list is proved by induction. -/
theorem Acyclic.induction (hr : Acyclic r) {l : List α} {P : α → Prop}
    (hstep : ∀ a ∈ l, (∀ b ∈ l, r a b → P b) → P a) :
  ∀ a ∈ l, P a
  := by
  let below : {a // a ∈ l} → {a // a ∈ l} → Prop := fun b a => TransGen r a.1 b.1
  have hfinite : Finite {a // a ∈ l} := List.finite_toSet l
  have htrans : IsTrans _ below := ⟨fun _ _ _ hba hcb => hcb.trans hba⟩
  have hirrefl : Std.Irrefl below := ⟨fun a => hr a.1⟩
  have hwf : WellFounded below := Finite.wellFounded_of_trans_of_irrefl below
  intro a ha
  induction h : (⟨a, ha⟩ : {a // a ∈ l}) using hwf.induction generalizing a with
  | _ x ih =>
    subst h
    apply hstep a ha
    intro b hb hab
    apply ih ⟨b, hb⟩ (single hab) b hb rfl

/-- Where the edges from the image of `a` come from edges from `a`, so do the paths. -/
theorem path_of_image {f : α → β} (hback : ∀ a y, s (f a) y → ∃ b, f b = y ∧ r a b) {y : β}
    (h : TransGen s (f a) y) :
  ∃ b, f b = y ∧ TransGen r a b
  := by
  induction h with
  | single hy =>
    obtain ⟨b, rfl, hb⟩ := hback a _ hy
    exact ⟨b, rfl, single hb⟩
  | tail _ hyz ih =>
    obtain ⟨b, rfl, hb⟩ := ih
    obtain ⟨c, rfl, hc⟩ := hback b _ hyz
    exact ⟨c, rfl, hb.tail hc⟩

/-! ### Lists of successors -/

variable {succ : α → List α}

/-- The successors of every node of the list stand after it. -/
def Finished (succ : α → List α) : List α → Prop
  | [] => True
  | a :: as => (∀ b ∈ succ a, b ∈ as) ∧ Finished succ as

theorem Finished.mem_of_edge :
  ∀ {as : List α} {a b : α}, Finished succ as → a ∈ as → b ∈ succ a → b ∈ as
  | c :: as, a, b, ⟨hfirst, hrest⟩, ha, hb => by
      rcases List.mem_cons.mp ha with rfl | ha
      · apply List.mem_cons_of_mem _ (hfirst b hb)
      · apply List.mem_cons_of_mem _ (hrest.mem_of_edge ha hb)

variable {as : List α}

/-- What can be reached from the first node stands after it. -/
theorem Finished.mem_of_path {a b : α} (h : Finished succ (a :: as))
    (hab : TransGen (fun a b => b ∈ succ a) a b) :
  b ∈ as
  := by
  induction hab with
  | single hb => apply h.1 _ hb
  | tail _ hbc ih => apply h.2.mem_of_edge ih hbc

theorem Finished.not_path :
  ∀ {as : List α} {a : α}, Finished succ as → a ∈ as → ¬ TransGen (fun a b => b ∈ succ a) a a
  | b :: as, a, h, ha, hpath => by
      have hmem : a ∈ as := by
        rcases List.mem_cons.mp ha with rfl | ha
        · apply h.mem_of_path hpath
        · exact ha
      apply h.2.not_path hmem hpath

/-- If every node with a successor is in such a list, then the graph is acyclic. -/
theorem Finished.acyclic (h : Finished succ as) (hall : ∀ a b, b ∈ succ a → a ∈ as) :
  Acyclic fun a b => b ∈ succ a
  := by
  intro a hpath
  obtain ⟨b, hab, -⟩ := head'_iff.mp hpath
  apply h.not_path (hall a b hab) hpath

/-- A walk from a node to itself that visits no other node twice. -/
def ClosedWalk (succ : α → List α) (path : List α) : Prop :=
  ∃ a mid, path = a :: (mid ++ [a]) ∧ (a :: mid).Nodup ∧ path.IsChain fun a b => b ∈ succ a

/-- The ends of a walk are connected. -/
theorem path_of_isChain {b : α} :
  ∀ {mid : List α} {a : α}, (a :: (mid ++ [b])).IsChain r → TransGen r a b
  | [], _, h => single (List.isChain_cons_cons.mp h).1
  | _ :: _, _, h =>
      have ⟨hfirst, hrest⟩ := List.isChain_cons_cons.mp h
      head hfirst (path_of_isChain hrest)

theorem ClosedWalk.not_acyclic {path : List α} (h : ClosedWalk succ path) :
  ¬ Acyclic fun a b => b ∈ succ a
  := by
  obtain ⟨a, mid, rfl, -, hchain⟩ := h
  intro hacyclic
  apply hacyclic a (path_of_isChain hchain)

end Graph
