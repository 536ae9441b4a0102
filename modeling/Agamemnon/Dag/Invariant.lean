import Agamemnon.Dag.Walker
import Mathlib.Data.List.Chain

/-!
# The invariant of the search

The gray nodes are those with an entry `(node, true)` on the stack, and each of them is a
dependency and a child of the next.  Above the entry of a gray node lie the dependencies it has
still to see.  While a node is white, all its entries are on the stack, and its parent is the
node that pushed the topmost of them.
-/

namespace Agamemnon.Dag

open Graph Function

/-- The nodes that wait on the stack for their dependencies, the latest first. -/
def grays : List (String × Bool) → List String
  | [] => []
  | (node, true) :: stack => node :: grays stack
  | (_, false) :: stack => grays stack

theorem mem_grays {node : String} :
  ∀ {stack : List (String × Bool)}, node ∈ grays stack ↔ (node, true) ∈ stack
  | [] => by simp [grays]
  | (x, true) :: stack => by simp [grays, mem_grays]
  | (x, false) :: stack => by simp [grays, mem_grays]

/-- What holds in every turn of the search.  The nodes related by `owed` have not been looked
at. -/
structure Inv (adj : String → List String) (ids : List String) (owed : String → String → Prop)
    (color : String → Color) (parent : String → Option String) (stack : List (String × Bool)) :
    Prop where
  gray : ∀ x, color x = .gray ↔ x ∈ grays stack
  nodup : (grays stack).Nodup
  /-- Each gray node is a dependency and a child of the next. -/
  chain : (grays stack).IsChain fun a b => a ∈ adj b ∧ parent a = some b
  /-- A node is pushed as a dependency of the topmost gray node, which is its parent unless it
  is pushed again. -/
  pushed : ∀ above x below, stack = above ++ (x, false) :: below →
    ∀ g ∈ (grays below).head?, x ∈ adj g
      ∧ (color x = .white → (x, false) ∉ above → parent x = some g)
  /-- A gray node is not pushed again, and waits for its dependencies. -/
  waits : ∀ above g below, stack = above ++ (g, true) :: below →
    (g, false) ∉ above
      ∧ ∀ y ∈ adj g, owed g y ∨ color y = .black ∨ ∃ processed, (y, processed) ∈ above
  /-- The dependencies of a black node turned black before it. -/
  finished : ∃ blacks, Finished adj blacks ∧ ∀ x, color x = .black ↔ x ∈ blacks
  known : ∀ entry ∈ stack, entry.1 ∈ ids

variable {adj : String → List String} {ids : List String} {owed : String → String → Prop}
  {color : String → Color} {parent : String → Option String} {stack : List (String × Bool)}
  {node : String}

/-! ### What the invariant says of the top of the stack -/

/-- A pushed entry on top of the stack is not one of a gray node. -/
theorem Inv.not_gray (h : Inv adj ids owed color parent ((node, false) :: stack)) :
  color node ≠ .gray
  := by
  intro hgray
  have hmem := mem_grays.mp ((h.gray node).mp hgray)
  rcases List.mem_cons.mp hmem with hmem | hmem
  · simp at hmem
  · obtain ⟨above, below, rfl⟩ := List.append_of_mem hmem
    apply (h.waits ((node, false) :: above) node below rfl).1
    apply List.mem_cons_self

/-- A node whose turn has come has seen all its dependencies turn black. -/
theorem Inv.black_of_leave
    (h : Inv adj ids (fun _ _ => False) color parent ((node, true) :: stack)) :
  ∀ y ∈ adj node, color y = .black
  := by
  intro y hy
  rcases (h.waits [] node stack rfl).2 y hy with hfalse | hblack | ⟨processed, hmem⟩
  · contradiction
  · exact hblack
  · simp at hmem

/-! ### Turns of the loop -/

/-- A node turns black. -/
theorem Inv.leave (h : Inv adj ids (fun _ _ => False) color parent ((node, true) :: stack)) :
  Inv adj ids (fun _ _ => False) (update color node .black) parent stack
  := by
  obtain ⟨hnode, hnodup⟩ := List.nodup_cons.mp h.nodup
  have hcolor : ∀ {x}, x ≠ node → update color node .black x = color x
    := fun hx => update_of_ne hx _ _
  constructor
  · intro x
    by_cases hx : x = node
    · subst hx
      simp [hnode]
    · rw [hcolor hx, h.gray, grays, List.mem_cons, or_iff_right hx]
  · exact hnodup
  · apply (List.isChain_cons.mp h.chain).2
  · rintro above x below rfl g hg
    obtain ⟨hadj, hparent⟩ := h.pushed ((node, true) :: above) x below rfl g hg
    refine ⟨hadj, fun hwhite habove => ?_⟩
    have hx : x ≠ node := by
      rintro rfl
      simp at hwhite
    apply hparent (hcolor hx ▸ hwhite)
    simpa using habove
  · rintro above g below rfl
    obtain ⟨honce, hdeps⟩ := h.waits ((node, true) :: above) g below rfl
    refine ⟨fun hmem => honce (List.mem_cons_of_mem _ hmem), fun y hy => Or.inr ?_⟩
    by_cases hnode : y = node
    · subst hnode
      exact Or.inl (update_self y _ _)
    · rw [hcolor hnode]
      rcases hdeps y hy with hfalse | hblack | ⟨processed, hmem⟩
      · contradiction
      · exact Or.inl hblack
      · rcases List.mem_cons.mp hmem with heq | hmem
        · exact absurd (Prod.mk.inj heq).1 hnode
        · exact Or.inr ⟨processed, hmem⟩
  · obtain ⟨blacks, hfinished, hblacks⟩ := h.finished
    refine ⟨node :: blacks, ⟨fun y hy => ?_, hfinished⟩, fun x => ?_⟩
    · exact (hblacks y).mp (h.black_of_leave y hy)
    · by_cases hx : x = node
      · subst hx
        simp
      · rw [hcolor hx, hblacks, List.mem_cons, or_iff_right hx]
  · exact fun entry hentry => h.known entry (List.mem_cons_of_mem _ hentry)

/-- An entry of a black node is dropped. -/
theorem Inv.skip (h : Inv adj ids (fun _ _ => False) color parent ((node, false) :: stack))
    (hnode : color node = .black) :
  Inv adj ids (fun _ _ => False) color parent stack
  := by
  constructor
  · exact h.gray
  · exact h.nodup
  · exact h.chain
  · rintro above x below rfl g hg
    obtain ⟨hadj, hparent⟩ := h.pushed ((node, false) :: above) x below rfl g hg
    refine ⟨hadj, fun hwhite habove => hparent hwhite fun hmem => ?_⟩
    rcases List.mem_cons.mp hmem with heq | hmem
    · rw [(Prod.mk.inj heq).1, hnode] at hwhite
      contradiction
    · exact habove hmem
  · rintro above g below rfl
    obtain ⟨honce, hdeps⟩ := h.waits ((node, false) :: above) g below rfl
    refine ⟨fun hmem => honce (List.mem_cons_of_mem _ hmem), fun y hy => Or.inr ?_⟩
    rcases hdeps y hy with hfalse | hblack | ⟨processed, hmem⟩
    · contradiction
    · exact Or.inl hblack
    · rcases List.mem_cons.mp hmem with heq | hmem
      · exact Or.inl ((Prod.mk.inj heq).1 ▸ hnode)
      · exact Or.inr ⟨processed, hmem⟩
  · exact h.finished
  · exact fun entry hentry => h.known entry (List.mem_cons_of_mem _ hentry)

/-- A white node turns gray, and its dependencies are to be looked at. -/
theorem Inv.enter (h : Inv adj ids (fun _ _ => False) color parent ((node, false) :: stack))
    (hnode : color node = .white) :
  Inv adj ids (fun g y => g = node ∧ y ∈ adj node) (update color node .gray) parent
    ((node, true) :: stack)
  := by
  have hnew : node ∉ grays stack := by
    intro hmem
    rw [(h.gray node).mpr hmem] at hnode
    contradiction
  have hcolor : ∀ {x}, x ≠ node → update color node .gray x = color x
    := fun hx => update_of_ne hx _ _
  have hblack : ∀ {x}, color x = .black → update color node .gray x = .black := by
    intro x hx
    rw [hcolor _, hx]
    rintro rfl
    rw [hnode] at hx
    contradiction
  constructor
  · intro x
    by_cases hx : x = node
    · subst hx
      simp [grays]
    · rw [hcolor hx, h.gray, grays, grays, List.mem_cons, or_iff_right hx]
  · exact List.nodup_cons.mpr ⟨hnew, h.nodup⟩
  · apply List.isChain_cons.mpr
    refine ⟨fun g hg => ?_, h.chain⟩
    obtain ⟨hadj, hparent⟩ := h.pushed [] node stack rfl g hg
    exact ⟨hadj, hparent hnode List.not_mem_nil⟩
  · rintro (_ | ⟨entry, above⟩) x below hstack g hg
    · simp at hstack
    · obtain ⟨rfl, rfl⟩ := List.cons.inj hstack
      obtain ⟨hadj, hparent⟩ := h.pushed ((node, false) :: above) x below rfl g hg
      refine ⟨hadj, fun hwhite habove => ?_⟩
      have hx : x ≠ node := by
        rintro rfl
        simp at hwhite
      apply hparent (hcolor hx ▸ hwhite)
      intro hmem
      rcases List.mem_cons.mp hmem with heq | hmem
      · exact hx (Prod.mk.inj heq).1
      · exact habove (List.mem_cons_of_mem _ hmem)
  · rintro (_ | ⟨entry, above⟩) g below hstack
    · obtain ⟨heq, rfl⟩ := List.cons.inj hstack
      obtain rfl := (Prod.mk.inj heq).1
      exact ⟨List.not_mem_nil, fun y hy => Or.inl ⟨rfl, hy⟩⟩
    · obtain ⟨rfl, rfl⟩ := List.cons.inj hstack
      obtain ⟨honce, hdeps⟩ := h.waits ((node, false) :: above) g below rfl
      constructor
      · intro hmem
        rcases List.mem_cons.mp hmem with heq | hmem
        · simp at heq
        · exact honce (List.mem_cons_of_mem _ hmem)
      · intro y hy
        rcases hdeps y hy with hfalse | hy | ⟨processed, hmem⟩
        · contradiction
        · exact Or.inr (Or.inl (hblack hy))
        · rcases List.mem_cons.mp hmem with heq | hmem
          · rw [(Prod.mk.inj heq).1]
            exact Or.inr (Or.inr ⟨true, List.mem_cons_self⟩)
          · exact Or.inr (Or.inr ⟨processed, List.mem_cons_of_mem _ hmem⟩)
  · obtain ⟨blacks, hfinished, hblacks⟩ := h.finished
    refine ⟨blacks, hfinished, fun x => ?_⟩
    rw [← hblacks]
    by_cases hx : x = node
    · subst hx
      simp [hnode]
    · rw [hcolor hx]
  · intro entry hentry
    rcases List.mem_cons.mp hentry with rfl | hentry
    · exact h.known (node, false) List.mem_cons_self
    · exact h.known entry (List.mem_cons_of_mem _ hentry)

/-! ### Turns of the loop over the neighbours -/

variable {neighbor : String} {rest : List String} {gs : List String}

/-- A white neighbour is pushed. -/
theorem Inv.push (h : Inv adj ids (fun g y => g = node ∧ y ∈ neighbor :: rest) color parent stack)
    (htop : grays stack = node :: gs) (hadj : neighbor ∈ adj node) (hids : neighbor ∈ ids)
    (hneighbor : color neighbor = .white) :
  Inv adj ids (fun g y => g = node ∧ y ∈ rest) color (update parent neighbor (some node))
    ((neighbor, false) :: stack)
  := by
  have hnew : neighbor ∉ grays stack := by
    intro hmem
    rw [(h.gray neighbor).mpr hmem] at hneighbor
    contradiction
  have hparent : ∀ {x}, x ≠ neighbor → update parent neighbor (some node) x = parent x
    := fun hx => update_of_ne hx _ _
  constructor
  · exact h.gray
  · exact h.nodup
  · apply h.chain.imp_of_mem_imp
    intro a b ha _ hab
    have hne : a ≠ neighbor := by
      rintro rfl
      exact hnew ha
    rw [hparent hne]
    exact hab
  · rintro (_ | ⟨entry, above⟩) x below hstack g hg
    · obtain ⟨heq, rfl⟩ := List.cons.inj hstack
      obtain rfl := (Prod.mk.inj heq).1
      rw [htop] at hg
      obtain rfl := Option.some.inj hg
      exact ⟨hadj, fun _ _ => update_self _ _ _⟩
    · obtain ⟨rfl, rfl⟩ := List.cons.inj hstack
      obtain ⟨hx, hold⟩ := h.pushed above x below rfl g hg
      refine ⟨hx, fun hwhite habove => ?_⟩
      rw [List.mem_cons, not_or] at habove
      have hne : x ≠ neighbor := by
        rintro rfl
        exact habove.1 rfl
      rw [hparent hne]
      exact hold hwhite habove.2
  · rintro (_ | ⟨entry, above⟩) g below hstack
    · simp at hstack
    · obtain ⟨rfl, rfl⟩ := List.cons.inj hstack
      obtain ⟨honce, hdeps⟩ := h.waits above g below rfl
      constructor
      · intro hmem
        rcases List.mem_cons.mp hmem with heq | hmem
        · rw [← (Prod.mk.inj heq).1] at hnew
          apply hnew
          rw [mem_grays]
          simp
        · exact honce hmem
      · intro y hy
        rcases hdeps y hy with ⟨rfl, howed⟩ | hblack | ⟨processed, hmem⟩
        · rcases List.mem_cons.mp howed with rfl | howed
          · exact Or.inr (Or.inr ⟨false, List.mem_cons_self⟩)
          · exact Or.inl ⟨rfl, howed⟩
        · exact Or.inr (Or.inl hblack)
        · exact Or.inr (Or.inr ⟨processed, List.mem_cons_of_mem _ hmem⟩)
  · exact h.finished
  · intro entry hentry
    rcases List.mem_cons.mp hentry with rfl | hentry
    · exact hids
    · exact h.known entry hentry

/-- A black neighbour is passed over. -/
theorem Inv.pass (h : Inv adj ids (fun g y => g = node ∧ y ∈ neighbor :: rest) color parent stack)
    (hneighbor : color neighbor = .black) :
  Inv adj ids (fun g y => g = node ∧ y ∈ rest) color parent stack
  := by
  refine ⟨h.gray, h.nodup, h.chain, h.pushed, ?_, h.finished, h.known⟩
  intro above g below hstack
  obtain ⟨honce, hdeps⟩ := h.waits above g below hstack
  refine ⟨honce, fun y hy => ?_⟩
  rcases hdeps y hy with ⟨rfl, howed⟩ | hrest
  · rcases List.mem_cons.mp howed with rfl | howed
    · exact Or.inr (Or.inl hneighbor)
    · exact Or.inl ⟨rfl, howed⟩
  · exact Or.inr hrest

/-- All neighbours have been looked at. -/
theorem Inv.settled (h : Inv adj ids (fun g y => g = node ∧ y ∈ []) color parent stack) :
  Inv adj ids (fun _ _ => False) color parent stack
  := by
  refine ⟨h.gray, h.nodup, h.chain, h.pushed, ?_, h.finished, h.known⟩
  intro above g below hstack
  obtain ⟨honce, hdeps⟩ := h.waits above g below hstack
  refine ⟨honce, fun y hy => (hdeps y hy).imp_left ?_⟩
  simp

end Agamemnon.Dag
