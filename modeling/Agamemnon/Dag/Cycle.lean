import Agamemnon.Dag.Invariant

/-!
# The search finds a cycle or there is none

Every turn of the search keeps the invariant and makes a weight smaller, so the search ends.
It ends with a closed walk, or with all nodes black: `findCyclePath_spec`.
-/

namespace Agamemnon.Dag

open Graph Function

/-! ### Closing a cycle -/

theorem climb_self (parent : String → Option String) (node : String) (limit : ℕ) :
  climb parent node limit (some node) = some []
  := by
  cases limit <;> simp [climb]

/-- Along a chain of parents the climb finds what stands before `node`. -/
theorem climb_eq {parent : String → Option String} {node : String} {after : List String} :
  ∀ {before : List String} {limit : ℕ},
    (before ++ node :: after).IsChain (fun a b => parent a = some b) → node ∉ before →
    before.length ≤ limit →
    climb parent node limit (before ++ node :: after).head? = some before
  | [], limit, _, _, _ => climb_self parent node limit
  | a :: before, 0, _, _, hlimit => by
      simp at hlimit
  | a :: before, limit + 1, hchain, hnode, hlimit => by
      rw [List.mem_cons, not_or] at hnode
      rw [List.cons_append, List.isChain_cons] at hchain
      have hparent : parent a = (before ++ node :: after).head? := by
        cases hhead : (before ++ node :: after).head? with
        | none => simp at hhead
        | some b => exact hchain.1 b hhead
      have hrest := climb_eq hchain.2 hnode.2 (Nat.le_of_succ_le_succ hlimit)
      rw [← hparent] at hrest
      simp [climb, Ne.symm hnode.1, hrest]

variable {limit : ℕ} {node : String}

section Search

variable {adj : String → List String} {ids : List String}

/-- A gray neighbour closes a walk. -/
theorem closeCycle_spec {color : String → Color} {parent : String → Option String}
    {stack : List (String × Bool)} {owed : String → String → Prop} {gs : List String}
    {neighbor : String} (hlimit : ids.length ≤ limit)
    (h : Inv adj ids owed color parent stack) (htop : grays stack = node :: gs)
    (hadj : neighbor ∈ adj node) (hgray : color neighbor = .gray) :
  ∃ path, closeCycle parent limit neighbor (some node) = some path ∧ ClosedWalk adj path
  := by
  obtain ⟨before, after, hsplit⟩ := List.append_of_mem ((h.gray neighbor).mp hgray)
  have hnodup := h.nodup
  have hchain := h.chain
  rw [hsplit] at hnodup hchain
  have hhead : (before ++ neighbor :: after).head? = some node := by
    rw [← hsplit, htop]
    rfl
  have hbefore : neighbor ∉ before ∧ before.Nodup := by
    rw [List.nodup_append_comm, List.cons_append, List.nodup_cons, List.mem_append, not_or]
      at hnodup
    exact ⟨hnodup.1.2, (List.nodup_append.mp hnodup.2).2.1⟩
  have hlength : before.length ≤ limit := by
    have hsub : before ⊆ ids := by
      intro x hx
      have hx : x ∈ grays stack := hsplit ▸ List.mem_append_left _ hx
      exact h.known _ (mem_grays.mp hx)
    exact (List.subperm_of_subset hbefore.2 hsub).length_le.trans hlimit
  have hclimb : climb parent neighbor limit (some node) = some before := by
    rw [← hhead]
    apply climb_eq _ hbefore.1 hlength
    exact hchain.imp fun a b hab => hab.2
  refine ⟨([neighbor] ++ before ++ [neighbor]).reverse, by rw [closeCycle, hclimb]; rfl, ?_⟩
  refine ⟨neighbor, before.reverse, by simp, ?_, ?_⟩
  · simpa using hbefore
  · rw [List.isChain_reverse, List.append_assoc, List.singleton_append, List.isChain_cons]
    constructor
    · intro x hx
      have hx' : (before ++ neighbor :: after).head? = some x := by
        cases before with
        | nil => exact hx
        | cons a before => exact hx
      obtain rfl := Option.some.inj (hhead.symm.trans hx')
      exact hadj
    · exact (List.isChain_split.mp (hchain.imp fun a b hab => hab.1)).1

/-! ### Turns -/

/-- The loop over the neighbours closes a walk or keeps the invariant. -/
theorem pushNeighbors_spec (hlimit : ids.length ≤ limit) (hids : ∀ y ∈ adj node, y ∈ ids) :
  ∀ (neighbors : List String) (s : Search) {gs : List String},
    Inv adj ids (fun g y => g = node ∧ y ∈ neighbors) s.color s.parent s.stack →
    grays s.stack = node :: gs → (∀ y ∈ neighbors, y ∈ adj node) →
    (∃ path, pushNeighbors limit node neighbors s = some (.cycle path) ∧ ClosedWalk adj path)
    ∨ ∃ s', pushNeighbors limit node neighbors s = some (.next s')
      ∧ Inv adj ids (fun _ _ => False) s'.color s'.parent s'.stack ∧ s'.color = s.color
      ∧ (∀ entry ∈ s.stack, entry ∈ s'.stack)
      ∧ s'.stack.length ≤ s.stack.length + neighbors.length
  | [], s, _, h, _, _ => by
      right
      exact ⟨s, rfl, h.settled, rfl, fun _ hentry => hentry, Nat.le_refl _⟩
  | neighbor :: rest, s, gs, h, htop, hadj => by
      have hrest : ∀ y ∈ rest, y ∈ adj node := fun y hy => hadj y (List.mem_cons_of_mem _ hy)
      have hneighbor := hadj neighbor List.mem_cons_self
      cases hcolor : s.color neighbor with
      | gray =>
        obtain ⟨path, hpath, hwalk⟩ := closeCycle_spec hlimit h htop hneighbor hcolor
        left
        exact ⟨path, by simp [pushNeighbors, hcolor, hpath], hwalk⟩
      | white =>
        simp only [pushNeighbors, hcolor]
        rcases pushNeighbors_spec hlimit hids rest
          { s with
            parent := update s.parent neighbor (some node)
            stack := (neighbor, false) :: s.stack }
          (h.push htop hneighbor (hids _ hneighbor) hcolor) htop hrest
          with hcycle | ⟨s', hs', hinv, hcolor', hstack, hlength⟩
        · exact Or.inl hcycle
        · refine Or.inr ⟨s', hs', hinv, hcolor', ?_, ?_⟩
          · exact fun entry hentry => hstack entry (List.mem_cons_of_mem _ hentry)
          · simp only [List.length_cons] at hlength ⊢
            omega
      | black =>
        simp only [pushNeighbors, hcolor]
        rcases pushNeighbors_spec hlimit hids rest s (h.pass hcolor) htop hrest
          with hcycle | ⟨s', hs', hinv, hcolor', hstack, hlength⟩
        · exact Or.inl hcycle
        · refine Or.inr ⟨s', hs', hinv, hcolor', hstack, ?_⟩
          rw [List.length_cons]
          omega

/-- A bound for the turns the white nodes may still cause. -/
def whiteWeight (adj : String → List String) (color : String → Color) : List String → ℕ
  | [] => 0
  | x :: xs =>
      (if color x = .white then (adj x).length + 2 else 0) + whiteWeight adj color xs

theorem whiteWeight_le (adj : String → List String) {color color' : String → Color}
    (h : ∀ x, color' x = .white → color x = .white) :
  ∀ xs : List String, whiteWeight adj color' xs ≤ whiteWeight adj color xs
  | [] => Nat.le_refl _
  | x :: xs => by
      have hrest := whiteWeight_le adj h xs
      simp only [whiteWeight]
      by_cases hx : color' x = .white
      · rw [if_pos hx, if_pos (h x hx)]
        omega
      · rw [if_neg hx]
        omega

/-- When a white node takes a colour, its weight is gone. -/
theorem whiteWeight_add_le {color color' : String → Color}
    (h : ∀ x, color' x = .white → color x = .white) (hnode : color node = .white)
    (hnode' : color' node ≠ .white) :
  ∀ {xs : List String}, node ∈ xs →
    whiteWeight adj color' xs + ((adj node).length + 2) ≤ whiteWeight adj color xs
  | x :: xs, hmem => by
      simp only [whiteWeight]
      rcases List.mem_cons.mp hmem with rfl | hmem
      · have hrest := whiteWeight_le adj h xs
        rw [if_neg hnode', if_pos hnode]
        omega
      · have hrest := whiteWeight_add_le h hnode hnode' hmem
        by_cases hx : color' x = .white
        · rw [if_pos hx, if_pos (h x hx)]
          omega
        · rw [if_neg hx]
          omega

/-- A bound for the turns that are left. -/
def Search.weight (adj : String → List String) (ids : List String) (s : Search) : ℕ :=
  whiteWeight adj s.color ids + s.stack.length

/-- One turn closes a walk, or keeps the invariant and makes progress. -/
theorem visit_spec (hlimit : ids.length ≤ limit) (hids : ∀ x, ∀ y ∈ adj x, y ∈ ids) {s : Search}
    {entry : String × Bool} {rest : List (String × Bool)} (hs : s.stack = entry :: rest)
    (h : Inv adj ids (fun _ _ => False) s.color s.parent s.stack) :
  (∃ path, visit adj limit { s with stack := rest } entry = some (.cycle path)
    ∧ ClosedWalk adj path)
  ∨ ∃ s', visit adj limit { s with stack := rest } entry = some (.next s')
    ∧ Inv adj ids (fun _ _ => False) s'.color s'.parent s'.stack
    ∧ (∀ x, s.color x ≠ .white → s'.color x ≠ .white) ∧ s'.color entry.1 ≠ .white
    ∧ (∀ e ∈ rest, e ∈ s'.stack) ∧ s'.weight adj ids < s.weight adj ids
  := by
  obtain ⟨node, processed⟩ := entry
  have hweight : s.weight adj ids = whiteWeight adj s.color ids + (rest.length + 1)
    := by rw [Search.weight, hs, List.length_cons]
  rw [hs] at h
  cases processed with
  | true =>
    have hwhite : ∀ x, update s.color node .black x = .white → s.color x = .white := by
      intro x hx
      rw [update_apply] at hx
      split at hx
      · contradiction
      · exact hx
    right
    refine ⟨_, rfl, h.leave, fun x hx => mt (hwhite x) hx, ?_, fun _ he => he, ?_⟩
    · simp
    · have hle := whiteWeight_le adj hwhite ids
      rw [hweight, Search.weight]
      exact Nat.lt_succ_of_le (Nat.add_le_add_right hle _)
  | false =>
    cases hcolor : s.color node with
    | gray => exact absurd hcolor h.not_gray
    | black =>
      right
      refine ⟨{ s with stack := rest }, by simp [visit, hcolor], h.skip hcolor, fun _ hx => hx,
        ?_, fun _ he => he, ?_⟩
      · simp [hcolor]
      · rw [hweight, Search.weight]
        exact Nat.lt_succ_self _
    | white =>
      have hwhite : ∀ x, update s.color node .gray x = .white → s.color x = .white := by
        intro x hx
        rw [update_apply] at hx
        split at hx
        · contradiction
        · exact hx
      have hvisit : visit adj limit { s with stack := rest } (node, false)
          = pushNeighbors limit node (adj node)
              { s with color := update s.color node .gray, stack := (node, true) :: rest }
        := by simp [visit, hcolor]
      rw [hvisit]
      rcases pushNeighbors_spec hlimit (hids node) (adj node)
        { s with color := update s.color node .gray, stack := (node, true) :: rest }
        (h.enter hcolor) rfl (fun _ hy => hy)
        with hcycle | ⟨s', hs', hinv, hcolor', hstack, hlength⟩
      · exact Or.inl hcycle
      · right
        have hnode' : s'.color node ≠ .white := by simp [hcolor']
        have hle : whiteWeight adj s'.color ids + ((adj node).length + 2)
            ≤ whiteWeight adj s.color ids := by
          apply whiteWeight_add_le _ hcolor hnode' (h.known (node, false) List.mem_cons_self)
          rw [hcolor']
          exact hwhite
        refine ⟨s', hs', hinv, ?_, hnode', ?_, ?_⟩
        · rw [hcolor']
          exact fun x hx => mt (hwhite x) hx
        · exact fun e he => hstack e (List.mem_cons_of_mem _ he)
        · rw [hweight, Search.weight]
          simp only [List.length_cons] at hlength
          omega

/-- With enough fuel the loop ends, with a closed walk or with an empty stack. -/
theorem drain_spec (hlimit : ids.length ≤ limit) (hids : ∀ x, ∀ y ∈ adj x, y ∈ ids) :
  ∀ (fuel : ℕ) (s : Search), Inv adj ids (fun _ _ => False) s.color s.parent s.stack →
    s.weight adj ids ≤ fuel →
    (∃ path, drain adj limit fuel s = some (.cycle path) ∧ ClosedWalk adj path)
    ∨ ∃ s', drain adj limit fuel s = some (.next s')
      ∧ Inv adj ids (fun _ _ => False) s'.color s'.parent []
      ∧ (∀ x, s.color x ≠ .white → s'.color x ≠ .white)
      ∧ ∀ entry ∈ s.stack, s'.color entry.1 ≠ .white
  := by
  intro fuel
  induction fuel with
  | zero =>
    intro s h hweight
    have hstack : s.stack = [] := by
      rw [Search.weight] at hweight
      apply List.eq_nil_of_length_eq_zero
      omega
    right
    refine ⟨s, ?_, hstack ▸ h, fun _ hx => hx, ?_⟩
    · rw [drain, hstack]
    · simp [hstack]
  | succ fuel ih =>
    intro s h hweight
    cases hstack : s.stack with
    | nil =>
      right
      refine ⟨s, ?_, hstack ▸ h, fun _ hx => hx, by simp⟩
      rw [drain, hstack]
    | cons entry rest =>
      rcases visit_spec hlimit hids hstack h
        with ⟨path, hvisit, hwalk⟩ | ⟨s', hvisit, hinv, hcolor, hentry, hrest, hless⟩
      · left
        refine ⟨path, ?_, hwalk⟩
        rw [drain, hstack]
        simp only [hvisit]
      · have hdrain : drain adj limit (fuel + 1) s = drain adj limit fuel s' := by
          rw [drain, hstack]
          simp only [hvisit]
        rw [hdrain]
        rcases ih s' hinv (by omega) with hcycle | ⟨s'', hs'', hinv', hcolor', hstack'⟩
        · exact Or.inl hcycle
        · right
          refine ⟨s'', hs'', hinv', fun x hx => hcolor' x (hcolor x hx), ?_⟩
          intro e he
          rcases List.mem_cons.mp he with rfl | he
          · exact hcolor' _ hentry
          · exact hstack' e (hrest e he)

/-! ### The whole search -/

/-- A search starts from a white node. -/
theorem Inv.start {color : String → Color} {parent : String → Option String} {start : String}
    (h : Inv adj ids (fun _ _ => False) color parent []) (hstart : start ∈ ids) :
  Inv adj ids (fun _ _ => False) color parent [(start, false)]
  := by
  refine ⟨h.gray, h.nodup, h.chain, ?_, ?_, h.finished, ?_⟩
  · intro above x below hstack g hg
    obtain ⟨rfl, heq⟩ : above = [] ∧ (x, false) :: below = [(start, false)] := by
      cases above with
      | nil => exact ⟨rfl, hstack.symm⟩
      | cons e above => simp at hstack
    obtain rfl := (List.cons.inj heq).2
    simp [grays] at hg
  · intro above g below hstack
    cases above with
    | nil => simp at hstack
    | cons e above => simp at hstack
  · intro entry hentry
    rw [List.mem_singleton.mp hentry]
    exact hstart

/-- The turns of one search are bounded. -/
theorem weight_start_le (color : String → Color) (parent : String → Option String)
    (start : String) :
  Search.weight adj ids ⟨color, parent, [(start, false)]⟩
    ≤ whiteWeight adj (fun _ => .white) ids + 1
  := Nat.add_le_add_right (whiteWeight_le adj (fun _ _ => rfl) ids) 1

theorem length_le_whiteWeight :
  ∀ ids : List String, ids.length ≤ whiteWeight adj (fun _ => .white) ids
  | [] => Nat.le_refl _
  | x :: xs => by
      have hrest := length_le_whiteWeight xs
      simp only [whiteWeight, List.length_cons, if_true]
      omega

/-- The search from several nodes returns a closed walk, or none with all these nodes seen. -/
theorem searchAll_spec (hlimit : whiteWeight adj (fun _ => .white) ids + 1 ≤ limit)
    (hids : ∀ x, ∀ y ∈ adj x, y ∈ ids) :
  ∀ (starts : List String) (s : Search), (∀ x ∈ starts, x ∈ ids) →
    Inv adj ids (fun _ _ => False) s.color s.parent [] →
    ∃ path, searchAll adj limit starts s = some path
      ∧ (ClosedWalk adj path ∨ path = [] ∧ ∃ s' : Search,
          Inv adj ids (fun _ _ => False) s'.color s'.parent []
          ∧ (∀ x, s.color x ≠ .white → s'.color x ≠ .white)
          ∧ ∀ x ∈ starts, s'.color x ≠ .white)
  | [], s, _, h => ⟨[], rfl, Or.inr ⟨rfl, s, h, fun _ hx => hx, by simp⟩⟩
  | start :: rest, s, hstarts, h => by
      have hrest : ∀ x ∈ rest, x ∈ ids := fun x hx => hstarts x (List.mem_cons_of_mem _ hx)
      have hlength : ids.length ≤ limit
        := (length_le_whiteWeight ids).trans (Nat.le_of_succ_le hlimit)
      by_cases hwhite : s.color start = .white
      · rw [searchAll, if_pos hwhite]
        have hstart := h.start (hstarts start List.mem_cons_self)
        rcases drain_spec hlength hids limit { s with stack := [(start, false)] } hstart
          ((weight_start_le _ _ _).trans hlimit)
          with ⟨path, hdrain, hwalk⟩ | ⟨s', hdrain, hinv, hcolor, hseen⟩
        · rw [hdrain]
          exact ⟨path, rfl, Or.inl hwalk⟩
        · rw [hdrain]
          obtain ⟨path, hpath, hresult⟩ := searchAll_spec hlimit hids rest s' hrest hinv
          refine ⟨path, hpath, hresult.imp_right ?_⟩
          rintro ⟨hnil, s'', hinv', hcolor', hseen'⟩
          refine ⟨hnil, s'', hinv', fun x hx => hcolor' x (hcolor x hx), ?_⟩
          intro x hx
          rcases List.mem_cons.mp hx with rfl | hx
          · exact hcolor' _ (hseen (x, false) List.mem_cons_self)
          · exact hseen' x hx
      · rw [searchAll, if_neg hwhite]
        obtain ⟨path, hpath, hresult⟩ := searchAll_spec hlimit hids rest s hrest h
        refine ⟨path, hpath, hresult.imp_right ?_⟩
        rintro ⟨hnil, s', hinv, hcolor, hseen⟩
        refine ⟨hnil, s', hinv, hcolor, ?_⟩
        intro x hx
        rcases List.mem_cons.mp hx with rfl | hx
        · exact hcolor _ hwhite
        · exact hseen x hx

end Search

/-! ### More turns change nothing -/

section Monotone

variable {limit' : ℕ} (hle : limit ≤ limit')

include hle

variable {path : List String} {cur : Option String} {parent : String → Option String}

theorem climb_mono (h : climb parent node limit cur = some path) :
  climb parent node limit' cur = some path
  := by
  induction limit generalizing limit' cur path with
  | zero =>
    cases cur with
    | none => simpa [climb] using h
    | some cur =>
      rw [climb] at h
      split at h
      · rename_i hcur
        rw [hcur, climb_self]
        exact h
      · contradiction
  | succ limit ih =>
    cases cur with
    | none => simpa [climb] using h
    | some cur =>
      obtain ⟨limit', rfl⟩ := Nat.exists_eq_add_of_lt hle
      rw [climb] at h ⊢
      split at h
      · rename_i hcur
        rw [if_pos hcur]
        exact h
      · rename_i hcur
        rw [if_neg hcur]
        obtain ⟨above, habove, rfl⟩ := Option.map_eq_some_iff.mp h
        have hmore := ih (Nat.le_add_right limit limit') habove
        simp [hmore]

theorem closeCycle_mono (h : closeCycle parent limit node cur = some path) :
  closeCycle parent limit' node cur = some path
  := by
  obtain ⟨above, habove, rfl⟩ := Option.map_eq_some_iff.mp h
  rw [closeCycle, climb_mono hle habove]
  rfl

variable {outcome : Outcome}

theorem cycle_mono (h : (closeCycle parent limit node cur).map .cycle = some outcome) :
  (closeCycle parent limit' node cur).map .cycle = some outcome
  := by
  obtain ⟨path, hpath, rfl⟩ := Option.map_eq_some_iff.mp h
  rw [closeCycle_mono hle hpath]
  rfl

theorem pushNeighbors_mono :
  ∀ {neighbors : List String} {s : Search},
    pushNeighbors limit node neighbors s = some outcome →
    pushNeighbors limit' node neighbors s = some outcome
  | [], _, h => h
  | neighbor :: rest, s, h => by
      rw [pushNeighbors] at h ⊢
      cases hcolor : s.color neighbor with
      | gray =>
        rw [hcolor] at h
        exact cycle_mono hle h
      | white | black =>
        rw [hcolor] at h
        exact pushNeighbors_mono h

theorem visit_mono {adj : String → List String} {s : Search} :
  ∀ {entry : String × Bool}, visit adj limit s entry = some outcome →
    visit adj limit' s entry = some outcome
  | (_, true), h => h
  | (node, false), h => by
      rw [visit] at h ⊢
      cases hcolor : s.color node with
      | gray =>
        rw [hcolor] at h
        exact cycle_mono hle h
      | white =>
        rw [hcolor] at h
        exact pushNeighbors_mono hle h
      | black =>
        rw [hcolor] at h
        exact h

theorem drain_mono {adj : String → List String} {fuel fuel' : ℕ} (hfuel : fuel ≤ fuel') {s : Search}
    (h : drain adj limit fuel s = some outcome) :
  drain adj limit' fuel' s = some outcome
  := by
  induction fuel generalizing fuel' s with
  | zero =>
    rw [drain] at h ⊢
    split at h
    · exact h
    · contradiction
  | succ fuel ih =>
    obtain ⟨extra, rfl⟩ := Nat.exists_eq_add_of_lt hfuel
    rw [drain] at h ⊢
    split at h
    · exact h
    · simp only at h ⊢
      cases hvisit : visit adj limit { s with stack := _ } _ with
      | none =>
        rw [hvisit] at h
        contradiction
      | some result =>
        rw [hvisit] at h
        rw [visit_mono hle hvisit]
        cases result with
        | cycle path => exact h
        | next s' => exact ih (Nat.le_add_right _ _) h

theorem searchAll_mono {adj : String → List String} :
  ∀ {starts : List String} {s : Search}, searchAll adj limit starts s = some path →
    searchAll adj limit' starts s = some path
  | [], _, h => h
  | start :: rest, s, h => by
      rw [searchAll] at h ⊢
      split at h
      · rename_i hwhite
        rw [if_pos hwhite]
        cases hdrain : drain adj limit limit { s with stack := [(start, false)] } with
        | none =>
          rw [hdrain] at h
          contradiction
        | some outcome =>
          rw [hdrain] at h
          rw [drain_mono hle hle hdrain]
          cases outcome with
          | cycle _ => exact h
          | next s' => exact searchAll_mono h
      · rename_i hwhite
        rw [if_neg hwhite]
        exact searchAll_mono h

theorem findCyclePath_mono {repr : String → String} {starts : List String} {tasks : List Task}
    {outcome : Except ValueError (List String)}
    (h : findCyclePath repr starts limit tasks = some outcome) :
  findCyclePath repr starts limit' tasks = some outcome
  := by
  rw [findCyclePath] at h ⊢
  split at h
  · exact h
  · obtain ⟨path, hpath, rfl⟩ := Option.map_eq_some_iff.mp h
    simp only [searchAll_mono hle hpath, Option.map_some]

end Monotone

/-! ### Correctness -/

/-- The task with the identifier `a` depends on `b`. -/
def DependsOn (tasks : List Task) (a b : String) : Prop :=
  ∃ t ∈ tasks, t.id = a ∧ b ∈ t.dependencies

variable {tasks : List Task}

theorem mem_adj (hids : (tasks.map (·.id)).Nodup) {a b : String} :
  b ∈ adj tasks a ↔ DependsOn tasks a b
  := by
  rw [adj]
  split
  · rename_i t hfound
    have hid : t.id = a := by simpa using List.find?_some hfound
    have ht : t ∈ tasks := List.mem_reverse.mp (List.mem_of_find?_eq_some hfound)
    constructor
    · exact fun hb => ⟨t, ht, hid, hb⟩
    · rintro ⟨u, hu, hid', hb⟩
      obtain rfl := List.inj_on_of_nodup_map hids ht hu (hid.trans hid'.symm)
      exact hb
  · rename_i hnone
    constructor
    · intro hb
      simp at hb
    · rintro ⟨u, hu, hid, -⟩
      have hne := List.find?_eq_none.mp hnone u (List.mem_reverse.mpr hu)
      simp [hid] at hne

theorem validate_eq_ok (repr : String → String) :
  validate repr tasks = .ok ⟨⟩
    ↔ ∀ t ∈ tasks, ∀ dep ∈ t.dependencies, dep ∈ tasks.map (·.id)
  := by
  rw [validate, Lists.forM_eq_ok]
  apply forall₂_congr
  intro t _
  rw [Lists.forM_eq_ok]
  apply forall₂_congr
  intro dep _
  split
  · rename_i hdep
    exact iff_of_true rfl hdep
  · rename_i hdep
    exact iff_of_false nofun hdep

/-- Without unknown dependencies, the search ends with a closed walk or finds that there is no
cycle. -/
theorem searchAll_tasks (hids : (tasks.map (·.id)).Nodup)
    (hknown : ∀ t ∈ tasks, ∀ dep ∈ t.dependencies, dep ∈ tasks.map (·.id))
    {starts : List String} (hstarts : ∀ x, x ∈ starts ↔ x ∈ tasks.map (·.id)) :
  ∃ path, (∃ bound, ∀ limit, bound ≤ limit →
      searchAll (adj tasks) limit starts ⟨fun _ => .white, fun _ => none, []⟩ = some path)
    ∧ (ClosedWalk (adj tasks) path ∨ path = [] ∧ Acyclic (DependsOn tasks))
  := by
  have hclosed : ∀ x, ∀ y ∈ adj tasks x, y ∈ tasks.map (·.id) := by
    intro x y hy
    obtain ⟨t, ht, -, hdep⟩ := (mem_adj hids).mp hy
    exact hknown t ht y hdep
  have hinv : Inv (adj tasks) (tasks.map (·.id)) (fun _ _ => False) (fun _ => .white)
      (fun _ => none) [] := by
    constructor
    · simp [grays]
    · exact List.nodup_nil
    · exact List.isChain_nil
    · simp
    · simp
    · exact ⟨[], trivial, by simp⟩
    · simp
  obtain ⟨path, hpath, hresult⟩ := searchAll_spec (Nat.le_refl _) hclosed starts
    ⟨fun _ => .white, fun _ => none, []⟩ (fun x hx => (hstarts x).mp hx) hinv
  refine ⟨path, ⟨_, fun limit hlimit => searchAll_mono hlimit hpath⟩, hresult.imp_right ?_⟩
  rintro ⟨hnil, s, hs, -, hseen⟩
  refine ⟨hnil, ?_⟩
  obtain ⟨blacks, hfinished, hblacks⟩ := hs.finished
  have hacyclic : Acyclic fun a b => b ∈ adj tasks a := by
    apply hfinished.acyclic
    intro a b hab
    obtain ⟨t, ht, rfl, -⟩ := (mem_adj hids).mp hab
    have hwhite := hseen t.id ((hstarts t.id).mpr (List.mem_map_of_mem ht))
    rw [← hblacks]
    cases hcolor : s.color t.id with
    | white => exact absurd hcolor hwhite
    | gray => simpa [grays] using (hs.gray t.id).mp hcolor
    | black => rfl
  apply hacyclic.of_path
  exact fun a b hab => Relation.TransGen.single ((mem_adj hids).mpr hab)

/-- For tasks with distinct identifiers, the search raises an error exactly if a dependency is
not a task.  Otherwise it ends, it returns the empty list exactly if there is no cycle of
dependencies, and whatever else it returns is such a cycle. -/
theorem findCyclePath_spec (repr : String → String) (hids : (tasks.map (·.id)).Nodup)
    {starts : List String} (hstarts : starts.Perm (tasks.map (·.id))) :
  ∃ outcome, (∃ bound, ∀ limit, bound ≤ limit →
      findCyclePath repr starts limit tasks = some outcome)
    ∧ ((∃ e, outcome = .error e)
      ↔ ∃ t ∈ tasks, ∃ dep ∈ t.dependencies, dep ∉ tasks.map (·.id))
    ∧ ∀ path, outcome = .ok path →
        (path = [] ↔ Acyclic (DependsOn tasks))
        ∧ (path ≠ [] → ∃ a mid, path = a :: (mid ++ [a]) ∧ (a :: mid).Nodup
            ∧ path.IsChain (DependsOn tasks))
  := by
  cases hvalidate : validate repr tasks with
  | error e =>
    have hunknown : ¬ ∀ t ∈ tasks, ∀ dep ∈ t.dependencies, dep ∈ tasks.map (·.id) := by
      rw [← validate_eq_ok repr, hvalidate]
      exact nofun
    push Not at hunknown
    refine ⟨.error e, ⟨0, fun limit _ => by rw [findCyclePath, hvalidate]⟩, ?_, nofun⟩
    exact iff_of_true ⟨e, rfl⟩ hunknown
  | ok _ =>
    have hknown := (validate_eq_ok repr).mp hvalidate
    obtain ⟨path, ⟨bound, hbound⟩, hresult⟩ :=
      searchAll_tasks hids hknown fun x => hstarts.mem_iff
    refine ⟨.ok path, ⟨bound, fun limit hlimit => ?_⟩, ?_, ?_⟩
    · rw [findCyclePath, hvalidate]
      simp only
      rw [hbound limit hlimit]
      rfl
    · apply iff_of_false nofun
      rintro ⟨t, ht, dep, hdep, hunknown⟩
      exact hunknown (hknown t ht dep hdep)
    · intro path' heq
      obtain rfl := Except.ok.inj heq
      rcases hresult with hwalk | ⟨rfl, hacyclic⟩
      · have hcyclic : ¬ Acyclic (DependsOn tasks) := by
          intro hacyclic
          apply hwalk.not_acyclic
          apply hacyclic.of_path
          exact fun a b hab => Relation.TransGen.single ((mem_adj hids).mp hab)
        obtain ⟨a, mid, hpath, hnodup, hchain⟩ := hwalk
        refine ⟨iff_of_false (by simp [hpath]) hcyclic, fun _ => ⟨a, mid, hpath, hnodup, ?_⟩⟩
        exact hchain.imp fun a b hab => (mem_adj hids).mp hab
      · exact ⟨iff_of_true rfl hacyclic, fun h => absurd rfl h⟩

/-- Tasks that depend on one another. -/
def pairTasks : List Task :=
  [{ id := "a", dependencies := ["b", "b"] }, { id := "b", dependencies := ["a"] }]

theorem findCyclePath_spec_pairTasks :
  (pairTasks.map (·.id)).Nodup ∧ ["b", "a"].Perm (pairTasks.map (·.id))
    ∧ findCyclePath id ["b", "a"] 9 pairTasks = some (.ok ["b", "a", "b"])
    ∧ ¬ Acyclic (DependsOn pairTasks)
  := by
  have hids : (pairTasks.map (·.id)).Nodup := by decide
  have hstarts : ["b", "a"].Perm (pairTasks.map (·.id)) := by decide
  have hfound : findCyclePath id ["b", "a"] 9 pairTasks = some (.ok ["b", "a", "b"]) := rfl
  refine ⟨hids, hstarts, hfound, fun hacyclic => ?_⟩
  obtain ⟨outcome, ⟨bound, hbound⟩, -, hspec⟩ := findCyclePath_spec id hids hstarts
  have hmore := findCyclePath_mono (Nat.le_add_left 9 bound) hfound
  rw [hbound _ (Nat.le_add_right bound 9)] at hmore
  have hnil := (hspec _ (Option.some.inj hmore)).1.mpr hacyclic
  contradiction

end Agamemnon.Dag
