import Agamemnon.Orchestrator.Execution

/-!
# Splitting a task

A split makes a chain of remainders: each is blocked by the task that was split and by the
remainder before it, and all are listed by the task that was split.  When that task
completes, only the first remainder has no other blocker.  The remainder before does not
list the next one, so the others are not looked at again: `split_all_run_iff`.
-/

namespace Agamemnon

open Program Orchestrator Board

namespace Board

/-! ### The remainders -/

/-- An entry of a split that is accepted and lists no blockers of its own. -/
structure ValidSubtask (sub : Json) : Prop where
  isObject : sub.isObject = true
  title : ∃ title, title ≠ "" ∧ sub.valueString "title" "" = .ok title
  issue : ∃ issue, sub.valueInt "issue" 0 = .ok issue
  description : ∃ description, sub.valueString "description" "" = .ok description
  baseBranch : ∃ baseBranch, sub.valueString "base_branch" "" = .ok baseBranch
  blockers : callerBlockers sub = []

/-- The remainder of the number `i`. -/
structure IsRemainder (env : Env) (original : HmasTask) (i : ℕ) (c : HmasTask) : Prop where
  id : c.id = env.uuid i
  newborn : c.Newborn
  childTaskIds : c.childTaskIds = []
  blockedBy : c.blockedBy = original.id :: (match i with
    | 0 => []
    | j + 1 => [env.uuid j])

variable {env : Env} {original t : HmasTask} {b : Board}

/-- The identifiers of the first `k` remainders. -/
def remainderIds (env : Env) (k : ℕ) : List String :=
  (List.range k).map env.uuid

theorem mem_remainderIds {k : ℕ} {id : String} :
  id ∈ remainderIds env k ↔ ∃ i < k, env.uuid i = id
  := by
  simp [remainderIds]

theorem remainderIds_succ (n : ℕ) :
  remainderIds env (n + 1) = remainderIds env n ++ [env.uuid n]
  := by
  rw [remainderIds, List.range_succ, List.map_append]
  rfl

/-- The identifier of the remainder before. -/
theorem getLast?_remainderIds (n : ℕ) :
  (remainderIds env n).getLast?.getD "" = match n with
    | 0 => ""
    | j + 1 => env.uuid j
  := by
  cases n with
  | zero => rfl
  | succ j => simp [remainderIds_succ]

theorem exists_remainder (hids : IdSupply env.uuid) {sub : Json} (h : ValidSubtask sub)
    (original : HmasTask) (n : ℕ) :
  ∃ child, remainder env.ts original (env.uuid n) ((remainderIds env n).getLast?.getD "") sub
      = .ok child
    ∧ IsRemainder env original n child
  := by
  obtain ⟨title, -, htitle⟩ := h.title
  obtain ⟨issue, hissue⟩ := h.issue
  obtain ⟨description, hdescription⟩ := h.description
  obtain ⟨baseBranch, hbranch⟩ := h.baseBranch
  have hok : ∃ child, remainder env.ts original (env.uuid n)
      ((remainderIds env n).getLast?.getD "") sub = .ok child := by
    rw [remainder, htitle, hissue, hdescription, hbranch]
    exact ⟨_, rfl⟩
  obtain ⟨child, hchild⟩ := hok
  obtain ⟨hid, hnew, hchildren, hblocked⟩ := remainder_eq hchild
  use child, hchild
  refine ⟨hid, hnew, hchildren, ?_⟩
  rw [hblocked, h.blockers, List.append_nil, getLast?_remainderIds]
  cases n with
  | zero => rfl
  | succ j => simp [hids.ne_empty j]

/-- A split of valid entries makes a remainder for each. -/
theorem splitPlan_of_valid (hids : IdSupply env.uuid) (original : HmasTask) :
  ∀ (subs : List Json) (n : ℕ), (∀ sub ∈ subs, ValidSubtask sub) →
    ∃ children, splitPlan env original subs (remainderIds env n)
        = (children, .ok (.ok (remainderIds env (n + subs.length))))
      ∧ children.length = subs.length
      ∧ ∀ i c, children[i]? = some c → IsRemainder env original (n + i) c
  | [], n, _ => ⟨[], rfl, rfl, by simp⟩
  | sub :: rest, n, hvalid => by
      have hsub := hvalid sub List.mem_cons_self
      obtain ⟨title, hne, htitle⟩ := hsub.title
      obtain ⟨child, hchild, hremainder⟩ := exists_remainder hids hsub original n
      obtain ⟨children, hplan, hlength, hrest⟩ := splitPlan_of_valid hids original rest (n + 1)
        fun s hs => hvalid s (List.mem_cons_of_mem sub hs)
      have hn : (remainderIds env n).length = n := by simp [remainderIds]
      use child :: children
      refine ⟨?_, by rw [List.length_cons, List.length_cons, hlength], ?_⟩
      · rw [splitPlan, hsub.isObject, htitle, hn]
        simp only [↓reduceIte, hne, hchild]
        rw [hremainder.id, ← remainderIds_succ, hplan, List.length_cons, Nat.add_right_comm,
          Nat.add_assoc]
      · intro i c hc
        cases i with
        | zero =>
          obtain rfl := Option.some.inj hc
          apply hremainder
        | succ i =>
          rw [← Nat.add_assoc, Nat.add_right_comm]
          apply hrest i c hc

/-! ### After the completion of the task that was split -/

/-- The task `t` is completed, its first remainder is in the state `state`, and the later ones
are pending, each blocked by the one before it. -/
structure Waiting (env : Env) (k : ℕ) (t : HmasTask) (state : TaskState) (b : Board) : Prop where
  keyed : b.Keyed
  original : b.isCompleted t.id = true
  first : ∃ u, b.lookup (env.uuid 0) = some u ∧ u.state = state ∧ u.blockedBy = [t.id]
    ∧ u.childTaskIds = []
  later : ∀ i, i + 1 < k → ∃ u, b.lookup (env.uuid (i + 1)) = some u ∧ u.state = .pending
    ∧ env.uuid i ∈ u.blockedBy
  sent : (b.dispatched.map (·.task.id)).filter (· ∈ remainderIds env k)
    = if state = .pending then [] else [env.uuid 0]

namespace Waiting

variable {k i : ℕ} {state : TaskState}

section

variable (h : Waiting env k t state b)
include h

/-- A remainder that is not completed. -/
theorem not_isCompleted (hstate : state ≠ .completed) (hi : i < k) :
  b.isCompleted (env.uuid i) = false
  := by
  cases i with
  | zero =>
    obtain ⟨u, hu, rfl, -⟩ := h.first
    rw [isCompleted_of_lookup hu]
    apply decide_eq_false hstate
  | succ i =>
    obtain ⟨u, hu, hpending, -⟩ := h.later i hi
    rw [isCompleted_of_lookup hu, hpending]
    rfl

/-- The task that was split is none of the remainders. -/
theorem ne_original (hstate : state ≠ .completed) (hi : i < k) :
  t.id ≠ env.uuid i
  := by
  intro heq
  have hcompleted := h.original
  rw [heq, h.not_isCompleted hstate hi] at hcompleted
  contradiction

variable {id : String}

/-- Of the remainders, only the first is dispatched. -/
theorem mem_dispatched (hstate : state ≠ .pending) (hid : id ∈ remainderIds env k) :
  id ∈ b.dispatched.map (·.task.id) ↔ id = env.uuid 0
  := by
  have hfilter : id ∈ (b.dispatched.map (·.task.id)).filter (· ∈ remainderIds env k)
      ↔ id ∈ b.dispatched.map (·.task.id) := by
    rw [List.mem_filter, decide_eq_true_eq]
    exact and_iff_left hid
  rw [← hfilter, h.sent, if_neg hstate, List.mem_singleton]

/-- Only the stored tasks and the dispatches of the remainders matter. -/
theorem frame {b' : Board} (hkeyed : b'.Keyed)
    (horiginal : b'.lookup t.id = b.lookup t.id)
    (hlookup : ∀ i < k, b'.lookup (env.uuid i) = b.lookup (env.uuid i)) (hk : 0 < k)
    (hsent : (b'.dispatched.map (·.task.id)).filter (· ∈ remainderIds env k)
      = (b.dispatched.map (·.task.id)).filter (· ∈ remainderIds env k)) :
  Waiting env k t state b'
  where
  keyed := hkeyed
  original := by
    rw [isCompleted, horiginal]
    apply h.original
  first := by
    rw [hlookup 0 hk]
    apply h.first
  later := by
    intro i hi
    rw [hlookup (i + 1) hi]
    apply h.later i hi
  sent := hsent.trans h.sent

/-- Considering a task that is no remainder. -/
theorem consider_other (hk : 0 < k) (hid : id ∉ remainderIds env k) :
  Waiting env k t state (b.consider id)
  := by
  have hkeyed := h.keyed.consider id
  rw [consider] at hkeyed ⊢
  split at hkeyed
  · apply h
  · rename_i u hu
    obtain rfl := h.keyed hu
    split at hkeyed
    · rename_i hpending
      have hne : t.id ≠ u.id := by
        intro heq
        have hcompleted := h.original
        rw [heq, isCompleted_of_lookup hu, hpending.1] at hcompleted
        contradiction
      rw [if_pos hpending]
      apply h.frame hkeyed
      · exact lookup_send_of_ne b hne
      · intro i hi
        apply lookup_send_of_ne
        intro heq
        apply hid
        apply mem_remainderIds.mpr ⟨i, hi, heq⟩
      · apply hk
      · rw [send, dispatch, List.map_append, List.filter_append]
        simp [HmasTask.withState, hid]
    · rename_i hpending
      rw [if_neg hpending]
      apply h

/-- Considering a later remainder. -/
theorem consider_later (hstate : state ≠ .completed) (hi : i + 1 < k) :
  b.consider (env.uuid (i + 1)) = b
  := by
  obtain ⟨u, hu, -, hblocked⟩ := h.later i hi
  rw [consider, hu]
  apply if_neg
  rintro ⟨-, hclear⟩
  have hcompleted := List.all_eq_true.mp hclear _ hblocked
  rw [h.not_isCompleted hstate (Nat.lt_of_succ_lt hi)] at hcompleted
  contradiction

/-- Storing the first remainder in another state. -/
theorem put_first (hids : IdSupply env.uuid)
    (hstate : state ≠ .completed) (hk : 0 < k) {u : HmasTask} (hid : u.id = env.uuid 0)
    (hblocked : u.blockedBy = [t.id]) (hchildren : u.childTaskIds = [])
    {dispatched : List Dispatch}
    (hsent : (dispatched.map (·.task.id)).filter (· ∈ remainderIds env k)
      = if u.state = .pending then [] else [env.uuid 0]) :
  Waiting env k t u.state { b.put u with dispatched }
  where
  keyed := h.keyed.put u
  original := by
    have hne : t.id ≠ u.id := by
      rw [hid]
      apply h.ne_original hstate hk
    rw [isCompleted, show lookup { b.put u with dispatched } t.id = b.lookup t.id
      from lookup_put_of_ne b hne]
    apply h.original
  first := by
    use u
    refine ⟨?_, rfl, hblocked, hchildren⟩
    apply lookup_put_of_eq b hid
  later := by
    intro i hi
    have hne : env.uuid (i + 1) ≠ u.id := by
      rw [hid]
      intro heq
      apply Nat.succ_ne_zero i (hids.injective heq)
    rw [show lookup { b.put u with dispatched } (env.uuid (i + 1))
      = b.lookup (env.uuid (i + 1)) from lookup_put_of_ne b hne]
    apply h.later i hi
  sent := hsent

end

/-- Considering the first remainder sends it. -/
theorem consider_first (h : Waiting env k t .pending b) (hids : IdSupply env.uuid) (hk : 0 < k) :
  Waiting env k t .delegated (b.consider (env.uuid 0))
  := by
  obtain ⟨u, hu, hpending, hblocked, hchildren⟩ := h.first
  have hclear : b.clear u = true := by
    rw [clear, hblocked, List.all_cons, h.original]
    rfl
  have hid : u.id = env.uuid 0 := h.keyed hu
  have hmem : env.uuid 0 ∈ remainderIds env k := mem_remainderIds.mpr ⟨0, hk, rfl⟩
  rw [consider, hu]
  simp only [hpending, hclear, and_self, ↓reduceIte]
  apply h.put_first hids (by decide) hk (u := u.withState .delegated) hid hblocked hchildren
  rw [List.map_append, List.filter_append, dispatched_put, h.sent]
  simp [HmasTask.withState, hid, hmem]

/-- Considering anything once the first remainder is sent. -/
theorem consider_delegated (h : Waiting env k t .delegated b) (hk : 0 < k) (id : String) :
  Waiting env k t .delegated (b.consider id)
  := by
  by_cases hid : id ∈ remainderIds env k
  · obtain ⟨i, hi, rfl⟩ := mem_remainderIds.mp hid
    cases i with
    | zero =>
      obtain ⟨u, hu, hstate, -⟩ := h.first
      rw [consider, hu]
      simp only [hstate, reduceCtorEq, false_and, ↓reduceIte]
      apply h
    | succ i =>
      rw [h.consider_later (by decide) hi]
      apply h
  · apply h.consider_other hk hid

theorem considerAll_delegated (hk : 0 < k) :
  ∀ (ids : List String) {b : Board}, Waiting env k t .delegated b →
    Waiting env k t .delegated (ids.foldl consider b)
  | [], _, h => h
  | id :: ids, _, h => considerAll_delegated hk ids (h.consider_delegated hk id)

/-- Considering the children of the task that was split sends the first remainder and no
other. -/
theorem considerAll (hids : IdSupply env.uuid) (hk : 0 < k) :
  ∀ {ids : List String} {b : Board}, env.uuid 0 ∈ ids → Waiting env k t .pending b →
    Waiting env k t .delegated (ids.foldl consider b)
  | id :: ids, b, hmem, h => by
      rw [List.foldl_cons]
      by_cases hfirst : id = env.uuid 0
      · subst id
        apply considerAll_delegated hk ids (h.consider_first hids hk)
      · have hrest : env.uuid 0 ∈ ids := (List.mem_cons.mp hmem).resolve_left (Ne.symm hfirst)
        apply considerAll hids hk hrest
        by_cases hid : id ∈ remainderIds env k
        · obtain ⟨i, hi, rfl⟩ := mem_remainderIds.mp hid
          cases i with
          | zero => contradiction
          | succ i =>
            rw [h.consider_later (by decide) hi]
            apply h
        · apply h.consider_other hk hid

/-- Completing the first remainder. -/
theorem complete_first (h : Waiting env k t .delegated b) (hids : IdSupply env.uuid)
    (hk : 0 < k) (now : String) :
  Waiting env k t .completed (b.complete now (env.uuid 0))
  := by
  obtain ⟨u, hu, hstate, hblocked, hchildren⟩ := h.first
  have hwalk : completionWalk now u = u.finished .completed now := by
    rw [completionWalk_eq, hstate]
    rfl
  have hid : u.id = env.uuid 0 := h.keyed hu
  rw [complete, hu]
  simp only [hwalk]
  rw [show (u.finished .completed now).childTaskIds = [] from hchildren, List.foldl_nil]
  apply h.put_first hids (by decide) hk (u := u.finished .completed now) hid hblocked hchildren
  apply h.sent

end Waiting

/-- Every task is stored under its identifier, and the dispatched tasks are stored. -/
structure Consistent (b : Board) : Prop where
  keyed : b.Keyed
  logged : ∀ d ∈ b.dispatched, (b.lookup d.task.id).isSome = true

variable {subs : List Json}

/-- A split of a task into valid entries. -/
theorem split_of_valid (hids : IdSupply env.uuid) (ht : b.lookup t.id = some t) (hsubs : subs ≠ [])
    (hvalid : ∀ sub ∈ subs, ValidSubtask sub) :
  ∃ children, b.split env t.id (.array subs)
      = (b.putAll children).put
          { t with childTaskIds := t.childTaskIds ++ remainderIds env subs.length }
    ∧ children.length = subs.length
    ∧ ∀ i c, children[i]? = some c → IsRemainder env t i c
  := by
  obtain ⟨children, hplan, hlength, hchildren⟩ := splitPlan_of_valid hids t subs 0 hvalid
  use children
  refine ⟨?_, hlength, ?_⟩
  · cases subs with
    | nil => contradiction
    | cons sub rest =>
      rw [show remainderIds env 0 = [] from rfl] at hplan
      unfold split
      simp only [ht, hplan, Nat.zero_add]
  · intro i c hc
    rw [← Nat.zero_add i]
    apply hchildren i c hc

variable {u : HmasTask} {children : List HmasTask}

/-- The remainders of a split are stored. -/
theorem lookup_children (hfresh : env.Fresh b) (ht : b.lookup t.id = some t)
    (hchildren : ∀ i c, children[i]? = some c → IsRemainder env t i c) (hu : u.id = t.id) {i : ℕ}
    (hi : i < children.length) :
  ∃ c, ((b.putAll children).put u).lookup (env.uuid i) = some c ∧ IsRemainder env t i c
  := by
  have hremainder := hchildren i children[i] (List.getElem?_eq_getElem hi)
  have hne : env.uuid i ≠ u.id := by
    intro heq
    rw [← hu, ← heq, hfresh.unused] at ht
    contradiction
  have hnodup : (children.map (·.id)).Nodup := by
    rw [List.nodup_iff_getElem?_ne_getElem?]
    intro i j hij hj heq
    rw [List.length_map] at hj
    have hjth := hchildren j children[j] (List.getElem?_eq_getElem hj)
    have hith := hchildren i children[i] (List.getElem?_eq_getElem (hij.trans hj))
    rw [List.getElem?_map, List.getElem?_map, List.getElem?_eq_getElem hj,
      List.getElem?_eq_getElem (hij.trans hj), Option.map_some, Option.map_some,
      Option.some.injEq, hith.id, hjth.id] at heq
    apply Nat.ne_of_lt hij (hfresh.injective heq)
  use children[i]
  refine ⟨?_, hremainder⟩
  rw [lookup_put_of_ne _ hne, ← hremainder.id]
  apply lookup_putAll_of_mem hnodup (List.getElem_mem hi)

/-- Before the children of the task that was split are considered, all remainders wait. -/
theorem waiting_of_children (hb : b.Consistent) (hfresh : env.Fresh b) (ht : b.lookup t.id = some t)
    (hne : children ≠ []) (hchildren : ∀ i c, children[i]? = some c → IsRemainder env t i c)
    (hid : u.id = t.id) (hstate : u.state = .completed) :
  Waiting env children.length t .pending ((b.putAll children).put u)
  where
  keyed := (hb.keyed.putAll children).put u
  original := by
    rw [isCompleted_of_lookup (lookup_put_of_eq _ hid), hstate]
    rfl
  first := by
    obtain ⟨c, hc, hremainder⟩ := lookup_children hfresh ht hchildren hid
      (List.length_pos_iff.mpr hne)
    exact ⟨c, hc, hremainder.newborn.state, hremainder.blockedBy, hremainder.childTaskIds⟩
  later := by
    intro i hi
    obtain ⟨c, hc, hremainder⟩ := lookup_children hfresh ht hchildren hid hi
    refine ⟨c, hc, hremainder.newborn.state, ?_⟩
    rw [hremainder.blockedBy]
    simp
  sent := by
    rw [dispatched_put, dispatched_putAll]
    apply List.filter_eq_nil_iff.mpr
    intro id hmem hremainder
    obtain ⟨d, hd, rfl⟩ := List.mem_map.mp hmem
    obtain ⟨i, -, hi⟩ := mem_remainderIds.mp (of_decide_eq_true hremainder)
    have hlogged := hb.logged d hd
    rw [← hi, hfresh.unused] at hlogged
    contradiction

/-- After the split and the completion of the task that was split, its first remainder is
sent, and the others wait. -/
theorem waiting_of_split (hb : b.Consistent) (hfresh : env.Fresh b) (ht : b.lookup t.id = some t)
    (hlive : t.state.terminal = false) (hsubs : subs ≠ []) (hvalid : ∀ sub ∈ subs, ValidSubtask sub)
    (now : String) :
  Waiting env subs.length t .delegated ((b.split env t.id (.array subs)).complete now t.id)
  := by
  obtain ⟨children, hsplit, hlength, hchildren⟩ :=
    split_of_valid hfresh.toIdSupply ht hsubs hvalid
  have hk : 0 < subs.length := List.length_pos_iff.mpr hsubs
  have hne : children ≠ [] := by
    apply List.length_pos_iff.mp
    rw [hlength]
    apply hk
  rw [hsplit, complete, lookup_put_self _ { t with childTaskIds := _ }]
  simp only [completionWalk_eq, hlive, Bool.false_eq_true, ↓reduceIte]
  apply Waiting.considerAll hfresh.toIdSupply hk
  · apply List.mem_append_right
    apply mem_remainderIds.mpr ⟨0, hk, rfl⟩
  · rw [put_put, ← hlength]
    · apply waiting_of_children hb hfresh ht hne hchildren
      · rfl
      · rfl
    · rfl

end Board

/-! ### Completing the remainders -/

namespace Orchestrator

/-- The worlds reached from `w₀` by completing those tasks of `ids` that are dispatched and not
in a final state. -/
inductive Completions (parse : String → Option Json) (ids : List String) (w₀ : World) :
    World → Prop
  | start : Completions parse ids w₀ w₀
  | complete {w : World} {t : HmasTask} {payload : String} (env : Env)
      (run : Completions parse ids w₀ w) (mem : t.id ∈ ids)
      (sent : t.id ∈ w.dispatched.map (·.task.id)) (stored : w.store.getHmasTask t.id = some t)
      (live : t.state.terminal = false) (names : completionTarget parse payload = some t.id) :
      Completions parse ids w₀
        (exec World.handle (Call.program parse env (.onMyrmidonCompletion payload)) w).2

/-- All tasks of `ids` that are dispatched are in a final state. -/
def Drained (ids : List String) (w : World) : Prop :=
  ∀ id ∈ ids, id ∈ w.dispatched.map (·.task.id) → ∀ t, w.store.getHmasTask id = some t →
    t.state.terminal = true

instance (ids : List String) (w : World) : Decidable (Drained ids w) :=
  inferInstanceAs (Decidable (∀ id ∈ ids, id ∈ w.dispatched.map (·.task.id) →
    ∀ t ∈ w.store.getHmasTask id, t.state.terminal = true))

variable {parse : String → Option Json} {env : Env} {t : HmasTask} {k : ℕ} {w₀ w : World}

/-- Of the remainders, only the first is ever sent. -/
theorem Completions.waiting (hids : IdSupply env.uuid) (hk : 0 < k)
    (h₀ : Board.Waiting env k t .delegated w₀.board)
    (hrun : Completions parse (remainderIds env k) w₀ w) :
  Board.Waiting env k t .delegated w.board ∨ Board.Waiting env k t .completed w.board
  := by
  induction hrun with
  | start => apply Or.inl h₀
  | @complete w u payload env' run mem sent stored live names ih =>
    right
    rcases ih with h | h
    · have hfirst := (h.mem_dispatched (by decide) mem).mp sent
      rw [board_exec h.keyed, Call.effect, names, hfirst]
      apply h.complete_first hids hk
    · have hfirst := (h.mem_dispatched (by decide) mem).mp sent
      obtain ⟨v, hv, hstate, -⟩ := h.first
      rw [← hfirst] at hv
      obtain rfl := Option.some.inj (hv.symm.trans stored)
      rw [hstate] at live
      contradiction

/-- Once the first remainder is completed, nothing is left. -/
theorem drained_of_waiting (h : Board.Waiting env k t .completed w.board) :
  Drained (remainderIds env k) w
  := by
  intro id hid hsent u hu
  obtain ⟨v, hv, hstate, -⟩ := h.first
  rw [← (h.mem_dispatched (by decide) hid).mp hsent] at hv
  obtain rfl := Option.some.inj (hv.symm.trans hu)
  rw [hstate]
  rfl

/-- The remainders can be completed until none is left. -/
theorem exists_drained (hparse : Speaks parse) (hids : IdSupply env.uuid) (hk : 0 < k)
    (h₀ : Board.Waiting env k t .delegated w₀.board) :
  ∃ w, Completions parse (remainderIds env k) w₀ w
    ∧ Drained (remainderIds env k) w
  := by
  obtain ⟨u, hu, hstate, -⟩ := h₀.first
  have hid : u.id = env.uuid 0 := h₀.keyed hu
  have hmem : env.uuid 0 ∈ remainderIds env k := mem_remainderIds.mpr ⟨0, hk, rfl⟩
  have hsent : env.uuid 0 ∈ w₀.dispatched.map (·.task.id)
    := (h₀.mem_dispatched (by decide) hmem).mpr rfl
  obtain ⟨payload, hpayload⟩ := hparse.completionTarget (hids.ne_empty 0)
  have hlive : u.state.terminal = false := by
    rw [hstate]
    rfl
  rw [← hid] at hu hmem hsent
  refine ⟨_, .complete env .start hmem hsent hu hlive (hid ▸ hpayload), ?_⟩
  apply drained_of_waiting (t := t)
  rw [board_exec h₀.keyed, Call.effect, hpayload]
  apply h₀.complete_first hids hk

/-- The world after a split of the task `id` and a completion message. -/
def splitWorld (parse : String → Option Json) (env env' : Env) (id : String) (subs : List Json)
    (payload : String) (w : World) : World :=
  (exec World.handle (Call.program parse env' (.onMyrmidonCompletion payload))
    (exec World.handle (Call.program parse env (.splitTask id (.array subs))) w).2).2

/-- After a split and the completion of the task that was split, its first remainder is
sent. -/
theorem waiting_splitWorld (hw : w.board.Consistent) (hfresh : env.Fresh w.board)
    (hstored : w.store.getHmasTask t.id = some t) (hlive : t.state.terminal = false)
    {subs : List Json} (hsubs : subs ≠ []) (hvalid : ∀ sub ∈ subs, Board.ValidSubtask sub)
    {payload : String} (hpayload : completionTarget parse payload = some t.id) (env' : Env) :
  Board.Waiting env subs.length t .delegated
    (splitWorld parse env env' t.id subs payload w).board
  := by
  have hsplit : (exec World.handle (Call.program parse env (.splitTask t.id (.array subs)))
      w).2.board = w.board.split env t.id (.array subs) := board_exec hw.keyed _
  have hkeyed : (w.board.split env t.id (.array subs)).Keyed
    := (changes_split hw.keyed hfresh t.id (.array subs)).moves.keyed hw.keyed
  rw [← hsplit] at hkeyed
  rw [splitWorld, board_exec hkeyed, hsplit, Call.effect, hpayload]
  apply waiting_of_split hw hfresh hstored hlive hsubs hvalid

/-- After a split and the completion of the task that was split, all remainders are
dispatched in order and completed, if there is only one; otherwise there is a run in which
they are not. -/
theorem split_all_run_iff (hparse : Speaks parse) (hw : w.board.Consistent)
    (hfresh : env.Fresh w.board) (hstored : w.store.getHmasTask t.id = some t)
    (hlive : t.state.terminal = false) {subs : List Json} (hsubs : subs ≠ [])
    (hvalid : ∀ sub ∈ subs, Board.ValidSubtask sub) {payload : String}
    (hpayload : completionTarget parse payload = some t.id) (env' : Env) :
  (∀ w', Completions parse (remainderIds env subs.length)
      (splitWorld parse env env' t.id subs payload w) w' →
    Drained (remainderIds env subs.length) w' →
    (w'.dispatched.map (·.task.id)).filter (· ∈ remainderIds env subs.length)
      = remainderIds env subs.length
    ∧ ∀ id ∈ remainderIds env subs.length, Board.CompletedIn w'.store.hmasTasks id)
  ↔ subs.length = 1
  := by
  have hk : 0 < subs.length := List.length_pos_iff.mpr hsubs
  have hstart : Board.Waiting env subs.length t .delegated
      (splitWorld parse env env' t.id subs payload w).board
    := waiting_splitWorld hw hfresh hstored hlive hsubs hvalid hpayload env'
  constructor
  · intro hall
    obtain ⟨w', hrun, hdrained⟩ := exists_drained hparse hfresh.toIdSupply hk hstart
    have hsent := (hall w' hrun hdrained).1
    have hone : (remainderIds env subs.length) = [env.uuid 0] := by
      rcases hrun.waiting hfresh.toIdSupply hk hstart with h | h
      · exact hsent.symm.trans h.sent
      · exact hsent.symm.trans h.sent
    have hlength := congrArg List.length hone
    rw [remainderIds, List.length_map, List.length_range] at hlength
    apply hlength
  · intro hone w' hrun hdrained
    have hfirst : env.uuid 0 ∈ remainderIds env subs.length
      := mem_remainderIds.mpr ⟨0, hk, rfl⟩
    rcases hrun.waiting hfresh.toIdSupply hk hstart with h | h
    · -- the first remainder is still in progress, so something is left
      obtain ⟨u, hu, hstate, -⟩ := h.first
      have hsent := (h.mem_dispatched (by decide) hfirst).mpr rfl
      have hterminal := hdrained _ hfirst hsent u hu
      rw [hstate] at hterminal
      contradiction
    · have hids : remainderIds env subs.length = [env.uuid 0] := by
        rw [hone]
        rfl
      constructor
      · apply h.sent.trans
        rw [hids]
        rfl
      · intro id hid
        rw [hids] at hid
        obtain rfl := List.mem_singleton.mp hid
        obtain ⟨u, hu, hstate, -⟩ := h.first
        exact ⟨u, hu, hstate⟩

/-- The board of a run is consistent. -/
theorem Run.consistent {events : List Event} (hrun : Run parse World.empty events w) :
  w.board.Consistent
  where
  keyed := (hrun.moves keyed_empty).keyed keyed_empty
  logged := by
    intro d hd
    obtain ⟨u, hu, -⟩ := ((hrun.moves keyed_empty).safe keyed_empty
      safe_empty).gone d hd
    rw [hu]
    rfl

/-- The root of the brief in `submitted`. -/
theorem exists_root :
  ∃ t, t.id = "|" ∧ submitted.store.getHmasTask t.id = some t ∧ t.state.terminal = false
  := by
  use (submitted.store.getHmasTask "|").get (by decide +kernel)
  decide +kernel

/-- An entry of a split with a title. -/
def titled (title : String) : Json :=
  .object [("title", .string title)]

theorem titled_valid {title : String} (h : title ≠ "") :
  Board.ValidSubtask (titled title)
  where
  isObject := rfl
  title := ⟨title, h, rfl⟩
  issue := ⟨0, rfl⟩
  description := ⟨"", rfl⟩
  baseBranch := ⟨"", rfl⟩
  blockers := rfl

theorem split_all_run_iff_titled :
  (∀ sub ∈ [titled "a"], Board.ValidSubtask sub)
  ∧ ∀ w', Completions Json.read (remainderIds secondEnv 1)
      (splitWorld Json.read secondEnv secondEnv "|" [titled "a"] (naming "|") submitted) w' →
    Drained (remainderIds secondEnv 1) w' →
    (w'.dispatched.map (·.task.id)).filter (· ∈ remainderIds secondEnv 1)
      = remainderIds secondEnv 1
    ∧ ∀ id ∈ remainderIds secondEnv 1, Board.CompletedIn w'.store.hmasTasks id
  := by
  obtain ⟨before, hbefore⟩ := run_submitted
  obtain ⟨t, hid, hstored, hlive⟩ := exists_root
  have hvalid : ∀ sub ∈ [titled "a"], Board.ValidSubtask sub := by
    intro sub hsub
    obtain rfl := List.mem_singleton.mp hsub
    apply titled_valid (by decide)
  have hpayload : completionTarget Json.read (naming "|") = some t.id := by
    rw [hid]
    rfl
  refine ⟨hvalid, ?_⟩
  rw [← hid] at hpayload ⊢
  apply (split_all_run_iff read_speaks hbefore.consistent secondEnv_fresh hstored hlive
    (List.cons_ne_nil _ _) hvalid hpayload secondEnv).mpr
  rfl

/-- The second of two remainders is never dispatched. -/
theorem split_pair_stuck :
  (∀ sub ∈ [titled "a", titled "b"], Board.ValidSubtask sub)
  ∧ (∃ t, t.id = "|" ∧ submitted.store.getHmasTask t.id = some t ∧ t.state.terminal = false)
  ∧ ∃ w', Completions Json.read (remainderIds secondEnv 2)
        (splitWorld Json.read secondEnv secondEnv "|" [titled "a", titled "b"] (naming "|")
          submitted) w'
      ∧ Drained (remainderIds secondEnv 2) w'
      ∧ secondEnv.uuid 1 ∈ remainderIds secondEnv 2
      ∧ secondEnv.uuid 1 ∉ w'.dispatched.map (·.task.id)
      ∧ ¬ Board.CompletedIn w'.store.hmasTasks (secondEnv.uuid 1)
  := by
  let w := splitWorld Json.read secondEnv secondEnv "|" [titled "a", titled "b"] (naming "|")
    submitted
  have hrun : Completions Json.read (remainderIds secondEnv 2) w _ :=
    .complete (t := (w.store.getHmasTask (secondEnv.uuid 0)).get (by decide +kernel)) secondEnv
      .start (by decide +kernel) (by decide +kernel) (by decide +kernel) (by decide +kernel)
      (show completionTarget Json.read (naming (secondEnv.uuid 0)) = _ by decide +kernel)
  refine ⟨?_, exists_root, _, hrun, by decide +kernel⟩
  intro sub hsub
  rcases List.mem_pair.mp hsub with rfl | rfl
  · apply titled_valid (by decide)
  · apply titled_valid (by decide)

end Orchestrator

end Agamemnon
