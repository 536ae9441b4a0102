import Agamemnon.Store.Isolation
import Agamemnon.Store.Loading

/-!
# Pages of a listing

A listing is collected from a map, sorted by key and cut into a page by a loop.  The pages at the
multiples of a limit make up the sorted collection, and every page reports its size.

The tasks of a team are selected by reading the `teamId` of all tasks.  A task whose `teamId` is not
a string, which can be loaded from an issue, makes the listing of every team throw, so the pages
are as they should be exactly if there is no such task (`allPaged_iff`).
-/

namespace Agamemnon

open StringMap

/-! ### One page -/

/-- The loop that fills a page, from the position `i` on. -/
def pageLoop (limit : ℕ) (sorted : List (String × Json)) (i : ℕ) (arr : List Json) : List Json :=
  if h : i < sorted.length ∧ arr.length < limit then
    pageLoop limit sorted (i + 1) (arr ++ [(sorted.get ⟨i, h.1⟩).2])
  else arr
termination_by sorted.length - i

/-- The loop appends the elements from its position on, until there are `limit` of them. -/
theorem pageLoop_eq (limit : ℕ) (sorted : List (String × Json)) (i : ℕ) (arr : List Json) :
  pageLoop limit sorted i arr
    = arr ++ ((sorted.drop i).take (limit - arr.length)).map (·.2)
  := by
  fun_induction pageLoop with
  | case1 i arr h ih =>
    obtain ⟨hi, hroom⟩ := h
    have hleft : limit - arr.length = limit - (arr ++ [(sorted.get ⟨i, hi⟩).2]).length + 1 := by
      rw [List.length_append, List.length_singleton]
      omega
    rw [ih, hleft, List.drop_eq_getElem_cons hi, List.take_succ_cons, List.map_cons,
      List.append_assoc]
    rfl
  | case2 i arr h =>
    rcases not_and_or.mp h with hend | hfull
    · rw [List.drop_of_length_le (not_lt.mp hend), List.take_nil, List.map_nil, List.append_nil]
    · rw [Nat.sub_eq_zero_of_le (not_lt.mp hfull), List.take_zero, List.map_nil, List.append_nil]

theorem page_eq_pageLoop (limit offset : ℕ) (es : List (String × Json)) :
  page limit offset es = .array (pageLoop limit es offset [])
  := by
  rw [page, pageLoop_eq]
  rfl

/-! ### All pages -/

/-- The elements of a page, none if the listing throws. -/
def pageElements (key : String) : Except Exn Json → List Json
  | .ok reply =>
      match reply.get? key with
      | some (.array elements) => elements
      | _ => []
  | .error _ => []

/-- The first `n` pages, one after the other. -/
def firstPages (key : String) (answer : (limit offset : ℕ) → Except Exn Json) (limit n : ℕ) :
    List Json :=
  (List.range n).flatMap fun k => pageElements key (answer limit (k * limit))

/-- The answers are the pages of the list, as the loop fills them, and enough of them make up the
list. -/
structure PagesOf (es : List (String × Json)) (key : String)
    (answer : (limit offset : ℕ) → Except Exn Json) : Prop where
  reply : ∀ limit offset, ∃ reply, answer limit offset = .ok reply
    ∧ reply.get? key = some (.array (pageLoop limit es offset []))
    ∧ reply.get? "total" = some (.integer es.length)
  page : ∀ limit offset, pageLoop limit es offset [] = ((es.drop offset).take limit).map (·.2)
  partition : ∀ limit n, 0 < limit → es.length ≤ n * limit →
    firstPages key answer limit n = es.map (·.2)

/-- The answers are the pages of the collection that has the entities `Held`, in the order of their
identifiers. -/
def Paged (Held : String → Json → Prop) (key : String)
    (answer : (limit offset : ℕ) → Except Exn Json) : Prop :=
  ∃ es : List (String × Json), (es.Pairwise fun e e' => e.1 < e'.1)
    ∧ (∀ id entity, (id, entity) ∈ es ↔ Held id entity) ∧ PagesOf es key answer

section Listing

variable {es : List (String × Json)} {key : String} {limit offset : ℕ}

theorem get?_listing (hkey : key ∉ ["total", "limit", "offset"]) :
  (listing key limit offset es).get? key = some (page limit offset es)
    ∧ (listing key limit offset es).get? "total" = some (.integer es.length)
  := by
  simp only [List.mem_cons, List.not_mem_nil, or_false, not_or] at hkey
  obtain ⟨htotal, hlimit, hoffset⟩ := hkey
  have hnodup : ([(key, page limit offset es), ("total", .integer es.length),
      ("limit", .integer limit), ("offset", .integer offset)].map (·.1)).Nodup
    := by simp [htotal, hlimit, hoffset]
  rw [listing, Json.get?_ofMembers hnodup, Json.get?_ofMembers hnodup]
  simp only [Lists.lookup_cons, ↓reduceIte, if_neg (Ne.symm htotal), and_self]

/-- A listing of a list has its pages. -/
theorem pagesOf_listing (hkey : key ∉ ["total", "limit", "offset"])
    {answer : (limit offset : ℕ) → Except Exn Json}
    (hanswer : ∀ limit offset, answer limit offset = .ok (listing key limit offset es)) :
  PagesOf es key answer
  where
  reply := by
    intro limit offset
    use listing key limit offset es, hanswer limit offset
    rw [← page_eq_pageLoop]
    apply get?_listing hkey
  page := by
    intro limit offset
    rw [pageLoop_eq]
    rfl
  partition := by
    intro limit n _ henough
    have helements (k : ℕ) :
        pageElements key (answer limit (k * limit))
          = ((es.map (·.2)).drop (k * limit)).take limit := by
      rw [hanswer, pageElements, (get?_listing hkey).1, page, ← List.map_drop, ← List.map_take]
    rw [firstPages]
    simp only [helements]
    rw [Lists.flatMap_windows, List.take_of_length_le]
    rw [List.length_map]
    apply henough

end Listing

/-! ### The collections -/

section Collections

variable {m : Memory} {order : List String}

theorem StringMap.visits_sort {α : Type} (es : StringMap α) :
  es.Visits (es.keys.sort (· ≤ ·))
  where
  nodup := Finset.sort_nodup _ _
  mem := by
    intro k
    rw [Finset.mem_sort, Finmap.mem_keys]

/-- The listing of a collection. -/
theorem paged_listEntities {c : Collection} (h : (m.entities c).Visits order) {key : String}
    (hkey : key ∉ ["total", "limit", "offset"]) :
  Paged (fun id entity => (m.entities c).lookup id = some entity) key
    fun limit offset => .ok (m.listEntities order c key limit offset)
  := by
  use entries (m.entities c), pairwise_entries _
  constructor
  · intro id entity
    apply mem_entries
  · apply pagesOf_listing hkey
    intro limit offset
    rw [Memory.listEntities_eq h]

/-- The listing of the tasks of a team. -/
theorem paged_listTasksForTeam (htasks : AllTasks m.tasks) (h : m.tasks.Visits order)
    (teamId : String) :
  Paged (fun id task => m.tasks.lookup id = some task ∧ owner task = teamId) "tasks"
    (m.listTasksForTeam order teamId)
  := by
  use (entries m.tasks).filter fun e => owner e.2 = teamId,
    (pairwise_entries m.tasks).filter _
  constructor
  · intro id task
    rw [List.mem_filter, mem_entries, decide_eq_true_eq]
  · apply pagesOf_listing (by decide)
    apply Memory.listTasksForTeam_eq htasks h

/-- The team of a task can be read exactly if it is a string. -/
theorem Json.exists_valueString_iff {task : Json} :
  (∃ teamId, task.valueString "teamId" "" = .ok teamId) ↔ task.IsTask
  := by
  constructor
  · rintro ⟨teamId, h⟩
    cases task with
    | object ms =>
      refine ⟨rfl, ?_⟩
      intro v hv
      rw [Json.valueString, Json.valueWith_of_get? hv] at h
      cases v with
      | string s => exact ⟨s, rfl⟩
      | _ => cases h
    | _ => cases h
  · intro h
    use owner task
    apply h.valueString

/-- The loop over the tasks reads the team of each. -/
theorem isTask_of_teamTasks {teamId : String} {es tasks : List (String × Json)}
    (h : Memory.teamTasks teamId es = .ok tasks) :
  ∀ e ∈ es, e.2.IsTask
  := by
  induction es generalizing tasks with
  | nil =>
    intro e he
    cases he
  | cons e es ih =>
    obtain ⟨id, task⟩ := e
    rw [Memory.teamTasks] at h
    obtain ⟨owner, howner, h⟩ := exists_of_bind_eq_ok h
    obtain ⟨rest, hrest, -⟩ := exists_of_bind_eq_ok h
    rw [List.forall_mem_cons]
    exact ⟨Json.exists_valueString_iff.mp ⟨owner, howner⟩, ih hrest⟩

end Collections

/-- The listings of the store have their pages, in whatever order the maps are iterated. -/
structure AllPaged (m : Memory) : Prop where
  agents : ∀ order, m.agents.Visits order →
    Paged (fun id agent => m.agents.lookup id = some agent) "agents"
      fun limit offset => .ok (m.listAgents order limit offset)
  teams : ∀ order, m.teams.Visits order →
    Paged (fun id team => m.teams.lookup id = some team) "teams"
      fun limit offset => .ok (m.listTeams order limit offset)
  tasks : ∀ order, m.tasks.Visits order →
    Paged (fun id task => m.tasks.lookup id = some task) "tasks"
      fun limit offset => .ok (m.listAllTasks order limit offset)
  teamTasks : ∀ order, m.tasks.Visits order → ∀ teamId,
    Paged (fun id task => m.tasks.lookup id = some task ∧ owner task = teamId) "tasks"
      (m.listTasksForTeam order teamId)
  faults : ∀ order, m.faults.Visits order →
    Paged (fun id fault => m.faults.lookup id = some fault) "faults"
      fun limit offset => .ok (m.listFaults order limit offset)

/-- All listings have their pages exactly if the team of each task is a string. -/
theorem allPaged_iff (m : Memory) :
  AllPaged m ↔ AllTasks m.tasks
  := by
  constructor
  · intro h id task htask
    have hvisits := visits_sort m.tasks
    obtain ⟨es, -, -, hpages⟩ := h.teamTasks _ hvisits ""
    obtain ⟨reply, hreply, -⟩ := hpages.reply 0 0
    rw [Memory.listTasksForTeam] at hreply
    cases hread : Memory.teamTasks "" (iterate m.tasks (m.tasks.keys.sort (· ≤ ·))) with
    | error exn =>
      rw [hread] at hreply
      cases hreply
    | ok tasks =>
      apply isTask_of_teamTasks hread (id, task)
      rw [hvisits.perm_entries.mem_iff, mem_entries]
      apply htask
  · intro htasks
    constructor
    · intro order horder
      exact paged_listEntities (c := .agents) horder (by decide)
    · intro order horder
      exact paged_listEntities (c := .teams) horder (by decide)
    · intro order horder
      exact paged_listEntities (c := .tasks) horder (by decide)
    · intro order horder
      apply paged_listTasksForTeam htasks horder
    · intro order horder
      exact paged_listEntities (c := .faults) horder (by decide)

/-- A task whose team is a number. -/
def numberedTeam : Json :=
  .ofMembers [("id", .string "t"), ("teamId", .integer 5)]

/-- Such a task is loaded from an issue, and then no page of a team is answered. -/
theorem not_allPaged_numberedTeam :
  let loaded := ensureTasksLoaded Json.read
    (some fun _ => some [(fencedIssue 1 numberedTeam).toJson]) .fresh
  let m : Memory := { Memory.empty with tasks := loaded.2.entities }
  loaded.1 = .ok () ∧ m.listTasksForTeam ["t"] "A" 10 0 = .error (.typeError 302) ∧ ¬ AllPaged m
  := by
  intro loaded m
  have herror : m.listTasksForTeam ["t"] "A" 10 0 = .error (.typeError 302) := by rfl
  have hvisits : m.tasks.Visits ["t"] := by
    constructor
    · decide
    · intro k
      rw [← Finmap.mem_keys]
      have hkeys : m.tasks.keys = {"t"} := by decide +kernel
      rw [hkeys, List.mem_singleton, Finset.mem_singleton]
  refine ⟨rfl, herror, ?_⟩
  intro h
  obtain ⟨es, -, -, hpages⟩ := h.teamTasks ["t"] hvisits "A"
  obtain ⟨reply, hreply, -⟩ := hpages.reply 10 0
  rw [herror] at hreply
  cases hreply

end Agamemnon
