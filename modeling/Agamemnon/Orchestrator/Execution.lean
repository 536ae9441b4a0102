import Agamemnon.Orchestrator.Runs
import Agamemnon.Plan.Network

/-!
# Executing a brief

An execution submits a brief to the empty store and then delivers, for one dispatched task
after the other, the message that it has completed or failed.  The board follows the
network of the brief: a task is pending until its place is sent.  So all executions of a
brief that come to an end agree (`execution_confluent`), and what remains pending at the
end is what the network does not reach (`execution_complete_iff`).
-/

namespace Agamemnon

open Program Orchestrator TaskBrief Board Schedule.Net

/-! ### The board of an execution -/

namespace TaskBrief

/-- The brief under another identifier. -/
def withId (brief : TaskBrief) (id : String) : TaskBrief :=
  { brief with id := id }

theorem numbersFit_withId (brief : TaskBrief) (id : String) :
  (brief.withId id).NumbersFit ↔ brief.NumbersFit
  := Iff.rfl

theorem unchained_withId (brief : TaskBrief) (id : String) :
  (brief.withId id).Unchained ↔ brief.Unchained
  := Iff.rfl

variable (uuid : ℕ → String) (ts : String) (brief : TaskBrief)

/-- The task at a place in the given state. -/
def taskIn (c : Node) (state : TaskState) (stamp : String) : HmasTask :=
  (brief.planTask uuid ts c).finished state stamp

/-- The state of the task at a place. -/
def stateOf (ok : Node → Bool) (s : Schedule.State Node) (c : Node) : TaskState :=
  if c ∈ s.finished then if ok c then .completed else .failed
  else if c ∈ s.sent then .delegated else .pending

/-- The stored tasks are those of the brief, each in the given state. -/
structure Holds (state : Node → TaskState) (b : Board) : Prop where
  task : ∀ c ∈ brief.nodes, ∃ stamp,
    b.lookup (brief.idOf uuid c) = some (brief.taskIn uuid ts c (state c) stamp)
  only : ∀ id t, b.lookup id = some t → ∃ c ∈ brief.nodes, brief.idOf uuid c = id

/-- The board is that of the state `s` of the network. -/
structure Follows (ok : Node → Bool) (s : Schedule.State Node) (b : Board) : Prop where
  nodes : ∀ c ∈ s.sent, c ∈ brief.nodes
  finished : s.finished ⊆ s.sent
  holds : brief.Holds uuid ts (stateOf ok s) b
  dispatched : ∀ id, id ∈ b.dispatched.map (·.task.id) ↔ ∃ c ∈ s.sent, brief.idOf uuid c = id

variable {uuid ts brief} {state : Node → TaskState}
  {ok : Node → Bool} {s : Schedule.State Node} {b : Board} {a c : Node}

@[simp]
theorem taskIn_id (state : TaskState) (stamp : String) :
  (brief.taskIn uuid ts c state stamp).id = brief.idOf uuid c
  := by
  cases c <;> rfl

theorem taskIn_blockedBy (state : TaskState) (stamp : String) :
  (brief.taskIn uuid ts c state stamp).blockedBy
    = (brief.network.blockers c).map (brief.idOf uuid)
  := rfl

theorem Holds.keyed (h : brief.Holds uuid ts state b) :
  b.Keyed
  := by
  intro id t ht
  obtain ⟨c, hc, rfl⟩ := h.only id t ht
  obtain ⟨stamp, hstamp⟩ := h.task c hc
  obtain rfl := Option.some.inj (hstamp.symm.trans ht)
  apply taskIn_id

/-- Storing the task at a place in another state. -/
theorem Holds.put (hids : IdSupply uuid) (h : brief.Holds uuid ts state b) (hc : c ∈ brief.nodes)
    (new : TaskState) (stamp : String) :
  brief.Holds uuid ts (Function.update state c new) (b.put (brief.taskIn uuid ts c new stamp))
  where
  task := by
    intro d hd
    rw [lookup_put, taskIn_id]
    split
    · rename_i hid
      obtain rfl := idOf_injOn hids.injective hd hid
      use stamp
      rw [Function.update_self]
    · rename_i hid
      rw [Function.update_of_ne]
      · apply h.task d hd
      · intro hdc
        apply hid
        rw [hdc]
  only := by
    intro id t ht
    rw [lookup_put, taskIn_id] at ht
    split at ht
    · rename_i hid
      use c, hc
      apply hid.symm
    · apply h.only id t ht

/-- The states of the stored tasks are determined. -/
theorem Holds.states_eq {b' : Board} (h : brief.Holds uuid ts state b)
    (h' : brief.Holds uuid ts state b') (id : String) :
  (b.lookup id).map (·.state) = (b'.lookup id).map (·.state)
  := by
  by_cases hid : ∃ c ∈ brief.nodes, brief.idOf uuid c = id
  · obtain ⟨c, hc, rfl⟩ := hid
    obtain ⟨stamp, hstamp⟩ := h.task c hc
    obtain ⟨stamp', hstamp'⟩ := h'.task c hc
    rw [hstamp, hstamp']
    rfl
  · have hnone : b.lookup id = none
      := Option.eq_none_iff_forall_ne_some.mpr fun t ht => hid (h.only id t ht)
    have hnone' : b'.lookup id = none
      := Option.eq_none_iff_forall_ne_some.mpr fun t ht => hid (h'.only id t ht)
    rw [hnone, hnone']

theorem Holds.dispatch (h : brief.Holds uuid ts state b) (t : HmasTask) :
  brief.Holds uuid ts state (b.dispatch t)
  := ⟨h.task, h.only⟩

theorem Holds.congr (h : brief.Holds uuid ts state b) {state' : Node → TaskState}
    (hstate : ∀ c ∈ brief.nodes, state' c = state c) :
  brief.Holds uuid ts state' b
  where
  task := by
    intro c hc
    rw [hstate c hc]
    apply h.task c hc
  only := h.only

theorem stateOf_eq_completed :
  stateOf ok s c = .completed ↔ c ∈ s.finished ∧ ok c = true
  := by
  rw [stateOf]
  split_ifs <;> simp_all

theorem stateOf_terminal :
  (stateOf ok s c).terminal = true ↔ c ∈ s.finished
  := by
  rw [stateOf]
  split_ifs <;> simp_all [TaskState.terminal]

theorem stateOf_eq_pending (hs : s.finished ⊆ s.sent) :
  stateOf ok s c = .pending ↔ c ∉ s.sent
  := by
  rw [stateOf]
  split_ifs with hfinished _ _
  · simp [hs hfinished]
  · simp [hs hfinished]
  · simp_all
  · simp_all

namespace Follows

variable (hids : IdSupply uuid) (h : brief.Follows uuid ts ok s b)
include h

/-- A task is completed when its place has finished with success. -/
theorem isCompleted (hc : c ∈ brief.nodes) :
  b.isCompleted (brief.idOf uuid c) = true ↔ c ∈ s.finished ∧ ok c = true
  := by
  obtain ⟨stamp, hstamp⟩ := h.holds.task c hc
  rw [Board.isCompleted, hstamp, decide_eq_true_eq]
  apply stateOf_eq_completed

/-- A task is no longer blocked when its place is ready. -/
theorem clear (hc : c ∈ brief.nodes) (state : TaskState) (stamp : String) :
  b.clear (brief.taskIn uuid ts c state stamp) = true ↔ brief.network.ready ok s c = true
  := by
  rw [Board.clear, taskIn_blockedBy, List.all_map, ready_iff, List.all_eq_true]
  constructor
  · intro hclear x hx
    apply (h.isCompleted (blocker_mem_nodes hc hx)).mp (hclear x hx)
  · intro hready x hx
    apply (h.isCompleted (blocker_mem_nodes hc hx)).mpr (hready x hx)

/-- A task whose place has been sent and has not finished is delegated. -/
theorem lookup_sent (ha : a ∈ s.sent) (hunfinished : a ∉ s.finished) :
  ∃ stamp, b.lookup (brief.idOf uuid a) = some (brief.taskIn uuid ts a .delegated stamp)
  := by
  obtain ⟨stamp, hstamp⟩ := h.holds.task a (h.nodes a ha)
  use stamp
  rw [hstamp, stateOf, if_neg hunfinished, if_pos ha]

include hids

/-- Sending a place that has not been sent. -/
theorem send (hc : c ∈ brief.nodes) (hsent : c ∉ s.sent) (stamp : String) :
  brief.Follows uuid ts ok { s with sent := insert c s.sent }
    (b.send (brief.taskIn uuid ts c .delegated stamp))
  where
  nodes := by
    intro d hd
    rcases Finset.mem_insert.mp hd with rfl | hd
    · apply hc
    · apply h.nodes d hd
  finished := h.finished.trans (Finset.subset_insert c s.sent)
  holds := by
    apply ((h.holds.put hids hc .delegated stamp).dispatch _).congr
    intro d _
    by_cases hdc : d = c
    · subst d
      have hfinished : c ∉ s.finished := fun hc => hsent (h.finished hc)
      simp [stateOf, hfinished]
    · rw [Function.update_of_ne hdc]
      simp [stateOf, hdc]
  dispatched := by
    intro id
    rw [Board.send, Board.dispatch, List.map_append, List.mem_append, Board.dispatched_put,
      h.dispatched id]
    simp only [List.map_cons, List.map_nil, List.mem_singleton, taskIn_id, Finset.mem_insert]
    constructor
    · rintro (⟨d, hd, hid⟩ | rfl)
      · exact ⟨d, Or.inr hd, hid⟩
      · exact ⟨c, Or.inl rfl, rfl⟩
    · rintro ⟨d, rfl | hd, hid⟩
      · exact Or.inr hid.symm
      · exact Or.inl ⟨d, hd, hid⟩

/-- Considering a place. -/
theorem consider (hc : c ∈ brief.nodes) :
  brief.Follows uuid ts ok (brief.network.consider ok s c) (b.consider (brief.idOf uuid c))
  := by
  obtain ⟨stamp, hstamp⟩ := h.holds.task c hc
  rw [Schedule.Net.consider, Board.consider, hstamp]
  have hpending : (brief.taskIn uuid ts c (stateOf ok s c) stamp).state = .pending ↔ c ∉ s.sent
    := stateOf_eq_pending h.finished
  simp only [h.clear hc, hpending]
  by_cases hready : brief.network.ready ok s c = true
  · rw [if_pos hready]
    by_cases hsent : c ∈ s.sent
    · rw [if_neg (by simp [hsent]), Finset.insert_eq_of_mem hsent]
      apply h
    · rw [if_pos ⟨hsent, hready⟩]
      apply h.send hids hc hsent
  · rw [if_neg hready, if_neg (by simp [hready])]
    apply h

omit h in
theorem considerAll :
  ∀ (cs : List Node) {s : Schedule.State Node} {b : Board}, (∀ c ∈ cs, c ∈ brief.nodes) →
    brief.Follows uuid ts ok s b →
    brief.Follows uuid ts ok (cs.foldl (brief.network.consider ok) s)
      ((cs.map (brief.idOf uuid)).foldl Board.consider b)
  | [], _, _, _, h => h
  | c :: cs, s, b, hcs, h => by
      have hc := h.consider hids (hcs c List.mem_cons_self)
      apply considerAll cs (fun d hd => hcs d (List.mem_cons_of_mem c hd)) hc

/-- Storing a task that has finished. -/
theorem put_finished (ha : a ∈ s.sent) (stamp : String) :
  brief.Follows uuid ts ok { s with finished := insert a s.finished }
    (b.put (brief.taskIn uuid ts a (if ok a then .completed else .failed) stamp))
  where
  nodes := h.nodes
  finished := Finset.insert_subset ha h.finished
  holds := by
    apply (h.holds.put hids (h.nodes a ha) _ stamp).congr
    intro d _
    by_cases hda : d = a
    · subst d
      rw [Function.update_self, stateOf, if_pos (Finset.mem_insert_self a s.finished)]
    · rw [Function.update_of_ne hda]
      simp [stateOf, hda]
  dispatched := h.dispatched

/-- A completion message for a task that has been sent. -/
theorem complete (ha : a ∈ s.sent)
    (hunfinished : a ∉ s.finished) (hok : ok a = true) (now : String) :
  brief.Follows uuid ts ok (brief.network.finish ok s a) (b.complete now (brief.idOf uuid a))
  := by
  obtain ⟨stamp, hstamp⟩ := h.lookup_sent ha hunfinished
  have hput := h.put_finished hids ha now
  rw [if_pos hok] at hput
  rw [finish, if_pos hok, Board.complete, hstamp]
  simp only [completionWalk_eq]
  apply considerAll hids _ _ hput
  intro c hc
  apply (mem_watchers.mp hc).1

/-- A failure message for a task that has been sent. -/
theorem fail (ha : a ∈ s.sent) (hunfinished : a ∉ s.finished) (hok : ok a = false) (now : String) :
  brief.Follows uuid ts ok (brief.network.finish ok s a) (b.fail now (brief.idOf uuid a))
  := by
  obtain ⟨stamp, hstamp⟩ := h.lookup_sent ha hunfinished
  have hput := h.put_finished hids ha now
  rw [hok] at hput
  rw [finish, hok, Board.fail, hstamp]
  simp only [failedWalk_eq]
  apply hput

end Follows

/-- The tasks of a brief in an empty store. -/
theorem holds_plan (hids : IdSupply uuid) (hfit : brief.NumbersFit) :
  brief.Holds uuid ts (fun _ => .pending) (empty.putAll (brief.plan uuid ts))
  where
  task := by
    intro c hc
    use ""
    have hmem : brief.planTask uuid ts c ∈ brief.plan uuid ts := List.mem_map_of_mem hc
    have hlookup := lookup_putAll_of_mem (b := empty)
      (shape_plan hids hfit).nodup_ids hmem
    rw [planTask, taskAt_id] at hlookup
    rw [hlookup]
    cases c <;> rfl
  only := by
    intro id t ht
    by_contra hnone
    rw [lookup_putAll_of_not_mem] at ht
    · exact absurd ht (by simp [empty, lookup])
    · intro hid
      obtain ⟨u, hu, rfl⟩ := List.mem_map.mp hid
      obtain ⟨c, hc, rfl⟩ := List.mem_map.mp hu
      apply hnone
      use c, hc
      rw [planTask, taskAt_id]

/-- The board after a submission. -/
theorem follows_submit {env : Env} (hids : IdSupply env.uuid) (hfit : brief.NumbersFit) :
  brief.Follows env.uuid env.ts ok ⟨{.l0}, ∅⟩ (empty.submit env brief)
  := by
  have hstart : brief.Follows env.uuid env.ts ok ⟨∅, ∅⟩
      (empty.putAll (brief.plan env.uuid env.ts)) := by
    constructor
    · simp
    · apply Finset.Subset.refl
    · apply (holds_plan hids hfit).congr
      intro c _
      rfl
    · simp [empty]
  rw [submit_eq hids hfit]
  apply hstart.send hids brief.l0_mem_nodes (Finset.notMem_empty _)

end TaskBrief

/-! ### Executions -/

namespace Orchestrator

variable (parse : String → Option Json)

/-- The world after the brief is submitted to the empty store. -/
def submittedWorld (env : Env) (brief : TaskBrief) : World :=
  (exec World.handle (Call.program parse env (.submit brief)) World.empty).2

/-- The worlds reached from `w₀` by delivering the outcomes of dispatched tasks that are not
in a final state. -/
inductive Execution (succeeds : String → Bool) (w₀ : World) : World → Prop
  | start : Execution succeeds w₀ w₀
  | complete {w : World} {t : HmasTask} {payload : String} (env : Env)
      (run : Execution succeeds w₀ w) (sent : t.id ∈ w.dispatched.map (·.task.id))
      (stored : w.store.getHmasTask t.id = some t) (live : t.state.terminal = false)
      (outcome : succeeds t.id = true) (names : completionTarget parse payload = some t.id) :
      Execution succeeds w₀
        (exec World.handle (Call.program parse env (.onMyrmidonCompletion payload)) w).2
  | fail {w : World} {t : HmasTask} {payload : String} {msg : Json} (env : Env)
      (run : Execution succeeds w₀ w) (sent : t.id ∈ w.dispatched.map (·.task.id))
      (stored : w.store.getHmasTask t.id = some t) (live : t.state.terminal = false)
      (outcome : succeeds t.id = false) (names : messageTarget parse payload = some (msg, t.id)) :
      Execution succeeds w₀
        (exec World.handle (Call.program parse env (.onMyrmidonFailed payload)) w).2

/-- Every dispatched task is in a final state. -/
def Settled (w : World) : Prop :=
  ∀ id ∈ w.dispatched.map (·.task.id), ∀ t, w.store.getHmasTask id = some t →
    t.state.terminal = true

variable {parse} {succeeds : String → Bool} {w₀ w : World}
  {uuid : ℕ → String} {ts : String} {brief : TaskBrief}

/-- The places whose tasks succeed. -/
def outcomeOf (succeeds : String → Bool) (uuid : ℕ → String) (brief : TaskBrief) (c : Node) :
    Bool :=
  succeeds (brief.idOf uuid c)

variable {ok : Node → Bool}

/-- A dispatched task that is not in a final state stands at a place that has been sent and
has not finished. -/
theorem exists_unfinished (h : brief.Follows uuid ts ok s w.board) {t : HmasTask}
    (hsent : t.id ∈ w.dispatched.map (·.task.id)) (hstored : w.store.getHmasTask t.id = some t)
    (hlive : t.state.terminal = false) :
  ∃ c ∈ s.sent, c ∉ s.finished ∧ brief.idOf uuid c = t.id
  := by
  obtain ⟨c, hc, hid⟩ := (h.dispatched t.id).mp hsent
  use c, hc
  constructor
  · intro hfinished
    obtain ⟨stamp, hstamp⟩ := h.holds.task c (h.nodes c hc)
    rw [hid] at hstamp
    obtain rfl := Option.some.inj (hstamp.symm.trans hstored)
    rw [show (brief.taskIn uuid ts c (stateOf ok s c) stamp).state.terminal = true
      from stateOf_terminal.mpr hfinished] at hlive
    contradiction
  · apply hid

/-- An execution follows the network. -/
theorem Execution.follows (hids : IdSupply uuid)
    (h₀ : brief.Follows uuid ts (outcomeOf succeeds uuid brief) ⟨{.l0}, ∅⟩ w₀.board)
    (hrun : Execution parse succeeds w₀ w) :
  ∃ s, brief.network.Reaches (outcomeOf succeeds uuid brief) .l0 s
    ∧ brief.Follows uuid ts (outcomeOf succeeds uuid brief) s w.board
  := by
  induction hrun with
  | start => exact ⟨_, .start, h₀⟩
  | complete env run sent stored live outcome names ih =>
    obtain ⟨s, hs, hfollows⟩ := ih
    obtain ⟨c, hc, hunfinished, hid⟩ := exists_unfinished hfollows sent stored live
    refine ⟨_, hs.finish hc hunfinished, ?_⟩
    rw [board_exec hfollows.holds.keyed, Call.effect, names, ← hid]
    apply hfollows.complete hids hc hunfinished
    rw [outcomeOf, hid]
    apply outcome
  | fail env run sent stored live outcome names ih =>
    obtain ⟨s, hs, hfollows⟩ := ih
    obtain ⟨c, hc, hunfinished, hid⟩ := exists_unfinished hfollows sent stored live
    refine ⟨_, hs.finish hc hunfinished, ?_⟩
    rw [board_exec hfollows.holds.keyed, Call.effect, names, ← hid]
    apply hfollows.fail hids hc hunfinished
    rw [outcomeOf, hid]
    apply outcome

/-- A submission to the empty store; the brief may be given an identifier first. -/
theorem submittedWorld_cases (parse : String → Option Json) {env : Env}
    (hids : IdSupply env.uuid) (brief : TaskBrief) :
  (¬ brief.NumbersFit ∧ (submittedWorld parse env brief).board = empty)
  ∨ brief.NumbersFit ∧ ∃ uuid ts id, IdSupply uuid ∧ ∀ ok,
      (brief.withId id).Follows uuid ts ok ⟨{.l0}, ∅⟩ (submittedWorld parse env brief).board
  := by
  have hsubmit : ∃ env' id, IdSupply env'.uuid
      ∧ (submittedWorld parse env brief).board = empty.submit env' (brief.withId id) := by
    rw [submittedWorld, board_exec (w := World.empty) keyed_empty, Call.effect]
    split
    · exact ⟨env.skip 1, env.uuid 0, hids.skip 1, rfl⟩
    · exact ⟨env, brief.id, hids, rfl⟩
  obtain ⟨env', id, hids', hboard⟩ := hsubmit
  rw [hboard, ← brief.numbersFit_withId id]
  by_cases hfit : (brief.withId id).NumbersFit
  · right
    refine ⟨hfit, env'.uuid, env'.ts, id, hids', ?_⟩
    intro ok
    apply follows_submit hids' hfit
  · left
    use hfit
    apply submit_of_not_fit hids' hfit

/-- A settled execution has reached a state of the network in which all that has been sent
has finished. -/
theorem Settled.sent_subset (h : brief.Follows uuid ts ok s w.board) (hsettled : Settled w) :
  s.sent ⊆ s.finished
  := by
  intro c hc
  obtain ⟨stamp, hstamp⟩ := h.holds.task c (h.nodes c hc)
  have hdispatched : brief.idOf uuid c ∈ w.dispatched.map (·.task.id)
    := (h.dispatched _).mpr ⟨c, hc, rfl⟩
  apply stateOf_terminal.mp (hsettled _ hdispatched _ hstamp)

theorem settled_of_sent_subset (h : brief.Follows uuid ts ok s w.board)
    (hsent : s.sent ⊆ s.finished) :
  Settled w
  := by
  intro id hid t ht
  obtain ⟨c, hc, rfl⟩ := (h.dispatched id).mp hid
  obtain ⟨stamp, hstamp⟩ := h.holds.task c (h.nodes c hc)
  obtain rfl := Option.some.inj (hstamp.symm.trans ht)
  apply stateOf_terminal.mpr (hsent hc)

/-- Nothing happens where nothing has been dispatched. -/
theorem Execution.eq_of_dispatched_nil (h₀ : w₀.dispatched = [])
    (hrun : Execution parse succeeds w₀ w) :
  w = w₀
  := by
  induction hrun with
  | start => rfl
  | complete _ _ sent _ _ _ _ ih | fail _ _ sent _ _ _ _ ih =>
    rw [ih, h₀] at sent
    contradiction

/-- All executions of a brief that come to an end have dispatched the same tasks and leave
each task in the same state. -/
theorem execution_confluent {env : Env} (hids : IdSupply env.uuid) (brief : TaskBrief)
    (succeeds : String → Bool) {w₁ w₂ : World}
    (h₁ : Execution parse succeeds (submittedWorld parse env brief) w₁) (hs₁ : Settled w₁)
    (h₂ : Execution parse succeeds (submittedWorld parse env brief) w₂) (hs₂ : Settled w₂) :
  (∀ id, id ∈ w₁.dispatched.map (·.task.id) ↔ id ∈ w₂.dispatched.map (·.task.id))
  ∧ ∀ id, (w₁.store.getHmasTask id).map (·.state) = (w₂.store.getHmasTask id).map (·.state)
  := by
  rcases submittedWorld_cases parse hids brief with ⟨-, hboard⟩ | ⟨-, hboard⟩
  · have hnone : (submittedWorld parse env brief).dispatched = []
      := congrArg dispatched hboard
    rw [h₁.eq_of_dispatched_nil hnone, h₂.eq_of_dispatched_nil hnone]
    exact ⟨fun _ => Iff.rfl, fun _ => rfl⟩
  · obtain ⟨uuid, ts, id, hids, hstart⟩ := hboard
    obtain ⟨s₁, hreach₁, hfollows₁⟩ := h₁.follows hids (hstart _)
    obtain ⟨s₂, hreach₂, hfollows₂⟩ := h₂.follows hids (hstart _)
    have hsame : s₁ = s₂
      := hreach₁.unique network_rooted (hs₁.sent_subset hfollows₁) hreach₂
        (hs₂.sent_subset hfollows₂)
    subst hsame
    constructor
    · intro x
      exact (hfollows₁.dispatched x).trans (hfollows₂.dispatched x).symm
    · apply hfollows₁.holds.states_eq hfollows₂.holds

/-! ### Executions that come to an end -/

/-- Every task can be named in a message. -/
def Speaks (parse : String → Option Json) : Prop :=
  ∀ id, ∃ payload, parse payload = some (.object [("task_id", .string id)])

theorem Speaks.completionTarget (hparse : Speaks parse) {id : String} (hid : id ≠ "") :
  ∃ payload, completionTarget parse payload = some id
  := by
  obtain ⟨payload, hpayload⟩ := hparse id
  use payload
  rw [Agamemnon.completionTarget, parsePayload, hpayload]
  exact if_neg hid

theorem Speaks.messageTarget (hparse : Speaks parse) {id : String} (hid : id ≠ "") :
  ∃ payload msg, messageTarget parse payload = some (msg, id)
  := by
  obtain ⟨payload, hpayload⟩ := hparse id
  use payload, .object [("task_id", .string id)]
  rw [Agamemnon.messageTarget, parsePayload, hpayload]
  exact if_neg hid

/-- An execution that follows the network can be carried on to the end. -/
theorem exists_settled (hparse : Speaks parse) (hids : IdSupply uuid) (env : Env)
    (h₀ : brief.Follows uuid ts (outcomeOf succeeds uuid brief) ⟨{.l0}, ∅⟩ w₀.board) :
  ∃ w, Execution parse succeeds w₀ w ∧ Settled w
  := by
  let P : Schedule.State Node → Prop := fun s => ∃ w, Execution parse succeeds w₀ w
    ∧ brief.Follows uuid ts (outcomeOf succeeds uuid brief) s w.board
  have hstep : ∀ s a, P s → a ∈ s.sent → a ∉ s.finished
      → P (brief.network.finish (outcomeOf succeeds uuid brief) s a) := by
    rintro s a ⟨w, hrun, hfollows⟩ ha hunfinished
    obtain ⟨stamp, hstamp⟩ := hfollows.lookup_sent ha hunfinished
    have hid : brief.idOf uuid a ≠ "" := hids.ne_empty _
    have hsent : brief.idOf uuid a ∈ w.dispatched.map (·.task.id)
      := (hfollows.dispatched _).mpr ⟨a, ha, rfl⟩
    rw [← taskIn_id .delegated stamp] at hid hsent hstamp
    cases hok : succeeds (brief.idOf uuid a) with
    | true =>
      obtain ⟨payload, hpayload⟩ := hparse.completionTarget hid
      refine ⟨_, .complete env hrun hsent hstamp rfl ?_ hpayload, ?_⟩
      · rw [taskIn_id, hok]
      · rw [board_exec hfollows.holds.keyed, Call.effect, hpayload, taskIn_id]
        apply hfollows.complete hids ha hunfinished hok
    | false =>
      obtain ⟨payload, msg, hpayload⟩ := hparse.messageTarget hid
      refine ⟨_, .fail env hrun hsent hstamp rfl ?_ hpayload, ?_⟩
      · rw [taskIn_id, hok]
      · rw [board_exec hfollows.holds.keyed, Call.effect, hpayload, taskIn_id]
        apply hfollows.fail hids ha hunfinished hok
  have hall : ∀ s, P s → s.sent ⊆ brief.nodes.toFinset := by
    rintro s ⟨w, -, hfollows⟩ c hc
    apply List.mem_toFinset.mpr (hfollows.nodes c hc)
  obtain ⟨s, ⟨w, hrun, hfollows⟩, hfinished⟩ :=
    exists_finished hstep hall ⟨w₀, .start, h₀⟩
  exact ⟨w, hrun, settled_of_sent_subset hfollows hfinished⟩

theorem read_naming (id : String) :
  Json.read (naming id) = some (.object [("task_id", .string id)])
  := by
  apply Json.codec.parse_dump
  apply Json.Proper.object (List.pairwise_singleton _ _)
  intro m hm
  obtain rfl := List.mem_singleton.mp hm
  apply Json.Proper.string

theorem read_speaks :
  Speaks Json.read
  := fun id => ⟨naming id, read_naming id⟩

/-- The board after `twoModuleBrief` is submitted. -/
theorem follows_twoModuleBrief (ok : Node → Bool) :
  twoModuleBrief.Follows strokes firstEnv.ts ok ⟨{.l0}, ∅⟩
    (submittedWorld Json.read firstEnv twoModuleBrief).board
  := by
  have hfit : twoModuleBrief.NumbersFit := by decide
  rw [submittedWorld, board_exec (w := World.empty) keyed_empty, Call.effect,
    if_neg (by decide)]
  apply follows_submit firstEnv_fresh.toIdSupply hfit

theorem execution_confluent_twoModuleBrief :
  IdSupply firstEnv.uuid
  ∧ ∃ w₁, Execution Json.read (fun id => id ≠ "|||")
        (submittedWorld Json.read firstEnv twoModuleBrief) w₁
      ∧ Settled w₁
      ∧ ∀ w₂, Execution Json.read (fun id => id ≠ "|||")
          (submittedWorld Json.read firstEnv twoModuleBrief) w₂ → Settled w₂ →
        ∀ id, (w₁.store.getHmasTask id).map (·.state) = (w₂.store.getHmasTask id).map (·.state)
  := by
  use strokes_supply
  obtain ⟨w₁, h₁, hs₁⟩ := exists_settled read_speaks strokes_supply firstEnv
    (follows_twoModuleBrief _)
  use w₁, h₁, hs₁
  intro w₂ h₂ hs₂
  apply (execution_confluent strokes_supply twoModuleBrief _ h₁ hs₁ h₂ hs₂).2

/-! ### Executions in which nothing fails -/

variable {s : Schedule.State Node}

variable {c : Node}

/-- Where all dispatched tasks are completed, a task is completed when its place has been
sent. -/
theorem completed_iff_sent (h : brief.Follows uuid ts ok s w.board)
    (hdone : ∀ id ∈ w.dispatched.map (·.task.id), Board.CompletedIn w.store.hmasTasks id)
    (hc : c ∈ brief.nodes) :
  Board.CompletedIn w.store.hmasTasks (brief.idOf uuid c) ↔ c ∈ s.sent
  := by
  constructor
  · rintro ⟨t, ht, hstate⟩
    obtain ⟨stamp, hstamp⟩ := h.holds.task c hc
    obtain rfl := Option.some.inj (hstamp.symm.trans ht)
    apply h.finished (stateOf_eq_completed.mp hstate).1
  · intro hsent
    apply hdone
    apply (h.dispatched _).mpr ⟨c, hsent, rfl⟩

theorem settled_of_completed
    (hdone : ∀ id ∈ w.dispatched.map (·.task.id), Board.CompletedIn w.store.hmasTasks id) :
  Settled w
  := by
  intro id hid t ht
  obtain ⟨u, hu, hstate⟩ := hdone id hid
  obtain rfl := Option.some.inj (hu.symm.trans ht)
  rw [hstate]
  rfl

/-- In an execution in which nothing fails, the tasks at the places that are reached are
completed in the end, and the others are never dispatched. -/
theorem completed_iff_runs (hids : IdSupply uuid)
    (h₀ : brief.Follows uuid ts (outcomeOf (fun _ => true) uuid brief) ⟨{.l0}, ∅⟩ w₀.board)
    (hrun : Execution parse (fun _ => true) w₀ w)
    (hdone : ∀ id ∈ w.dispatched.map (·.task.id), Board.CompletedIn w.store.hmasTasks id)
    (hc : c ∈ brief.nodes) :
  Board.CompletedIn w.store.hmasTasks (brief.idOf uuid c)
    ↔ brief.network.Runs (fun _ => true) .l0 c
  := by
  obtain ⟨s, hreach, hfollows⟩ := hrun.follows hids h₀
  rw [completed_iff_sent hfollows hdone hc]
  apply mem_sent_iff network_rooted hreach
  apply (settled_of_completed hdone).sent_subset hfollows

/-- An execution in which nothing fails comes to an end with all dispatched tasks
completed. -/
theorem exists_completed (hparse : Speaks parse) (hids : IdSupply uuid) (env : Env)
    (h₀ : brief.Follows uuid ts (outcomeOf (fun _ => true) uuid brief) ⟨{.l0}, ∅⟩ w₀.board) :
  ∃ w, Execution parse (fun _ => true) w₀ w
    ∧ ∀ id ∈ w.dispatched.map (·.task.id), Board.CompletedIn w.store.hmasTasks id
  := by
  obtain ⟨w, hrun, hsettled⟩ := exists_settled hparse hids env h₀
  use w, hrun
  obtain ⟨s, -, hfollows⟩ := hrun.follows hids h₀
  intro id hid
  obtain ⟨c, hc, rfl⟩ := (hfollows.dispatched id).mp hid
  obtain ⟨stamp, hstamp⟩ := hfollows.holds.task c (hfollows.nodes c hc)
  refine ⟨_, hstamp, ?_⟩
  apply stateOf_eq_completed.mpr ⟨hsettled.sent_subset hfollows hc, rfl⟩

/-- In the executions of a brief whose issues do not depend on each other in a cycle, all
tasks are completed once all dispatched ones are, if the brief has no chains; otherwise
there is an execution in which they are not. -/
theorem execution_complete_iff (hparse : Speaks parse) {env : Env} (hids : IdSupply env.uuid)
    (brief : TaskBrief) (hissues : Graph.Acyclic brief.IssueWaits) :
  (∀ w, Execution parse (fun _ => true) (submittedWorld parse env brief) w →
    (∀ id ∈ w.dispatched.map (·.task.id), Board.CompletedIn w.store.hmasTasks id) →
    ∀ id t, w.store.getHmasTask id = some t → t.state = .completed)
  ↔ (brief.NumbersFit → brief.Unchained)
  := by
  rcases submittedWorld_cases parse hids brief with ⟨hfit, hboard⟩ | ⟨hfit, hboard⟩
  · refine ⟨fun _ h => absurd h hfit, ?_⟩
    intro _ w hrun _ id t ht
    rw [hrun.eq_of_dispatched_nil (congrArg dispatched hboard)] at ht
    have hnone : (submittedWorld parse env brief).board.lookup id = some t := ht
    rw [hboard] at hnone
    simp [empty, lookup] at hnone
  · obtain ⟨uuid, ts, id, hids, hstart⟩ := hboard
    have hchains : (brief.NumbersFit → brief.Unchained)
        ↔ ∀ c ∈ (brief.withId id).nodes, ¬ (brief.withId id).Chained c := by
      rw [← unchained_iff ((brief.numbersFit_withId id).mpr hfit),
        brief.unchained_withId id]
      exact ⟨fun h => h hfit, fun h _ => h⟩
    rw [hchains]
    constructor
    · intro hall c hc hchained
      obtain ⟨w, hrun, hdone⟩ := exists_completed hparse hids env (hstart _)
      apply not_runs_of_chained hchained
      apply (completed_iff_runs hids (hstart _) hrun hdone hc).mp
      obtain ⟨s, -, hfollows⟩ := hrun.follows hids (hstart _)
      obtain ⟨stamp, hstamp⟩ := hfollows.holds.task c hc
      exact ⟨_, hstamp, hall w hrun hdone _ _ hstamp⟩
    · intro hchained w hrun hdone x t ht
      obtain ⟨s, -, hfollows⟩ := hrun.follows hids (hstart _)
      obtain ⟨c, hc, rfl⟩ := hfollows.holds.only x t ht
      obtain ⟨u, hu, hstate⟩ := (completed_iff_runs hids (hstart _) hrun hdone hc).mpr
        (runs_of_unchained hchained hissues c hc)
      obtain rfl := Option.some.inj (hu.symm.trans ht)
      apply hstate

/-- A brief with a task that is annotated with the task before it. -/
def pairBrief : TaskBrief :=
  moduleBrief ["#5", "#6 (depends on: #5)"]

theorem acyclic_pairBrief :
  Graph.Acyclic pairBrief.IssueWaits
  := acyclic_issueWaits (by decide)

theorem execution_complete_iff_pairBrief :
  Speaks Json.read ∧ IdSupply firstEnv.uuid ∧ Graph.Acyclic pairBrief.IssueWaits
  ∧ pairBrief.Unchained
  ∧ ∀ w, Execution Json.read (fun _ => true) (submittedWorld Json.read firstEnv pairBrief) w →
      (∀ id ∈ w.dispatched.map (·.task.id), Board.CompletedIn w.store.hmasTasks id) →
      ∀ id t, w.store.getHmasTask id = some t → t.state = .completed
  := by
  have hunchained : pairBrief.Unchained := by decide
  use read_speaks, strokes_supply, acyclic_pairBrief, hunchained
  apply (execution_complete_iff read_speaks strokes_supply pairBrief acyclic_pairBrief).mpr
  exact fun _ => hunchained

theorem acyclic_twoModuleBrief :
  Graph.Acyclic twoModuleBrief.IssueWaits
  := acyclic_issueWaits (by decide)

/-- The delivery of the completion of a dispatched task. -/
theorem Execution.deliver {w₀ w : World} (hrun : Execution Json.read (fun _ => true) w₀ w)
    (id : String) (h : ∃ t ∈ w.store.getHmasTask id, t.id = id
      ∧ id ∈ w.dispatched.map (·.task.id) ∧ t.state.terminal = false
      ∧ completionTarget Json.read (naming id) = some id) :
  Execution Json.read (fun _ => true) w₀
    (exec World.handle (Call.program Json.read firstEnv (.onMyrmidonCompletion (naming id))) w).2
  := by
  obtain ⟨t, ht, rfl, hsent, hlive, hnames⟩ := h
  apply Execution.complete firstEnv hrun hsent ht hlive rfl hnames

/-- The second module of `twoModuleBrief` is never dispatched: it stays pending although the
tasks that block it are completed. -/
theorem twoModuleBrief_stuck :
  Graph.Acyclic twoModuleBrief.IssueWaits
  ∧ ∃ w, Execution Json.read (fun _ => true)
        (submittedWorld Json.read firstEnv twoModuleBrief) w
      ∧ (∀ id ∈ w.dispatched.map (·.task.id), Board.CompletedIn w.store.hmasTasks id)
      ∧ ∃ t, w.store.getHmasTask t.id = some t ∧ t.state = .pending
          ∧ (∀ x ∈ t.blockedBy, Board.CompletedIn w.store.hmasTasks x)
          ∧ t.id ∉ w.dispatched.map (·.task.id)
  := by
  use acyclic_twoModuleBrief
  have hrun : Execution Json.read (fun _ => true)
      (submittedWorld Json.read firstEnv twoModuleBrief) _ :=
    ((((Execution.start).deliver "|" (by decide +kernel)).deliver "||" (by decide +kernel)).deliver
      "|||" (by decide +kernel)).deliver "||||" (by decide +kernel)
  refine ⟨_, hrun, by decide +kernel,
    twoModuleBrief.taskIn strokes firstEnv.ts (.l2 0 1) .pending "", by decide +kernel⟩

end Orchestrator

end Agamemnon
