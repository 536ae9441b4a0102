import Agamemnon.Orchestrator.Watch

/-!
# Announcements

That a brief is completed is announced whenever a message says that its root is, whatever the
other tasks of the brief are doing.  A run announces no brief too early and none twice exactly
when every such message finds the root in the last state but one: it is not finished, it is the
only root of its brief, and all other tasks of the brief are completed.
-/

namespace Agamemnon

open Program Orchestrator

variable {parse : String → Option Json} {env : Env} {s : Watch} {b : Board}

/-! ### Completions -/

namespace Board

theorem lookup_consider_eq_none (hb : b.Keyed) {id : String} (hnone : b.lookup id = none)
    (childId : String) :
  (b.consider childId).lookup id = none
  := by
  rw [consider]
  split
  · exact hnone
  · rename_i t ht
    obtain rfl := hb ht
    split
    · rw [lookup_send_of_ne]
      · exact hnone
      · rintro rfl
        rw [show (t.withState .delegated).id = t.id from rfl, ht] at hnone
        contradiction
    · exact hnone

theorem lookup_considerAll_eq_none {id : String} :
  ∀ (ids : List String) {b : Board}, b.Keyed → b.lookup id = none →
    (ids.foldl consider b).lookup id = none
  | [], _, _, hnone => hnone
  | childId :: ids, _, hb, hnone =>
      lookup_considerAll_eq_none ids (hb.consider childId)
        (lookup_consider_eq_none hb hnone childId)

/-- A completed task keeps its identifier, its brief and its layer. -/
theorem completionWalk_fields (ts : String) (t : HmasTask) :
  (completionWalk ts t).id = t.id ∧ (completionWalk ts t).briefId = t.briefId
    ∧ (completionWalk ts t).layer = t.layer
    ∧ (completionWalk ts t).state = if t.state.terminal then t.state else .completed
  := by
  rw [completionWalk_eq]
  split
  · exact ⟨rfl, rfl, rfl, rfl⟩
  · exact ⟨rfl, rfl, rfl, rfl⟩

/-- A completion stores no new task. -/
theorem lookup_complete_eq_none (hb : b.Keyed) {id : String} (hnone : b.lookup id = none)
    (ts target : String) :
  (b.complete ts target).lookup id = none
  := by
  rw [complete]
  split
  · rw [completePlain]
    split
    · exact hnone
    · exact hnone
  · rename_i t ht
    obtain rfl := hb ht
    apply lookup_considerAll_eq_none _ (hb.put _)
    rw [lookup_put_of_ne]
    · exact hnone
    · rw [(completionWalk_fields ts t).1]
      rintro rfl
      rw [ht] at hnone
      contradiction

/-- After its completion a task is in a final state, and completed unless it was in one
before. -/
theorem lookup_complete (env : Env) (hb : b.Keyed) {id : String} {t : HmasTask}
    (ht : b.lookup id = some t) :
  ∃ t', (b.complete env.ts id).lookup id = some t' ∧ t'.briefId = t.briefId
    ∧ t'.layer = t.layer ∧ t'.state = if t.state.terminal then t.state else .completed
  := by
  obtain rfl := hb ht
  obtain ⟨hid, hbrief, hlayer, hstate⟩ := completionWalk_fields env.ts t
  have hstored : (b.put (completionWalk env.ts t)).lookup t.id = some (completionWalk env.ts t)
    := lookup_put_of_eq b hid
  obtain ⟨t', ht', hbrief', hlayer', hterminal, -⟩ := (changes_considerAll
    (completionWalk env.ts t).childTaskIds (hb.put (completionWalk env.ts t))).keeps.old hstored
  use t'
  rw [complete, ht]
  refine ⟨ht', hbrief'.trans hbrief, hlayer'.trans hlayer, ?_⟩
  rw [hterminal, hstate]
  rw [hstate]
  split
  · assumption
  · rfl

end Board

/-! ### Runs -/

namespace Watch

/-- One call in a watched world. -/
def call (s : Watch) (parse : String → Option Json) (env : Env) (c : Call) : Watch :=
  (exec Watch.handle (c.program parse env) s).2

theorem board_call (hs : s.board.Keyed) (c : Call) :
  (s.call parse env c).board = c.effect parse env s.board
  := by
  rw [← exec_call hs, exec_hom Watch.board_hom]
  rfl

end Watch

/-- The stored root that a call is told has been completed. -/
def Orchestrator.Call.completedRoot (parse : String → Option Json) (b : Board) (c : Call) :
    Option HmasTask :=
  match c.completes parse with
  | none => none
  | some id =>
      match b.lookup id with
      | none => none
      | some t => if t.layer = .l0ChiefArchitect then some t else none

theorem Orchestrator.Call.completedRoot_eq_some {c : Call} {t : HmasTask} :
  c.completedRoot parse b = some t
    ↔ ∃ id, c.completes parse = some id ∧ b.lookup id = some t ∧ t.layer = .l0ChiefArchitect
  := by
  rw [completedRoot]
  constructor
  · intro h
    split at h
    · contradiction
    · rename_i id hid
      split at h
      · contradiction
      · rename_i u hu
        split at h
        · rename_i hlayer
          obtain rfl := Option.some.inj h
          exact ⟨id, hid, hu, hlayer⟩
        · contradiction
  · rintro ⟨id, hid, ht, hlayer⟩
    simp only [hid, ht, hlayer, if_true]

namespace Watch

/-- A call announces the brief of the root it completes, if any, with what is stored at its
end. -/
theorem announced_eq (parse : String → Option Json) (env : Env) (hs : s.board.Keyed) (c : Call) :
  (s.call parse env c).announced
    = s.announced ++ (c.completedRoot parse s.board).toList.map fun t =>
        (t.briefId, (s.call parse env c).board.tasks)
  := by
  by_cases hc : ∃ payload, c = .onMyrmidonCompletion payload
  · obtain ⟨payload, rfl⟩ := hc
    have hcall : s.call parse env (.onMyrmidonCompletion payload) = _
      := exec_completion_snd s payload
    rw [hcall, Call.completedRoot, Call.completes]
    cases completionTarget parse payload with
    | none => simp
    | some id =>
      simp only
      cases ht : s.board.lookup id with
      | none => simpa using announced_completeTask_of_none s ht
      | some t =>
        rw [announced_completeTask hs ht]
        by_cases hlayer : t.layer = .l0ChiefArchitect
        · simp only [if_pos hlayer]
          rfl
        · simp only [if_neg hlayer]
          rfl
  · have hquiet : c.completedRoot parse s.board = none := by
      cases c with
      | onMyrmidonCompletion payload => exact absurd ⟨payload, rfl⟩ hc
      | _ => rfl
    rw [hquiet]
    simpa [call] using announced_call s fun payload h => hc ⟨payload, h⟩

/-- Every brief was announced when all its tasks were completed, and only once. -/
structure Truthful (s : Watch) : Prop where
  completed : ∀ a ∈ s.announced, ∀ id t, a.2.lookup id = some t → t.briefId = a.1 →
    t.state = .completed
  once : (s.announced.map (·.1)).Nodup

/-- What is announced in every run, truthful or not. -/
structure Recorded (s : Watch) : Prop where
  keyed : s.board.Keyed
  /-- A brief is announced when one of its roots is in a final state. -/
  root : ∀ briefId ∈ s.announced.map (·.1), ∃ id t, s.board.lookup id = some t
    ∧ t.briefId = briefId ∧ t.layer = .l0ChiefArchitect ∧ t.state.terminal = true
  /-- No completed root goes unannounced. -/
  heard : ∀ {id t}, s.board.lookup id = some t → t.layer = .l0ChiefArchitect →
    t.state = .completed → t.briefId ∈ s.announced.map (·.1)

theorem recorded_empty :
  Recorded empty
  where
  keyed := Board.keyed_empty
  root := by
    intro briefId h
    simp [empty, announced] at h
  heard := by
    intro id t h
    simp [empty, board, World.board, World.empty, Board.lookup, Memory.empty] at h

end Watch

/-- If a call is told that a root is completed, then the root is the only one of its brief and
the last task of it that is not in a final state. -/
def Orchestrator.Call.Ready (parse : String → Option Json) (b : Board) (c : Call) : Prop :=
  ∀ root, c.completedRoot parse b = some root →
    root.state.terminal = false
    ∧ ∀ id t, b.lookup id = some t → t.briefId = root.briefId → id ≠ root.id →
        t.state = .completed ∧ t.layer ≠ .l0ChiefArchitect

namespace Watch

/-- A call that completes a root completes it on the board. -/
theorem board_call_completes (env : Env) (hs : s.board.Keyed) {c : Call} {id : String}
    (hc : c.completes parse = some id) :
  (s.call parse env c).board = s.board.complete env.ts id
  := by
  rw [board_call hs]
  cases c with
  | onMyrmidonCompletion payload =>
    rw [Call.completes] at hc
    rw [Call.effect, hc]
  | _ => contradiction

theorem announced_call_briefs (hs : s.board.Keyed) (c : Call) :
  (s.call parse env c).announced.map (·.1)
    = s.announced.map (·.1) ++ (c.completedRoot parse s.board).toList.map (·.briefId)
  := by
  rw [announced_eq parse env hs, List.map_append, List.map_map]
  rfl

theorem Recorded.call (hs : s.Recorded) (hfresh : env.Fresh s.board) (c : Call) :
  (s.call parse env c).Recorded
  := by
  have hkeeps := (Board.changes_effect parse hs.keyed hfresh c).keeps
  rw [← board_call hs.keyed] at hkeeps
  constructor
  · rw [board_call hs.keyed]
    apply (Board.changes_effect parse hs.keyed hfresh c).moves.keyed hs.keyed
  · intro briefId hbrief
    rw [announced_call_briefs hs.keyed, List.mem_append] at hbrief
    rcases hbrief with hbrief | hbrief
    · obtain ⟨id, t, ht, hbriefId, hlayer, hfinal⟩ := hs.root briefId hbrief
      obtain ⟨t', ht', hbriefId', hlayer', hterminal, -⟩ := hkeeps.old ht
      refine ⟨id, t', ht', hbriefId'.trans hbriefId, hlayer'.trans hlayer, ?_⟩
      rw [hterminal hfinal]
      exact hfinal
    · obtain ⟨root, hroot, rfl⟩ := List.mem_map.mp hbrief
      obtain ⟨id, hid, ht, hlayer⟩ := Call.completedRoot_eq_some.mp (Option.mem_toList.mp hroot)
      obtain ⟨t', ht', hbrief', hlayer', hstate⟩ := Board.lookup_complete env hs.keyed ht
      rw [← board_call_completes env hs.keyed hid] at ht'
      refine ⟨id, t', ht', hbrief', hlayer'.trans hlayer, ?_⟩
      rw [hstate]
      split
      · assumption
      · rfl
  · intro id t' ht' hlayer hcompleted
    rw [announced_call_briefs hs.keyed, List.mem_append]
    cases ht : s.board.lookup id with
    | none => exact absurd hcompleted (hkeeps.new ht ht')
    | some t =>
      obtain ⟨u, hu, hbrief, hlayer', -, hdone⟩ := hkeeps.old ht
      obtain rfl := Option.some.inj (hu.symm.trans ht')
      rw [hbrief]
      rw [hlayer'] at hlayer
      rcases hdone hcompleted with hcompleted | hid
      · left
        apply hs.heard ht hlayer hcompleted
      · right
        have hroot := Call.completedRoot_eq_some.mpr ⟨id, hid, ht, hlayer⟩
        exact List.mem_map.mpr ⟨t, Option.mem_toList.mpr hroot, rfl⟩

theorem truthful_append {s' : Watch} {briefId : String} {tasks : StringMap HmasTask}
    (h : s'.announced = s.announced ++ [(briefId, tasks)]) :
  s'.Truthful ↔ s.Truthful
    ∧ (∀ id t, tasks.lookup id = some t → t.briefId = briefId → t.state = .completed)
    ∧ briefId ∉ s.announced.map (·.1)
  := by
  have honce : (s'.announced.map (·.1)).Nodup
      ↔ (s.announced.map (·.1)).Nodup ∧ briefId ∉ s.announced.map (·.1) := by
    rw [h, List.map_append, List.map_singleton, List.nodup_append_comm, List.singleton_append,
      List.nodup_cons, and_comm]
  constructor
  · rintro ⟨hcompleted, hnodup⟩
    rw [h] at hcompleted
    obtain ⟨hnodup, hnew⟩ := honce.mp hnodup
    refine ⟨⟨fun a ha => hcompleted a (List.mem_append_left _ ha), hnodup⟩, ?_, hnew⟩
    apply hcompleted (briefId, tasks)
    apply List.mem_append_right _ (List.mem_singleton_self _)
  · rintro ⟨⟨hcompleted, hnodup⟩, hlast, hnew⟩
    refine ⟨?_, honce.mpr ⟨hnodup, hnew⟩⟩
    rw [h]
    intro a ha
    rcases List.mem_append.mp ha with ha | ha
    · apply hcompleted a ha
    · rw [List.mem_singleton.mp ha]
      apply hlast

/-- The announcement of a root is truthful when the root is ready. -/
theorem truthful_call (hs : s.Recorded) (hfresh : env.Fresh s.board) (c : Call) :
  (s.call parse env c).Truthful ↔ s.Truthful ∧ c.Ready parse s.board
  := by
  have hannounced := announced_eq parse env hs.keyed c
  cases hroot : c.completedRoot parse s.board with
  | none =>
    rw [hroot, Option.toList_none, List.map_nil, List.append_nil] at hannounced
    have hready : c.Ready parse s.board := by
      intro root h
      rw [hroot] at h
      contradiction
    constructor
    · rintro ⟨hcompleted, honce⟩
      rw [hannounced] at hcompleted honce
      exact ⟨⟨hcompleted, honce⟩, hready⟩
    · rintro ⟨⟨hcompleted, honce⟩, -⟩
      rw [← hannounced] at hcompleted honce
      exact ⟨hcompleted, honce⟩
  | some root =>
    obtain ⟨id, hid, ht, hlayer⟩ := Call.completedRoot_eq_some.mp hroot
    obtain rfl := hs.keyed ht
    have hkeeps := (Board.changes_effect parse hs.keyed hfresh c).keeps
    have hboard := board_call_completes env hs.keyed hid
    rw [← board_call hs.keyed] at hkeeps
    rw [hroot, Option.toList_some, List.map_singleton] at hannounced
    obtain ⟨root', hroot', hbrief', -, hstate'⟩ := Board.lookup_complete env hs.keyed ht
    rw [← hboard] at hroot'
    rw [truthful_append hannounced, and_congr_right_iff]
    intro _
    constructor
    · rintro ⟨hcompleted, hnew⟩ other hother
      obtain rfl := Option.some.inj (hroot.symm.trans hother)
      constructor
      · -- a root in a final state stays in it, and is announced if that state is `Completed`
        by_contra hfinal
        rw [Bool.not_eq_false] at hfinal
        rw [if_pos hfinal] at hstate'
        have hstate := hcompleted root.id root' hroot' hbrief'
        exact hnew (hs.heard ht hlayer (hstate'.symm.trans hstate))
      · intro x t hx hbrief hne
        obtain ⟨t', ht', hbriefId, -, -, hdone⟩ := hkeeps.old hx
        have hcompleted' : t.state = .completed := by
          rcases hdone (hcompleted x t' ht' (hbriefId.trans hbrief)) with h | h
          · exact h
          · exact absurd (Option.some.inj (h.symm.trans hid)) hne
        refine ⟨hcompleted', fun hother => hnew ?_⟩
        rw [← hbrief]
        exact hs.heard hx hother hcompleted'
    · intro hready
      obtain ⟨hlive, hothers⟩ := hready root hroot
      constructor
      · intro x t' hx hbrief
        by_cases hxid : x = root.id
        · subst hxid
          obtain rfl := Option.some.inj (hroot'.symm.trans hx)
          rw [hstate', hlive]
          rfl
        · cases hold : s.board.lookup x with
          | none =>
            have hnone := Board.lookup_complete_eq_none hs.keyed hold env.ts root.id
            rw [← hboard] at hnone
            exact absurd (hnone.symm.trans hx) (by simp)
          | some t =>
            obtain ⟨u, hu, hbriefId, -, hterminal, -⟩ := hkeeps.old hold
            obtain rfl := Option.some.inj (hu.symm.trans hx)
            have hdone := (hothers x t hold (hbriefId.symm.trans hbrief) hxid).1
            rw [hterminal, hdone]
            rw [hdone]
            rfl
      · intro hbrief
        obtain ⟨x, t, hx, hbriefId, hother, hfinal⟩ := hs.root root.briefId hbrief
        by_cases hxid : x = root.id
        · subst hxid
          obtain rfl := Option.some.inj (ht.symm.trans hx)
          rw [hlive] at hfinal
          contradiction
        · exact (hothers x t hx hbriefId hxid).2 hother

/-- A call in a run, with the watched world before it. -/
structure Step where
  before : Watch
  env : Env
  call : Call

/-- The calls `steps`, one after the other, lead from the empty world to `s`. -/
inductive Run (parse : String → Option Json) : List Step → Watch → Prop
  | nil : Run parse [] Watch.empty
  | snoc {s : Watch} {steps : List Step} (env : Env) (c : Call) (run : Run parse steps s)
      (fresh : env.Fresh s.board) :
      Run parse (steps ++ [⟨s, env, c⟩]) (s.call parse env c)

variable {steps : List Step}

theorem Run.recorded (hrun : Run parse steps s) :
  s.Recorded
  := by
  induction hrun with
  | nil => exact recorded_empty
  | snoc env c _ fresh ih => exact ih.call fresh c

theorem truthful_empty :
  Truthful empty
  where
  completed := by simp [empty, announced]
  once := List.nodup_nil

/-- The announcements of a run are truthful if and only if every root it is told of is ready
when it is told. -/
theorem run_truthful_iff (hrun : Run parse steps s) :
  s.Truthful ↔ ∀ step ∈ steps, step.call.Ready parse step.before.board
  := by
  induction hrun with
  | nil => simp [truthful_empty]
  | snoc env c run fresh ih =>
    rw [truthful_call run.recorded fresh, ih, List.forall_mem_append]
    simp

/-- The world after the tasks `ids` of a submitted brief are reported as completed. -/
def reported (ids : List String) : Watch :=
  ids.foldl (fun s id => s.call Json.read secondEnv (.onMyrmidonCompletion (naming id)))
    (Watch.empty.call Json.read firstEnv (.submit (moduleBrief [])))

/-- The calls of these reports. -/
theorem run_reported (ids : List String) :
  secondEnv.Fresh (reported ids).board
  ∧ ∃ steps, Run Json.read steps (reported ids)
    ∧ ∀ step ∈ steps, step.call = .submit (moduleBrief [])
      ∨ ∃ before id, before ++ [id] <+: ids ∧ step.before = reported before
        ∧ step.call = .onMyrmidonCompletion (naming id)
  := by
  induction ids using List.reverseRecOn with
  | nil =>
    constructor
    · rw [reported, List.foldl_nil, board_call recorded_empty.keyed, Call.effect, if_neg (by decide)]
      apply Board.fresh_submit firstEnv_fresh
    · exact ⟨_, .snoc firstEnv _ .nil firstEnv_fresh, by simp⟩
  | append_singleton ids id ih =>
    obtain ⟨hfresh, steps, hrun, hsteps⟩ := ih
    have hcall : reported (ids ++ [id])
        = (reported ids).call Json.read secondEnv (.onMyrmidonCompletion (naming id)) := by
      rw [reported, List.foldl_append]
      rfl
    rw [hcall]
    constructor
    · refine ⟨hfresh.toIdSupply, ?_⟩
      intro n
      rw [board_call hrun.recorded.keyed, Call.effect]
      cases completionTarget Json.read (naming id) with
      | none => exact hfresh.unused n
      | some id => exact Board.lookup_complete_eq_none hrun.recorded.keyed (hfresh.unused n) _ id
    · refine ⟨_, .snoc secondEnv _ hrun hfresh, ?_⟩
      intro step hstep
      rcases List.mem_append.mp hstep with hstep | hstep
      · apply (hsteps step hstep).imp_right
        rintro ⟨before, id', hbefore, h⟩
        exact ⟨before, id', hbefore.trans (List.prefix_append _ _), h⟩
      · obtain rfl := List.mem_singleton.mp hstep
        exact .inr ⟨ids, id, List.prefix_rfl, rfl, rfl⟩

/-- Whether a call is ready is seen from the tasks under the keys of the board. -/
theorem ready_of_keys {b : Board} {c : Call}
    (h : ∀ root ∈ c.completedRoot parse b, root.state.terminal = false
      ∧ ∀ id ∈ b.tasks.keys, ∀ t ∈ b.lookup id, t.briefId = root.briefId → id ≠ root.id →
        t.state = .completed ∧ t.layer ≠ .l0ChiefArchitect) :
  c.Ready parse b
  := by
  intro root hroot
  refine ⟨(h root hroot).1, ?_⟩
  intro id t ht
  exact (h root hroot).2 id (Finmap.mem_keys.mpr (Finmap.mem_of_lookup_eq_some ht)) t ht

/-- The leads are reported before the root, and the brief is announced once. -/
theorem run_truthful_rootLast :
  (∃ steps, Run Json.read steps (reported ["||", "|||", "||||", "|"]))
  ∧ (reported ["||", "|||", "||||", "|"]).Truthful
  ∧ (reported ["||", "|||", "||||", "|"]).announced.map (·.1) = ["b"]
  := by
  obtain ⟨-, steps, hrun, hsteps⟩ := run_reported ["||", "|||", "||||", "|"]
  refine ⟨⟨steps, hrun⟩, (run_truthful_iff hrun).mpr ?_, by decide +kernel⟩
  intro step hstep
  rcases hsteps step hstep with hcall | ⟨before, id, hbefore, hworld, hcall⟩
  · rw [hcall]
    intro root hroot
    contradiction
  · rw [hworld, hcall]
    have hready : ∀ ids ∈ ["||", "|||", "||||", "|"].inits, ∀ id ∈ ids.getLast?,
        ∀ root ∈ Call.completedRoot Json.read (reported ids.dropLast).board
          (.onMyrmidonCompletion (naming id)), root.state.terminal = false
        ∧ ∀ id ∈ (reported ids.dropLast).board.tasks.keys,
          ∀ t ∈ (reported ids.dropLast).board.lookup id, t.briefId = root.briefId → id ≠ root.id →
          t.state = .completed ∧ t.layer ≠ .l0ChiefArchitect := by decide +kernel
    apply ready_of_keys
    simpa using hready _ ((List.mem_inits _ _).mpr hbefore) id (by simp)

/-- The world in which the root of a brief with a module is said to be completed. -/
def announcedEarly : Watch :=
  reported ["|"]

/-- The brief is announced, although the task of its module has just been delegated. -/
theorem run_announcedEarly :
  (∃ steps, Run Json.read steps announcedEarly)
  ∧ (announcedEarly.announced.map fun a =>
      (a.1, (a.2.lookup "||").map fun t => (t.briefId, t.state))) = [("b", some ("b", .delegated))]
  ∧ ¬ announcedEarly.Truthful
  := by
  obtain ⟨-, steps, hrun, -⟩ := run_reported ["|"]
  refine ⟨⟨steps, hrun⟩, by decide +kernel, ?_⟩
  intro htruthful
  have hearly : ∃ a ∈ announcedEarly.announced, ∃ t ∈ a.2.lookup "||",
      t.briefId = a.1 ∧ t.state = .delegated := by decide +kernel
  obtain ⟨a, ha, t, ht, hbrief, hstate⟩ := hearly
  have hcompleted := htruthful.completed a ha "||" t ht hbrief
  rw [hstate] at hcompleted
  contradiction

end Watch

end Agamemnon
