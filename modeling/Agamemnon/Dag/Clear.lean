import Agamemnon.Dag.Overlap

/-!
# Scans that keep clear of each other

A call is committed to the assignments that it has told the client and to those that are left in
its lists.  If no call takes its lists when they have a task or an agent twice, or one that the
calls are committed to, then no task is assigned twice and no agent is given two tasks.
-/

namespace Agamemnon.Dag

/-- The assignments that are left in the lists of a call. -/
def Call.left (client : Client) (w : Walker) : Call → List (String × String)
  | .assigning _ ready available _ => Scans.pairs client w ready available
  | _ => []

namespace Scans

variable {client : Client} {settings : Settings} {s s' : Scans} {i : Fin 2}

def held (s : Scans) (client : Client) (i : Fin 2) : List (String × String) :=
  (s.call i).left client s.walker

/-- The assignments that the calls have told the client or are going to tell it. -/
def committed (s : Scans) (client : Client) : List (String × String) :=
  s.log ++ (List.finRange 2).flatMap (s.held client)

/-- The assignments that a call would tell the client if it took its lists now. -/
def told (s : Scans) (client : Client) : List (String × String) :=
  pairs client s.walker s.walker.getReadyTasks s.walker.getAvailableAgents

/-- The walker has got the answer of `get_agents`. -/
def answered (s : Scans) : AgentsReply → Scans
  | .fresh agents => s.withAgents agents
  | .nothing | .failed => s

/-- The action does not make a call take lists with a task or an agent twice, or with one that the
calls are committed to. -/
def Clear (settings : Settings) (s : Scans) : ScanAction → Prop
  | .start _ => settings.client = .refreshing
      ∨ NoDoubleAssignment (s.committed settings.client ++ s.told settings.client)
  | .agents _ reply =>
      NoDoubleAssignment (s.committed settings.client ++ (s.answered reply).told settings.client)
  | .assigned _ | .assignmentFailed _ _ => True

instance (settings : Settings) (s : Scans) :
    ∀ action, Decidable (Clear settings s action)
  | .start _ => inferInstanceAs (Decidable (_ ∨ _))
  | .agents _ _ => inferInstanceAs (Decidable (NoDoubleAssignment _))
  | .assigned _ | .assignmentFailed _ _ => inferInstanceAs (Decidable True)

theorem count_committed (s : Scans) (client : Client) (p : String × String) :
  (s.committed client).count p = s.log.count p + ∑ i, (s.held client i).count p
  := by
  rw [committed, List.count_append, List.count_flatMap, Fin.sum_univ_def]
  rfl

/-! ### What a move does to the commitments -/

theorem left_of_arguments {w w' : Walker} (hw : w'.arguments = w.arguments) (call : Call) :
  call.left client w' = call.left client w
  := by
  cases call with
  | assigning => simp only [Call.left, pairs, hw]
  | _ => rfl

theorem held_update {call : Call} (hcall : s'.call = Function.update s.call i call)
    (hw : s'.walker.arguments = s.walker.arguments) :
  s'.held client = Function.update (s.held client) i (call.left client s.walker)
  := by
  funext j
  rw [held, left_of_arguments hw, hcall]
  by_cases hj : j = i
  · rw [hj, Function.update_self, Function.update_self]
  · rw [Function.update_of_ne hj, Function.update_of_ne hj]
    rfl

/-- A call that moves is committed to what it tells the client and what is left in its lists, in
place of what it held. -/
theorem count_committed_update (client : Client) {call : Call} {more : List (String × String)}
    (hcall : s'.call = Function.update s.call i call)
    (hw : s'.walker.arguments = s.walker.arguments)
    (hlog : s'.log ++ call.left client s.walker = s.log ++ more) (p : String × String) :
  (s'.committed client).count p + (s.held client i).count p
    = (s.committed client).count p + more.count p
  := by
  have hsum := Machine.sum_update (List.count p) (s.held client) i (call.left client s.walker)
  rw [← held_update hcall hw] at hsum
  have hcount := congrArg (List.count p) hlog
  rw [List.count_append, List.count_append] at hcount
  rw [count_committed, count_committed]
  omega

theorem held_assign (client : Client) (s : Scans) (t a : ℕ) :
  { s with walker := s.walker.assign t a }.held client = s.held client
  := by
  funext j
  exact left_of_arguments Walker.arguments_assign (s.call j)

theorem committed_assign (client : Client) (s : Scans) (t a : ℕ) :
  { s with walker := s.walker.assign t a }.committed client = s.committed client
  := by
  rw [committed, held_assign]
  rfl

/-- The loop commits the call to the lists that it goes through, in place of those that it held. -/
theorem count_committed_proceed (client : Client) (i : Fin 2) (ready available : List ℕ)
    (assignments : List (ℕ × ℕ)) (s : Scans) (p : String × String) :
  ((proceed client i ready available assignments s).committed client).count p
      + (s.held client i).count p
    = (s.committed client).count p + (pairs client s.walker ready available).count p
  := by
  fun_induction proceed client i ready available assignments s with
  | case1 t ready a available assignments s s' hclient ih =>
    simp only [s', held_assign, committed_assign, pairs, if_pos hclient] at ih ⊢
    exact ih
  | case2 t ready a available assignments s s' hclient =>
    have hlog : (s.asked i t a ready available assignments).log
        ++ pairs client s.walker ready available
          = s.log ++ pairs client s.walker (t :: ready) (a :: available) := by
      simp only [asked, pairs, if_neg hclient, List.zipWith_cons_cons, List.append_assoc,
        List.singleton_append]
    exact count_committed_update client rfl Walker.arguments_assign hlog p
  | case3 ready available assignments s hempty =>
    have hreturned : (s.setCall i (.returned assignments)).call
        = Function.update s.call i (.returned assignments) := rfl
    rw [pairs_eq_nil hempty]
    exact count_committed_update client hreturned rfl rfl p

/-! ### No task and no agent twice -/

theorem NoDoubleAssignment.of_count_le {calls calls' : List (String × String)}
    (h : NoDoubleAssignment calls') (hle : ∀ p, calls.count p ≤ calls'.count p) :
  NoDoubleAssignment calls
  := by
  obtain ⟨calls'', hperm, hsub⟩ := List.subperm_ext_iff.mpr fun p _ => hle p
  exact (noDoubleAssignment_perm hperm).mp (h.sublist hsub)

theorem noDouble_setCall (h : NoDoubleAssignment (s.committed client)) {call : Call}
    (hcall : call.left client s.walker = []) :
  NoDoubleAssignment ((s.setCall i call).committed client)
  := by
  have hset : (s.setCall i call).call = Function.update s.call i call := rfl
  have hlog : (s.setCall i call).log ++ call.left client s.walker = s.log ++ [] := by
    rw [hcall]
    rfl
  apply h.of_count_le
  intro p
  have hcount := count_committed_update client hset rfl hlog p
  rw [List.count_nil] at hcount
  omega

/-- A call that goes on makes no new commitments. -/
theorem noDouble_goesOn (h : NoDoubleAssignment (s.committed client)) {current : ℕ × ℕ}
    {ready available : List ℕ} {assignments : List (ℕ × ℕ)}
    (hcall : s.call i = .assigning current ready available assignments) :
  NoDoubleAssignment
    ((proceed client i ready available (assignments ++ [current]) s).committed client)
  := by
  apply h.of_count_le
  intro p
  have hcount := count_committed_proceed client i ready available (assignments ++ [current]) s p
  rw [held, hcall, Call.left] at hcount
  omega

/-- A call that takes its lists commits itself to them. -/
theorem noDouble_scan (h : NoDoubleAssignment (s.committed client ++ s.told client)) :
  NoDoubleAssignment ((s.scan client i).committed client)
  := by
  apply h.of_count_le
  intro p
  have hcount := count_committed_proceed client i s.walker.getReadyTasks
    s.walker.getAvailableAgents [] (s.planned client i) p
  rw [List.count_append]
  exact (Nat.le_add_right _ _).trans hcount.le

theorem noDouble_start (h : NoDoubleAssignment (s.committed settings.client))
    (hclear : Clear settings s (.start i)) (hstart : s.start settings i = some s') :
  NoDoubleAssignment (s'.committed settings.client)
  := by
  unfold start at hstart
  split at hstart
  · contradiction
  · obtain rfl := Option.some.inj hstart
    exact noDouble_setCall h rfl
  · split at hstart
    next hclient =>
      obtain rfl := Option.some.inj hstart
      exact noDouble_setCall h rfl
    next hclient =>
      obtain rfl := Option.some.inj hstart
      exact noDouble_scan (hclear.resolve_left hclient)
  · obtain rfl := Option.some.inj hstart
    exact noDouble_setCall h rfl

theorem noDouble_act (h : NoDoubleAssignment (s.committed settings.client)) {action : ScanAction}
    (hclear : Clear settings s action) (hact : s.act settings action = some s') :
  NoDoubleAssignment (s'.committed settings.client)
  := by
  cases action with
  | start i =>
    simp only [act] at hact
    split at hact
    next => exact noDouble_start h hclear hact
    next => contradiction
  | agents i reply =>
    simp only [act] at hact
    split at hact
    next =>
      cases reply with
      | fresh | nothing | failed =>
        obtain rfl := Option.some.inj hact
        exact noDouble_scan hclear
    next => contradiction
  | assigned i =>
    simp only [act] at hact
    split at hact
    next hcall =>
      obtain rfl := Option.some.inj hact
      exact noDouble_goesOn h hcall
    next => contradiction
  | assignmentFailed i message =>
    simp only [act] at hact
    split at hact
    next =>
      obtain rfl := Option.some.inj hact
      exact noDouble_setCall h rfl
    next => contradiction

/-- In a run in which every call that takes its lists keeps clear of what the calls are committed
to, no task is assigned twice, and no agent is given two tasks. -/
theorem noDoubleAssignment_of_clear (settings : Settings) (w : Walker) (actions : List ScanAction)
    (s : Scans) (hclear : Machine.Along (act settings) (Clear settings) (initial w) actions)
    (hrun : Machine.run (act settings) (initial w) actions = some s) :
  NoDoubleAssignment s.log
  := by
  have hcommitted : NoDoubleAssignment (s.committed settings.client) := by
    apply Machine.run_invariant_along _ _ hclear hrun
    · intro s action s' hclear h hact
      exact noDouble_act h hclear hact
    · exact ⟨List.nodup_nil, List.nodup_nil⟩
  exact hcommitted.sublist (List.sublist_append_left _ _)

theorem noDoubleAssignment_clear_scansApart :
  Machine.Along (act assigningOnly) (Clear assigningOnly) (initial twoPending) (scansApart 0 1)
    ∧ ∃ s, Machine.run (act assigningOnly) (initial twoPending) (scansApart 0 1) = some s
      ∧ NoDoubleAssignment s.log
  := by
  have hclear : Machine.Along (act assigningOnly) (Clear assigningOnly) (initial twoPending)
      (scansApart 0 1) := by decide
  refine ⟨hclear, _, rfl, ?_⟩
  exact noDoubleAssignment_of_clear assigningOnly twoPending (scansApart 0 1) _ hclear rfl

end Scans

end Agamemnon.Dag
