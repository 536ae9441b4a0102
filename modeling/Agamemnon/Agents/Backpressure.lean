import Agamemnon.Agents.Inbox

/-!
# Backpressure

An inbox that has rejected a message because it was full should reject all messages until it has
few enough.  `receiveMessage` keeps a flag for this, which it sets when it rejects a message and
clears when there are few messages, but it decides by the number of messages alone: it accepts a
message as soon as there is room for one.

The flag tells, with the number of messages, whether the inbox should be closed (`closed_iff`), and
messages are rejected as they should be exactly if none is received while there is room in a closed
inbox (`hysteresis_iff`).
-/

namespace Agamemnon

namespace Agents

variable {β : Type} {intervalNs : ℤ} {calls : List (Call β)}

/-- The number of messages after some calls. -/
def depthAfter (intervalNs : ℤ) (calls : List (Call β)) : ℕ :=
  (Traced.run intervalNs calls).inbox.totalDepth

/-- A message has been rejected because the inbox was full, and since then the number of messages
has not dropped below the low watermark. -/
def Closed (intervalNs : ℤ) (calls : List (Call β)) : Prop :=
  ∃ earlier msg later, calls = earlier ++ .receive msg :: later
    ∧ Inbox.agentMaxQueueSize ≤ depthAfter intervalNs earlier
    ∧ ∀ l, l <+: later →
      Inbox.lowWatermark ≤ depthAfter intervalNs (earlier ++ .receive msg :: l)

/-- A message is accepted exactly if the inbox is neither closed nor full. -/
def Hysteresis (intervalNs : ℤ) (calls : List (Call β)) : Prop :=
  ∀ earlier msg later, calls = earlier ++ .receive msg :: later →
    (((Traced.run intervalNs earlier).inbox.receiveMessage msg).1 = true
      ↔ ¬ Closed intervalNs earlier ∧ depthAfter intervalNs earlier < Inbox.agentMaxQueueSize)

/-! ### The flag -/

section Flag

variable (b : Inbox β)

theorem applied_setQueue (messages : List (Message β)) (l : Lane) :
  (b.setQueue messages l).backpressureApplied = b.backpressureApplied
  := by
  cases l with
  | high => rfl
  | normal => rfl
  | low => rfl

theorem applied_getMessage (now : ℤ) :
  (b.getMessage now).2.backpressureApplied = b.backpressureApplied
  := by
  apply Inbox.getMessage_keeps (·.backpressureApplied)
  · apply applied_setQueue
  · intro b now
    rfl

theorem applied_enqueue (msg : Message β) :
  (b.enqueue msg).backpressureApplied = b.backpressureApplied
  := by
  rw [Inbox.enqueue_eq, applied_setQueue]

/-- The flag stays as long as there are enough messages. -/
theorem applied_clearBackpressure :
  b.clearBackpressure.backpressureApplied = true
    ↔ b.backpressureApplied = true ∧ Inbox.lowWatermark ≤ b.totalDepth
  := by
  rw [Inbox.clearBackpressure]
  split_ifs with hclear
  · simp only [false_iff, not_and, Nat.not_le]
    intro _
    apply hclear.1
  · constructor
    · intro happlied
      use happlied
      by_contra hfew
      apply hclear ⟨Nat.not_le.mp hfew, happlied⟩
    · intro h
      apply h.1

end Flag

/-! ### Closed inboxes -/

theorem lowWatermark_le_agentMaxQueueSize :
  Inbox.lowWatermark ≤ Inbox.agentMaxQueueSize
  := by decide

/-- One more call. -/
theorem run_concat (calls : List (Call β)) (c : Call β) :
  Traced.run intervalNs (calls ++ [c]) = (Traced.run intervalNs calls).step c
  := by
  rw [Traced.run, List.foldl_append]
  rfl

theorem depthAfter_receive_of_full (h : Inbox.agentMaxQueueSize ≤ depthAfter intervalNs calls)
    (msg : Message β) :
  depthAfter intervalNs (calls ++ [.receive msg]) = depthAfter intervalNs calls
  := by
  rw [depthAfter, run_concat, Traced.step_receive_of_full h]
  rfl

theorem depthAfter_receive_of_room (h : depthAfter intervalNs calls < Inbox.agentMaxQueueSize)
    (msg : Message β) :
  depthAfter intervalNs (calls ++ [.receive msg]) = depthAfter intervalNs calls + 1
  := by
  rw [depthAfter, run_concat, Traced.step_receive_of_room h, Inbox.totalDepth_enqueue,
    Inbox.totalDepth_clearBackpressure]
  rfl

theorem depthAfter_get_le (now : ℤ) :
  depthAfter intervalNs (calls ++ [.get now]) ≤ depthAfter intervalNs calls
  := by
  rw [depthAfter, run_concat]
  apply Inbox.totalDepth_getMessage_le

/-- The inbox is closed by a message that it rejects, and stays closed while it has enough
messages. -/
theorem closed_concat_iff (c : Call β) :
  Closed intervalNs (calls ++ [c])
    ↔ ((∃ msg, c = .receive msg) ∧ Inbox.agentMaxQueueSize ≤ depthAfter intervalNs calls)
      ∨ Closed intervalNs calls ∧ Inbox.lowWatermark ≤ depthAfter intervalNs (calls ++ [c])
  := by
  constructor
  · rintro ⟨earlier, msg, later, hcalls, hfull, hsince⟩
    rcases List.eq_nil_or_concat later with rfl | ⟨later, c', rfl⟩
    · obtain ⟨rfl, hc⟩ := List.append_inj' hcalls rfl
      cases hc
      exact .inl ⟨⟨msg, rfl⟩, hfull⟩
    · rw [List.concat_eq_append] at hcalls hsince
      rw [← List.cons_append, ← List.append_assoc] at hcalls
      obtain ⟨rfl, hc⟩ := List.append_inj' hcalls rfl
      cases hc
      right
      constructor
      · use earlier, msg, later, rfl, hfull
        intro l hl
        apply hsince l (hl.trans (List.prefix_append later [c]))
      · have hall := hsince (later ++ [c]) List.prefix_rfl
        rwa [← List.cons_append, ← List.append_assoc] at hall
  · rintro (⟨⟨msg, rfl⟩, hfull⟩ | ⟨⟨earlier, msg, later, rfl, hfull, hsince⟩, henough⟩)
    · use calls, msg, [], rfl, hfull
      intro l hl
      rw [List.prefix_nil.mp hl, depthAfter_receive_of_full hfull]
      apply Nat.le_trans lowWatermark_le_agentMaxQueueSize hfull
    · use earlier, msg, later ++ [c], by rw [List.append_assoc, List.cons_append], hfull
      intro l hl
      rcases List.prefix_concat_iff.mp hl with rfl | hl
      · rwa [← List.cons_append, ← List.append_assoc]
      · apply hsince l hl

/-- The inbox is closed if the flag is set and there are enough messages. -/
theorem closed_iff (intervalNs : ℤ) (calls : List (Call β)) :
  Closed intervalNs calls ↔ (Traced.run intervalNs calls).inbox.backpressureApplied = true
    ∧ Inbox.lowWatermark ≤ depthAfter intervalNs calls
  := by
  induction calls using List.reverseRecOn with
  | nil =>
    constructor
    · rintro ⟨earlier, msg, later, hcalls, -⟩
      cases List.append_ne_nil_of_right_ne_nil earlier (List.cons_ne_nil _ later) hcalls.symm
    · rintro ⟨happlied, -⟩
      cases happlied
  | append_singleton calls c ih =>
    rw [closed_concat_iff, ih]
    cases c with
    | receive msg =>
      rcases Nat.lt_or_ge (depthAfter intervalNs calls) Inbox.agentMaxQueueSize with hroom | hfull
      · have hnotfull : ¬ Inbox.agentMaxQueueSize ≤ depthAfter intervalNs calls
          := Nat.not_le.mpr hroom
        have happlied : (Traced.run intervalNs (calls ++ [.receive msg])).inbox.backpressureApplied
              = true
            ↔ (Traced.run intervalNs calls).inbox.backpressureApplied = true
              ∧ Inbox.lowWatermark ≤ depthAfter intervalNs calls := by
          rw [run_concat, Traced.step_receive_of_room hroom, applied_enqueue,
            applied_clearBackpressure]
          rfl
        rw [happlied]
        simp only [hnotfull, and_false, false_or]
      · have happlied : (Traced.run intervalNs (calls ++ [.receive msg])).inbox.backpressureApplied
            = true := by
          rw [run_concat, Traced.step_receive_of_full hfull]
        rw [happlied, depthAfter_receive_of_full hfull]
        simp only [Call.receive.injEq, exists_eq', hfull, and_self, true_or, true_and, true_iff]
        apply Nat.le_trans lowWatermark_le_agentMaxQueueSize hfull
    | get now =>
      have happlied : (Traced.run intervalNs (calls ++ [.get now])).inbox.backpressureApplied
          = (Traced.run intervalNs calls).inbox.backpressureApplied := by
        rw [run_concat]
        apply applied_getMessage
      have hle := @depthAfter_get_le β intervalNs calls now
      rw [happlied]
      simp only [reduceCtorEq, exists_false, false_and, false_or, and_assoc, and_congr_right_iff,
        and_iff_right_iff_imp]
      intro _ henough
      apply Nat.le_trans henough hle

theorem receiveMessage_fst_iff (b : Inbox β) (msg : Message β) :
  (b.receiveMessage msg).1 = true ↔ b.totalDepth < Inbox.agentMaxQueueSize
  := by
  rcases Nat.lt_or_ge b.totalDepth Inbox.agentMaxQueueSize with hroom | hfull
  · rw [Inbox.receiveMessage_of_room hroom]
    simp only [hroom]
  · rw [Inbox.receiveMessage_of_full hfull]
    simp only [Bool.false_eq_true, false_iff, Nat.not_lt]
    apply hfull

/-- Messages are rejected as they should be exactly if none is received while there is room in a
closed inbox. -/
theorem hysteresis_iff (intervalNs : ℤ) (calls : List (Call β)) :
  Hysteresis intervalNs calls ↔ ∀ earlier msg later, calls = earlier ++ .receive msg :: later →
    ¬ ((Traced.run intervalNs earlier).inbox.backpressureApplied = true
      ∧ Inbox.lowWatermark ≤ depthAfter intervalNs earlier
      ∧ depthAfter intervalNs earlier < Inbox.agentMaxQueueSize)
  := by
  have hone (earlier : List (Call β)) (msg : Message β) :
      (((Traced.run intervalNs earlier).inbox.receiveMessage msg).1 = true
        ↔ ¬ Closed intervalNs earlier ∧ depthAfter intervalNs earlier < Inbox.agentMaxQueueSize)
      ↔ ¬ ((Traced.run intervalNs earlier).inbox.backpressureApplied = true
        ∧ Inbox.lowWatermark ≤ depthAfter intervalNs earlier
        ∧ depthAfter intervalNs earlier < Inbox.agentMaxQueueSize) := by
    rw [receiveMessage_fst_iff, closed_iff, ← depthAfter]
    tauto
  constructor
  · intro h earlier msg later hcalls
    apply (hone earlier msg).mp (h earlier msg later hcalls)
  · intro h earlier msg later hcalls
    apply (hone earlier msg).mpr (h earlier msg later hcalls)

/-! ### A full inbox -/

/-- As many messages as there is room for are accepted. -/
theorem depthAfter_replicate (msg : Message β) {k : ℕ} (hk : k ≤ Inbox.agentMaxQueueSize) :
  depthAfter intervalNs (List.replicate k (.receive msg)) = k
  := by
  induction k with
  | zero => rfl
  | succ k ih =>
    have hdepth := ih (Nat.le_of_succ_le hk)
    rw [List.replicate_succ', depthAfter_receive_of_room (by rwa [hdepth]), hdepth]

/-- A call of `getMessage` takes a message out. -/
theorem depthAfter_get (h : depthAfter intervalNs calls ≠ 0) (now : ℤ) :
  depthAfter intervalNs (calls ++ [.get now]) + 1 = depthAfter intervalNs calls
  := by
  have hlength := ((Traced.run intervalNs calls).inbox.gets_getMessage now).queued_perm.length_eq
  rw [List.length_append, ← Inbox.totalDepth_eq, ← Inbox.totalDepth_eq] at hlength
  have hsome : ((Traced.run intervalNs calls).inbox.getMessage now).1 ≠ none
    := Inbox.getMessage_eq_none_iff.not.mpr h
  obtain ⟨msg, hmsg⟩ := Option.ne_none_iff_exists'.mp hsome
  rw [hmsg, Option.toList_some, List.length_singleton, Nat.add_comm] at hlength
  rw [depthAfter, run_concat]
  apply hlength.symm

/-- Calls that fill the inbox, a message that is rejected, and one that is returned. -/
def overfilled (calls : List (Call β)) (msg : Message β) (now : ℤ) : List (Call β) :=
  calls ++ [.receive msg] ++ [.get now]

/-- The next message is accepted in spite of the others. -/
theorem accepts_overfilled (h : depthAfter intervalNs calls = Inbox.agentMaxQueueSize)
    (msg : Message β) (now : ℤ) :
  depthAfter intervalNs (overfilled calls msg now) = 9999
    ∧ Closed intervalNs (overfilled calls msg now)
    ∧ ((Traced.run intervalNs (overfilled calls msg now)).inbox.receiveMessage msg).1 = true
  := by
  have hfull : Inbox.agentMaxQueueSize ≤ depthAfter intervalNs calls := Nat.le_of_eq h.symm
  have hrejected := depthAfter_receive_of_full hfull msg
  rw [h] at hrejected
  have hdepth : depthAfter intervalNs (overfilled calls msg now) + 1 = Inbox.agentMaxQueueSize := by
    rw [overfilled, depthAfter_get, hrejected]
    rw [hrejected]
    decide
  have hdepth' : depthAfter intervalNs (overfilled calls msg now) = 9999 := Nat.succ_inj.mp hdepth
  refine ⟨hdepth', ?_, ?_⟩
  · apply (closed_concat_iff _).mpr
    right
    constructor
    · apply (closed_concat_iff _).mpr
      exact .inl ⟨⟨msg, rfl⟩, hfull⟩
    · rw [← overfilled, hdepth']
      decide
  · apply (receiveMessage_fst_iff _ msg).mpr
    rw [← depthAfter, hdepth']
    decide

/-- Ten thousand messages, one that is rejected, a call of `getMessage`, and another message, which
is accepted. -/
theorem not_hysteresis_overfilled :
  let calls : List (Call ℕ) := overfilled (.replicate 10000 (.receive ⟨1, 0⟩)) ⟨1, 0⟩ 1
  depthAfter 100 calls = 9999
    ∧ ((Traced.run 100 calls).inbox.receiveMessage ⟨1, 0⟩).1 = true
    ∧ ¬ Hysteresis 100 (calls ++ [.receive ⟨1, 0⟩])
  := by
  intro calls
  have hfull : depthAfter 100 (List.replicate 10000 (.receive (⟨1, 0⟩ : Message ℕ)))
      = Inbox.agentMaxQueueSize := depthAfter_replicate _ (Nat.le_refl _)
  obtain ⟨hdepth, hclosed, haccepted⟩ := accepts_overfilled hfull ⟨1, 0⟩ 1
  refine ⟨hdepth, haccepted, ?_⟩
  intro h
  obtain ⟨hopen, -⟩ := (h calls ⟨1, 0⟩ [] rfl).mp haccepted
  apply hopen hclosed

end Agents

end Agamemnon
