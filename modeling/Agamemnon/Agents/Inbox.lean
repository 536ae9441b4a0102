import Mathlib.Data.Int.Notation
import Mathlib.Data.List.Induction
import Mathlib.Data.List.Perm.Basic
import Mathlib.Tactic.SplitIfs
import Mathlib.Tactic.Use

/-!
# The inbox of an agent

`AgentCore` has a queue for each priority.  `receiveMessage` rejects messages when the queues are
full.  `getMessage` takes the first message of the highest priority, except that when the fairness
interval has passed since the last message, and a message of lower priority is queued, it returns
that one and puts the message of high priority back at the end of its queue.

Messages are neither lost nor made up (`conserved_run`).  Putting a message back changes the order
of those behind it, so messages of one priority are returned in the order in which they came as
long as there is at most one of high priority when that happens (`inOrder_of_turnsSafe`).
-/

namespace Agamemnon

namespace Agents

/-- A message; the priority is the number of an enumerator, `HIGH` is 0, `NORMAL` is 1 and `LOW`
is 2. -/
structure Message (β : Type) where
  priority : ℤ
  body : β
  deriving DecidableEq

/-- The three queues. -/
inductive Lane where
  | high
  | normal
  | low
  deriving DecidableEq

/-- The queue of a priority.  A number that is no enumerator counts as `NORMAL`. -/
def lane (priority : ℤ) : Lane :=
  if priority = 0 then .high
  else if priority = 1 then .normal
  else if priority = 2 then .low
  else .normal

/-- What `AgentCore` keeps of its inbox; times are in nanoseconds. -/
structure Inbox (β : Type) where
  highPriorityInbox : List (Message β) := []
  normalPriorityInbox : List (Message β) := []
  lowPriorityInbox : List (Message β) := []
  backpressureApplied : Bool := false
  /-- zero before the first message is returned -/
  lastLowPriorityCheckNs : ℤ := 0
  lowPriorityCheckIntervalNs : ℤ

variable {β : Type}

namespace Inbox

/-- `AGENT_MAX_QUEUE_SIZE`. -/
def agentMaxQueueSize : ℕ := 10000

/-- `AGENT_MAX_QUEUE_SIZE * AGENT_QUEUE_LOW_WATERMARK_PERCENT`. -/
def lowWatermark : ℕ := 8000

variable (b : Inbox β)

def totalDepth : ℕ :=
  b.highPriorityInbox.length + b.normalPriorityInbox.length + b.lowPriorityInbox.length

def enqueue (msg : Message β) : Inbox β :=
  match lane msg.priority with
  | .high => { b with highPriorityInbox := b.highPriorityInbox ++ [msg] }
  | .normal => { b with normalPriorityInbox := b.normalPriorityInbox ++ [msg] }
  | .low => { b with lowPriorityInbox := b.lowPriorityInbox ++ [msg] }

/-- The flag is cleared when there are few messages. -/
def clearBackpressure : Inbox β :=
  if b.totalDepth < lowWatermark ∧ b.backpressureApplied = true then
    { b with backpressureApplied := false }
  else b

/-- `receiveMessage`: whether the message is accepted, and the inbox afterwards. -/
def receiveMessage (msg : Message β) : Bool × Inbox β :=
  if agentMaxQueueSize ≤ b.totalDepth then (false, { b with backpressureApplied := true })
  else (true, b.clearBackpressure.enqueue msg)

/-- The fairness interval has passed since the last message. -/
def intervalElapsed (now : ℤ) : Bool :=
  b.lastLowPriorityCheckNs ≠ 0 && b.lowPriorityCheckIntervalNs ≤ now - b.lastLowPriorityCheckNs

/-- `getMessage` at the time `now`: the message, if there is one, and the inbox afterwards. -/
def getMessage (now : ℤ) : Option (Message β) × Inbox β :=
  let b' := { b with lastLowPriorityCheckNs := now }
  match b.highPriorityInbox with
  | msg :: high =>
      if b.intervalElapsed now then
        match b.normalPriorityInbox with
        | fairnessMsg :: normal =>
            (some fairnessMsg, { b' with
              highPriorityInbox := high ++ [msg], normalPriorityInbox := normal })
        | [] =>
            match b.lowPriorityInbox with
            | fairnessMsg :: low =>
                (some fairnessMsg, { b' with
                  highPriorityInbox := high ++ [msg], lowPriorityInbox := low })
            | [] => (some msg, { b' with highPriorityInbox := high })
      else (some msg, { b' with highPriorityInbox := high })
  | [] =>
      match b.normalPriorityInbox with
      | msg :: normal => (some msg, { b' with normalPriorityInbox := normal })
      | [] =>
          match b.lowPriorityInbox with
          | msg :: low => (some msg, { b' with lowPriorityInbox := low })
          | [] => (none, b)

/-! ### What a call does -/

/-- A queue. -/
def queue : Lane → List (Message β)
  | .high => b.highPriorityInbox
  | .normal => b.normalPriorityInbox
  | .low => b.lowPriorityInbox

/-- Put another queue in the place of one. -/
def setQueue (messages : List (Message β)) : Lane → Inbox β
  | .high => { b with highPriorityInbox := messages }
  | .normal => { b with normalPriorityInbox := messages }
  | .low => { b with lowPriorityInbox := messages }

/-- The messages in all queues. -/
def queued : List (Message β) :=
  b.highPriorityInbox ++ b.normalPriorityInbox ++ b.lowPriorityInbox

/-- A message of lower priority is queued. -/
def HasLower : Prop :=
  b.normalPriorityInbox ≠ [] ∨ b.lowPriorityInbox ≠ []

/-- A message of high priority has to wait for one of lower priority. -/
def TurnsBack (now : ℤ) : Prop :=
  b.highPriorityInbox ≠ [] ∧ b.intervalElapsed now = true ∧ b.HasLower

/-- What `getMessage` does. -/
inductive Gets (b : Inbox β) (now : ℤ) : Option (Message β) × Inbox β → Prop where
  | nothing (hempty : b.queued = []) : Gets b now (none, b)
  | first (l : Lane) (msg : Message β) (rest : List (Message β)) (hqueue : b.queue l = msg :: rest)
      (hturns : ¬ b.TurnsBack now) (hhigh : l ≠ .high → b.highPriorityInbox = []) :
      Gets b now (some msg, { b.setQueue rest l with lastLowPriorityCheckNs := now })
  | lower (l : Lane) (msg : Message β) (rest : List (Message β)) (hlane : l ≠ .high)
      (hqueue : b.queue l = msg :: rest) (hturns : b.TurnsBack now) (high : Message β)
      (highs : List (Message β)) (hhigh : b.highPriorityInbox = high :: highs) :
      Gets b now (some msg, { (b.setQueue rest l).setQueue (highs ++ [high]) .high with
        lastLowPriorityCheckNs := now })

theorem not_turnsBack_of_nil {b : Inbox β} (h : b.highPriorityInbox = []) (now : ℤ) :
  ¬ b.TurnsBack now
  := fun hturns => hturns.1 h

theorem gets_getMessage (now : ℤ) :
  Gets b now (b.getMessage now)
  := by
  obtain ⟨high, normal, low, applied, last, interval⟩ := b
  cases high with
  | cons msg high =>
    cases helapsed : intervalElapsed ⟨msg :: high, normal, low, applied, last, interval⟩ now with
    | false =>
      simp only [getMessage, helapsed, Bool.false_eq_true, if_false]
      apply Gets.first .high msg high rfl _ (absurd rfl)
      intro hturns
      cases helapsed.symm.trans hturns.2.1
    | true =>
      simp only [getMessage, helapsed, if_true]
      cases normal with
      | cons fairnessMsg normal =>
        apply Gets.lower .normal fairnessMsg normal _ rfl _ msg high rfl
        · apply Lane.noConfusion
        · exact ⟨List.cons_ne_nil _ _, helapsed, .inl (List.cons_ne_nil _ _)⟩
      | nil =>
        cases low with
        | cons fairnessMsg low =>
          apply Gets.lower .low fairnessMsg low _ rfl _ msg high rfl
          · apply Lane.noConfusion
          · exact ⟨List.cons_ne_nil _ _, helapsed, .inr (List.cons_ne_nil _ _)⟩
        | nil =>
          apply Gets.first .high msg high rfl _ (absurd rfl)
          rintro ⟨-, -, hlower | hlower⟩
          · apply hlower rfl
          · apply hlower rfl
  | nil =>
    have hturns := not_turnsBack_of_nil (b := ⟨[], normal, low, applied, last, interval⟩) rfl now
    cases normal with
    | cons msg normal => exact Gets.first .normal msg normal rfl hturns fun _ => rfl
    | nil =>
      cases low with
      | cons msg low => exact Gets.first .low msg low rfl hturns fun _ => rfl
      | nil => exact Gets.nothing rfl

/-- What depends neither on the queues nor on the time of the last check is the same after
`getMessage`. -/
theorem getMessage_keeps {γ : Type} (f : Inbox β → γ)
    (hset : ∀ b messages l, f (setQueue b messages l) = f b)
    (hcheck : ∀ b now, f { b with lastLowPriorityCheckNs := now } = f b) (b : Inbox β) (now : ℤ) :
  f (b.getMessage now).2 = f b
  := by
  have hgets := b.gets_getMessage now
  generalize b.getMessage now = result at hgets
  cases hgets with
  | nothing => rfl
  | first l msg rest => rw [hcheck, hset]
  | lower l msg rest hlane hqueue hturns high highs => rw [hcheck, hset, hset]

/-! ### The messages in the queues -/

variable {msg : Message β} {l : Lane}

theorem totalDepth_eq :
  b.totalDepth = b.queued.length
  := by
  rw [totalDepth, queued, List.length_append, List.length_append]

theorem enqueue_eq (msg : Message β) :
  b.enqueue msg = b.setQueue (b.queue (lane msg.priority) ++ [msg]) (lane msg.priority)
  := by
  rw [enqueue]
  cases lane msg.priority with
  | high => rfl
  | normal => rfl
  | low => rfl

@[simp]
theorem queue_setQueue_self (messages : List (Message β)) (l : Lane) :
  (b.setQueue messages l).queue l = messages
  := by
  cases l with
  | high => rfl
  | normal => rfl
  | low => rfl

theorem queue_setQueue_of_ne (messages : List (Message β)) {k : Lane} (h : k ≠ l) :
  (b.setQueue messages l).queue k = b.queue k
  := by
  cases l <;> cases k <;> first | rfl | exact absurd rfl h

variable {messages : List (Message β)}

/-- What a queue gets, all queues together get. -/
theorem queued_setQueue_perm (messages' : List (Message β))
    (h : messages.Perm (messages' ++ b.queue l)) :
  (b.setQueue messages l).queued.Perm (messages' ++ b.queued)
  := by
  cases l with
  | high =>
    rw [queued, queued, ← List.append_assoc, ← List.append_assoc]
    apply (h.append_right _).append_right
  | normal =>
    rw [queued, queued, ← List.append_assoc messages']
    apply List.Perm.append_right
    apply (h.append_left _).trans
    apply List.perm_append_comm_assoc
  | low =>
    rw [queued, queued]
    apply (h.append_left _).trans
    apply List.perm_append_comm_assoc

theorem queue_applied (applied : Bool) (l : Lane) :
  { b with backpressureApplied := applied }.queue l = b.queue l
  := by
  cases l with
  | high => rfl
  | normal => rfl
  | low => rfl

theorem queue_checked (now : ℤ) (l : Lane) :
  { b with lastLowPriorityCheckNs := now }.queue l = b.queue l
  := by
  cases l with
  | high => rfl
  | normal => rfl
  | low => rfl

theorem queue_clearBackpressure (l : Lane) :
  b.clearBackpressure.queue l = b.queue l
  := by
  rw [clearBackpressure]
  split_ifs
  · apply queue_applied
  · rfl

theorem queued_clearBackpressure :
  b.clearBackpressure.queued = b.queued
  := by
  rw [clearBackpressure]
  split_ifs <;> rfl

theorem totalDepth_clearBackpressure :
  b.clearBackpressure.totalDepth = b.totalDepth
  := by
  rw [totalDepth_eq, queued_clearBackpressure, totalDepth_eq]

theorem queued_enqueue_perm (msg : Message β) :
  (b.enqueue msg).queued.Perm (msg :: b.queued)
  := by
  rw [enqueue_eq]
  apply b.queued_setQueue_perm [msg]
  apply List.perm_append_comm

theorem totalDepth_enqueue (msg : Message β) :
  (b.enqueue msg).totalDepth = b.totalDepth + 1
  := by
  rw [totalDepth_eq, totalDepth_eq, (queued_enqueue_perm b msg).length_eq, List.length_cons]

theorem setQueue_setQueue_self (messages : List (Message β)) (l : Lane) :
  (b.setQueue messages l).setQueue (b.queue l) l = b
  := by
  cases l with
  | high => rfl
  | normal => rfl
  | low => rfl

variable {b} {rest : List (Message β)}

theorem receiveMessage_of_full (h : agentMaxQueueSize ≤ b.totalDepth) (msg : Message β) :
  b.receiveMessage msg = (false, { b with backpressureApplied := true })
  := if_pos h

theorem receiveMessage_of_room (h : b.totalDepth < agentMaxQueueSize) (msg : Message β) :
  b.receiveMessage msg = (true, b.clearBackpressure.enqueue msg)
  := if_neg (Nat.not_le.mpr h)

/-- The first message of a queue is taken. -/
theorem queued_perm_of_queue (h : b.queue l = msg :: rest) :
  b.queued.Perm (msg :: (b.setQueue rest l).queued)
  := by
  have hperm : (b.queue l).Perm ([msg] ++ (b.setQueue rest l).queue l) := by
    rw [h, queue_setQueue_self, List.singleton_append]
  have hqueued := (b.setQueue rest l).queued_setQueue_perm [msg] hperm
  rwa [setQueue_setQueue_self] at hqueued

variable {result : Option (Message β) × Inbox β} {now : ℤ}

/-- What `getMessage` returns leaves the queues, and everything else stays. -/
theorem Gets.queued_perm (h : Gets b now result) :
  b.queued.Perm (result.1.toList ++ result.2.queued)
  := by
  cases h with
  | nothing => apply List.Perm.refl
  | first l msg rest hqueue => apply queued_perm_of_queue hqueue
  | lower l msg rest hlane hqueue hturns high highs hhigh =>
    have hhighs : (highs ++ [high]).Perm ([] ++ (b.setQueue rest l).queue .high) := by
      rw [queue_setQueue_of_ne b rest hlane.symm, queue, hhigh]
      apply List.perm_append_comm
    apply (queued_perm_of_queue hqueue).trans
    apply List.Perm.cons
    apply ((b.setQueue rest l).queued_setQueue_perm [] hhighs).symm

theorem totalDepth_getMessage_le (b : Inbox β) (now : ℤ) :
  (b.getMessage now).2.totalDepth ≤ b.totalDepth
  := by
  rw [totalDepth_eq, totalDepth_eq, (gets_getMessage b now).queued_perm.length_eq,
    List.length_append]
  apply Nat.le_add_left

/-- `getMessage` returns a message if one is queued. -/
theorem getMessage_eq_none_iff :
  (b.getMessage now).1 = none ↔ b.totalDepth = 0
  := by
  rw [totalDepth_eq, List.length_eq_zero_iff]
  have hgets := gets_getMessage b now
  constructor
  · intro hnone
    generalize b.getMessage now = result at hgets hnone
    cases hgets with
    | nothing hempty => apply hempty
    | first => cases hnone
    | lower => cases hnone
  · intro hempty
    have hperm := hgets.queued_perm
    rw [hempty, List.nil_perm, List.append_eq_nil_iff, Option.toList_eq_nil_iff] at hperm
    apply hperm.1

/-! ### The priorities of the messages -/

/-- The messages of a queue have its priority. -/
def Pure (b : Inbox β) : Prop :=
  ∀ l, ∀ msg ∈ b.queue l, lane msg.priority = l

theorem Pure.lane_of_queue (h : b.Pure) (hqueue : b.queue l = msg :: rest) :
  lane msg.priority = l
  := by
  apply h l
  rw [hqueue]
  apply List.mem_cons_self

theorem Pure.enqueue (h : b.Pure) (msg : Message β) :
  (b.enqueue msg).Pure
  := by
  rw [enqueue_eq]
  intro l other hother
  by_cases hl : l = lane msg.priority
  · subst hl
    rw [queue_setQueue_self, List.mem_append, List.mem_singleton] at hother
    rcases hother with hother | rfl
    · apply h _ other hother
    · rfl
  · rw [queue_setQueue_of_ne b _ hl] at hother
    apply h l other hother

theorem Pure.receiveMessage (h : b.Pure) (msg : Message β) :
  (b.receiveMessage msg).2.Pure
  := by
  rcases Nat.lt_or_ge b.totalDepth agentMaxQueueSize with hroom | hfull
  · rw [receiveMessage_of_room hroom]
    apply Pure.enqueue
    intro l
    rw [queue_clearBackpressure]
    apply h l
  · rw [receiveMessage_of_full hfull]
    intro l
    rw [queue_applied]
    apply h l

theorem queue_setQueue_subset (h : messages ⊆ b.queue l) (k : Lane) :
  (b.setQueue messages l).queue k ⊆ b.queue k
  := by
  by_cases hk : k = l
  · subst hk
    rw [queue_setQueue_self]
    apply h
  · rw [queue_setQueue_of_ne b messages hk]
    apply List.Subset.refl

/-- The queues get nothing new. -/
theorem Gets.queue_subset (h : Gets b now result) (k : Lane) :
  result.2.queue k ⊆ b.queue k
  := by
  cases h with
  | nothing => apply List.Subset.refl
  | first l msg rest hqueue =>
    rw [queue_checked]
    apply queue_setQueue_subset
    rw [hqueue]
    apply List.subset_cons_self
  | lower l msg rest hlane hqueue hturns high highs hhigh =>
    rw [queue_checked]
    apply List.Subset.trans
    · apply queue_setQueue_subset
      rw [queue_setQueue_of_ne b rest hlane.symm, queue, hhigh]
      apply List.perm_append_comm.subset
    · apply queue_setQueue_subset
      rw [hqueue]
      apply List.subset_cons_self

theorem Pure.getMessage (h : b.Pure) (now : ℤ) :
  (b.getMessage now).2.Pure
  := by
  intro l msg hmsg
  apply h l msg ((gets_getMessage b now).queue_subset l hmsg)

theorem setQueue_queue (b : Inbox β) (l : Lane) :
  b.setQueue (b.queue l) l = b
  := by
  cases l with
  | high => rfl
  | normal => rfl
  | low => rfl

/-- If at most one message of high priority is put back, then `getMessage` just takes a message. -/
theorem Gets.cases_of_safe (h : Gets b now result)
    (hsafe : b.TurnsBack now → b.highPriorityInbox.length ≤ 1) :
  result = (none, b) ∨ ∃ l msg rest, b.queue l = msg :: rest
    ∧ result = (some msg, { b.setQueue rest l with lastLowPriorityCheckNs := now })
  := by
  cases h with
  | nothing => exact .inl rfl
  | first l msg rest hqueue => exact .inr ⟨l, msg, rest, hqueue, rfl⟩
  | lower l msg rest hlane hqueue hturns high highs hhigh =>
    right
    use l, msg, rest, hqueue
    have hlength := hsafe hturns
    rw [hhigh, List.length_cons] at hlength
    have hnil : highs = [] := by
      apply List.eq_nil_of_length_eq_zero
      omega
    have hsame : highs ++ [high] = (b.setQueue rest l).queue .high := by
      rw [queue_setQueue_of_ne b rest hlane.symm, queue, hhigh, hnil]
      rfl
    rw [hsame, setQueue_queue]

/-- The messages of one priority. -/
def ofPriority (p : ℤ) (messages : List (Message β)) : List (Message β) :=
  messages.filter fun msg => msg.priority = p

theorem ofPriority_append (p : ℤ) (messages messages' : List (Message β)) :
  ofPriority p (messages ++ messages') = ofPriority p messages ++ ofPriority p messages'
  := List.filter_append _ _

theorem ofPriority_of_lane_ne {p : ℤ} (h : lane p ≠ lane msg.priority) :
  ofPriority p [msg] = []
  := by
  rw [ofPriority, List.filter_eq_nil_iff]
  intro other hother
  rw [List.mem_singleton] at hother
  subst hother
  rw [decide_eq_true_eq]
  rintro rfl
  apply h rfl

theorem ofPriority_queue_enqueue (b : Inbox β) (msg : Message β) (p : ℤ) :
  ofPriority p ((b.enqueue msg).queue (lane p))
    = ofPriority p (b.queue (lane p)) ++ ofPriority p [msg]
  := by
  rw [enqueue_eq]
  by_cases hlane : lane p = lane msg.priority
  · rw [hlane, queue_setQueue_self, ofPriority_append]
  · rw [queue_setQueue_of_ne b _ hlane, ofPriority_of_lane_ne hlane, List.append_nil]

/-- The first message of a queue is the first of its priority. -/
theorem ofPriority_queue_setQueue (hpure : b.Pure) (h : b.queue l = msg :: rest) (p : ℤ) :
  ofPriority p (b.queue (lane p))
    = ofPriority p [msg] ++ ofPriority p ((b.setQueue rest l).queue (lane p))
  := by
  have hl := hpure.lane_of_queue h
  by_cases hlane : lane p = l
  · rw [hlane, queue_setQueue_self, h, ← ofPriority_append]
    rfl
  · rw [queue_setQueue_of_ne b _ hlane, ofPriority_of_lane_ne (by rwa [hl]), List.nil_append]

end Inbox

open Inbox

/-! ### Runs -/

inductive Call (β : Type) where
  | receive (msg : Message β)
  | get (now : ℤ)

/-- An inbox, with the messages that it has accepted and those that it has returned. -/
structure Traced (β : Type) where
  inbox : Inbox β
  accepted : List (Message β)
  returned : List (Message β)

namespace Traced

/-- A new inbox. -/
def start (intervalNs : ℤ) : Traced β where
  inbox := { lowPriorityCheckIntervalNs := intervalNs }
  accepted := []
  returned := []

def step (t : Traced β) : Call β → Traced β
  | .receive msg =>
      let (ok, inbox) := t.inbox.receiveMessage msg
      { t with inbox, accepted := if ok then t.accepted ++ [msg] else t.accepted }
  | .get now =>
      let (msg, inbox) := t.inbox.getMessage now
      { t with inbox, returned := t.returned ++ msg.toList }

/-- The inbox after some calls. -/
def run (intervalNs : ℤ) (calls : List (Call β)) : Traced β :=
  calls.foldl step (start intervalNs)

variable {intervalNs : ℤ} {calls : List (Call β)} {t : Traced β}

theorem pure_start (intervalNs : ℤ) :
  (start intervalNs : Traced β).inbox.Pure
  := by
  intro l msg hmsg
  cases l <;> cases hmsg

/-- What every call of a run keeps holds at its end. -/
theorem run_induction {P : Traced β → Prop} (hstart : P (start intervalNs))
    (hstep : ∀ earlier c later, calls = earlier ++ c :: later → P (run intervalNs earlier) →
      P ((run intervalNs earlier).step c)) :
  P (run intervalNs calls)
  := by
  induction calls using List.reverseRecOn with
  | nil => apply hstart
  | append_singleton calls c ih =>
    rw [run, List.foldl_append]
    apply hstep calls c [] rfl
    apply ih
    intro earlier c' later hcalls
    apply hstep earlier c' (later ++ [c])
    rw [hcalls, List.append_assoc, List.cons_append]

/-- Messages are neither lost nor made up, a message is returned if one is queued, and the queues do
not outgrow their bound. -/
structure Conserved (t : Traced β) : Prop where
  perm : t.accepted.Perm (t.returned ++ t.inbox.queued)
  returns : ∀ now, (t.inbox.getMessage now).1 = none ↔ t.inbox.totalDepth = 0
  bounded : t.inbox.totalDepth ≤ agentMaxQueueSize

theorem step_receive_of_full (h : agentMaxQueueSize ≤ t.inbox.totalDepth) (msg : Message β) :
  t.step (.receive msg) = { t with inbox := { t.inbox with backpressureApplied := true } }
  := by
  rw [step, receiveMessage_of_full h]
  rfl

theorem step_receive_of_room (h : t.inbox.totalDepth < agentMaxQueueSize) (msg : Message β) :
  t.step (.receive msg)
    = { t with
        inbox := t.inbox.clearBackpressure.enqueue msg
        accepted := t.accepted ++ [msg] }
  := by
  rw [step, receiveMessage_of_room h]
  rfl

theorem Conserved.receive (h : Conserved t) (msg : Message β) :
  Conserved (t.step (.receive msg))
  := by
  refine ⟨?_, fun _ => getMessage_eq_none_iff, ?_⟩
  all_goals rcases Nat.lt_or_ge t.inbox.totalDepth agentMaxQueueSize with hroom | hfull
  · rw [step_receive_of_room hroom]
    calc List.Perm (t.accepted ++ [msg]) (msg :: t.accepted) := List.perm_append_comm
      List.Perm _ (msg :: (t.returned ++ t.inbox.queued)) := h.perm.cons msg
      List.Perm _ (t.returned ++ msg :: t.inbox.queued) := List.perm_middle.symm
      List.Perm _ (t.returned ++ (t.inbox.clearBackpressure.enqueue msg).queued) := by
        rw [← t.inbox.queued_clearBackpressure]
        apply (queued_enqueue_perm _ msg).symm.append_left
  · rw [step_receive_of_full hfull]
    apply h.perm
  · rw [step_receive_of_room hroom, totalDepth_enqueue, totalDepth_clearBackpressure]
    apply hroom
  · rw [step_receive_of_full hfull]
    apply h.bounded

theorem Conserved.get (h : Conserved t) (now : ℤ) :
  Conserved (t.step (.get now))
  where
  perm := by
    change t.accepted.Perm (t.returned ++ _ ++ _)
    rw [List.append_assoc]
    apply h.perm.trans
    apply (gets_getMessage t.inbox now).queued_perm.append_left
  returns := fun _ => getMessage_eq_none_iff
  bounded := Nat.le_trans (t.inbox.totalDepth_getMessage_le now) h.bounded

/-- In every run messages are neither lost nor made up, and the queues do not outgrow their
bound. -/
theorem conserved_run (intervalNs : ℤ) (calls : List (Call β)) :
  Conserved (run intervalNs calls)
  := by
  apply run_induction
  · refine ⟨List.Perm.refl _, fun _ => getMessage_eq_none_iff, Nat.zero_le _⟩
  · intro earlier c later _ h
    cases c with
    | receive msg => apply h.receive
    | get now => apply h.get

/-! ### The order of the messages -/

/-- Messages of one priority are returned in the order in which they were accepted. -/
def InOrder (t : Traced β) : Prop :=
  ∀ p, ofPriority p t.returned <+: ofPriority p t.accepted

/-- A message of high priority is put back only if it is the only one of high priority. -/
def TurnsSafe (intervalNs : ℤ) (calls : List (Call β)) : Prop :=
  ∀ earlier now later, calls = earlier ++ .get now :: later →
    (run intervalNs earlier).inbox.TurnsBack now →
      (run intervalNs earlier).inbox.highPriorityInbox.length ≤ 1

/-- What has been accepted of a priority and not returned is in its queue, in order. -/
structure Lined (t : Traced β) : Prop where
  lanes : t.inbox.Pure
  order : ∀ p, ofPriority p t.accepted
    = ofPriority p t.returned ++ ofPriority p (t.inbox.queue (lane p))

theorem Lined.receive (h : Lined t) (msg : Message β) :
  Lined (t.step (.receive msg))
  where
  lanes := h.lanes.receiveMessage msg
  order := by
    intro p
    rcases Nat.lt_or_ge t.inbox.totalDepth agentMaxQueueSize with hroom | hfull
    · rw [step_receive_of_room hroom, ofPriority_queue_enqueue,
        queue_clearBackpressure, ofPriority_append, h.order p, List.append_assoc]
    · rw [step_receive_of_full hfull, queue_applied]
      apply h.order p

theorem Lined.get (h : Lined t) {now : ℤ}
    (hsafe : t.inbox.TurnsBack now → t.inbox.highPriorityInbox.length ≤ 1) :
  Lined (t.step (.get now))
  where
  lanes := h.lanes.getMessage now
  order := by
    intro p
    rw [step]
    rcases (gets_getMessage t.inbox now).cases_of_safe hsafe with
      hnone | ⟨l, msg, rest, hqueue, hsome⟩
    · rw [hnone]
      simp only [Option.toList_none, List.append_nil]
      apply h.order p
    · rw [hsome]
      simp only [Option.toList_some]
      rw [queue_checked, ofPriority_append, List.append_assoc,
        ← ofPriority_queue_setQueue h.lanes hqueue]
      apply h.order p

/-- In every run in which no message of high priority is put back behind another one, messages of
one priority are returned in the order in which they were accepted. -/
theorem inOrder_of_turnsSafe (intervalNs : ℤ) (calls : List (Call β))
    (hsafe : TurnsSafe intervalNs calls) :
  InOrder (run intervalNs calls)
  := by
  have hlined : Lined (run intervalNs calls) := by
    apply run_induction
    · constructor
      · apply pure_start
      · intro p
        cases lane p <;> rfl
    · intro earlier c later hcalls h
      cases c with
      | receive msg => apply h.receive
      | get now => apply h.get (hsafe earlier now later hcalls)
  intro p
  rw [hlined.order p]
  apply List.prefix_append

/-- A message of lower priority is returned in between, while one of high priority waits. -/
def oneWaiting : List (Call ℕ) :=
  [.receive ⟨0, 1⟩, .receive ⟨1, 2⟩, .get 1, .receive ⟨0, 3⟩, .get 3, .get 4]

theorem inOrder_oneWaiting :
  TurnsSafe 2 oneWaiting ∧ (run 2 oneWaiting).returned = [⟨0, 1⟩, ⟨1, 2⟩, ⟨0, 3⟩]
    ∧ InOrder (run 2 oneWaiting)
  := by
  have hsafe : TurnsSafe 2 oneWaiting := by
    have hall : ∀ k < 6, (run 2 (oneWaiting.take k)).inbox.highPriorityInbox.length ≤ 1 := by
      decide
    intro earlier now later hcalls _
    have hlength : 6 = (earlier ++ Call.get now :: later).length := congrArg List.length hcalls
    rw [List.length_append, List.length_cons] at hlength
    have htake := hall earlier.length (by omega)
    rwa [hcalls, List.take_left] at htake
  exact ⟨hsafe, by decide, inOrder_of_turnsSafe 2 oneWaiting hsafe⟩

/-- Two messages of high priority wait while one of lower priority is returned. -/
def twoWaiting : List (Call ℕ) :=
  [.receive ⟨0, 1⟩, .receive ⟨0, 2⟩, .receive ⟨0, 3⟩, .receive ⟨1, 4⟩, .get 1, .get 3, .get 4,
    .get 5]

/-- They are returned in the other order. -/
theorem not_inOrder_twoWaiting :
  (run 2 twoWaiting).accepted = [⟨0, 1⟩, ⟨0, 2⟩, ⟨0, 3⟩, ⟨1, 4⟩]
    ∧ (run 2 twoWaiting).returned = [⟨0, 1⟩, ⟨1, 4⟩, ⟨0, 3⟩, ⟨0, 2⟩]
    ∧ ¬ InOrder (run 2 twoWaiting)
  := by
  refine ⟨by decide, by decide, ?_⟩
  intro h
  have hhigh := h 0
  revert hhigh
  decide

end Traced

end Agents

end Agamemnon
