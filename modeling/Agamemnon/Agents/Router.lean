import Agamemnon.Agents.Inbox
import Mathlib.Data.Finmap

/-!
# The router

`InProcessRouter` keeps a pointer to an agent for each identifier.  A message goes to the agent that
its receiver names: an agent of a class derived from `AsyncAgent` that has a scheduler submits the
message to it, any other agent puts the message into its inbox.

The router answers whether it has found an agent, but an agent whose inbox is full drops the
message.  So the answer is right exactly if the agent has a scheduler to submit to or room in its
inbox (`truthful_iff`).
-/

namespace Agamemnon

namespace Agents

/-- What a message has beside its priority: the receiver, and everything else. -/
structure Letter (β : Type) where
  receiverId : String
  rest : β
  deriving DecidableEq

/-- An agent that can be registered. -/
structure Receiver (β : Type) where
  /-- the class is derived from `AsyncAgent` -/
  async : Bool
  scheduler : Option ℕ
  inbox : Inbox (Letter β)

/-- The agent has a scheduler to submit to, or room in its inbox. -/
def Receiver.Accepts {β : Type} (agent : Receiver β) : Prop :=
  agent.async = true ∧ agent.scheduler ≠ none
    ∨ agent.inbox.totalDepth < Inbox.agentMaxQueueSize

/-- The pointers of the router, the agents that they may point to, and what each scheduler has been
handed: a message, and the agent that is to process it. -/
structure Router (β : Type) where
  agents : Finmap fun _ : String => Option ℕ
  receiver : ℕ → Receiver β
  submitted : ℕ → List (ℕ × Message (Letter β))

namespace Router

variable {β : Type}

/-- `AgentCore::receiveMessage` of the agent `a`. -/
def enqueue (r : Router β) (a : ℕ) (msg : Message (Letter β)) : Router β :=
  { r with
    receiver := Function.update r.receiver a
      { r.receiver a with inbox := ((r.receiver a).inbox.receiveMessage msg).2 } }

/-- Submit a message to a scheduler, to be processed by the agent `a`. -/
def submit (r : Router β) (scheduler a : ℕ) (msg : Message (Letter β)) : Router β :=
  { r with
    submitted := Function.update r.submitted scheduler (r.submitted scheduler ++ [(a, msg)]) }

/-- `receiveMessage` of the agent `a`, of whichever class it is. -/
def receiveMessage (r : Router β) (a : ℕ) (msg : Message (Letter β)) : Router β :=
  if (r.receiver a).async then
    match (r.receiver a).scheduler with
    | none => r.enqueue a msg
    | some scheduler => r.submit scheduler a msg
  else r.enqueue a msg

/-- `InProcessRouter::routeMessage`. -/
def routeMessage (r : Router β) (msg : Message (Letter β)) : Bool × Router β :=
  match r.agents.lookup msg.body.receiverId with
  | none => (false, r)
  | some none => (false, r)
  | some (some a) => (true, r.receiveMessage a msg)

/-! ### What the answer should say -/

/-- The message has been added to the inbox of its receiver or handed to its scheduler. -/
def Delivered (before after : Router β) (msg : Message (Letter β)) : Prop :=
  ∃ a, before.agents.lookup msg.body.receiverId = some (some a)
    ∧ ((after.receiver a).inbox.queue (lane msg.priority)
          = (before.receiver a).inbox.queue (lane msg.priority) ++ [msg]
      ∨ ∃ scheduler, (before.receiver a).scheduler = some scheduler
          ∧ after.submitted scheduler = before.submitted scheduler ++ [(a, msg)])

/-- The router answers whether the message has been delivered. -/
def Truthful (r : Router β) (msg : Message (Letter β)) : Prop :=
  (r.routeMessage msg).1 = true ↔ Delivered r (r.routeMessage msg).2 msg

variable {r : Router β} {msg : Message (Letter β)}

section Receiving

variable {a : ℕ}

theorem queue_enqueue_of_room (h : (r.receiver a).inbox.totalDepth < Inbox.agentMaxQueueSize) :
  ((r.enqueue a msg).receiver a).inbox.queue (lane msg.priority)
    = (r.receiver a).inbox.queue (lane msg.priority) ++ [msg]
  := by
  simp only [enqueue, Function.update_self]
  rw [Inbox.receiveMessage_of_room h, Inbox.enqueue_eq, Inbox.queue_setQueue_self,
    Inbox.queue_clearBackpressure]

theorem queue_enqueue_of_full (h : Inbox.agentMaxQueueSize ≤ (r.receiver a).inbox.totalDepth)
    (l : Lane) :
  ((r.enqueue a msg).receiver a).inbox.queue l = (r.receiver a).inbox.queue l
  := by
  simp only [enqueue, Function.update_self]
  rw [Inbox.receiveMessage_of_full h, Inbox.queue_applied]

/-- An agent that cannot submit puts the message into its inbox. -/
theorem receiveMessage_eq_enqueue
    (h : ¬ ((r.receiver a).async = true ∧ (r.receiver a).scheduler ≠ none)) :
  r.receiveMessage a msg = r.enqueue a msg
  := by
  rw [receiveMessage]
  split_ifs with hasync
  · have hnone : (r.receiver a).scheduler = none := by
      by_contra hscheduler
      apply h ⟨hasync, hscheduler⟩
    rw [hnone]
  · rfl

end Receiving

/-- An agent that accepts a message delivers it. -/
theorem delivered_of_accepts {a : ℕ} (ha : r.agents.lookup msg.body.receiverId = some (some a))
    (h : (r.receiver a).Accepts) :
  Delivered r (r.receiveMessage a msg) msg
  := by
  use a, ha
  by_cases hsubmits : (r.receiver a).async = true ∧ (r.receiver a).scheduler ≠ none
  · obtain ⟨scheduler, hscheduler⟩ := Option.ne_none_iff_exists'.mp hsubmits.2
    right
    use scheduler, hscheduler
    rw [receiveMessage, if_pos hsubmits.1, hscheduler]
    apply Function.update_self
  · left
    rw [receiveMessage_eq_enqueue hsubmits]
    apply queue_enqueue_of_room
    apply h.resolve_left hsubmits

/-- A full inbox drops the message. -/
theorem not_delivered_of_not_accepts {a : ℕ}
    (ha : r.agents.lookup msg.body.receiverId = some (some a)) (h : ¬ (r.receiver a).Accepts) :
  ¬ Delivered r (r.receiveMessage a msg) msg
  := by
  rw [Receiver.Accepts, not_or, Nat.not_lt] at h
  obtain ⟨hsubmits, hfull⟩ := h
  rw [receiveMessage_eq_enqueue hsubmits]
  rintro ⟨a', ha', hadded | ⟨scheduler, -, hhanded⟩⟩
  · cases ha.symm.trans ha'
    rw [queue_enqueue_of_full hfull, List.self_eq_append_right] at hadded
    cases hadded
  · change r.submitted scheduler = _ at hhanded
    rw [List.self_eq_append_right] at hhanded
    cases hhanded

/-- The answer of the router is right exactly if the receiver, when there is one, accepts the
message. -/
theorem truthful_iff (r : Router β) (msg : Message (Letter β)) :
  Truthful r msg ↔ ∀ a, r.agents.lookup msg.body.receiverId = some (some a) →
    (r.receiver a).Accepts
  := by
  rw [Truthful, routeMessage]
  cases hlookup : r.agents.lookup msg.body.receiverId with
  | none => simp [Delivered, hlookup]
  | some pointer =>
    cases pointer with
    | none => simp [Delivered, hlookup]
    | some a =>
      simp only [true_iff, Option.some.injEq, forall_eq']
      constructor
      · intro hdelivered
        by_contra haccepts
        apply not_delivered_of_not_accepts hlookup haccepts hdelivered
      · intro haccepts
        apply delivered_of_accepts hlookup haccepts

/-- An agent without a scheduler, and with ten thousand messages. -/
def fullReceiver (msg : Message (Letter ℕ)) : Receiver ℕ where
  async := true
  scheduler := none
  inbox :=
    { normalPriorityInbox := .replicate Inbox.agentMaxQueueSize msg
      lowPriorityCheckIntervalNs := 0 }

/-- The router says that it has delivered a message that the agent drops. -/
theorem not_truthful_fullReceiver :
  let msg : Message (Letter ℕ) := ⟨1, ⟨"a", 0⟩⟩
  let r : Router ℕ := ⟨.singleton "a" (some 0), fun _ => fullReceiver msg, fun _ => []⟩
  (r.routeMessage msg).1 = true ∧ ¬ Delivered r (r.routeMessage msg).2 msg ∧ ¬ Truthful r msg
  := by
  intro msg r
  have hlookup : r.agents.lookup msg.body.receiverId = some (some 0) := Finmap.lookup_singleton_eq
  have hroute : r.routeMessage msg = (true, r.receiveMessage 0 msg) := by
    rw [routeMessage, hlookup]
  have haccepts : ¬ (r.receiver 0).Accepts := by
    rintro (⟨-, hscheduler⟩ | hroom)
    · apply hscheduler rfl
    · simp [r, fullReceiver, Inbox.totalDepth] at hroom
  have hdropped := not_delivered_of_not_accepts hlookup haccepts
  rw [Truthful, hroute]
  exact ⟨rfl, hdropped, fun h => hdropped (h.mp rfl)⟩

end Router

end Agents

end Agamemnon
