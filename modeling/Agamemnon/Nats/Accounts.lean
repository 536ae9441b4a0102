import Agamemnon.Nats.Client

/-!
# What becomes of a message

The loops of `publish` and `publish_log` are two copies of one loop, `deliver`.  What it does to the
breaker, and how often it tries, does not depend on the message.  It leaves one entry in the
dead-letter queue if no attempt succeeds, and none otherwise.  Without a connection `publish_log`
leaves an entry as well, and `publish` does not.
-/

namespace Agamemnon

namespace Nats

open Program

variable {cfg : BreakerConfig} {subject payload level service : String} {left attempt : ℕ}
  {delayMs : ℤ} {s s' : Session}

/-! ### The loop -/

/-- What an operation leaves. -/
def perform (cfg : BreakerConfig) (s : Session) (op : Op) : Session :=
  (handle cfg s op).2

/-- The result of the next low-level attempt. -/
def Session.nextResult (s : Session) : NatsStatus :=
  s.link.results s.link.attempts.length

/-- What waiting for the next attempt leaves. -/
def afterBackOff (cfg : BreakerConfig) (s : Session) (delayMs : ℤ) : Session :=
  if 0 < delayMs then perform cfg s (.sleepFor delayMs) else s

/-- What the loops of `publish` and `publish_log` do to a session. -/
def deliver (cfg : BreakerConfig) (subject payload level service : String) :
    ℕ → ℕ → ℤ → Session → Session
  | 0, _, _, s => s
  | left + 1, attempt, delayMs, s =>
      let s' := perform cfg s (.publishOnce subject payload)
      if s.nextResult = .ok then perform cfg s' .recordSuccess
      else if !isInfraError s.nextResult || attempt = maxRetries then
        perform cfg (perform cfg s' .recordFailure) (.push subject payload attempt level service)
      else
        deliver cfg subject payload level service left (attempt + 1) (delayMs * 2)
          (afterBackOff cfg s' delayMs)

theorem exec_backOff_bind {α : Type} (f : Unit → Prog α) :
  exec (handle cfg) (backOff delayMs >>= f) s
    = exec (handle cfg) (f ()) (afterBackOff cfg s delayMs)
  := by
  rw [backOff, afterBackOff]
  split_ifs <;> rfl

theorem exec_doPublishOnce_bind {α : Type} (f : NatsStatus → Prog α) :
  exec (handle cfg) (doPublishOnce subject payload >>= f) s
    = exec (handle cfg) (f s.nextResult) (perform cfg s (.publishOnce subject payload))
  := rfl

theorem exec_publishLoop (left attempt : ℕ) (delayMs : ℤ) (s : Session) :
  (exec (handle cfg) (publishLoop subject payload left attempt delayMs) s).2
    = deliver cfg subject payload "" "" left attempt delayMs s
  := by
  induction left generalizing attempt delayMs s with
  | zero => rfl
  | succ left ih =>
    rw [publishLoop, deliver, exec_doPublishOnce_bind]
    split_ifs
    · rfl
    · rfl
    · rw [exec_backOff_bind, ih]

theorem exec_publishLogLoop (left attempt : ℕ) (delayMs : ℤ) (s : Session) :
  (exec (handle cfg) (publishLogLoop subject payload level service left attempt delayMs) s).2
    = deliver cfg subject payload level service left attempt delayMs s
  := by
  induction left generalizing attempt delayMs s with
  | zero => rfl
  | succ left ih =>
    rw [publishLogLoop, deliver, exec_doPublishOnce_bind]
    split_ifs
    · rfl
    · rfl
    · rw [exec_backOff_bind, ih]

/-! ### The breaker and the attempts -/

/-- The operations of the two functions; the messages differ. -/
inductive SameKind : Op → Op → Prop where
  | refl (op : Op) : SameKind op op
  | publishOnce (subject payload subject' payload' : String) :
      SameKind (.publishOnce subject payload) (.publishOnce subject' payload')
  | push (subject payload level service subject' payload' level' service' : String)
      (attempts attempts' : ℕ) :
      SameKind (.push subject payload attempts level service)
        (.push subject' payload' attempts' level' service')

theorem link_perform (cfg : BreakerConfig) (h : s.link = s'.link) {op op' : Op}
    (hop : SameKind op op') :
  (perform cfg s op).link = (perform cfg s' op').link
  := by
  cases hop with
  | refl op => cases op <;> simp only [perform, handle, Session.update, h]
  | publishOnce => simp only [perform, handle, Session.update, h]
  | push => simp only [perform, handle, h]

theorem link_afterBackOff (h : s.link = s'.link) :
  (afterBackOff cfg s delayMs).link = (afterBackOff cfg s' delayMs).link
  := by
  rw [afterBackOff, afterBackOff]
  split_ifs
  · exact link_perform cfg h (.refl _)
  · exact h

/-- What is done to the link does not depend on the message. -/
theorem link_deliver {subject' payload' level' service' : String} (left attempt : ℕ)
    (delayMs : ℤ) (h : s.link = s'.link) :
  (deliver cfg subject payload level service left attempt delayMs s).link
    = (deliver cfg subject' payload' level' service' left attempt delayMs s').link
  := by
  induction left generalizing attempt delayMs s s' with
  | zero => exact h
  | succ left ih =>
    have hresult : s.nextResult = s'.nextResult := by rw [Session.nextResult, Session.nextResult, h]
    have honce := link_perform cfg h (.publishOnce subject payload subject' payload')
    rw [deliver, deliver, ← hresult]
    split_ifs
    · exact link_perform cfg honce (.refl _)
    · exact link_perform cfg (link_perform cfg honce (.refl _)) (.push ..)
    · exact ih _ _ (link_afterBackOff honce)

/-! ### The dead letters -/

/-- A message that was delivered leaves the queue as it was, and another one leaves one entry. -/
structure Accounted (subject payload : String) (before after : Session) : Prop where
  delivered : .ok ∈ after.link.attempts →
    after.pushed = before.pushed ∧ after.dlq = before.dlq
  lost : .ok ∉ after.link.attempts →
    ∃ entry : Entry, entry.subject = subject ∧ entry.payload = payload
      ∧ after.pushed = before.pushed ++ [entry] ∧ after.dlq = before.dlq.push entry

/-- What happens before a message is settled does not concern the queue. -/
theorem Accounted.of_eq {s₀ : Session} (h : Accounted subject payload s s')
    (hpushed : s.pushed = s₀.pushed) (hdlq : s.dlq = s₀.dlq) :
  Accounted subject payload s₀ s'
  := by
  obtain ⟨hdelivered, hlost⟩ := h
  rw [hpushed, hdlq] at hdelivered hlost
  exact ⟨hdelivered, hlost⟩

theorem accounted_push (s : Session) {attempts : ℕ} (h : .ok ∉ s.link.attempts) :
  Accounted subject payload s (perform cfg s (.push subject payload attempts level service))
  where
  delivered := fun hok => absurd hok h
  lost := fun _ => ⟨_, rfl, rfl, rfl, rfl⟩

theorem frame_afterBackOff (cfg : BreakerConfig) (s : Session) (delayMs : ℤ) :
  (afterBackOff cfg s delayMs).pushed = s.pushed ∧ (afterBackOff cfg s delayMs).dlq = s.dlq
    ∧ (afterBackOff cfg s delayMs).link.attempts = s.link.attempts
  := by
  rw [afterBackOff]
  split_ifs <;> exact ⟨rfl, rfl, rfl⟩

theorem accounted_deliver (left attempt : ℕ) (delayMs : ℤ) (s : Session) (hpositive : 0 < left)
    (hleft : attempt + left = maxRetries + 1) (hnone : .ok ∉ s.link.attempts) :
  Accounted subject payload s (deliver cfg subject payload level service left attempt delayMs s)
  := by
  induction left generalizing attempt delayMs s with
  | zero => exact absurd hpositive (Nat.lt_irrefl 0)
  | succ left ih =>
    have hattempts : (perform cfg s (.publishOnce subject payload)).link.attempts
        = s.link.attempts ++ [s.nextResult] := rfl
    rw [deliver]
    by_cases hok : s.nextResult = .ok
    · rw [if_pos hok]
      constructor
      · intro _
        exact ⟨rfl, rfl⟩
      · intro hnot
        apply absurd _ hnot
        change .ok ∈ s.link.attempts ++ [s.nextResult]
        simp [hok]
    · have hstill : .ok ∉ (perform cfg s (.publishOnce subject payload)).link.attempts := by
        rw [hattempts]
        simp [hnone, Ne.symm hok]
      rw [if_neg hok]
      split_ifs with hlast
      · exact (accounted_push
          (perform cfg (perform cfg s (.publishOnce subject payload)) .recordFailure)
          hstill).of_eq rfl rfl
      · -- the last round does not get here, so another one follows
        have hnext : 0 < left := by
          rcases Nat.eq_zero_or_pos left with rfl | hpos
          · simp [Nat.succ.inj hleft] at hlast
          · exact hpos
        obtain ⟨hpushed, hdlq, hlink⟩ := frame_afterBackOff cfg
          (perform cfg s (.publishOnce subject payload)) delayMs
        rw [← hlink] at hstill
        exact (ih (attempt + 1) (delayMs * 2) _ hnext (by omega) hstill).of_eq hpushed hdlq

/-! ### Both ways -/

/-- A session in which nothing has happened yet. -/
def Session.start (breaker : CircuitBreaker) (clock : ℕ → ℤ) (results : ℕ → NatsStatus)
    (dlq : DeadLetterQueue) : Session where
  link := { breaker, clock, results }
  dlq := dlq

/-- The session after `publish`. -/
def afterPublish (cfg : BreakerConfig) (c : NatsClient) (subject payload : String) (s : Session) :
    Session :=
  (exec (handle cfg) (publish c subject payload) s).2

/-- The session after `publish_log`. -/
def afterPublishLog (cfg : BreakerConfig) (c : NatsClient) (dump : Json → String) (ts : ℚ)
    (subject level message : String) (metadata : Json) (s : Session) : Session :=
  (exec (handle cfg) (publishLog c dump ts subject level message metadata) s).2

/-- Whether the breaker grants an attempt. -/
def granted (cfg : BreakerConfig) (s : Session) : Bool :=
  (s.link.breaker.allowAttempt cfg (s.link.clock s.link.time)).1

theorem exec_allowAttempt_bind {α : Type} (f : Bool → Prog α) :
  exec (handle cfg) (allowAttempt >>= f) s
    = exec (handle cfg) (f (granted cfg s)) (perform cfg s .allowAttempt)
  := rfl

/-- What the two functions do when they are connected. -/
def afterAsking (cfg : BreakerConfig) (c : NatsClient) (subject payload level service : String)
    (s : Session) : Session :=
  if granted cfg s then
    deliver cfg subject payload level service maxRetries 1 c.retryBaseMs
      (perform cfg s .allowAttempt)
  else perform cfg (perform cfg s .allowAttempt) (.push subject payload 0 level service)

section Connected

variable {c : NatsClient} {dump : Json → String} {ts : ℚ} {message : String} {metadata : Json}

theorem afterPublish_of_connected (hconnected : c.connected = true) (hconn : c.conn = true) :
  afterPublish cfg c subject payload s = afterAsking cfg c subject payload "" "" s
  := by
  rw [afterPublish, publish, hconnected, hconn, if_neg (by decide), exec_allowAttempt_bind,
    afterAsking]
  cases granted cfg s with
  | false => rfl
  | true => exact exec_publishLoop _ _ _ _

theorem afterPublishLog_of_connected (hconnected : c.connected = true) (hconn : c.conn = true) :
  afterPublishLog cfg c dump ts subject level message metadata s
    = afterAsking cfg c subject (dump (logPayload ts level message metadata)) level "agamemnon" s
  := by
  rw [afterPublishLog, publishLog, hconnected, hconn, if_neg (by decide), exec_allowAttempt_bind,
    afterAsking]
  cases granted cfg s with
  | false => rfl
  | true => exact exec_publishLogLoop _ _ _ _

theorem link_afterAsking {subject' payload' level' service' : String} (s : Session) :
  (afterAsking cfg c subject payload level service s).link
    = (afterAsking cfg c subject' payload' level' service' s).link
  := by
  rw [afterAsking, afterAsking]
  split_ifs
  · apply link_deliver
    rfl
  · exact link_perform cfg rfl (.push ..)

theorem accounted_afterAsking (h : .ok ∉ s.link.attempts) :
  Accounted subject payload s (afterAsking cfg c subject payload level service s)
  := by
  rw [afterAsking]
  split_ifs
  · exact (accounted_deliver maxRetries 1 c.retryBaseMs (perform cfg s .allowAttempt)
      (by decide) rfl h).of_eq rfl rfl
  · exact (accounted_push (perform cfg s .allowAttempt) h).of_eq rfl rfl

end Connected

/-- The two functions treat the breaker alike, try equally often, and account for their messages. -/
structure Alike (before afterPublish afterPublishLog : Session)
    (subject payload logSubject logPayload : String) : Prop where
  breakerCalls : afterPublish.link.breakerCalls = afterPublishLog.link.breakerCalls
  attempts : afterPublish.link.attempts.length = afterPublishLog.link.attempts.length
  publish : Accounted subject payload before afterPublish
  publishLog : Accounted logSubject logPayload before afterPublishLog

/-- For every breaker, queue, clock and sequence of results, the two functions account for their
messages alike exactly if there is a connection. -/
theorem alike_iff (cfg : BreakerConfig) (c : NatsClient) (breaker : CircuitBreaker)
    (clock : ℕ → ℤ) (results : ℕ → NatsStatus) (dlq : DeadLetterQueue) (subject payload : String)
    (dump : Json → String) (ts : ℚ) (logSubject level message : String) (metadata : Json) :
  Alike (.start breaker clock results dlq)
      (afterPublish cfg c subject payload (.start breaker clock results dlq))
      (afterPublishLog cfg c dump ts logSubject level message metadata
        (.start breaker clock results dlq))
      subject payload logSubject (dump (logPayload ts level message metadata))
    ↔ c.connected = true ∧ c.conn = true
  := by
  have hnone : .ok ∉ (Session.start breaker clock results dlq).link.attempts := List.not_mem_nil
  constructor
  · intro h
    by_contra hconnection
    have hrefused : (!c.connected || !c.conn) = true := by
      rw [not_and_or, Bool.not_eq_true, Bool.not_eq_true] at hconnection
      simp [hconnection]
    have hpublish := h.publish
    rw [afterPublish, Nats.publish, if_pos hrefused] at hpublish
    obtain ⟨entry, -, -, hpushed, -⟩ := hpublish.lost hnone
    cases hpushed
  · rintro ⟨hconnected, hconn⟩
    rw [afterPublish_of_connected hconnected hconn, afterPublishLog_of_connected hconnected hconn]
    constructor
    · exact congrArg Link.breakerCalls (link_afterAsking _)
    · exact congrArg (fun link => link.attempts.length) (link_afterAsking _)
    · exact accounted_afterAsking hnone
    · exact accounted_afterAsking hnone

/-- The dead-letter queue of a new client. -/
def newQueue : DeadLetterQueue where
  capacity := 256
  queue := []
  positive := by decide
  bounded := by decide

/-- A client that is not connected. -/
def offline : NatsClient where
  connected := false
  conn := false
  retryBaseMs := 50

/-- A session in which every attempt would succeed. -/
def quietSession : Session :=
  .start {} (fun _ => 0) (fun _ => .ok) newQueue

/-- Without a connection a message of `publish` is neither delivered nor in the queue, although one
of `publish_log` is in the queue. -/
theorem not_alike_offline :
  ¬ Alike quietSession (afterPublish {} offline "hi.myrmidon.python.t" "m" quietSession)
      (afterPublishLog {} offline (fun _ => "m") 0 "hi.logs.agamemnon.t" "info" "m" .null
        quietSession)
      "hi.myrmidon.python.t" "m" "hi.logs.agamemnon.t" "m"
    ∧ (afterPublishLog {} offline (fun _ => "m") 0 "hi.logs.agamemnon.t" "info" "m" .null
        quietSession).dlq.queue
      = [⟨"hi.logs.agamemnon.t", "m", 0, 0, "info", "agamemnon"⟩]
  := by
  refine ⟨fun h => ?_, rfl⟩
  obtain ⟨entry, -, -, hpushed, -⟩ := h.publish.lost List.not_mem_nil
  cases hpushed

end Nats

end Agamemnon
