import Agamemnon.Json.Value
import Agamemnon.Lib.Program
import Agamemnon.Nats.CircuitBreaker

/-!
# Publishing messages

`publish` and `publish_log` ask the circuit breaker, try to publish up to three times, and report
the outcome to the breaker.  A message that is not delivered goes to the dead-letter queue.  What
they use is given by operations, which are carried out one after the other.
-/

namespace Agamemnon

namespace Nats

/-- `natsStatus`, as far as the client tells its values apart. -/
inductive NatsStatus where
  | ok
  | connectionClosed
  | connectionDisconnected
  | ioError
  | noServer
  | timeout
  | other (code : ℕ)
  deriving DecidableEq

def isInfraError : NatsStatus → Bool
  | .connectionClosed => true
  | .connectionDisconnected => true
  | .ioError => true
  | .noServer => true
  | .timeout => true
  | _ => false

/-! ### The dead-letter queue -/

/-- `DeadLetterQueue::Entry`. -/
structure Entry where
  subject : String
  payload : String
  attempts : ℕ
  timestampMs : ℤ
  level : String
  service : String
  deriving DecidableEq

/-- A queue that has room for an entry: the first push to a queue of capacity zero would remove an
entry from an empty queue, which is undefined. -/
structure DeadLetterQueue where
  capacity : ℕ
  queue : List Entry
  positive : 0 < capacity
  bounded : queue.length ≤ capacity

/-- The oldest entry makes room for a new one. -/
def DeadLetterQueue.push (q : DeadLetterQueue) (entry : Entry) : DeadLetterQueue where
  capacity := q.capacity
  queue := (if q.capacity ≤ q.queue.length then q.queue.tail else q.queue) ++ [entry]
  positive := q.positive
  bounded := by
    have hpositive := q.positive
    have hbounded := q.bounded
    split_ifs
    · rw [List.length_append, List.length_tail, List.length_singleton]
      omega
    · rw [List.length_append, List.length_singleton]
      omega

/-! ### The two ways to publish -/

inductive Op where
  | allowAttempt
  | recordSuccess
  | recordFailure
  /-- `do_publish_once` -/
  | publishOnce (subject payload : String)
  | push (subject payload : String) (attempts : ℕ) (level service : String)
  | sleepFor (ms : ℤ)

def Op.Res : Op → Type
  | allowAttempt => Bool
  | publishOnce _ _ => NatsStatus
  | _ => Unit

abbrev Prog (α : Type) : Type := Program Op Op.Res Exn α

def allowAttempt : Prog Bool := Program.request Op.allowAttempt

def recordSuccess : Prog Unit := Program.request Op.recordSuccess

def recordFailure : Prog Unit := Program.request Op.recordFailure

def doPublishOnce (subject payload : String) : Prog NatsStatus :=
  Program.request (Op.publishOnce subject payload)

def push (subject payload : String) (attempts : ℕ) (level service : String) : Prog Unit :=
  Program.request (Op.push subject payload attempts level service)

def sleepFor (ms : ℤ) : Prog Unit := Program.request (Op.sleepFor ms)

/-- The state of the connection, and the base of the delays. -/
structure NatsClient where
  connected : Bool
  conn : Bool
  retryBaseMs : ℤ

def maxRetries : ℕ := 3

/-- Wait before the next attempt. -/
def backOff (delayMs : ℤ) : Prog Unit :=
  if 0 < delayMs then sleepFor delayMs else pure ()

/-- The loop of `publish`, with the number of rounds that are left. -/
def publishLoop (subject payload : String) : ℕ → ℕ → ℤ → Prog Bool
  | 0, _, _ => pure false
  | left + 1, attempt, delayMs => do
      let s ← doPublishOnce subject payload
      if s = .ok then
        recordSuccess
        return true
      else if !isInfraError s || attempt = maxRetries then
        recordFailure
        push subject payload attempt "" ""
        return false
      else
        backOff delayMs
        publishLoop subject payload left (attempt + 1) (delayMs * 2)

def publish (c : NatsClient) (subject payload : String) : Prog Bool := do
  if !c.connected || !c.conn then
    return false
  else
    if !(← allowAttempt) then
      push subject payload 0 "" ""
      return false
    else
      publishLoop subject payload maxRetries 1 c.retryBaseMs

/-- The structured payload of a log message at the time `ts`. -/
def logPayload (ts : ℚ) (level message : String) (metadata : Json) : Json :=
  .ofMembers [("timestamp", .float ts), ("service", .string "agamemnon"), ("level", .string level),
    ("message", .string message), ("metadata", metadata)]

/-- The loop of `publish_log`. -/
def publishLogLoop (subject payload level service : String) : ℕ → ℕ → ℤ → Prog Unit
  | 0, _, _ => pure ()
  | left + 1, attempt, delayMs => do
      let s ← doPublishOnce subject payload
      if s = .ok then
        recordSuccess
      else if !isInfraError s || attempt = maxRetries then
        recordFailure
        push subject payload attempt level service
      else
        backOff delayMs
        publishLogLoop subject payload level service left (attempt + 1) (delayMs * 2)

def publishLog (c : NatsClient) (dump : Json → String) (ts : ℚ) (subject level message : String)
    (metadata : Json) : Prog Unit := do
  let service := "agamemnon"
  let payload := dump (logPayload ts level message metadata)
  if !c.connected || !c.conn then
    push subject payload 0 level service
  else
    if !(← allowAttempt) then
      push subject payload 0 level service
    else
      publishLogLoop subject payload level service maxRetries 1 c.retryBaseMs

/-! ### What the operations do -/

inductive BreakerCall where
  | allowAttempt
  | recordSuccess
  | recordFailure
  deriving DecidableEq

/-- What the two functions share with the broker: the breaker, the times of the operations, the
results of the low-level attempts, and a record of the calls. -/
structure Link where
  breaker : CircuitBreaker
  clock : ℕ → ℤ
  results : ℕ → NatsStatus
  time : ℕ := 0
  breakerCalls : List BreakerCall := []
  attempts : List NatsStatus := []

/-- A link and a dead-letter queue, with a record of the entries that were pushed. -/
structure Session where
  link : Link
  dlq : DeadLetterQueue
  pushed : List Entry := []

def Link.tick (l : Link) : Link :=
  { l with time := l.time + 1 }

def Session.update (s : Session) (link : Link) : Session :=
  { s with link := link.tick }

/-- An operation is carried out at its time. -/
def handle (cfg : BreakerConfig) : Handler Op Op.Res Session
  | s, .allowAttempt =>
      let (granted, breaker) := s.link.breaker.allowAttempt cfg (s.link.clock s.link.time)
      (granted, s.update
        { s.link with breaker, breakerCalls := s.link.breakerCalls ++ [.allowAttempt] })
  | s, .recordSuccess =>
      ((), s.update
        { s.link with
          breaker := s.link.breaker.recordSuccess
          breakerCalls := s.link.breakerCalls ++ [.recordSuccess] })
  | s, .recordFailure =>
      ((), s.update
        { s.link with
          breaker := s.link.breaker.recordFailure cfg (s.link.clock s.link.time)
          breakerCalls := s.link.breakerCalls ++ [.recordFailure] })
  | s, .publishOnce _ _ =>
      let status := s.link.results s.link.attempts.length
      (status, s.update { s.link with attempts := s.link.attempts ++ [status] })
  | s, .push subject payload attempts level service =>
      let entry : Entry := ⟨subject, payload, attempts, s.link.clock s.link.time, level, service⟩
      ((), { link := s.link.tick, dlq := s.dlq.push entry, pushed := s.pushed ++ [entry] })
  | s, .sleepFor _ => ((), s.update s.link)

end Nats

end Agamemnon
