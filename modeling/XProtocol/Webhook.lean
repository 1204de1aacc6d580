import XProtocol.Async.Scripted
import XProtocol.Error
import XProtocol.Json.Value

/-! Webhooks.

A sender posts an event until it is taken, or its retries are used up, and sleeps in between.
What the other side replies is a script, one reply for each post; what the senders do is
entered in a log. Integers have 32 bits: where one runs over, a build with overflow
checks panics, and any other build goes on with what is left of it. -/
namespace XProtocol
open Async (Program Interface)
open Json (Bytes Value Codec Serialize toValue)

inductive WebhookEvent where
  | requestReceived (requestId serviceName method timestamp : String)
  | responseSent (requestId serviceName status : String) (durationMs : UInt64) (timestamp : String)
  | error (requestId serviceName error timestamp : String)
  | healthCheck (serviceName status timestamp : String)

def WebhookEvent.eventType : WebhookEvent → String
  | .requestReceived .. => "request_received"
  | .responseSent .. => "response_sent"
  | .error .. => "error"
  | .healthCheck .. => "health_check"

instance : Serialize WebhookEvent where
  toValue
    | .requestReceived requestId serviceName method timestamp => .object [("event", .string "RequestReceived"),
        ("request_id", .string requestId), ("service_name", .string serviceName), ("method", .string method),
        ("timestamp", .string timestamp)]
    | .responseSent requestId serviceName status durationMs timestamp => .object [("event", .string "ResponseSent"),
        ("request_id", .string requestId), ("service_name", .string serviceName), ("status", .string status),
        ("duration_ms", toValue durationMs.toNat), ("timestamp", .string timestamp)]
    | .error requestId serviceName error timestamp => .object [("event", .string "Error"),
        ("request_id", .string requestId), ("service_name", .string serviceName), ("error", .string error),
        ("timestamp", .string timestamp)]
    | .healthCheck serviceName status timestamp => .object [("event", .string "HealthCheck"),
        ("service_name", .string serviceName), ("status", .string status), ("timestamp", .string timestamp)]

structure WebhookRetryPolicy where
  maxRetries : UInt32
  initialDelayMs : UInt64
  maxDelayMs : UInt64
  backoffMultiplier : Float

structure WebhookConfig where
  url : String
  headers : List (String × String)
  retryPolicy : WebhookRetryPolicy

structure WebhookSender where
  config : WebhookConfig

structure WebhookService where
  senders : List WebhookSender

namespace Webhook

/-- How the crate was built: whether overflows are looked for, and what `f64::powi` came out as. -/
structure Build where
  overflowChecks : Bool
  powi : Float → Int32 → Float

structure Request where
  url : String
  headers : List (String × String)
  body : Bytes

/-- What comes of a post: a response, with its status as a number and as text, or an error. -/
inductive Reply where
  | response (status : Nat) (text : String)
  | error (text : String)

inductive Op where
  | post (request : Request)
  | sleep (nanos : Nat)
  /-- An integer runs over. -/
  | overflow

def Op.isPost : Op → Bool
  | .post _ => true
  | _ => false

abbrev Hooks : Interface where
  Op := Op
  Ret
    | .post _ => Reply
    | _ => Unit

abbrev Code (α : Type) := ExceptT ProtocolError (Program Hooks) α

def op (o : Op) : Code (Hooks.Ret o) := monadLift (@Program.op Hooks o)

/-- The check before `a + b`. -/
def checkAdd (a b : UInt32) : Code Unit := if a.toNat + b.toNat < 2 ^ 32 then pure () else op .overflow

/-- The check before `a - b`. -/
def checkSub (a b : UInt32) : Code Unit := if b ≤ a then pure () else op .overflow

/-- `response.status().is_success()`. -/
def Reply.isSuccess : Reply → Bool
  | .response status _ => 200 ≤ status && status < 300
  | .error _ => false

/-- What `send` returns after the last attempt. -/
def Reply.failure (maxAttempts : UInt32) : Reply → ProtocolError
  | .response _ text => .server s!"Webhook failed after {maxAttempts} attempts: HTTP {text}"
  | .error text => .connectionFailed s!"Webhook failed after {maxAttempts} attempts: {text}"

theorem attempt_succ {attempt last : UInt32} (h : ¬ attempt ≥ last) :
    attempt.toNat < last.toNat ∧ (attempt + 1).toNat = attempt.toNat + 1 := by
  have hlast : attempt.toNat < last.toNat := UInt32.lt_iff_toNat_lt.mp (UInt32.not_le.mp h)
  have hfits : attempt.toNat + 1 < 2 ^ 32 := Nat.lt_of_le_of_lt hlast last.toNat_lt
  exact ⟨hlast, by rw [UInt32.toNat_add, UInt32.toNat_one, Nat.mod_eq_of_lt hfits]⟩

end Webhook

open Webhook

/-- `delay_for_retry`, in nanoseconds. -/
def WebhookRetryPolicy.delayForRetry (b : Build) (p : WebhookRetryPolicy) (attempt : UInt32) : Nat :=
  let delay := (p.initialDelayMs.toFloat * b.powi p.backoffMultiplier attempt.toInt32).toUInt64
  (min delay p.maxDelayMs).toNat * 10 ^ 6

namespace WebhookSender
variable (S : Codec) (b : Build)

def request (sender : WebhookSender) (event : WebhookEvent) : Request where
  url := sender.config.url
  headers := [("Content-Type", "application/json"), ("X-Webhook-Event", event.eventType)] ++ sender.config.headers
  body := S.toVec event

/-- The loop of `send`, from the given attempt on. Whatever failed, the same is checked before the next one. -/
def sendFrom (policy : WebhookRetryPolicy) (request : Request) (maxAttempts attempt : UInt32) : Code Unit := do
  let reply ← op (.post request)
  if reply.isSuccess then
    return ()
  else
    checkSub maxAttempts 1
    if _h : attempt ≥ maxAttempts - 1 then
      throw (reply.failure maxAttempts)
    else
      checkAdd attempt 1
      op (.sleep (policy.delayForRetry b (attempt + 1)))
      sendFrom policy request maxAttempts (attempt + 1)
  termination_by (maxAttempts - 1).toNat - attempt.toNat
  decreasing_by
    obtain ⟨hlast, hnext⟩ := attempt_succ _h
    omega

def send (sender : WebhookSender) (event : WebhookEvent) : Code Unit := do
  let request := sender.request S event
  checkAdd sender.config.retryPolicy.maxRetries 1
  sendFrom b sender.config.retryPolicy request (sender.config.retryPolicy.maxRetries + 1) 0

end WebhookSender

namespace WebhookService
variable (S : Codec) (b : Build)

/-- The loop of `notify`, with the errors so far. -/
def notifyFrom (event : WebhookEvent) : List WebhookSender → List ProtocolError →
    Program Hooks (List ProtocolError)
  | [], errors => return errors
  | sender :: rest, errors => do
    match ← (sender.send S b event).run with
    | .error e => notifyFrom event rest (errors ++ [e])
    | .ok _ => notifyFrom event rest errors

def notify (service : WebhookService) (event : WebhookEvent) :
    Program Hooks (Except (List ProtocolError) Unit) := do
  let errors ← notifyFrom S b event service.senders []
  return if errors.isEmpty then .ok () else .error errors

end WebhookService

namespace Webhook

/-- What a script replies to the posts, and the log of what was done. -/
def answer (b : Build) (replies : Nat → Reply) : (o : Op) → List Op → Option (Hooks.Ret o) × List Op
  | .post request, log => (some (replies (log.countP Op.isPost)), log ++ [.post request])
  | .sleep nanos, log => (some (), log ++ [.sleep nanos])
  | .overflow, log => (if b.overflowChecks then none else some (), log ++ [.overflow])

end Webhook

end XProtocol
