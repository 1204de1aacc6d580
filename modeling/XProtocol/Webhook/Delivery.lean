import XProtocol.Json.Text
import XProtocol.Webhook

/-! What a webhook sender does, and what `notify` makes of it.

`send` counts its attempts in 32 bits, and there is one more of them than there are retries. Where
that number still has 32 bits, a sender posts until the first success or the last retry, and
sleeps only in between (`sends_iff`); and where all senders do, `notify` has each of them send and
returns their errors (`deliveries_iff`). -/
namespace XProtocol
open Async (Program)
open Json (Codec)
open Json.Text (compact)
open Webhook

namespace WebhookSender

/-- One post, and one after each of the delays. -/
def volley (request : Request) (delays : List Nat) : List Op :=
  .post request :: delays.flatMap fun nanos => [.sleep nanos, .post request]

/-- Posts with these delays between them, the first of which gets the reply number `start`, were as
many as were needed, and no more than `left` after the first. -/
structure Delivered (policy : WebhookRetryPolicy) (replies : Nat → Reply) (left start : Nat) (delays : List Nat)
    (result : Result Unit) : Prop where
  atMost : delays.length ≤ left
  failed : ∀ i < delays.length, (replies (start + i)).isSuccess = false
  ended : (replies (start + delays.length)).isSuccess = true ∨ delays.length = left
  capped : ∀ nanos ∈ delays, nanos ≤ policy.maxDelayMs.toNat * 10 ^ 6
  ok_iff : result = .ok () ↔ ∃ i ≤ left, (replies (start + i)).isSuccess = true

variable (S : Codec) (b : Build)

/-- Whatever was done before, and whatever the other side replies, `send` posts the event as often as it
has to, and nothing goes wrong. -/
def Exact (sender : WebhookSender) : Prop :=
  ∀ event replies log, ∃ delays result,
    (sender.send S b event).run.play (answer b replies) log =
      (some result, log ++ volley (sender.request S event) delays) ∧
    Delivered sender.config.retryPolicy replies sender.config.retryPolicy.maxRetries.toNat (log.countP Op.isPost)
      delays result

/-! ### The loop -/

section
variable {policy : WebhookRetryPolicy} {replies : Nat → Reply} {left start : Nat} {b}

theorem delayForRetry_le (policy : WebhookRetryPolicy) (attempt : UInt32) :
    policy.delayForRetry b attempt ≤ policy.maxDelayMs.toNat * 10 ^ 6 := by
  have hmin (delay : UInt64) : (min delay policy.maxDelayMs).toNat ≤ policy.maxDelayMs.toNat := by
    show (if delay ≤ policy.maxDelayMs then delay else policy.maxDelayMs).toNat ≤ _
    split
    · next hle => exact UInt64.le_iff_toNat_le.mp hle
    · exact Nat.le_refl _
  exact Nat.mul_le_mul_right _ (hmin _)

theorem delivered_success (left : Nat) (h : (replies start).isSuccess = true) :
    Delivered policy replies left start [] (.ok ()) where
  atMost := Nat.zero_le _
  failed _ hi := absurd hi (Nat.not_lt_zero _)
  ended := .inl h
  capped _ hnanos := absurd hnanos List.not_mem_nil
  ok_iff := iff_of_true rfl ⟨0, Nat.zero_le _, h⟩

theorem delivered_failure {e : ProtocolError} (h : (replies start).isSuccess = false) :
    Delivered policy replies 0 start [] (.error e) where
  atMost := Nat.le_refl _
  failed _ hi := absurd hi (Nat.not_lt_zero _)
  ended := .inr rfl
  capped _ hnanos := absurd hnanos List.not_mem_nil
  ok_iff := by
    refine iff_of_false nofun ?_
    rintro ⟨i, hi, hok⟩
    obtain rfl := Nat.le_zero.mp hi
    exact Bool.false_ne_true (h.symm.trans hok)

/-- One more attempt in front, which fails. -/
theorem Delivered.retry {delays : List Nat} {result : Result Unit} (h : (replies start).isSuccess = false)
    {nanos : Nat} (hnanos : nanos ≤ policy.maxDelayMs.toNat * 10 ^ 6)
    (hrest : Delivered policy replies left (start + 1) delays result) :
    Delivered policy replies (left + 1) start (nanos :: delays) result where
  atMost := Nat.succ_le_succ hrest.atMost
  failed i hi := by
    cases i with
    | zero => exact h
    | succ i =>
      rw [show start + (i + 1) = start + 1 + i by omega]
      exact hrest.failed i (Nat.lt_of_succ_lt_succ hi)
  ended := by
    rw [List.length_cons, show start + (delays.length + 1) = start + 1 + delays.length by omega]
    exact hrest.ended.imp_right (congrArg Nat.succ)
  capped := List.forall_mem_cons.mpr ⟨hnanos, hrest.capped⟩
  ok_iff := by
    rw [hrest.ok_iff]
    constructor
    · rintro ⟨i, hi, hok⟩
      exact ⟨i + 1, Nat.succ_le_succ hi, by rwa [show start + (i + 1) = start + 1 + i by omega]⟩
    · rintro ⟨i, hi, hok⟩
      cases i with
      | zero => exact absurd (h.symm.trans hok) Bool.false_ne_true
      | succ i => exact ⟨i, Nat.le_of_succ_le_succ hi, by rwa [show start + 1 + i = start + (i + 1) by omega]⟩

end

theorem op_run {α : Type} (o : Op) (f : Hooks.Ret o → Code α) :
    (op o >>= f).run = .perform o fun r => (f r).run := rfl

/-- Where no integer runs over, the loop is what it says. -/
theorem sendFrom_run (policy : WebhookRetryPolicy) (request : Request) {maxAttempts : UInt32}
    (hone : 1 ≤ maxAttempts) (attempt : UInt32) :
    (sendFrom b policy request maxAttempts attempt).run = .perform (.post request) fun reply =>
      if reply.isSuccess then .done (.ok ())
      else if attempt ≥ maxAttempts - 1 then .done (.error (reply.failure maxAttempts))
      else .perform (.sleep (policy.delayForRetry b (attempt + 1))) fun _ =>
        (sendFrom b policy request maxAttempts (attempt + 1)).run := by
  rw [sendFrom, op_run]
  congr 1
  funext reply
  split
  · rfl
  · have hsub : checkSub maxAttempts 1 = pure () := if_pos hone
    rw [hsub, pure_bind]
    split
    · rfl
    · next hlast =>
      obtain ⟨hlt, -⟩ := attempt_succ hlast
      have hfits : attempt.toNat + (1 : UInt32).toNat < 2 ^ 32 :=
        Nat.lt_of_le_of_lt hlt (maxAttempts - 1).toNat_lt
      have hadd : checkAdd attempt 1 = pure () := if_pos hfits
      rw [hadd, pure_bind]
      rfl

theorem sendFrom_delivered (policy : WebhookRetryPolicy) (request : Request) (replies : Nat → Reply)
    {maxAttempts : UInt32} (hone : 1 ≤ maxAttempts) (left : Nat) {attempt : UInt32}
    (hleft : attempt.toNat + left = (maxAttempts - 1).toNat) (log : List Op) :
    ∃ delays result, (sendFrom b policy request maxAttempts attempt).run.play (answer b replies) log =
        (some result, log ++ volley request delays) ∧
      Delivered policy replies left (log.countP Op.isPost) delays result := by
  induction left generalizing attempt log with
  | zero =>
    have hlast : attempt ≥ maxAttempts - 1 := UInt32.le_iff_toNat_le.mpr (Nat.le_of_eq hleft.symm)
    rw [sendFrom_run b policy request hone, Program.play_answered rfl, if_pos hlast]
    by_cases hok : (replies (log.countP Op.isPost)).isSuccess = true
    · rw [if_pos hok]
      exact ⟨[], _, rfl, delivered_success 0 hok⟩
    · rw [if_neg hok]
      exact ⟨[], _, rfl, delivered_failure (Bool.eq_false_of_not_eq_true hok)⟩
  | succ left ih =>
    have hlast : ¬ attempt ≥ maxAttempts - 1 := by
      rw [ge_iff_le, UInt32.le_iff_toNat_le]
      omega
    rw [sendFrom_run b policy request hone, Program.play_answered rfl, if_neg hlast]
    by_cases hok : (replies (log.countP Op.isPost)).isSuccess = true
    · rw [if_pos hok]
      exact ⟨[], _, rfl, delivered_success _ hok⟩
    · rw [if_neg hok, Program.play_answered rfl]
      have hnext : (attempt + 1).toNat + left = (maxAttempts - 1).toNat := by
        rw [(attempt_succ hlast).2]
        omega
      obtain ⟨delays, result, hplay, hdelivered⟩ := ih hnext
        (log ++ [.post request] ++ [.sleep (policy.delayForRetry b (attempt + 1))])
      refine ⟨policy.delayForRetry b (attempt + 1) :: delays, result, ?_, ?_⟩
      · rw [hplay]
        simp [volley]
      · refine .retry (Bool.eq_false_of_not_eq_true hok) (delayForRetry_le policy _) ?_
        rw [List.countP_append, List.countP_append] at hdelivered
        exact hdelivered

/-! ### What is sent -/

/-- A build that does not panic has it in its log. -/
theorem play_overflow (replies : Nat → Reply) (log : List Op) (f : Unit → Code Unit) :
    ((op .overflow >>= f).run.play (answer b replies) log).1 = none ∨
      log ++ [.overflow] <+: ((op .overflow >>= f).run.play (answer b replies) log).2 := by
  rw [op_run]
  by_cases hchecks : b.overflowChecks = true
  · have hstops : answer b replies .overflow log = (none, log ++ [.overflow]) := by simp [answer, hchecks]
    left
    rw [Program.play_stopped hstops]
  · have hgoes : answer b replies .overflow log = (some (), log ++ [.overflow]) := by simp [answer, hchecks]
    right
    rw [Program.play_answered hgoes]
    refine Program.play_keeps (I := fun after => log ++ [.overflow] <+: after) ?_ _ (List.prefix_refl _)
    intro o after h
    cases o <;> exact h.trans (List.prefix_append _ _)

/-- **`send` does what it should exactly if its attempts can be counted.** -/
theorem sends_iff (sender : WebhookSender) :
    Exact S b sender ↔ sender.config.retryPolicy.maxRetries.toNat + 1 < 2 ^ 32 := by
  constructor
  · intro h
    by_contra hover
    have hadd : checkAdd sender.config.retryPolicy.maxRetries 1 = op .overflow := if_neg hover
    obtain ⟨delays, result, hplay, -⟩ := h (.healthCheck "" "" "") (fun _ => .error "") []
    rw [send, hadd] at hplay
    rcases play_overflow b (fun _ => .error "") [] (fun _ => sendFrom b sender.config.retryPolicy
      (sender.request S (.healthCheck "" "" "")) (sender.config.retryPolicy.maxRetries + 1) 0) with hnone | hlogged
    · exact nomatch (congrArg Prod.fst hplay).symm.trans hnone
    · have hafter := congrArg Prod.snd hplay
      rw [hafter] at hlogged
      obtain ⟨rest, hrest⟩ := hlogged
      exact nomatch (List.cons.inj hrest).1
  · intro hfits event replies log
    have hadd : checkAdd sender.config.retryPolicy.maxRetries 1 = pure () := if_pos hfits
    have hmax : (sender.config.retryPolicy.maxRetries + 1).toNat =
      sender.config.retryPolicy.maxRetries.toNat + 1 := by
      rw [UInt32.toNat_add, UInt32.toNat_one, Nat.mod_eq_of_lt hfits]
    have hone : 1 ≤ sender.config.retryPolicy.maxRetries + 1 := by
      rw [UInt32.le_iff_toNat_le, hmax]
      exact Nat.le_add_left 1 _
    rw [send, hadd, pure_bind]
    refine sendFrom_delivered b _ _ replies hone _ ?_ log
    rw [UInt32.toNat_sub_of_le _ _ hone, hmax]
    exact Nat.zero_add _

end WebhookSender

namespace WebhookService
variable (S : Codec) (b : Build)

/-- Every sender sends once, one after the other: what each returned, and the log behind them. -/
def each (event : WebhookEvent) (replies : Nat → Reply) :
    List WebhookSender → List Op → List (Option (Result Unit)) × List Op
  | [], log => ([], log)
  | sender :: rest, log =>
    let (result, log) := (sender.send S b event).run.play (answer b replies) log
    let (results, log) := each event replies rest log
    (result :: results, log)

/-- The errors among these, in order. -/
def errors (results : List (Result Unit)) : List ProtocolError :=
  results.filterMap fun result => match result with
    | .error e => some e
    | .ok _ => none

/-- `notify` has every sender send once, in order, and returns all their errors, if there are any. -/
def Notifies (service : WebhookService) : Prop :=
  ∀ event replies log, ∃ results, (each S b event replies service.senders log).1 = results.map some ∧
    (service.notify S b event).play (answer b replies) log =
      (some (if errors results = [] then .ok () else .error (errors results)),
        (each S b event replies service.senders log).2)

theorem notifyFrom_each (event : WebhookEvent) (replies : Nat → Reply) {senders : List WebhookSender}
    (hexact : ∀ sender ∈ senders, sender.Exact S b) (before : List ProtocolError) (log : List Op) :
    ∃ results, (each S b event replies senders log).1 = results.map some ∧
      (notifyFrom S b event senders before).play (answer b replies) log =
        (some (before ++ errors results), (each S b event replies senders log).2) := by
  induction senders generalizing before log with
  | nil => exact ⟨[], rfl, by simp [notifyFrom, each, errors]⟩
  | cons sender rest ih =>
    obtain ⟨hsender, hrest⟩ := List.forall_mem_cons.mp hexact
    obtain ⟨delays, result, hplay, -⟩ := hsender event replies log
    rw [notifyFrom, Program.play_bind, hplay, each, hplay]
    cases result with
    | ok _ =>
      obtain ⟨results, hresults, hnotify⟩ :=
        ih hrest before (log ++ WebhookSender.volley (sender.request S event) delays)
      exact ⟨.ok () :: results, congrArg (_ :: ·) hresults, hnotify⟩
    | error e =>
      obtain ⟨results, hresults, hnotify⟩ :=
        ih hrest (before ++ [e]) (log ++ WebhookSender.volley (sender.request S event) delays)
      refine ⟨.error e :: results, congrArg (_ :: ·) hresults, hnotify.trans ?_⟩
      rw [List.append_assoc]
      rfl

theorem notifies (service : WebhookService) (hexact : ∀ sender ∈ service.senders, sender.Exact S b) :
    Notifies S b service := by
  intro event replies log
  obtain ⟨results, hresults, hnotify⟩ := notifyFrom_each S b event replies hexact [] log
  refine ⟨results, hresults, ?_⟩
  rw [notify, Program.play_bind, hnotify, List.nil_append]
  cases errors results <;> rfl

/-- **Every sender posts as often as it has to, and `notify` returns what they return, exactly if
every sender's attempts can be counted.** -/
theorem deliveries_iff (service : WebhookService) :
    (∀ sender ∈ service.senders, sender.Exact S b) ∧ Notifies S b service ↔
      ∀ sender ∈ service.senders, sender.config.retryPolicy.maxRetries.toNat + 1 < 2 ^ 32 := by
  have hiff : (∀ sender ∈ service.senders, sender.Exact S b) ↔
      ∀ sender ∈ service.senders, sender.config.retryPolicy.maxRetries.toNat + 1 < 2 ^ 32 :=
    forall₂_congr fun sender _ => sender.sends_iff S b
  rw [← hiff]
  exact and_iff_left_of_imp fun h => notifies S b service h

/-- A sender that never gives up, as good as. -/
def stubborn : WebhookSender where
  config :=
    { url := "http://localhost/hook", headers := [],
      retryPolicy :=
        { maxRetries := 4294967295, initialDelayMs := 100, maxDelayMs := 30000, backoffMultiplier := 2 } }

/-- It panics before its first post, even if that would be taken; in a build that looks for no overflows, it
has run over. -/
theorem stubborn_panics :
    (notify compact ⟨true, fun x _ => x⟩ ⟨[stubborn]⟩ (.healthCheck "svc" "up" "now")).play
        (answer ⟨true, fun x _ => x⟩ fun _ => .response 200 "200 OK") [] = (none, [.overflow]) ∧
      ¬ stubborn.Exact compact ⟨true, fun x _ => x⟩ ∧ ¬ stubborn.Exact compact ⟨false, fun x _ => x⟩ := by
  refine ⟨rfl, ?_, ?_⟩ <;>
  · rw [WebhookSender.sends_iff]
    decide

end WebhookService

end XProtocol
