import Mathlib.Data.List.Nodup
import Mathlib.Logic.Function.Basic
import XProtocol.Broadcast

/-! The message queue.

`subscribe` makes a channel of its own for every receiver and puts its sender in the place
of the topic's last one, so that `publish` reaches the last subscriber only. Every
subscriber is served throughout a run exactly if nothing is published on a topic while an
earlier subscriber of it is still there (`subscribers_served_iff`). -/
namespace XProtocol

/-- A sender is the number of its channel. -/
structure MessageQueue {V : Type} (B : Broadcast V) where
  topics : String → Option Nat
  channels : Nat → B.Channel
  opened : Nat

namespace MessageQueue
variable {V : Type} (B : Broadcast V)

def capacity : Nat := 1024

def new : MessageQueue B where
  topics _ := none
  channels _ := B.channel capacity
  opened := 0

variable {B}

def publish (topic : String) (data : V) (q : MessageQueue B) : Nat × MessageQueue B :=
  match q.topics topic with
  | some n =>
    let (count, channel) := B.send data (q.channels n)
    (count.getD 0, { q with channels := Function.update q.channels n channel })
  | none => (0, q)

/-- `subscribe`, with the number of the receiver; the sender that was there is dropped. -/
def subscribe (topic : String) (q : MessageQueue B) : Nat × MessageQueue B :=
  let channels := match q.topics topic with
    | some n => Function.update q.channels n (B.dropSender (q.channels n))
    | none => q.channels
  (q.opened,
    { topics := Function.update q.topics topic (some q.opened)
      channels := Function.update channels q.opened (B.channel capacity)
      opened := q.opened + 1 })

theorem publish_none {topic : String} {q : MessageQueue B} (h : q.topics topic = none) (data : V) :
    q.publish topic data = (0, q) := by
  simp only [publish, h]

theorem publish_some {topic : String} {q : MessageQueue B} {n : Nat} (h : q.topics topic = some n) (data : V) :
    q.publish topic data =
      (if B.live (q.channels n) then 1 else 0,
        { q with channels := Function.update q.channels n (B.send data (q.channels n)).2 }) := by
  simp only [publish, h, B.send_count]
  split <;> rfl

/-- Whatever a lost sender leaves of a channel, a subscription leaves too. -/
theorem subscribe_channel {β : Type} (view : B.Channel → β) (hview : ∀ c, view (B.dropSender c) = view c)
    (topic : String) (q : MessageQueue B) {n : Nat} (hn : n ≠ q.opened) :
    view ((q.subscribe topic).2.channels n) = view (q.channels n) := by
  cases htopic : q.topics topic with
  | none => simp only [subscribe, htopic, Function.update_of_ne hn]
  | some k =>
    simp only [subscribe, htopic, Function.update_of_ne hn]
    by_cases hnk : n = k
    · rw [hnk, Function.update_self, hview]
    · rw [Function.update_of_ne hnk]

/-! ### Runs -/

/-- What a receiver was to get and what it has taken. -/
structure Reader (V : Type) where
  topic : String
  /-- What has been published on the topic since its subscription. -/
  due : List V
  taken : List V

inductive Op (V : Type) where
  | subscribe (topic : String)
  | publish (topic : String) (data : V)
  | tryRecv (n : Nat)
  | drop (n : Nat)

structure World (B : Broadcast V) where
  queue : MessageQueue B
  readers : Nat → Reader V

namespace World

def fresh (B : Broadcast V) : World B := { queue := .new B, readers := fun _ => ⟨"", [], []⟩ }

/-- The receiver was subscribed and has not been dropped. -/
def live (w : World B) (n : Nat) : Bool := n < w.queue.opened && B.live (w.queue.channels n)

/-- The live receivers of a topic. -/
def subscribers (w : World B) (topic : String) : List Nat :=
  (List.range w.queue.opened).filter fun n => w.live n && (w.readers n).topic = topic

def step (w : World B) : Op V → World B
  | .subscribe topic =>
    { queue := (w.queue.subscribe topic).2
      readers := Function.update w.readers w.queue.opened { topic, due := [], taken := [] } }
  | .publish topic data =>
    { queue := (w.queue.publish topic data).2
      readers := fun n =>
        if (w.readers n).topic = topic then
          { w.readers n with due := (w.readers n).due ++ [data] } else w.readers n }
  | .tryRecv n =>
    if w.live n then
      let (v, channel) := B.tryRecv (w.queue.channels n)
      { queue := { w.queue with channels := Function.update w.queue.channels n channel }
        readers := Function.update w.readers n { w.readers n with taken := (w.readers n).taken ++ v.toList } }
    else w
  | .drop n =>
    if w.live n then
      let channels := Function.update w.queue.channels n (B.dropReceiver (w.queue.channels n))
      { w with queue := { w.queue with channels } }
    else w

/-- Each live receiver has taken what it was to get, up to what it has still to take. -/
def Delivered (w : World B) : Prop :=
  ∀ n, w.live n = true → (w.readers n).taken ++ B.pending (w.queue.channels n) = (w.readers n).due

/-- `publish` returns the number of the topic's live receivers. -/
def Counted (w : World B) : Op V → Prop
  | .publish topic data => (w.queue.publish topic data).1 = (w.subscribers topic).length
  | _ => True

/-- Every subscriber is served, and every `publish` says how many there are, from here on. -/
def Serves : World B → List (Op V) → Prop
  | w, [] => w.Delivered
  | w, op :: rest => w.Delivered ∧ w.Counted op ∧ Serves (w.step op) rest

/-- No live receiver comes to be more than the capacity behind. -/
def Prompt : World B → List (Op V) → Prop
  | _, [] => True
  | w, op :: rest =>
    (∀ topic data, op = .publish topic data → ∀ n ∈ w.subscribers topic,
      (w.readers n).due.length < (w.readers n).taken.length + capacity) ∧ Prompt (w.step op) rest

/-- A topic is published on only while no live receiver of it but its last one is there. -/
def Undisturbed (w : World B) : Op V → Prop
  | .publish topic _ => ∀ n ∈ w.subscribers topic, w.queue.topics topic = some n
  | _ => True

instance (w : World B) : (op : Op V) → Decidable (w.Undisturbed op)
  | .publish topic _ => inferInstanceAs (Decidable (∀ n ∈ w.subscribers topic, w.queue.topics topic = some n))
  | .subscribe _ => .isTrue trivial
  | .tryRecv _ => .isTrue trivial
  | .drop _ => .isTrue trivial

/-- So throughout. -/
def UndisturbedAlong : World B → List (Op V) → Prop
  | _, [] => True
  | w, op :: rest => w.Undisturbed op ∧ UndisturbedAlong (w.step op) rest

/-- What the topics know of their receivers. -/
structure Listed (w : World B) : Prop where
  last : ∀ topic n, w.queue.topics topic = some n → n < w.queue.opened ∧ (w.readers n).topic = topic
  known : ∀ n, n < w.queue.opened → w.queue.topics (w.readers n).topic ≠ none
  room : ∀ n, n < w.queue.opened → B.capacity (w.queue.channels n) = capacity

theorem fresh_listed : (fresh B).Listed := ⟨nofun, nofun, nofun⟩

theorem fresh_delivered : (fresh B).Delivered := fun n hn => by simp [live, fresh, new] at hn

theorem live_iff {w : World B} {n : Nat} :
    w.live n = true ↔ n < w.queue.opened ∧ B.live (w.queue.channels n) = true := by
  simp [live]

theorem mem_subscribers {w : World B} {topic : String} {n : Nat} :
    n ∈ w.subscribers topic ↔ w.live n = true ∧ (w.readers n).topic = topic := by
  simp only [subscribers, List.mem_filter, List.mem_range, Bool.and_eq_true, decide_eq_true_eq,
    and_iff_right_iff_imp, and_imp]
  exact fun hlive _ => (live_iff.mp hlive).1

theorem nodup_subscribers (w : World B) (topic : String) : (w.subscribers topic).Nodup :=
  List.nodup_range.filter _

/-- A list without repetitions has as many members as `n` accounts for exactly if it has no other. -/
theorem length_eq_iff {l : List Nat} (hl : l.Nodup) (n : Nat) :
    (if n ∈ l then 1 else 0) = l.length ↔ ∀ m ∈ l, n = m := by
  have hcount : l.count n = if n ∈ l then 1 else 0 := hl.count
  rw [← hcount, List.count_eq_length]

/-- `publish` counts the last receiver, if it is there. -/
theorem counted_iff {w : World B} (hw : w.Listed) (op : Op V) : w.Counted op ↔ w.Undisturbed op := by
  cases op with
  | publish topic data =>
    unfold Counted Undisturbed
    cases htopic : w.queue.topics topic with
    | none =>
      have hnobody : w.subscribers topic = [] := List.eq_nil_iff_forall_not_mem.mpr fun n hn => by
        obtain ⟨hlive, rfl⟩ := mem_subscribers.mp hn
        exact hw.known n (live_iff.mp hlive).1 htopic
      simp [publish_none htopic, hnobody]
    | some n =>
      obtain ⟨hn, hreader⟩ := hw.last topic n htopic
      have hmem : n ∈ w.subscribers topic ↔ B.live (w.queue.channels n) = true := by
        rw [mem_subscribers, live_iff]
        exact ⟨fun h => h.1.2, fun h => ⟨⟨hn, h⟩, hreader⟩⟩
      simp only [publish_some htopic, ← hmem, length_eq_iff (nodup_subscribers w topic), htopic,
        Option.some.injEq]
  | _ => exact iff_of_true trivial trivial

/-- What a step makes of a channel that was there before: it keeps its capacity. -/
theorem capacity_step (w : World B) (op : Op V) {m : Nat} (hm : m < w.queue.opened) :
    B.capacity ((w.step op).queue.channels m) = B.capacity (w.queue.channels m) := by
  have hupdate (n : Nat) {c : B.Channel} (hc : B.capacity c = B.capacity (w.queue.channels n)) :
      B.capacity (Function.update w.queue.channels n c m) = B.capacity (w.queue.channels m) := by
    by_cases hmn : m = n
    · rw [hmn, Function.update_self, hc]
    · rw [Function.update_of_ne hmn]
  cases op with
  | subscribe topic =>
    exact subscribe_channel B.capacity B.capacity_dropSender topic w.queue (Nat.ne_of_lt hm)
  | publish topic data =>
    cases htopic : w.queue.topics topic with
    | none => simp only [step, publish_none htopic]
    | some n =>
      simp only [step, publish_some htopic]
      exact hupdate n (B.capacity_send ..)
  | tryRecv n =>
    simp only [step]
    split
    · exact hupdate n (B.capacity_tryRecv _)
    · rfl
  | drop n =>
    simp only [step]
    split
    · exact hupdate n (B.capacity_dropReceiver _)
    · rfl

theorem opened_publish (topic : String) (data : V) (q : MessageQueue B) :
    (q.publish topic data).2.opened = q.opened ∧ (q.publish topic data).2.topics = q.topics := by
  unfold publish
  split <;> exact ⟨rfl, rfl⟩

theorem step_same {w : World B} {op : Op V} (hop : ∀ topic, op ≠ .subscribe topic) :
    (w.step op).queue.opened = w.queue.opened ∧ (w.step op).queue.topics = w.queue.topics ∧
      ∀ n, ((w.step op).readers n).topic = (w.readers n).topic := by
  cases op with
  | subscribe topic => exact absurd rfl (hop topic)
  | publish topic data =>
    refine ⟨(opened_publish ..).1, (opened_publish ..).2, fun n => ?_⟩
    simp only [step]
    split <;> rfl
  | tryRecv n =>
    simp only [step]
    split
    · refine ⟨rfl, rfl, fun m => ?_⟩
      by_cases hmn : m = n
      · simp [hmn]
      · simp [Function.update_of_ne hmn]
    · exact ⟨rfl, rfl, fun _ => rfl⟩
  | drop n =>
    simp only [step]
    split <;> exact ⟨rfl, rfl, fun _ => rfl⟩

theorem step_listed {w : World B} (hw : w.Listed) (op : Op V) : (w.step op).Listed := by
  obtain ⟨hlast, hknown, hroom⟩ := hw
  by_cases hop : ∃ topic, op = .subscribe topic
  · obtain ⟨topic, rfl⟩ := hop
    refine ⟨fun topic' n h => ?_, fun n hn => ?_, fun n hn => ?_⟩
    · by_cases htopic : topic' = topic
      · subst htopic
        simp only [step, subscribe, Function.update_self, Option.some.injEq] at h
        simp [step, subscribe, ← h]
      · simp only [step, subscribe, Function.update_of_ne htopic] at h
        obtain ⟨hn, hreader⟩ := hlast topic' n h
        simp only [step, subscribe, Function.update_of_ne (Nat.ne_of_lt hn)]
        exact ⟨Nat.lt_succ_of_lt hn, hreader⟩
    · simp only [step, subscribe] at hn ⊢
      rcases Nat.lt_succ_iff_lt_or_eq.mp hn with hn | rfl
      · rw [Function.update_of_ne (Nat.ne_of_lt hn)]
        by_cases htopic : (w.readers n).topic = topic
        · simp [htopic]
        · rw [Function.update_of_ne htopic]
          exact hknown n hn
      · simp
    · rcases Nat.lt_succ_iff_lt_or_eq.mp hn with hn | rfl
      · rw [capacity_step w _ hn, hroom n hn]
      · simp [step, subscribe]
  · obtain ⟨hopened, htopics, hreaders⟩ := step_same (w := w) (not_exists.mp hop)
    refine ⟨fun topic n h => ?_, fun n hn => ?_, fun n hn => ?_⟩
    · rw [hopened, hreaders]
      exact hlast topic n (htopics ▸ h)
    · rw [htopics, hreaders]
      exact hknown n (hopened ▸ hn)
    · rw [capacity_step w op (hopened ▸ hn), hroom n (hopened ▸ hn)]

theorem step_delivered {w : World B} (hw : w.Listed) (hdelivered : w.Delivered) {op : Op V} (hop : w.Undisturbed op)
    (hprompt : ∀ topic data, op = .publish topic data → ∀ n ∈ w.subscribers topic,
      (w.readers n).due.length < (w.readers n).taken.length + capacity) : (w.step op).Delivered := by
  intro m hm
  obtain ⟨hopened, hlive⟩ := live_iff.mp hm
  cases op with
  | subscribe topic =>
    rcases Nat.lt_succ_iff_lt_or_eq.mp hopened with hlt | rfl
    · have hne := Nat.ne_of_lt hlt
      simp only [step, subscribe_channel B.live B.live_dropSender topic w.queue hne] at hlive
      simp only [step, subscribe_channel B.pending B.pending_dropSender topic w.queue hne,
        Function.update_of_ne hne]
      exact hdelivered m (live_iff.mpr ⟨hlt, hlive⟩)
    · simp [step, subscribe]
  | publish topic data =>
    cases htopic : w.queue.topics topic with
    | none =>
      simp only [step, publish_none htopic] at hopened hlive ⊢
      have hother : (w.readers m).topic ≠ topic := fun h => hw.known m hopened (h ▸ htopic)
      rw [if_neg hother]
      exact hdelivered m (live_iff.mpr ⟨hopened, hlive⟩)
    | some n =>
      simp only [step, publish_some htopic] at hopened hlive ⊢
      by_cases hmn : m = n
      · subst hmn
        rw [Function.update_self, B.live_send] at hlive
        have hm := live_iff.mpr ⟨hopened, hlive⟩
        have hreader := (hw.last topic m htopic).2
        have hroom := hprompt topic data rfl m (mem_subscribers.mpr ⟨hm, hreader⟩)
        rw [← hdelivered m hm, List.length_append, ← hw.room m hopened] at hroom
        rw [Function.update_self, if_pos hreader,
          B.pending_send data _ hlive (Nat.lt_of_add_lt_add_left hroom), ← List.append_assoc, hdelivered m hm]
      · rw [Function.update_of_ne hmn] at hlive ⊢
        have hm := live_iff.mpr ⟨hopened, hlive⟩
        have hother : (w.readers m).topic ≠ topic := fun h => by
          have hlast := hop m (mem_subscribers.mpr ⟨hm, h⟩)
          exact hmn (Option.some.inj (hlast.symm.trans htopic))
        rw [if_neg hother]
        exact hdelivered m hm
  | tryRecv n =>
    simp only [step] at hopened hlive ⊢
    split at hlive
    · next hn =>
      rw [if_pos hn]
      by_cases hmn : m = n
      · subst hmn
        simp only [Function.update_self]
        rw [List.append_assoc, B.pending_tryRecv]
        exact hdelivered m hn
      · simp only [Function.update_of_ne hmn] at hlive ⊢
        exact hdelivered m (live_iff.mpr ⟨by simpa [hn] using hopened, hlive⟩)
    · next hn =>
      rw [if_neg hn]
      exact hdelivered m (live_iff.mpr ⟨by simpa [hn] using hopened, hlive⟩)
  | drop n =>
    simp only [step] at hopened hlive ⊢
    split at hlive
    · next hn =>
      rw [if_pos hn]
      by_cases hmn : m = n
      · subst hmn
        simp at hlive
      · simp only [Function.update_of_ne hmn] at hlive ⊢
        exact hdelivered m (live_iff.mpr ⟨by simpa [hn] using hopened, hlive⟩)
    · next hn =>
      rw [if_neg hn]
      exact hdelivered m (live_iff.mpr ⟨by simpa [hn] using hopened, hlive⟩)

/-- **Every subscriber is served, and every `publish` says how many there are, exactly if no topic
is published on while an earlier subscriber of it is still there**: in every run in which no live
receiver comes to be more than the capacity behind. -/
theorem subscribers_served_iff (ops : List (Op V)) (hprompt : (fresh B).Prompt ops) :
    (fresh B).Serves ops ↔ (fresh B).UndisturbedAlong ops := by
  suffices h : ∀ w : World B, w.Listed → w.Delivered → w.Prompt ops → (w.Serves ops ↔ w.UndisturbedAlong ops) from
    h _ fresh_listed fresh_delivered hprompt
  clear hprompt
  induction ops with
  | nil => exact fun w _ hdelivered _ => iff_of_true hdelivered trivial
  | cons op rest ih =>
    rintro w hw hdelivered ⟨hnow, hlater⟩
    rw [Serves, UndisturbedAlong, counted_iff hw, and_iff_right hdelivered]
    exact and_congr_right fun hop => ih _ (step_listed hw op) (step_delivered hw hdelivered hop hnow) hlater

/-- Of the first topic the first subscriber has gone when the second comes, and another topic has its own. -/
def relayed : List (Op Nat) :=
  [.subscribe "topic1", .subscribe "topic2", .publish "topic1" 1, .tryRecv 0, .drop 0, .subscribe "topic1",
    .publish "topic1" 2, .publish "topic2" 3, .tryRecv 2]

theorem served_one : (fresh (Broadcast.ring Nat)).Prompt relayed ∧ (fresh (Broadcast.ring Nat)).Serves relayed := by
  have hprompt : (fresh (Broadcast.ring Nat)).Prompt relayed := by
    refine ⟨nofun, nofun, ?_, nofun, nofun, nofun, ?_, ?_, nofun, trivial⟩ <;>
    · rintro topic data h
      cases h
      decide
  exact ⟨hprompt, (subscribers_served_iff _ hprompt).mpr
    ⟨trivial, trivial, by decide, trivial, trivial, trivial, by decide, by decide, trivial, trivial⟩⟩

/-- Of two subscribers, the first is told nothing and is not counted. -/
theorem first_of_two : (fresh (Broadcast.ring Nat)).Prompt [.subscribe "topic1", .subscribe "topic1",
    .publish "topic1" 1] ∧
    ¬ (fresh (Broadcast.ring Nat)).Serves [.subscribe "topic1", .subscribe "topic1", .publish "topic1" 1] := by
  refine ⟨⟨nofun, nofun, ?_, trivial⟩, fun h => ?_⟩
  · rintro topic data h
    cases h
    decide
  · have hcounted : 1 = 2 := h.2.2.2.2.2.1
    exact absurd hcounted (by decide)

end World

end MessageQueue

end XProtocol
