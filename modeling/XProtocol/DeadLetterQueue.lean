import Mathlib.Data.List.DropRight
import XProtocol.Chronicle
import XProtocol.Protocol

/-! The dead letter queue.

`Fifo.push` says what a queue of bounded length is for: a new entry is appended, and where that
is one too many, the oldest goes. The code looks at the length before it appends, and takes the
oldest out of a queue that is full. That is the same for every size but one: an empty
queue of size zero is full, and has no oldest, so that it holds a letter from the first one on
(`faithful_iff`). -/

/-! ### Queues of bounded length -/

namespace Fifo
variable {α : Type} {maxSize : Nat} {q : List α}

/-- The new entry is appended; where that is too much, the oldest goes. -/
def push (maxSize : Nat) (q : List α) (x : α) : List α :=
  if (q ++ [x]).length > maxSize then (q ++ [x]).tail else q ++ [x]

theorem length_push (hq : q.length ≤ maxSize) (x : α) : (push maxSize q x).length ≤ maxSize := by
  unfold push
  split
  · rw [List.length_tail, List.length_append, List.length_singleton]
    omega
  · omega

theorem push_eq_rtake (hq : q.length ≤ maxSize) (x : α) : push maxSize q x = (q ++ [x]).rtake maxSize := by
  unfold push List.rtake
  rw [List.length_append, List.length_singleton]
  split
  · rw [show q.length + 1 - maxSize = 1 by omega, List.drop_one]
  · rw [show q.length + 1 - maxSize = 0 by omega, List.drop_zero]

/-- **Of a burst, the last ones are kept**, in order. -/
theorem foldl_push (hq : q.length ≤ maxSize) (xs : List α) :
    xs.foldl (push maxSize) q = (q ++ xs).rtake maxSize := by
  induction xs using List.reverseRecOn with
  | nil => simp [List.rtake, Nat.sub_eq_zero_of_le hq]
  | append_singleton xs x ih =>
    have hlength : ((q ++ xs).rtake maxSize).length ≤ maxSize := by
      rw [List.rtake, List.length_drop]
      omega
    rw [List.foldl_append, List.foldl_cons, List.foldl_nil, ih, push_eq_rtake hlength, ← List.append_assoc]
    cases maxSize with
    | zero => simp
    | succ n =>
      rw [List.rtake_concat_succ, List.rtake_concat_succ]
      simp only [List.rtake, List.length_drop, List.drop_drop]
      congr 2
      omega

end Fifo

/-! ### The queue -/

namespace XProtocol
open Chronicle
open Json (Value)

structure DeadLetter where
  request : ServiceRequest
  error : String
  timestamp : Nat
  retryCount : Nat

structure DeadLetterQueue where
  queue : List DeadLetter
  maxSize : Nat

namespace DeadLetterQueue

def new (maxSize : Nat) : DeadLetterQueue := { queue := [], maxSize }

/-- `push`, and the letter that it makes. -/
def letter (now : Nat) (request : ServiceRequest) (error : String) : DeadLetter :=
  { request, error, timestamp := now, retryCount := 0 }

def push (q : DeadLetterQueue) (now : Nat) (request : ServiceRequest) (error : String) : DeadLetterQueue :=
  let queue := if q.queue.length ≥ q.maxSize then q.queue.tail else q.queue
  { q with queue := queue ++ [letter now request error] }

def pop (q : DeadLetterQueue) : Option DeadLetter × DeadLetterQueue :=
  (q.queue.head?, { q with queue := q.queue.tail })

def getAll (q : DeadLetterQueue) : List DeadLetter := q.queue

def clear (q : DeadLetterQueue) : DeadLetterQueue := { q with queue := [] }

def len (q : DeadLetterQueue) : Nat := q.queue.length

/-! ### What is asked of it -/

inductive Query where
  | push (request : ServiceRequest) (error : String)
  | pop
  | clear

def Query.isPush : Query → Bool
  | .push .. => true
  | _ => false

/-- A letter, where one is popped. -/
abbrev Answer := Option DeadLetter

def perform (q : DeadLetterQueue) (now : Nat) : Query → Answer × DeadLetterQueue
  | .push request error => (none, q.push now request error)
  | .pop => q.pop
  | .clear => (none, q.clear)

/-- The same of a queue that is bounded as it should be. -/
def reference (maxSize : Nat) (q : List DeadLetter) (now : Nat) : Query → Answer × List DeadLetter
  | .push request error => (none, Fifo.push maxSize q (letter now request error))
  | .pop => (q.head?, q.tail)
  | .clear => (none, [])

/-- The letters that are pushed, in order. -/
def pushed (asked : List (Nat × Query)) : List DeadLetter :=
  asked.filterMap fun
    | (now, .push request error) => some (letter now request error)
    | _ => none

/-- The letters that were popped, in order. -/
def popped (log : List (Entry Query Answer)) : List DeadLetter := log.filterMap Entry.answer

/-- Pushes, and nothing else. -/
def burst (letters : List (Nat × ServiceRequest × String)) : List (Nat × Query) :=
  letters.map fun x => (x.1, .push x.2.1 x.2.2)

/-- The queue is never too long, and it is the reference queue: in what it holds and in what it gives
out. Of a burst it keeps the most recent letters; none is duplicated, none reordered. -/
structure Faithful (maxSize : Nat) (asked : List (Nat × Query)) : Prop where
  len_le : ∀ before, before <+: asked → (after perform (new maxSize) before).len ≤ maxSize
  getAll_eq : ∀ before, before <+: asked →
    (after perform (new maxSize) before).getAll = after (reference maxSize) [] before
  popped_eq : (chronicle perform (new maxSize) asked).map Entry.answer =
    (chronicle (reference maxSize) [] asked).map Entry.answer
  recent : ∀ before letters, before ++ burst letters <+: asked →
    (after perform (new maxSize) (before ++ burst letters)).getAll =
      ((after perform (new maxSize) before).getAll ++ pushed (burst letters)).rtake maxSize
  ordered : (popped (chronicle perform (new maxSize) asked) ++ (after perform (new maxSize) asked).getAll).Sublist
    (pushed asked)

variable {maxSize : Nat} {asked : List (Nat × Query)}

/-! ### Where it is faithful -/

/-- A queue of this size that is not too long, or one that has had no letter. -/
structure Sound (maxSize : Nat) (q : DeadLetterQueue) (r : List DeadLetter) : Prop where
  maxSize_eq : q.maxSize = maxSize
  same : q.queue = r
  len_le : r.length ≤ maxSize

theorem sound_new (maxSize : Nat) : Sound maxSize (new maxSize) [] := ⟨rfl, rfl, Nat.zero_le _⟩

/-- A full queue that holds a letter loses the oldest. -/
theorem push_queue {q : DeadLetterQueue} (hpos : 0 < q.maxSize) (now : Nat) (request : ServiceRequest)
    (error : String) :
    (q.push now request error).queue = Fifo.push q.maxSize q.queue (letter now request error) := by
  unfold push Fifo.push
  simp only [List.length_append, List.length_singleton]
  by_cases hfull : q.queue.length ≥ q.maxSize
  · have hne : q.queue ≠ [] := by
      intro hnil
      rw [hnil] at hfull
      exact Nat.not_le_of_lt hpos hfull
    rw [if_pos hfull, if_pos (Nat.lt_succ_of_le hfull), List.tail_append_of_ne_nil hne]
  · rw [if_neg hfull, if_neg (by omega)]

theorem Sound.step {q : DeadLetterQueue} {r : List DeadLetter} (h : Sound maxSize q r) (now : Nat) {x : Query}
    (hx : 0 < maxSize ∨ x.isPush = false) :
    (q.perform now x).1 = (reference maxSize r now x).1 ∧
      Sound maxSize (q.perform now x).2 (reference maxSize r now x).2 := by
  obtain ⟨rfl, rfl, hlen⟩ := h
  cases x with
  | push request error =>
    have hpos : 0 < q.maxSize := hx.resolve_right nofun
    exact ⟨rfl, rfl, push_queue hpos now request error, Fifo.length_push hlen _⟩
  | pop =>
    refine ⟨rfl, rfl, rfl, ?_⟩
    show q.queue.tail.length ≤ q.maxSize
    rw [List.length_tail]
    omega
  | clear => exact ⟨rfl, rfl, rfl, Nat.zero_le _⟩

theorem sound_after (hasked : 0 < maxSize ∨ ∀ q ∈ asked, q.2.isPush = false) :
    Sound maxSize (after perform (new maxSize) asked) (after (reference maxSize) [] asked) := by
  induction asked using List.reverseRecOn with
  | nil => exact sound_new maxSize
  | append_singleton asked last ih =>
    rw [after_snoc, after_snoc]
    refine ((ih (hasked.imp_right fun h q hq => h q (List.mem_append_left _ hq))).step last.1 ?_).2
    exact hasked.imp_right fun h => h last (List.mem_append_right _ (List.mem_singleton_self _))

theorem answers_eq (hasked : 0 < maxSize ∨ ∀ q ∈ asked, q.2.isPush = false) :
    (chronicle perform (new maxSize) asked).map Entry.answer =
      (chronicle (reference maxSize) [] asked).map Entry.answer := by
  induction asked using List.reverseRecOn with
  | nil => rfl
  | append_singleton asked last ih =>
    have hbefore : 0 < maxSize ∨ ∀ q ∈ asked, q.2.isPush = false :=
      hasked.imp_right fun h q hq => h q (List.mem_append_left _ hq)
    have hlast : 0 < maxSize ∨ last.2.isPush = false :=
      hasked.imp_right fun h => h last (List.mem_append_right _ (List.mem_singleton_self _))
    rw [chronicle_snoc, chronicle_snoc, List.map_append, List.map_append, ih hbefore, List.map_singleton,
      List.map_singleton, ((sound_after hbefore).step last.1 hlast).1]

theorem pushed_snoc (asked : List (Nat × Query)) (now : Nat) (x : Query) :
    pushed (asked ++ [(now, x)]) = pushed asked ++ pushed [(now, x)] := List.filterMap_append

/-- What was popped and what is held are among the letters that were pushed, in order. -/
theorem ordered (maxSize : Nat) (asked : List (Nat × Query)) :
    (popped (chronicle perform (new maxSize) asked) ++ (after perform (new maxSize) asked).queue).Sublist
      (pushed asked) := by
  suffices hkept : (popped (chronicle perform (new maxSize) asked) ++
    (after perform (new maxSize) asked).queue).Sublist
      (pushed ((chronicle perform (new maxSize) asked).map fun e => (e.time, e.query))) by
    rwa [chronicle_asked] at hkept
  refine kept (I := fun log (q : DeadLetterQueue) =>
    (popped log ++ q.queue).Sublist (pushed (log.map fun e => (e.time, e.query)))) ?_ ?_
  · exact List.Sublist.refl []
  · intro log q now x ih
    rw [List.map_append, List.map_singleton, pushed_snoc, popped, List.filterMap_append, ← popped]
    cases x with
    | push request error =>
      have htail : (if q.queue.length ≥ q.maxSize then q.queue.tail else q.queue).Sublist q.queue := by
        split
        · exact List.tail_sublist _
        · exact List.Sublist.refl _
      show ((popped log ++ []) ++ (_ ++ [letter now request error])).Sublist (_ ++ [letter now request error])
      rw [List.append_nil, ← List.append_assoc]
      exact (((List.Sublist.refl _).append htail).trans ih).append (List.Sublist.refl _)
    | pop =>
      show ((popped log ++ q.queue.head?.toList) ++ q.queue.tail).Sublist (pushed _ ++ [])
      have hsplit : q.queue.head?.toList ++ q.queue.tail = q.queue := by cases q.queue <;> rfl
      rw [List.append_nil, List.append_assoc, hsplit]
      exact ih
    | clear =>
      show ((popped log ++ []) ++ []).Sublist (pushed _ ++ [])
      rw [List.append_nil, List.append_nil, List.append_nil]
      exact (List.sublist_append_left _ _).trans ih

theorem after_burst (maxSize : Nat) (r : List DeadLetter) (letters : List (Nat × ServiceRequest × String)) :
    after (reference maxSize) r (burst letters) = (pushed (burst letters)).foldl (Fifo.push maxSize) r := by
  induction letters generalizing r with
  | nil => rfl
  | cons first rest ih => exact ih _

/-- **The queue is faithful exactly if it has room for a letter, or gets none.** -/
theorem faithful_iff (maxSize : Nat) (asked : List (Nat × Query)) :
    Faithful maxSize asked ↔ 0 < maxSize ∨ ∀ q ∈ asked, q.2.isPush = false := by
  constructor
  · intro h
    rcases Nat.eq_zero_or_pos maxSize with rfl | hpos
    · refine .inr fun q hq => Bool.eq_false_of_not_eq_true fun hpush => ?_
      obtain ⟨before, rest, rfl⟩ := List.mem_iff_append.mp hq
      obtain ⟨now, x⟩ := q
      cases x with
      | push request error =>
        have hlen := h.len_le (before ++ [(now, .push request error)]) ⟨rest, by simp⟩
        rw [after_snoc] at hlen
        have hpos : 0 < ((after perform (new 0) before).push now request error).len := by
          simp [len, push]
        exact absurd hlen (Nat.not_le.mpr hpos)
      | pop => cases hpush
      | clear => cases hpush
    · exact .inl hpos
  · intro h
    have hbetween {before : List (Nat × Query)} (hbefore : before <+: asked) :
        0 < maxSize ∨ ∀ q ∈ before, q.2.isPush = false := h.imp_right fun h q hq => h q (hbefore.subset hq)
    refine ⟨fun before hbefore => ?_, fun before hbefore => (sound_after (hbetween hbefore)).same, answers_eq h,
      fun before letters hbefore => ?_, ordered maxSize asked⟩
    · obtain ⟨-, hsame, hlen⟩ := sound_after (hbetween hbefore)
      show (after perform (new maxSize) before).queue.length ≤ maxSize
      rw [hsame]
      exact hlen
    · obtain ⟨-, hsame, hlen⟩ := sound_after (hbetween ((List.prefix_append _ _).trans hbefore))
      obtain ⟨-, hsame', -⟩ := sound_after (hbetween hbefore)
      show (after perform (new maxSize) (before ++ burst letters)).queue =
        ((after perform (new maxSize) before).queue ++ pushed (burst letters)).rtake maxSize
      rw [hsame', hsame, after_append, after_burst]
      exact Fifo.foldl_push hlen _

/-- A letter in a queue of size zero. -/
theorem one_too_many : ¬ Faithful 0 [(0, .push (.new "request" "correlation" "svc" "method" .null) "timeout")] :=
  fun h => absurd (h.len_le _ List.prefix_rfl) (by decide)

end DeadLetterQueue

end XProtocol
