import Mathlib.Algebra.Group.Int.Defs
import Mathlib.Data.String.Basic

/-! JSON values and derived (de)serialization.

`Value` is a syntax tree. An object is the list of its fields in order; as a map
it is read from the end, so that of two fields with one name the later counts.
Numbers are kept as they are written (an integer, or `mantissa * 10 ^ exponent`):
nothing here computes with them.

`structFields` is what a derived `Deserialize` does for a record with named
fields: an object may hold the fields in any order and others beside them, but
none of them twice; an array holds them in the order of the declaration. -/
namespace Json

inductive Value where
  | null
  | bool (b : Bool)
  | int (n : Int)
  | decimal (mantissa exponent : Int)
  | string (s : String)
  | array (elements : List Value)
  | object (fields : List (String × Value))

/-! ### Objects as maps -/

/-- The value of the last field named `key`. -/
def lookup (fields : List (String × Value)) (key : String) : Option Value :=
  (fields.filter fun f => f.1 = key).getLast?.map Prod.snd

/-- Insertion into a map ordered by key. -/
def insertField (fields : List (String × Value)) (key : String) (v : Value) : List (String × Value) :=
  fields.filter (fun f => f.1 < key) ++ (key, v) :: fields.filter (fun f => key < f.1)

section Fields
variable (fields : List (String × Value))

theorem lookup_append (a b : List (String × Value)) (key : String) :
    lookup (a ++ b) key = (lookup b key).or (lookup a key) := by
  simp only [lookup, List.filter_append, List.getLast?_append]
  cases (b.filter fun f => f.1 = key).getLast? <;> rfl

theorem lookup_single (k key : String) (v : Value) :
    lookup [(k, v)] key = if k = key then some v else none := by
  by_cases h : k = key <;> simp [lookup, h]

/-- Keeping the fields whose names pass a test keeps the field `key` exactly if it passes. -/
theorem lookup_filter (key : String) (p : String → Bool) :
    lookup (fields.filter fun f => p f.1) key = if p key then lookup fields key else none := by
  unfold lookup
  rw [List.filter_filter]
  by_cases h : p key = true
  · rw [if_pos h]
    congr 2
    apply List.filter_congr
    intro f _
    by_cases hk : f.1 = key <;> simp [hk, h]
  · rw [if_neg h, List.filter_eq_nil_iff.mpr]
    · rfl
    · rintro f _
      by_cases hk : f.1 = key <;> simp [hk, h]

theorem lookup_insertField (key other : String) (v : Value) :
    lookup (insertField fields key v) other = if other = key then some v else lookup fields other := by
  have hlow := lookup_filter fields other (fun k => k < key)
  have hhigh := lookup_filter fields other (fun k => key < k)
  unfold insertField
  rw [lookup_append, ← List.singleton_append, lookup_append, lookup_single, hlow, hhigh]
  by_cases h : other = key
  · subst h
    simp
  · rw [if_neg (Ne.symm h), if_neg h]
    rcases lt_or_gt_of_ne h with hlt | hgt
    · simp [hlt, not_lt_of_gt hlt]
    · simp [not_lt_of_gt hgt, hgt]

end Fields

namespace Value

/-- `value.get(key)`: a field of an object, nothing otherwise. -/
def get : Value → String → Option Value
  | .object fields, key => lookup fields key
  | _, _ => none

/-- `value.as_str()`. -/
def asStr : Value → Option String
  | .string s => some s
  | _ => none

/-- `value[key] = v`: `null` becomes an object first; on anything else that is
not an object the assignment panics (`none`). -/
def assign : Value → String → Value → Option Value
  | .object fields, key, v => some (.object (insertField fields key v))
  | .null, key, v => some (.object [(key, v)])
  | _, _, _ => none

/-- An assignment sets its own field and leaves every other field as it was. -/
theorem get_assign {value value' : Value} {key : String} {v : Value}
    (h : value.assign key v = some value') (other : String) :
    value'.get other = if other = key then some v else value.get other := by
  cases value with
  | null =>
    cases h
    by_cases ho : other = key
    · simp [get, lookup_single, ho]
    · simp [get, lookup_single, ho, Ne.symm ho]
  | object fields =>
    cases h
    exact lookup_insertField fields key other v
  | _ => cases h

end Value

/-! ### Derived serialization -/

class Serialize (α : Type) where
  toValue : α → Value

class Deserialize (α : Type) where
  ofValue : Value → Option α

export Serialize (toValue)
export Deserialize (ofValue)

/-- What is serialized deserializes to itself. -/
class Serde (α : Type) extends Serialize α, Deserialize α where
  ofValue_toValue : ∀ x : α, ofValue (toValue x) = some x

export Serde (ofValue_toValue)

attribute [simp] Serde.ofValue_toValue

instance : Serde Value where
  toValue := id
  ofValue := some
  ofValue_toValue _ := rfl

instance : Serde String where
  toValue := .string
  ofValue := Value.asStr
  ofValue_toValue _ := rfl

instance : Serde Bool where
  toValue := .bool
  ofValue
    | .bool b => some b
    | _ => none
  ofValue_toValue _ := rfl

/-- `u64`. -/
instance : Serialize Nat := ⟨fun n => .int n⟩

instance : Deserialize Nat where
  ofValue
    | .int n => if 0 ≤ n ∧ n < 2 ^ 64 then some n.toNat else none
    | _ => none

instance {α : Type} [Serialize α] : Serialize (List α) := ⟨fun xs => .array (xs.map toValue)⟩

instance {α : Type} [Deserialize α] : Deserialize (List α) where
  ofValue
    | .array vs => vs.mapM ofValue
    | _ => none

instance {α : Type} [Serde α] : Serde (List α) where
  ofValue_toValue xs := by
    show (xs.map toValue).mapM ofValue = some xs
    induction xs with
    | nil => rfl
    | cons x rest ih => simp [ih]

/-- `None` is `null`. -/
instance {α : Type} [Serialize α] : Serialize (Option α) where
  toValue
    | some x => toValue x
    | none => .null

/-- A field of a record as its visitor finds it: missing, present, or (`none`) there twice. -/
def fieldOnce (fields : List (String × Value)) (name : String) : Option (Option Value) :=
  match fields.filter fun f => f.1 = name with
  | [] => some none
  | [f] => some (some f.2)
  | _ => none

/-- The fields of a record with the given names, in their order. -/
def structFields (names : List String) : Value → Option (List (Option Value))
  | .object fields => names.mapM (fieldOnce fields)
  | .array vs => if vs.length = names.length then some (vs.map some) else none
  | _ => none

/-- A field that has to be there. -/
def requiredField {α : Type} [Deserialize α] (v : Option Value) : Option α := v.bind ofValue

/-- A field of type `Option`: missing and `null` are both `None`. -/
def optionalField {α : Type} [Deserialize α] : Option Value → Option (Option α)
  | none => some none
  | some .null => some none
  | some v => (ofValue v).map some

/-! ### Text -/

abbrev Bytes := List UInt8

/-- A text format for JSON: `print` of any value parses to that value. `message`
is the text of the error for bytes that do not parse, or do not have the shape asked for. -/
structure Codec where
  print : Value → Bytes
  parse : Bytes → Option Value
  message : Bytes → String
  parse_print : ∀ v, parse (print v) = some v

namespace Codec
variable {α : Type}

/-- `to_vec`. -/
def toVec [Serialize α] (S : Codec) (x : α) : Bytes := S.print (toValue x)

/-- `to_string`, of a value. -/
def text (S : Codec) (v : Value) : String := (String.fromUTF8? ⟨(S.print v).toArray⟩).getD ""

/-- `from_slice`. -/
def fromSlice [Deserialize α] (S : Codec) (b : Bytes) : Option α := (S.parse b).bind ofValue

@[simp] theorem fromSlice_print [Deserialize α] (S : Codec) (v : Value) :
    S.fromSlice (S.print v) = (ofValue v : Option α) := by
  simp [fromSlice, S.parse_print]

@[simp] theorem fromSlice_toVec [Serde α] (S : Codec) (x : α) : S.fromSlice (S.toVec x) = some x := by
  simp [toVec]

end Codec

end Json
