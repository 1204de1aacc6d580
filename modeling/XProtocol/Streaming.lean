import XProtocol.Protocol

/-! Stream modes, and the bodies of the stream messages as the client reads them. -/
namespace XProtocol
open Json

inductive StreamMode where
  | messages
  | values
  | updates
  | result
  deriving DecidableEq

namespace StreamMode

def asStr : StreamMode → String
  | .messages => "messages"
  | .values => "values"
  | .updates => "updates"
  | .result => "result"

def fromStr : String → Option StreamMode
  | "messages" => some .messages
  | "values" => some .values
  | "updates" => some .updates
  | "result" => some .result
  | _ => none

@[simp] theorem fromStr_asStr (m : StreamMode) : fromStr m.asStr = some m := by
  cases m <;> rfl

end StreamMode

structure StreamMessage where
  requestId : String
  chunkIndex : Nat
  content : Value
  metadata : Option Value

structure StreamResponse where
  requestId : String
  mode : String
  status : String
  finalPayload : Option Value

instance : Deserialize StreamMessage where
  ofValue v := do
    match ← structFields ["request_id", "chunk_index", "content", "metadata"] v with
    | [requestId, chunkIndex, content, metadata] =>
      return { requestId := ← requiredField requestId, chunkIndex := ← requiredField chunkIndex,
               content := ← requiredField content, metadata := ← optionalField metadata }
    | _ => none

instance : Deserialize StreamResponse where
  ofValue v := do
    match ← structFields ["request_id", "mode", "status", "final_payload"] v with
    | [requestId, mode, status, finalPayload] =>
      return { requestId := ← requiredField requestId, mode := ← requiredField mode,
               status := ← requiredField status, finalPayload := ← optionalField finalPayload }
    | _ => none

/-- An object without the field `mode` is not a `StreamResponse`. -/
theorem streamResponse_needs_mode (fields : List (String × Value))
    (h : ∀ f ∈ fields, f.1 ≠ "mode") : (ofValue (.object fields) : Option StreamResponse) = none := by
  have hmode : fieldOnce fields "mode" = some none := by
    unfold fieldOnce
    rw [List.filter_eq_nil_iff.mpr]
    intro f hf
    simpa using h f hf
  show (structFields _ (.object fields)).bind _ = none
  simp only [structFields, List.mapM_cons, List.mapM_nil, hmode]
  cases fieldOnce fields "request_id" <;> cases fieldOnce fields "status" <;>
    cases fieldOnce fields "final_payload" <;> simp [requiredField]

end XProtocol
