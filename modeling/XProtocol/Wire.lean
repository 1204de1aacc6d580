import XProtocol.Error
import XProtocol.Json.Value

/-! The wire format: `[4 bytes length][1 byte type][1 byte version][payload]`,
the length big-endian and counting everything behind it.

`readMessage` is the reader on what is left of a stream: a message and the rest,
a length that is refused (four bytes are gone then, and the rest is as it was),
or too few bytes. `frames` are the messages at the front of a byte stream, up to
the first length that is refused or the first message that is cut off. -/
namespace XProtocol.Wire
open Json (Bytes)

def msgHandshake : UInt8 := 0x01
def msgHandshakeAck : UInt8 := 0x02
def msgRequest : UInt8 := 0x10
def msgResponse : UInt8 := 0x11
def msgStreamRequest : UInt8 := 0x12
def msgStreamStart : UInt8 := 0x13
def msgStreamChunk : UInt8 := 0x14
def msgStreamEnd : UInt8 := 0x15
def msgError : UInt8 := 0x1F
def msgPing : UInt8 := 0x40
def msgPong : UInt8 := 0x41
def msgClose : UInt8 := 0x50
def msgSchemaRequest : UInt8 := 0x60
def msgSchemaResponse : UInt8 := 0x61

def maxMessageSize : Nat := 16 * 1024 * 1024

/-- A message: its type and its payload. -/
structure Frame where
  msgType : UInt8
  payload : Bytes
  deriving DecidableEq

/-- `u32::to_be_bytes`. -/
def toBeBytes (n : Nat) : Bytes :=
  [UInt8.ofNat (n / 2 ^ 24), UInt8.ofNat (n / 2 ^ 16), UInt8.ofNat (n / 2 ^ 8), UInt8.ofNat n]

/-- `u32::from_be_bytes`. -/
def fromBeBytes (a b c d : UInt8) : Nat :=
  a.toNat * 2 ^ 24 + b.toNat * 2 ^ 16 + c.toNat * 2 ^ 8 + d.toNat

/-- The bytes of a message. The version is always 1. -/
def encode (f : Frame) : Bytes := toBeBytes (2 + f.payload.length) ++ f.msgType :: 1 :: f.payload

/-- The message is one the writer accepts. -/
def Fits (f : Frame) : Prop := 2 + f.payload.length ≤ maxMessageSize

instance (f : Frame) : Decidable (Fits f) := inferInstanceAs (Decidable (_ ≤ _))

/-- The bytes `write_message` writes, or its refusal, before any byte is written. -/
def writeMessage (msgType : UInt8) (payload : Bytes) : Result Bytes :=
  if 2 + payload.length > maxMessageSize then .error (.invalidMessage "message too large")
  else .ok (encode ⟨msgType, payload⟩)

/-- What `read_message` makes of the bytes left in a stream. -/
inductive Read where
  | message (f : Frame) (rest : Bytes)
  | invalid (len : Nat) (rest : Bytes)
  /-- The stream ends inside the message. -/
  | short
  deriving DecidableEq

def readMessage : Bytes → Read
  | a :: b :: c :: d :: rest =>
    let len := fromBeBytes a b c d
    if len < 2 ∨ len > maxMessageSize then .invalid len rest
    else match rest with
      | msgType :: _version :: body =>
        if body.length < len - 2 then .short
        else .message ⟨msgType, body.take (len - 2)⟩ (body.drop (len - 2))
      | _ => .short
  | _ => .short

/-- The value `read_message` returns; an end of file is an I/O error of `read_exact`. -/
def Read.result : Read → Result Frame
  | .message f _ => .ok f
  | .invalid len _ => .error (.invalidMessage s!"invalid length: {len}")
  | .short => .error (.ofIo "early eof")

/-! ### One message -/

theorem fromBeBytes_ofNat (n : Nat) (h : n < 2 ^ 32) :
    fromBeBytes (UInt8.ofNat (n / 2 ^ 24)) (UInt8.ofNat (n / 2 ^ 16)) (UInt8.ofNat (n / 2 ^ 8))
      (UInt8.ofNat n) = n := by
  simp only [fromBeBytes, UInt8.toNat_ofNat']
  omega

@[simp] theorem encode_length (f : Frame) : (encode f).length = 6 + f.payload.length := by
  simp [encode, toBeBytes]
  omega

theorem writeMessage_of_fits {f : Frame} (h : Fits f) :
    writeMessage f.msgType f.payload = .ok (encode f) := by
  simp only [Fits] at h
  simp [writeMessage, Nat.not_lt.mpr h]

theorem writeMessage_of_not_fits {f : Frame} (h : ¬ Fits f) :
    writeMessage f.msgType f.payload = .error (.invalidMessage "message too large") := by
  simp only [Fits, Nat.not_le] at h
  simp [writeMessage, h]

theorem writeMessage_eq_ok {msgType : UInt8} {payload bytes : Bytes}
    (h : writeMessage msgType payload = .ok bytes) :
    Fits ⟨msgType, payload⟩ ∧ bytes = encode ⟨msgType, payload⟩ := by
  unfold writeMessage at h
  split at h
  · cases h
  · next hle =>
    cases h
    exact ⟨Nat.not_lt.mp hle, rfl⟩

/-- A message that was written is read back, and nothing behind it is touched. -/
theorem readMessage_encode {f : Frame} (h : Fits f) (rest : Bytes) :
    readMessage (encode f ++ rest) = .message f rest := by
  have hmax : maxMessageSize < 2 ^ 32 := by decide
  simp only [Fits] at h
  have hlen := fromBeBytes_ofNat (2 + f.payload.length) (by omega)
  have hvalid : ¬(2 + f.payload.length < 2 ∨ 2 + f.payload.length > maxMessageSize) := by omega
  simp only [encode, toBeBytes, List.cons_append, List.nil_append, readMessage]
  rw [hlen, if_neg hvalid, if_neg (by simp), Nat.add_sub_cancel_left, List.take_left', List.drop_left']
  · rfl
  · rfl

theorem readMessage_encode_self {f : Frame} (h : Fits f) : readMessage (encode f) = .message f [] := by
  simpa using readMessage_encode h []

/-- A message that is read takes its six bytes of header and its payload off the stream. -/
theorem readMessage_length {w rest : Bytes} {f : Frame} (h : readMessage w = .message f rest) :
    w.length = 6 + f.payload.length + rest.length := by
  unfold readMessage at h
  split at h
  · simp only at h
    split at h
    · cases h
    · split at h
      · split at h
        · cases h
        · cases h
          simp only [List.length_cons, List.length_take, List.length_drop]
          omega
      · cases h
  · cases h

/-- The type of a message is its fifth byte. -/
theorem readMessage_type {w rest : Bytes} {f : Frame} (h : readMessage w = .message f rest) :
    w[4]? = some f.msgType := by
  unfold readMessage at h
  split at h
  · simp only at h
    split at h
    · cases h
    · split at h
      · split at h
        · cases h
        · cases h
          rfl
      · cases h
  · cases h

/-- What is read does not depend on what follows it. -/
theorem readMessage_append {w rest : Bytes} {f : Frame} (h : readMessage w = .message f rest)
    (more : Bytes) : readMessage (w ++ more) = .message f (rest ++ more) := by
  unfold readMessage at h
  split at h
  · simp only at h
    split at h
    · cases h
    · next hvalid =>
      split at h
      · split at h
        · cases h
        · next hbody =>
          cases h
          have hle := Nat.not_lt.mp hbody
          simp only [readMessage, List.cons_append]
          rw [if_neg hvalid, if_neg (by rw [List.length_append]; omega),
            List.take_append_of_le_length hle, List.drop_append_of_le_length hle]
      · cases h
  · cases h

/-- Nor does a refusal. -/
theorem readMessage_invalid_append {w rest : Bytes} {len : Nat} (h : readMessage w = .invalid len rest)
    (more : Bytes) : readMessage (w ++ more) = .invalid len (rest ++ more) := by
  unfold readMessage at h
  split at h
  · simp only at h
    split at h
    · next hinvalid =>
      cases h
      simp only [readMessage, List.cons_append]
      rw [if_pos hinvalid]
    · split at h
      · split at h <;> cases h
      · cases h
  · cases h

/-! ### Streams of messages -/

/-- The messages at the front of a stream, at most `n`. -/
def framesUpTo : Nat → Bytes → List Frame
  | 0, _ => []
  | n + 1, w =>
    match readMessage w with
    | .message f rest => f :: framesUpTo n rest
    | _ => []

/-- The messages at the front of a stream. -/
def frames (w : Bytes) : List Frame := framesUpTo w.length w

def encodeAll (fs : List Frame) : Bytes := fs.flatMap encode

@[simp] theorem encodeAll_nil : encodeAll [] = [] := rfl

@[simp] theorem encodeAll_append (a b : List Frame) : encodeAll (a ++ b) = encodeAll a ++ encodeAll b :=
  List.flatMap_append

@[simp] theorem encodeAll_single (f : Frame) : encodeAll [f] = encode f := by simp [encodeAll]

/-- Any bound that is at least the length of the stream gives all its messages. -/
theorem framesUpTo_bound (n m : Nat) (w : Bytes) (hn : w.length ≤ n) (hm : w.length ≤ m) :
    framesUpTo n w = framesUpTo m w := by
  induction n generalizing m w with
  | zero =>
    obtain rfl := List.length_eq_zero_iff.mp (Nat.le_zero.mp hn)
    cases m <;> rfl
  | succ n ih =>
    cases m with
    | zero =>
      obtain rfl := List.length_eq_zero_iff.mp (Nat.le_zero.mp hm)
      rfl
    | succ m =>
      simp only [framesUpTo]
      cases hr : readMessage w with
      | message f rest =>
        have hlen := readMessage_length hr
        exact congrArg _ (ih m rest (by omega) (by omega))
      | _ => rfl

theorem frames_message {w rest : Bytes} {f : Frame} (h : readMessage w = .message f rest) :
    frames w = f :: frames rest := by
  have hlen := readMessage_length h
  rw [frames, framesUpTo_bound w.length (w.length + 1) w (Nat.le_refl _) (Nat.le_succ _)]
  simp only [framesUpTo, h]
  rw [framesUpTo_bound w.length rest.length rest (by omega) (Nat.le_refl _), frames]

theorem frames_stop {w : Bytes} (h : ∀ f rest, readMessage w ≠ .message f rest) : frames w = [] := by
  rw [frames, framesUpTo_bound w.length (w.length + 1) w (Nat.le_refl _) (Nat.le_succ _)]
  simp only [framesUpTo]

@[simp] theorem frames_nil : frames [] = [] := rfl

theorem frames_encode {f : Frame} (h : Fits f) (rest : Bytes) :
    frames (encode f ++ rest) = f :: frames rest :=
  frames_message (readMessage_encode h rest)

theorem frames_encodeAll {fs : List Frame} (h : ∀ f ∈ fs, Fits f) (rest : Bytes) :
    frames (encodeAll fs ++ rest) = fs ++ frames rest := by
  induction fs with
  | nil => rfl
  | cons f fs ih =>
    simp only [encodeAll, List.flatMap_cons, List.append_assoc, List.cons_append]
    rw [frames_encode (h f (List.mem_cons_self ..))]
    exact congrArg _ (ih fun g hg => h g (List.mem_cons_of_mem _ hg))

theorem frames_encodeAll_self {fs : List Frame} (h : ∀ f ∈ fs, Fits f) : frames (encodeAll fs) = fs := by
  simpa using frames_encodeAll h []

/-! ### Reading on

`read_message` may be called again whatever it returned. -/

/-- What a call leaves: at the end of the stream all of it is gone. -/
def Read.rest : Read → Bytes
  | .message _ rest => rest
  | .invalid _ rest => rest
  | .short => []

/-- The results of `n` calls. -/
def readings : Nat → Bytes → List (Result Frame)
  | 0, _ => []
  | n + 1, w => (readMessage w).result :: readings n (readMessage w).rest

/-- The results of calls up to the end of the stream, at most `n` of them. -/
def incomingUpTo : Nat → Bytes → List (Result Frame)
  | 0, _ => []
  | n + 1, w =>
    match readMessage w with
    | .short => []
    | r => r.result :: incomingUpTo n r.rest

/-- The results of the calls before the end of the stream. -/
def incoming (w : Bytes) : List (Result Frame) := incomingUpTo w.length w

/-- What a call finds at the end of the stream. -/
def endOfFile : Result Frame := .error (.ofIo "early eof")

theorem Read.rest_length {w : Bytes} (h : readMessage w ≠ .short) :
    (readMessage w).rest.length < w.length := by
  cases hr : readMessage w with
  | message f rest =>
    have := readMessage_length hr
    simp only [Read.rest]
    omega
  | invalid len rest =>
    unfold readMessage at hr
    split at hr
    · simp only at hr
      split at hr
      · cases hr
        simp only [Read.rest, List.length_cons]
        omega
      · split at hr
        · split at hr <;> cases hr
        · cases hr
    · cases hr
  | short => exact absurd hr h

theorem readings_nil (n : Nat) : readings n [] = List.replicate n endOfFile := by
  induction n with
  | zero => rfl
  | succ n ih => exact congrArg _ ih

/-- After what comes in, every call finds the end of the stream. -/
theorem readings_incomingUpTo {n : Nat} {w : Bytes} (h : w.length ≤ n) (m : Nat) :
    readings ((incomingUpTo n w).length + m) w = incomingUpTo n w ++ List.replicate m endOfFile := by
  induction n generalizing w with
  | zero =>
    obtain rfl := List.length_eq_zero_iff.mp (Nat.le_zero.mp h)
    simpa [incomingUpTo] using readings_nil m
  | succ n ih =>
    by_cases hs : readMessage w = .short
    · rw [incomingUpTo, hs]
      cases m with
      | zero => rfl
      | succ m =>
        rw [List.length_nil, Nat.zero_add, readings, hs, Read.rest, readings_nil]
        rfl
    · have hlen := Read.rest_length hs
      have hstep : incomingUpTo (n + 1) w = (readMessage w).result :: incomingUpTo n (readMessage w).rest := by
        rw [incomingUpTo]
        split
        · next hs' => exact absurd hs' hs
        · rfl
      rw [hstep, List.length_cons, Nat.add_right_comm, readings, ih (by omega), List.cons_append]

theorem readings_incoming (w : Bytes) (m : Nat) :
    readings ((incoming w).length + m) w = incoming w ++ List.replicate m endOfFile :=
  readings_incomingUpTo (Nat.le_refl _) m

/-- More calls find what fewer find, and then more. -/
theorem readings_prefix (n m : Nat) (w : Bytes) : readings n w <+: readings (n + m) w := by
  induction n generalizing w with
  | zero => exact List.nil_prefix
  | succ n ih =>
    rw [Nat.add_right_comm]
    exact List.prefix_cons_inj _ |>.mpr (ih _)

end XProtocol.Wire
