import XProtocol.Wire

/-! The framing is exact.

`write_message` writes a message in four pieces, and the bytes of a stream arrive in
pieces that have nothing to do with the messages in it. `writeTo` and `readFrom` are
the two functions as they stand, on an output and on a stream in pieces; they do what
`writeMessage` and `readMessage` say of the bytes (`writeTo_eq`, `readFrom_agrees`),
however the stream is cut up. So what was written is what is read
(`framing_exact`). -/
namespace XProtocol.Wire
open Json (Bytes)

/-- `write_message`, on what was written before: its result, and what is written then. -/
def writeTo (out : Bytes) (msgType : UInt8) (payload : Bytes) : Result Unit × Bytes :=
  let len := 2 + payload.length
  if len > maxMessageSize then (.error (.invalidMessage "message too large"), out)
  else
    let out := out ++ toBeBytes len
    let out := out ++ [msgType]
    let out := out ++ [1]
    let out := out ++ payload
    (.ok (), out)

/-- Messages written one after another: whether all of them were accepted, and what is written then. -/
def writeAll (out : Bytes) : List Frame → Bool × Bytes
  | [] => (true, out)
  | f :: rest =>
    match writeTo out f.msgType f.payload with
    | (.ok _, out) => writeAll out rest
    | (.error _, out) => (false, out)

/-- `read_exact`, on a stream that arrives in pieces: the bytes asked for and what is left of
the stream, or nothing if it ends before. -/
def readExact : Nat → List Bytes → Option (Bytes × List Bytes)
  | 0, pieces => some ([], pieces)
  | _ + 1, [] => none
  | n + 1, piece :: rest =>
    if n + 1 ≤ piece.length then some (piece.take (n + 1), piece.drop (n + 1) :: rest)
    else (readExact (n + 1 - piece.length) rest).map fun x => (piece ++ x.1, x.2)

/-- The length in front of a message. -/
def lengthOf : Bytes → Nat
  | [a, b, c, d] => fromBeBytes a b c d
  | _ => 0

/-- `read_message` behind the length. -/
def readBody (len : Nat) (pieces : List Bytes) : Result Frame × List Bytes :=
  if len < 2 ∨ len > maxMessageSize then
    (.error (.invalidMessage s!"invalid length: {len}"), pieces)
  else
    match readExact 1 pieces with
    | none => (endOfFile, [])
    | some (typeBuf, pieces) =>
      match readExact 1 pieces with
      | none => (endOfFile, [])
      | some (_version, pieces) =>
        match readExact (len - 2) pieces with
        | none => (endOfFile, [])
        | some (payload, pieces) => (.ok ⟨typeBuf.headD 0, payload⟩, pieces)

/-- `read_message`, on a stream that arrives in pieces. -/
def readFrom (pieces : List Bytes) : Result Frame × List Bytes :=
  match readExact 4 pieces with
  | none => (endOfFile, [])
  | some (lenBuf, pieces) => readBody (lengthOf lenBuf) pieces

/-- `n` calls of `read_message`. -/
def readsFrom : Nat → List Bytes → List (Result Frame) × List Bytes
  | 0, pieces => ([], pieces)
  | n + 1, pieces =>
    let (r, pieces) := readFrom pieces
    let (rs, pieces) := readsFrom n pieces
    (r :: rs, pieces)

/-! ### Pieces -/

theorem readExact_some {n : Nat} {pieces rest : List Bytes} {b : Bytes}
    (h : readExact n pieces = some (b, rest)) :
    b = pieces.flatten.take n ∧ rest.flatten = pieces.flatten.drop n ∧ n ≤ pieces.flatten.length := by
  induction pieces generalizing n b with
  | nil =>
    cases n with
    | zero => cases h; simp
    | succ n => cases h
  | cons piece pieces ih =>
    cases n with
    | zero => cases h; simp
    | succ n =>
      simp only [readExact] at h
      split at h
      · next hle =>
        cases h
        simp only [List.flatten_cons, List.length_append]
        rw [List.take_append_of_le_length hle, List.drop_append_of_le_length hle]
        exact ⟨rfl, rfl, by omega⟩
      · next hlt =>
        obtain ⟨⟨b', rest'⟩, hrest, heq⟩ := Option.map_eq_some_iff.mp h
        cases heq
        obtain ⟨rfl, hdrop, hlen⟩ := ih hrest
        have hle : piece.length ≤ n + 1 := by omega
        simp only [List.flatten_cons, List.length_append, List.take_append, List.drop_append]
        rw [List.take_of_length_le hle, List.drop_of_length_le hle, hdrop]
        exact ⟨rfl, rfl, by omega⟩

theorem readExact_none {n : Nat} {pieces : List Bytes} (h : readExact n pieces = none) :
    pieces.flatten.length < n := by
  induction pieces generalizing n with
  | nil =>
    cases n with
    | zero => cases h
    | succ n => simp
  | cons piece pieces ih =>
    cases n with
    | zero => cases h
    | succ n =>
      simp only [readExact] at h
      split at h
      · cases h
      · have := ih (Option.map_eq_none_iff.mp h)
        simp only [List.flatten_cons, List.length_append]
        omega

/-- One byte is taken off the front. -/
theorem readExact_one {pieces rest : List Bytes} {b : Bytes} (h : readExact 1 pieces = some (b, rest)) :
    ∃ x, b = [x] ∧ pieces.flatten = x :: rest.flatten := by
  obtain ⟨rfl, hrest, hlen⟩ := readExact_some h
  cases hw : pieces.flatten with
  | nil => simp [hw] at hlen
  | cons x w => exact ⟨x, rfl, by rw [hrest, hw]; rfl⟩

theorem readExact_four {pieces rest : List Bytes} {b : Bytes} (h : readExact 4 pieces = some (b, rest)) :
    ∃ x y z t, b = [x, y, z, t] ∧ pieces.flatten = x :: y :: z :: t :: rest.flatten := by
  obtain ⟨rfl, hrest, hlen⟩ := readExact_some h
  match hw : pieces.flatten, hlen with
  | x :: y :: z :: t :: w, _ => exact ⟨x, y, z, t, rfl, by rw [hrest, hw]; rfl⟩

theorem readMessage_short {w : Bytes} (h : w.length < 4) : readMessage w = .short := by
  match w, h with
  | [], _ | [_], _ | [_, _], _ | [_, _, _], _ => rfl

/-- `readMessage` behind the length. -/
def readBehind (len : Nat) (w : Bytes) : Read :=
  if len < 2 ∨ len > maxMessageSize then .invalid len w
  else match w with
    | msgType :: _version :: body =>
      if body.length < len - 2 then .short
      else .message ⟨msgType, body.take (len - 2)⟩ (body.drop (len - 2))
    | _ => .short

theorem readMessage_behind (a b c d : UInt8) (w : Bytes) :
    readMessage (a :: b :: c :: d :: w) = readBehind (fromBeBytes a b c d) w := rfl

/-- A result on a stream in pieces is what `readMessage` says of the bytes. -/
def Agrees (x : Result Frame × List Bytes) (r : Read) : Prop := x.1 = r.result ∧ x.2.flatten = r.rest

theorem agrees_message {f : Frame} {pieces : List Bytes} {w : Bytes} (h : pieces.flatten = w) :
    Agrees (.ok f, pieces) (.message f w) := ⟨rfl, h⟩

theorem agrees_short : Agrees (endOfFile, []) .short := ⟨rfl, rfl⟩

theorem readBody_agrees (len : Nat) (pieces : List Bytes) :
    Agrees (readBody len pieces) (readBehind len pieces.flatten) := by
  unfold readBody readBehind
  by_cases hinvalid : len < 2 ∨ len > maxMessageSize
  · rw [if_pos hinvalid, if_pos hinvalid]
    exact ⟨rfl, rfl⟩
  rw [if_neg hinvalid, if_neg hinvalid]
  cases htype : readExact 1 pieces with
  | none =>
    rw [List.length_eq_zero_iff.mp (Nat.lt_one_iff.mp (readExact_none htype))]
    exact agrees_short
  | some x =>
  obtain ⟨typeBuf, afterType⟩ := x
  obtain ⟨msgType, rfl, hw⟩ := readExact_one htype
  rw [hw]
  cases hversion : readExact 1 afterType with
  | none =>
    simp only [hversion]
    rw [List.length_eq_zero_iff.mp (Nat.lt_one_iff.mp (readExact_none hversion))]
    exact agrees_short
  | some x =>
  obtain ⟨versionBuf, afterVersion⟩ := x
  obtain ⟨version, rfl, hw⟩ := readExact_one hversion
  simp only [hversion, hw]
  cases hpayload : readExact (len - 2) afterVersion with
  | none =>
    rw [if_pos (readExact_none hpayload)]
    exact agrees_short
  | some x =>
    obtain ⟨payload, rest⟩ := x
    obtain ⟨rfl, hrest, hle⟩ := readExact_some hpayload
    rw [if_neg (Nat.not_lt.mpr hle)]
    exact agrees_message hrest

/-- **`read_message` does the same however the stream is cut up**, and leaves the same bytes. -/
theorem readFrom_agrees (pieces : List Bytes) : Agrees (readFrom pieces) (readMessage pieces.flatten) := by
  unfold readFrom
  cases hlen : readExact 4 pieces with
  | none =>
    rw [readMessage_short (readExact_none hlen)]
    exact agrees_short
  | some x =>
    obtain ⟨lenBuf, rest⟩ := x
    obtain ⟨a, b, c, d, rfl, hw⟩ := readExact_four hlen
    rw [hw, readMessage_behind]
    exact readBody_agrees _ rest

/-! ### Writer and reader agree -/

theorem toBeBytes_fromBeBytes (a b c d : UInt8) : toBeBytes (fromBeBytes a b c d) = [a, b, c, d] := by
  have ha := a.toNat_lt
  have hb := b.toNat_lt
  have hc := c.toNat_lt
  have hd := d.toNat_lt
  simp only [toBeBytes, fromBeBytes, List.cons.injEq, and_true]
  refine ⟨?_, ?_, ?_, ?_⟩ <;> apply UInt8.toNat_inj.mp <;> rw [UInt8.toNat_ofNat'] <;> omega

theorem readBehind_message {len : Nat} {w rest : Bytes} {f : Frame} (h : readBehind len w = .message f rest) :
    len = 2 + f.payload.length ∧ Fits f ∧ ∃ version, w = f.msgType :: version :: f.payload ++ rest := by
  unfold readBehind at h
  by_cases hinvalid : len < 2 ∨ len > maxMessageSize
  · rw [if_pos hinvalid] at h
    cases h
  rw [if_neg hinvalid] at h
  match w, h with
  | [], h | [_], h => cases h
  | msgType :: version :: body, h =>
    by_cases hbody : body.length < len - 2
    · simp only [hbody, if_true] at h
      cases h
    simp only [hbody, if_false] at h
    obtain ⟨rfl, rfl⟩ := Read.message.inj h
    have hlen : len = 2 + (body.take (len - 2)).length := by
      rw [List.length_take]
      omega
    refine ⟨hlen, ?_, version, ?_⟩
    · show 2 + (body.take (len - 2)).length ≤ maxMessageSize
      omega
    · simp

/-- A message that was read is one the writer accepts, and its bytes are the writer's, but for
the version. -/
theorem readMessage_message {w rest : Bytes} {f : Frame} (h : readMessage w = .message f rest) :
    Fits f ∧ ∃ version, w = toBeBytes (2 + f.payload.length) ++ f.msgType :: version :: f.payload ++ rest := by
  match w, h with
  | [], h | [_], h | [_, _], h | [_, _, _], h => cases h
  | a :: b :: c :: d :: w, h =>
    rw [readMessage_behind] at h
    obtain ⟨hlen, hfits, version, rfl⟩ := readBehind_message h
    refine ⟨hfits, version, ?_⟩
    rw [← hlen, toBeBytes_fromBeBytes]
    rfl

theorem writeTo_fits {f : Frame} (h : Fits f) (out : Bytes) :
    writeTo out f.msgType f.payload = (.ok (), out ++ encode f) := by
  have hle : ¬ 2 + f.payload.length > maxMessageSize := Nat.not_lt.mpr h
  simp [writeTo, hle, encode]

theorem writeTo_not_fits {f : Frame} (h : ¬ Fits f) (out : Bytes) :
    writeTo out f.msgType f.payload = (.error (.invalidMessage "message too large"), out) := by
  have hlt : 2 + f.payload.length > maxMessageSize := Nat.not_le.mp h
  simp [writeTo, hlt]

/-- What `writeMessage` says of the bytes. -/
theorem writeTo_eq (out : Bytes) (msgType : UInt8) (payload : Bytes) :
    writeTo out msgType payload = match writeMessage msgType payload with
      | .ok bytes => (.ok (), out ++ bytes)
      | .error e => (.error e, out) := by
  by_cases h : Fits ⟨msgType, payload⟩
  · rw [writeMessage_of_fits h, writeTo_fits h]
  · rw [writeMessage_of_not_fits h, writeTo_not_fits h]

theorem writeAll_fits {fs : List Frame} (h : ∀ f ∈ fs, Fits f) (out : Bytes) :
    writeAll out fs = (true, out ++ encodeAll fs) := by
  induction fs generalizing out with
  | nil => simp [writeAll]
  | cons f rest ih =>
    rw [writeAll, writeTo_fits (h f (List.mem_cons_self ..))]
    simp only
    rw [ih fun g hg => h g (List.mem_cons_of_mem _ hg), List.append_assoc]
    rfl

/-- Behind the messages `fs` nothing of a stream is touched. -/
theorem readsFrom_encodeAll {fs : List Frame} (h : ∀ f ∈ fs, Fits f) {more : Bytes} {pieces : List Bytes}
    (hpieces : pieces.flatten = encodeAll fs ++ more) :
    (readsFrom fs.length pieces).1 = fs.map .ok ∧ (readsFrom fs.length pieces).2.flatten = more := by
  induction fs generalizing pieces with
  | nil => exact ⟨rfl, hpieces⟩
  | cons f rest ih =>
    have hf := h f (List.mem_cons_self ..)
    have hpieces : pieces.flatten = encode f ++ (encodeAll rest ++ more) := by
      rw [hpieces, ← List.append_assoc]
      rfl
    obtain ⟨hresult, hrest⟩ := readFrom_agrees pieces
    rw [hpieces, readMessage_encode hf] at hresult hrest
    obtain ⟨hresults, hmore⟩ := ih (fun g hg => h g (List.mem_cons_of_mem _ hg)) hrest
    simp only [List.length_cons, readsFrom, List.map_cons, hresult, hresults, hmore, Read.result, and_self]

/-- No strict prefix of a message reads as one. -/
theorem readMessage_cut {f : Frame} (h : Fits f) {pre : Bytes} (hpre : pre <+: encode f) (hne : pre ≠ encode f) :
    readMessage pre = .short := by
  obtain ⟨more, hmore⟩ := hpre
  have hall := readMessage_encode_self h
  cases hr : readMessage pre with
  | short => rfl
  | invalid len rest =>
    have := readMessage_invalid_append hr more
    rw [hmore, hall] at this
    cases this
  | message g rest =>
    have := readMessage_append hr more
    rw [hmore, hall] at this
    obtain ⟨-, hnil⟩ := Read.message.inj this
    obtain ⟨-, rfl⟩ := List.append_eq_nil_iff.mp hnil.symm
    exact absurd (by simpa using hmore) hne

/-! ### The format -/

theorem fits_iff (f : Frame) : Fits f ↔ f.payload.length ≤ 16 * 1024 * 1024 - 2 := by
  unfold Fits maxMessageSize
  omega

/-- **The wire format is an exact framing.** Messages of at most 16 MiB - 2 that were written one
after another are read back one after another, in any pieces and whatever follows, and at each
boundary what is left is what was written behind it. A message that is read is accepted by
the writer, which writes the bytes that were consumed but for the version. What the writer
rejects it does not begin. And no strict prefix of a message reads as one. -/
theorem framing_exact :
    (∀ (fs : List Frame) (more : Bytes) (pieces : List Bytes),
      (∀ f ∈ fs, f.payload.length ≤ 16 * 1024 * 1024 - 2) →
      pieces.flatten = (writeAll [] fs).2 ++ more →
      (writeAll [] fs).1 = true ∧ ∀ before after, fs = before ++ after →
        (readsFrom before.length pieces).1 = before.map .ok ∧
          (readsFrom before.length pieces).2.flatten = (writeAll [] after).2 ++ more) ∧
    (∀ (pieces rest : List Bytes) (f : Frame), readFrom pieces = (.ok f, rest) →
      ∃ consumed written version, pieces.flatten = consumed ++ rest.flatten ∧
        writeTo [] f.msgType f.payload = (.ok (), written) ∧ consumed = written.set 5 version) ∧
    (∀ (out out' : Bytes) (msgType : UInt8) (payload : Bytes) (e : ProtocolError),
      writeTo out msgType payload = (.error e, out') → out' = out) ∧
    ∀ (msgType : UInt8) (payload written pre : Bytes) (pieces : List Bytes) (g : Frame),
      writeTo [] msgType payload = (.ok (), written) → pre <+: written → pre ≠ written →
      pieces.flatten = pre → (readFrom pieces).1 ≠ .ok g := by
  refine ⟨fun fs more pieces hsize hpieces => ?_, fun pieces rest f hread => ?_,
    fun out out' msgType payload e hwrite => ?_,
    fun msgType payload written pre pieces g hwrite hpre hne hpieces => ?_⟩
  · have hfits (f : Frame) (hf : f ∈ fs) : Fits f := (fits_iff f).mpr (hsize f hf)
    rw [writeAll_fits hfits] at hpieces ⊢
    refine ⟨rfl, fun before after hfs => ?_⟩
    subst hfs
    have hbefore (f : Frame) (hf : f ∈ before) : Fits f := hfits f (List.mem_append_left _ hf)
    have hafter (f : Frame) (hf : f ∈ after) : Fits f := hfits f (List.mem_append_right _ hf)
    rw [writeAll_fits hafter]
    refine readsFrom_encodeAll hbefore ?_
    simp only [hpieces, List.nil_append, encodeAll_append, List.append_assoc]
  · obtain ⟨hresult, hrest⟩ := readFrom_agrees pieces
    rw [hread] at hresult hrest
    cases hr : readMessage pieces.flatten with
    | message g rest' =>
      rw [hr] at hresult hrest
      cases hresult
      obtain ⟨hfits, version, hw⟩ := readMessage_message hr
      refine ⟨_, _, version, ?_, writeTo_fits hfits [], rfl⟩
      rw [hw, hrest]
      rfl
    | invalid len rest' => rw [hr] at hresult; cases hresult
    | short => rw [hr] at hresult; cases hresult
  · by_cases hfits : Fits ⟨msgType, payload⟩
    · rw [writeTo_fits hfits] at hwrite
      cases hwrite
    · rw [writeTo_not_fits hfits] at hwrite
      cases hwrite
      rfl
  · by_cases hfits : Fits ⟨msgType, payload⟩
    · rw [writeTo_fits hfits] at hwrite
      cases hwrite
      rw [(readFrom_agrees pieces).1, hpieces, readMessage_cut hfits hpre hne]
      exact nofun
    · rw [writeTo_not_fits hfits] at hwrite
      cases hwrite

/-- A request and a ping, read from a stream that is cut inside both. -/
theorem framing_exact_cut :
    (readsFrom 2 [[0, 0, 0], [3, 16], [1, 7, 0, 0], [], [0, 2, 64, 1, 9]]).1 =
      [.ok ⟨msgRequest, [7]⟩, .ok ⟨msgPing, []⟩] := by
  obtain ⟨-, hreads⟩ := framing_exact.1 [⟨msgRequest, [7]⟩, ⟨msgPing, []⟩] [9]
    [[0, 0, 0], [3, 16], [1, 7, 0, 0], [], [0, 2, 64, 1, 9]] (by decide +kernel) (by decide +kernel)
  exact (hreads [⟨msgRequest, [7]⟩, ⟨msgPing, []⟩] [] rfl).1

end XProtocol.Wire
