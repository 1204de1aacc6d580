import XProtocol.Json.Value

/-! Compact JSON text, as bytes.

`print` writes a value without blanks: integers in decimal, `mantissa` `e`
`exponent` for the other numbers, strings in UTF-8 with the two-character escapes
where JSON has one and `\u00xx` for the other control characters. `parse` reads
what `print` writes (`compact`).

The parser is given a bound on its depth; the length of the text is one that is
always enough, since every level takes at least a byte. -/
namespace Json.Text

/-! ### Numbers -/

def isDigit (b : UInt8) : Bool := 0x30 ≤ b && b ≤ 0x39

def digit (n : Nat) : UInt8 := UInt8.ofNat (0x30 + n % 10)

def printNat (n : Nat) : Bytes :=
  if n < 10 then [digit n] else printNat (n / 10) ++ [digit n]

def printInt (n : Int) : Bytes :=
  if n < 0 then 0x2d :: printNat n.natAbs else printNat n.natAbs

def readNat (digits : Bytes) : Nat := digits.foldl (fun n b => 10 * n + (b.toNat - 0x30)) 0

/-- The digits at the front, as a number. -/
def parseNat (b : Bytes) : Option (Nat × Bytes) :=
  let digits := b.takeWhile isDigit
  if digits = [] then none else some (readNat digits, b.dropWhile isDigit)

def parseInt : Bytes → Option (Int × Bytes)
  | 0x2d :: rest => (parseNat rest).map fun x => (-(x.1 : Int), x.2)
  | b => (parseNat b).map fun x => ((x.1 : Int), x.2)

def parseNumber (b : Bytes) : Option (Value × Bytes) := do
  let (n, rest) ← parseInt b
  match rest with
  | 0x65 :: rest =>
    let (e, rest) ← parseInt rest
    return (.decimal n e, rest)
  | rest => return (.int n, rest)

/-! ### Strings -/

def hexDigit (n : UInt8) : UInt8 := if n < 10 then 0x30 + n else 0x57 + n

def readHex (b : UInt8) : Option UInt8 :=
  if isDigit b then some (b - 0x30)
  else if 0x61 ≤ b && b ≤ 0x66 then some (b - 0x57)
  else none

def escapeByte (b : UInt8) : Bytes :=
  if b = 0x22 then [0x5c, 0x22]
  else if b = 0x5c then [0x5c, 0x5c]
  else if b = 0x08 then [0x5c, 0x62]
  else if b = 0x09 then [0x5c, 0x74]
  else if b = 0x0a then [0x5c, 0x6e]
  else if b = 0x0c then [0x5c, 0x66]
  else if b = 0x0d then [0x5c, 0x72]
  else if b < 0x20 then [0x5c, 0x75, 0x30, 0x30, hexDigit (b / 16), hexDigit (b % 16)]
  else [b]

def printString (s : String) : Bytes := 0x22 :: (s.toByteArray.data.toList.flatMap escapeByte ++ [0x22])

/-- The byte a two-character escape stands for. -/
def readEscape (c : UInt8) : Option UInt8 :=
  if c = 0x22 then some 0x22
  else if c = 0x5c then some 0x5c
  else if c = 0x62 then some 0x08
  else if c = 0x74 then some 0x09
  else if c = 0x6e then some 0x0a
  else if c = 0x66 then some 0x0c
  else if c = 0x72 then some 0x0d
  else none

/-- One byte more in front. -/
def prepend (b : UInt8) (x : Bytes × Bytes) : Bytes × Bytes := (b :: x.1, x.2)

/-- The bytes up to the closing quote, escapes resolved. -/
def parseChars : Bytes → Option (Bytes × Bytes)
  | [] => none
  | b :: rest =>
    if b = 0x22 then some ([], rest)
    else if b = 0x5c then match rest with
      | [] => none
      | c :: rest =>
        if c = 0x75 then match rest with
          | 0x30 :: 0x30 :: hi :: lo :: rest => do
            let hi ← readHex hi
            let lo ← readHex lo
            return prepend (hi * 16 + lo) (← parseChars rest)
          | _ => none
        else do
          let b ← readEscape c
          return prepend b (← parseChars rest)
    else (parseChars rest).map (prepend b)

/-- A string, behind its opening quote. -/
def parseString (b : Bytes) : Option (String × Bytes) := do
  let (chars, rest) ← parseChars b
  return (← String.fromUTF8? ⟨chars.toArray⟩, rest)

/-! ### Values -/

mutual
def print : Value → Bytes
  | .null => [0x6e, 0x75, 0x6c, 0x6c]
  | .bool true => [0x74, 0x72, 0x75, 0x65]
  | .bool false => [0x66, 0x61, 0x6c, 0x73, 0x65]
  | .int n => printInt n
  | .decimal m e => printInt m ++ 0x65 :: printInt e
  | .string s => printString s
  | .array [] => [0x5b, 0x5d]
  | .array (v :: vs) => 0x5b :: print v ++ printElements vs
  | .object [] => [0x7b, 0x7d]
  | .object (f :: fs) => 0x7b :: printString f.1 ++ 0x3a :: print f.2 ++ printFields fs

def printElements : List Value → Bytes
  | [] => [0x5d]
  | v :: vs => 0x2c :: print v ++ printElements vs

def printFields : List (String × Value) → Bytes
  | [] => [0x7d]
  | f :: fs => 0x2c :: printString f.1 ++ 0x3a :: print f.2 ++ printFields fs
end

/-- `value`, if `word` comes next. -/
def expect {α : Type} (word : Bytes) (value : α) (b : Bytes) : Option (α × Bytes) :=
  (b.dropPrefix? word).map fun rest => (value, rest)

mutual
def parseValue : Nat → Bytes → Option (Value × Bytes)
  | n + 1, c :: rest =>
    if c = 0x6e then expect [0x75, 0x6c, 0x6c] .null rest
    else if c = 0x74 then expect [0x72, 0x75, 0x65] (.bool true) rest
    else if c = 0x66 then expect [0x61, 0x6c, 0x73, 0x65] (.bool false) rest
    else if c = 0x22 then (parseString rest).map fun x => (.string x.1, x.2)
    else if c = 0x5b then match parseValue n rest with
      | some (v, rest) => (parseElements n rest).map fun x => (.array (v :: x.1), x.2)
      | none => expect [0x5d] (.array []) rest
    else if c = 0x7b then match parseField n rest with
      | some (f, rest) => (parseFields n rest).map fun x => (.object (f :: x.1), x.2)
      | none => expect [0x7d] (.object []) rest
    else parseNumber (c :: rest)
  | _, _ => none

def parseElements : Nat → Bytes → Option (List Value × Bytes)
  | n + 1, c :: rest =>
    if c = 0x2c then do
      let (v, rest) ← parseValue n rest
      let (vs, rest) ← parseElements n rest
      return (v :: vs, rest)
    else expect [0x5d] [] (c :: rest)
  | _, _ => none

def parseField : Nat → Bytes → Option ((String × Value) × Bytes)
  | n + 1, c :: rest =>
    if c = 0x22 then do
      let (key, rest) ← parseString rest
      let (_, rest) ← expect [0x3a] () rest
      let (v, rest) ← parseValue n rest
      return ((key, v), rest)
    else none
  | _, _ => none

def parseFields : Nat → Bytes → Option (List (String × Value) × Bytes)
  | n + 1, c :: rest =>
    if c = 0x2c then do
      let (f, rest) ← parseField n rest
      let (fs, rest) ← parseFields n rest
      return (f :: fs, rest)
    else expect [0x7d] [] (c :: rest)
  | _, _ => none
end

def parse (b : Bytes) : Option Value :=
  match parseValue b.length b with
  | some (v, []) => some v
  | _ => none

/-! ### What is printed parses -/

/-- No digit comes next. -/
def NoDigit (rest : Bytes) : Prop := ∀ b ∈ rest.head?, isDigit b = false

/-- Nothing of a number comes next. -/
def Ends (rest : Bytes) : Prop := NoDigit rest ∧ ∀ b ∈ rest.head?, b ≠ 0x65

theorem toNat_digit (n : Nat) : (digit n).toNat = 0x30 + n % 10 := by
  rw [digit, UInt8.toNat_ofNat']
  omega

theorem isDigit_iff (b : UInt8) : isDigit b = true ↔ 0x30 ≤ b.toNat ∧ b.toNat ≤ 0x39 := by
  simp [isDigit, UInt8.le_iff_toNat_le]

theorem isDigit_digit (n : Nat) : isDigit (digit n) = true := by
  rw [isDigit_iff, toNat_digit]
  omega

theorem readNat_snoc (digits : Bytes) (n : Nat) :
    readNat (digits ++ [digit n]) = 10 * readNat digits + n % 10 := by
  simp [readNat, toNat_digit]

/-- A printed number is digits, at least one, and reads as that number. -/
theorem printNat_spec (n : Nat) :
    printNat n ≠ [] ∧ (∀ b ∈ printNat n, isDigit b = true) ∧ readNat (printNat n) = n := by
  induction n using Nat.strongRecOn with
  | ind n ih =>
    rw [printNat]
    split
    · next h =>
      refine ⟨by simp, by simp [isDigit_digit], ?_⟩
      have hread := readNat_snoc [] n
      rw [Nat.mod_eq_of_lt h] at hread
      simpa [readNat] using hread
    · next h =>
      obtain ⟨_, hall, hread⟩ := ih (n / 10) (by omega)
      refine ⟨by simp, fun b hb => ?_, ?_⟩
      · rcases List.mem_append.mp hb with hb | hb
        · exact hall b hb
        · rw [List.mem_singleton.mp hb]
          exact isDigit_digit n
      · rw [readNat_snoc, hread]
        omega

theorem parseNat_printNat (n : Nat) {rest : Bytes} (h : NoDigit rest) :
    parseNat (printNat n ++ rest) = some (n, rest) := by
  obtain ⟨hne, hall, hread⟩ := printNat_spec n
  have hstop : rest.takeWhile isDigit = [] ∧ rest.dropWhile isDigit = rest := by
    cases rest with
    | nil => exact ⟨rfl, rfl⟩
    | cons b rest =>
      have := h b rfl
      simp [this]
  rw [parseNat, List.takeWhile_append_of_pos hall, List.dropWhile_append_of_pos hall, hstop.1, hstop.2,
    List.append_nil, if_neg hne, hread]

theorem printNat_head (n : Nat) (rest : Bytes) :
    ∃ b tail, printNat n ++ rest = b :: tail ∧ isDigit b = true := by
  obtain ⟨hne, hall, _⟩ := printNat_spec n
  obtain ⟨b, tail, hb⟩ := List.exists_cons_of_ne_nil hne
  exact ⟨b, tail ++ rest, by rw [hb]; rfl, hall b (by rw [hb]; exact List.mem_cons_self ..)⟩

theorem parseInt_printInt (n : Int) {rest : Bytes} (h : NoDigit rest) :
    parseInt (printInt n ++ rest) = some (n, rest) := by
  unfold printInt
  split
  · next hneg =>
    simp only [List.cons_append, parseInt, parseNat_printNat _ h, Option.map_some, Option.some.injEq,
      Prod.mk.injEq, and_true]
    omega
  · next hpos =>
    obtain ⟨b, tail, hb, hdigit⟩ := printNat_head n.natAbs rest
    have hminus : b ≠ 0x2d := by
      rintro rfl
      exact absurd hdigit (by decide)
    rw [hb, parseInt, ← hb, parseNat_printNat _ h]
    · simp only [Option.map_some, Option.some.injEq, Prod.mk.injEq, and_true]
      omega
    · rintro rest' he
      exact hminus (List.cons.inj he).1

/-- A printed number starts with a digit or a minus sign. -/
theorem printInt_head (n : Int) (rest : Bytes) :
    ∃ b tail, printInt n ++ rest = b :: tail ∧ (isDigit b = true ∨ b = 0x2d) := by
  unfold printInt
  split
  · exact ⟨0x2d, _, rfl, .inr rfl⟩
  · obtain ⟨b, tail, hb, hdigit⟩ := printNat_head n.natAbs rest
    exact ⟨b, tail, hb, .inl hdigit⟩

theorem parseNumber_int (n : Int) {rest : Bytes} (h : Ends rest) :
    parseNumber (printInt n ++ rest) = some (.int n, rest) := by
  rw [parseNumber, parseInt_printInt n h.1]
  simp only [Option.bind_eq_bind, Option.bind_some]
  split
  · exact absurd rfl (h.2 0x65 rfl)
  · rfl

theorem parseNumber_decimal (m e : Int) {rest : Bytes} (h : Ends rest) :
    parseNumber (printInt m ++ 0x65 :: (printInt e ++ rest)) = some (.decimal m e, rest) := by
  have he : NoDigit (0x65 :: (printInt e ++ rest)) := fun b hb => by
    cases hb
    decide
  rw [parseNumber, parseInt_printInt m he]
  simp only [Option.bind_eq_bind, Option.bind_some, parseInt_printInt e h.1]
  rfl

theorem readHex_hexDigit (n : UInt8) (h : n < 16) : readHex (hexDigit n) = some n := by
  have hall : ∀ n : Fin 16, readHex (hexDigit (UInt8.ofNat n)) = some (UInt8.ofNat n) := by decide
  have := hall ⟨n.toNat, by simpa [UInt8.lt_iff_toNat_lt] using h⟩
  simpa using this

/-- An escaped byte is read as that byte, and reading goes on behind it. -/
theorem parseChars_escapeByte (b : UInt8) (rest : Bytes) :
    parseChars (escapeByte b ++ rest) = (parseChars rest).map (prepend b) := by
  have htwo (c : UInt8) (hc : c ≠ 0x75) (hb : readEscape c = some b) :
      parseChars ([0x5c, c] ++ rest) = (parseChars rest).map (prepend b) := by
    show parseChars (0x5c :: c :: rest) = _
    rw [parseChars.eq_def]
    simp only [if_neg (show (0x5c : UInt8) ≠ 0x22 by decide), if_true, if_neg hc, hb]
    cases parseChars rest <;> rfl
  unfold escapeByte
  split_ifs with hquote hslash hb ht hn hf hr hcontrol
  iterate 7
    subst b
    exact htwo _ (by decide) (by decide)
  · have hhi : b / 16 < 16 := by
      simp only [UInt8.lt_iff_toNat_lt, UInt8.toNat_div] at hcontrol ⊢
      simp only [UInt8.reduceToNat] at hcontrol ⊢
      omega
    have hlo : b % 16 < 16 := by
      simp only [UInt8.lt_iff_toNat_lt, UInt8.toNat_mod]
      exact Nat.mod_lt _ (by decide)
    have hsum : b / 16 * 16 + b % 16 = b := by
      rw [← UInt8.toNat_inj]
      simp only [UInt8.toNat_add, UInt8.toNat_mul, UInt8.toNat_div, UInt8.toNat_mod, UInt8.reduceToNat]
      have := b.toNat_lt
      omega
    show parseChars (0x5c :: 0x75 :: 0x30 :: 0x30 :: hexDigit (b / 16) :: hexDigit (b % 16) :: rest) = _
    rw [parseChars.eq_def]
    simp only [if_neg (show (0x5c : UInt8) ≠ 0x22 by decide), if_true,
      readHex_hexDigit _ hhi, readHex_hexDigit _ hlo, Option.bind_eq_bind, Option.bind_some, hsum]
    cases parseChars rest <;> rfl
  · show parseChars (b :: rest) = _
    rw [parseChars.eq_def]
    simp only [if_neg hquote, if_neg hslash]

theorem parseChars_escape (bytes rest : Bytes) :
    parseChars (bytes.flatMap escapeByte ++ 0x22 :: rest) = some (bytes, rest) := by
  induction bytes with
  | nil => simp [parseChars.eq_def]
  | cons b bytes ih =>
    rw [List.flatMap_cons, List.append_assoc, parseChars_escapeByte, ih]
    rfl

theorem parseString_printString (s : String) (rest : Bytes) :
    ∃ tail, printString s ++ rest = 0x22 :: tail ∧ parseString tail = some (s, rest) := by
  refine ⟨s.toByteArray.data.toList.flatMap escapeByte ++ 0x22 :: rest, by simp [printString], ?_⟩
  have hvalid : s.toByteArray.IsValidUTF8 := s.isValidUTF8
  simp [parseString, parseChars_escape, String.fromUTF8?, hvalid, String.fromUTF8]

theorem ends_cons {b : UInt8} (rest : Bytes) (h : isDigit b = false) (he : b ≠ 0x65) : Ends (b :: rest) :=
  ⟨fun _ hb => by cases hb; exact h, fun _ hb => by cases hb; exact he⟩

theorem printElements_ends (vs : List Value) (rest : Bytes) : Ends (printElements vs ++ rest) := by
  cases vs <;> exact ends_cons _ (by decide) (by decide)

theorem printFields_ends (fs : List (String × Value)) (rest : Bytes) : Ends (printFields fs ++ rest) := by
  cases fs <;> exact ends_cons _ (by decide) (by decide)

/-- A number is read as one: none of the other values starts with a digit or a minus sign. -/
theorem parseValue_number {n : Nat} {b : Bytes}
    (h : ∃ c tail, b = c :: tail ∧ (isDigit c = true ∨ c = 0x2d)) :
    parseValue (n + 1) b = parseNumber b := by
  obtain ⟨c, tail, rfl, hc⟩ := h
  have hne (d : UInt8) (hd : isDigit d = false ∧ d ≠ 0x2d) : c ≠ d := by
    rintro rfl
    rcases hc with hc | hc
    · rw [hd.1] at hc
      cases hc
    · exact hd.2 hc
  simp only [parseValue, if_neg (hne 0x6e (by decide)), if_neg (hne 0x74 (by decide)),
    if_neg (hne 0x66 (by decide)), if_neg (hne 0x22 (by decide)), if_neg (hne 0x5b (by decide)),
    if_neg (hne 0x7b (by decide))]

theorem print_ne (v : Value) : print v ≠ [] := by
  have hint (n : Int) : printInt n ≠ [] := by
    obtain ⟨b, tail, hb, _⟩ := printInt_head n []
    rw [List.append_nil] at hb
    simp [hb]
  match v with
  | .null | .bool true | .bool false | .string _ | .array [] | .array (_ :: _) | .object []
  | .object (_ :: _) => simp [print, printString]
  | .int n => simpa [print] using hint n
  | .decimal m e => simp [print, hint]

/-- Each of the four parsers reads what its printer wrote and stops there, on any
bound that is at least the length of the text. -/
structure Reads (n : Nat) : Prop where
  value : ∀ (v : Value) (rest : Bytes), (print v).length ≤ n → Ends rest →
    parseValue n (print v ++ rest) = some (v, rest)
  elements : ∀ (vs : List Value) (rest : Bytes), (printElements vs).length ≤ n →
    parseElements n (printElements vs ++ rest) = some (vs, rest)
  field : ∀ (f : String × Value) (rest : Bytes),
    (printString f.1 ++ 0x3a :: print f.2).length ≤ n → Ends rest →
    parseField n (printString f.1 ++ 0x3a :: (print f.2 ++ rest)) = some (f, rest)
  fields : ∀ (fs : List (String × Value)) (rest : Bytes), (printFields fs).length ≤ n →
    parseFields n (printFields fs ++ rest) = some (fs, rest)

theorem parseField_bracket (n : Nat) (rest : Bytes) : parseField n (0x7d :: rest) = none := by
  cases n <;> rfl

theorem parseValue_bracket (n : Nat) (rest : Bytes) : parseValue n (0x5d :: rest) = none := by
  cases n <;> rfl

theorem reads_value {n : Nat} (ih : Reads n) (v : Value) (rest : Bytes)
    (hn : (print v).length ≤ n + 1) (h : Ends rest) :
    parseValue (n + 1) (print v ++ rest) = some (v, rest) := by
  match v with
  | .null => simp [print, parseValue, expect, List.dropPrefix?]
  | .bool true => simp [print, parseValue, expect, List.dropPrefix?]
  | .bool false => simp [print, parseValue, expect, List.dropPrefix?]
  | .int i =>
    rw [print, parseValue_number (printInt_head i rest), parseNumber_int i h]
  | .decimal m e =>
    simp only [print, List.append_assoc, List.cons_append]
    rw [parseValue_number (printInt_head m _), parseNumber_decimal m e h]
  | .string s =>
    obtain ⟨tail, htail, hs⟩ := parseString_printString s rest
    rw [print, htail]
    simp [parseValue, hs]
  | .array [] =>
    show parseValue (n + 1) (0x5b :: 0x5d :: rest) = _
    simp [parseValue, parseValue_bracket, expect, List.dropPrefix?]
  | .array (v :: vs) =>
    simp only [print, List.cons_append, List.length_cons, List.length_append, Nat.add_le_add_iff_right]
      at hn
    simp only [print, List.cons_append, List.append_assoc]
    have hv := ih.value v (printElements vs ++ rest) (by omega) (printElements_ends vs rest)
    simp [parseValue, hv, ih.elements vs rest (by omega)]
  | .object [] =>
    show parseValue (n + 1) (0x7b :: 0x7d :: rest) = _
    simp [parseValue, parseField_bracket, expect, List.dropPrefix?]
  | .object (f :: fs) =>
    simp only [print, List.cons_append, List.length_cons, List.length_append, Nat.add_le_add_iff_right]
      at hn
    simp only [print, List.cons_append, List.append_assoc]
    have hf := ih.field f (printFields fs ++ rest)
      (by simp only [List.length_append, List.length_cons]; omega) (printFields_ends fs rest)
    simp [parseValue, hf, ih.fields fs rest (by omega)]

theorem reads (n : Nat) : Reads n := by
  induction n with
  | zero =>
    refine ⟨fun v _ hn => ?_, fun vs _ hn => ?_, fun f _ hn => by simp at hn, fun fs _ hn => ?_⟩
    · exact absurd (List.length_eq_zero_iff.mp (Nat.le_zero.mp hn)) (print_ne v)
    · cases vs <;> simp [printElements] at hn
    · cases fs <;> simp [printFields] at hn
  | succ n ih =>
    refine ⟨fun v rest hn h => reads_value ih v rest hn h, fun vs rest hn => ?_, fun f rest hn h => ?_,
      fun fs rest hn => ?_⟩
    · cases vs with
      | nil => simp [printElements, parseElements, expect, List.dropPrefix?]
      | cons v vs =>
        simp only [printElements, List.cons_append, List.length_cons, List.length_append,
          Nat.add_le_add_iff_right] at hn
        simp only [printElements, List.cons_append, List.append_assoc]
        have hv := ih.value v (printElements vs ++ rest) (by omega) (printElements_ends vs rest)
        simp [parseElements, hv, ih.elements vs rest (by omega)]
    · obtain ⟨tail, htail, hs⟩ := parseString_printString f.1 (0x3a :: (print f.2 ++ rest))
      simp only [List.length_append, List.length_cons] at hn
      rw [htail]
      simp [parseField, hs, expect, List.dropPrefix?, ih.value f.2 rest (by omega) h]
    · cases fs with
      | nil => simp [printFields, parseFields, expect, List.dropPrefix?]
      | cons f fs =>
        simp only [printFields, List.cons_append, List.length_cons, List.length_append,
          Nat.add_le_add_iff_right] at hn
        simp only [printFields, List.cons_append, List.append_assoc]
        have hf := ih.field f (printFields fs ++ rest)
          (by simp only [List.length_append, List.length_cons]; omega) (printFields_ends fs rest)
        simp [parseFields, hf, ih.fields fs rest (by omega)]

/-- **What is printed parses to what was printed.** -/
theorem parse_print (v : Value) : parse (print v) = some v := by
  have := (reads (print v).length).value v [] (Nat.le_refl _) ⟨nofun, nofun⟩
  rw [List.append_nil] at this
  rw [parse, this]

/-- Compact JSON text. The text of an error depends on what went wrong; no codec law speaks of it. -/
def compact : Codec where
  print := print
  parse := parse
  message _ := "invalid JSON"
  parse_print := parse_print

end Json.Text
