/-!
# Text in bytes

Files hold text as UTF-8. A text is read strictly (`decode?`), where ill-formed bytes make the
whole unreadable, or leniently (`decodeLenient`), where the longest part of a character that
leads nowhere reads as one replacement character. Either way every line ends with a line feed:
a carriage return, alone or before a line feed, reads as one (`unifyNewlines`).
-/

namespace UsageCensus.Text

/-- A character of which some bytes have been read: the bits so far, how many bytes are still
wanted, and the bounds of the next one. -/
structure PartialChar where
  bits : Nat
  wanted : Nat
  low : Nat
  high : Nat
  deriving Repr, DecidableEq

/-- What a byte begins: a whole character, a part of one, or nothing. -/
inductive ByteStart where
  | whole (c : Char)
  | part (begun : PartialChar)
  | ill
  deriving Repr, DecidableEq

/-- Bounds of the second byte keep out overlong forms, surrogates and numbers above the last
code point. -/
def ByteStart.ofByte (b : Nat) : ByteStart :=
  if b < 128 then .whole (Char.ofNat b)
  else if b < 194 then .ill
  else if b < 224 then .part ⟨b - 192, 1, 128, 191⟩
  else if b < 240 then
    .part ⟨b - 224, 2, if b = 224 then 160 else 128, if b = 237 then 159 else 191⟩
  else if b < 245 then
    .part ⟨b - 240, 3, if b = 240 then 144 else 128, if b = 244 then 143 else 191⟩
  else .ill

/-- What a character is with one byte more, if the byte belongs to it: whole, or still a part. -/
def PartialChar.next? (begun : PartialChar) (b : Nat) : Option (Char ⊕ PartialChar) :=
  if begun.low ≤ b ∧ b ≤ begun.high then
    let bits := begun.bits * 64 + (b - 128)
    if begun.wanted = 1 then some (.inl (Char.ofNat bits))
    else some (.inr ⟨bits, begun.wanted - 1, 128, 191⟩)
  else none

/-- Stands for bytes that are no character. -/
def replacement : Char := '\uFFFD'

/-- Reads bytes leniently, with a character begun before them. -/
def decodeFrom : Option PartialChar → List UInt8 → List Char
  | none, [] => []
  | some _, [] => [replacement]
  | begun, byte :: bytes =>
    let b := byte.toNat
    let start (_ : Unit) : List Char :=
      match ByteStart.ofByte b with
      | .whole c => c :: decodeFrom none bytes
      | .part p => decodeFrom (some p) bytes
      | .ill => replacement :: decodeFrom none bytes
    match begun with
    | none => start ()
    | some p =>
      match p.next? b with
      | some (.inl c) => c :: decodeFrom none bytes
      | some (.inr p) => decodeFrom (some p) bytes
      | none => replacement :: start ()

/-- Every line end as a line feed. -/
def unifyNewlines : List Char → List Char
  | '\r' :: '\n' :: text => '\n' :: unifyNewlines text
  | '\r' :: text => '\n' :: unifyNewlines text
  | c :: text => c :: unifyNewlines text
  | [] => []

/-- The text of well-formed bytes. -/
def decode? (bytes : ByteArray) : Option String :=
  (String.fromUTF8? bytes).map fun text => String.ofList (unifyNewlines text.toList)

/-- The text of any bytes. -/
def decodeLenient (bytes : ByteArray) : String :=
  String.ofList (unifyNewlines (decodeFrom none bytes.toList))

end UsageCensus.Text
