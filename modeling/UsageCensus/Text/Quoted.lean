import UsageCensus.Text.Class
import UsageCensus.Text.Surrogates

/-!
# Quoted texts

A text in quotes for a reader: single quotes, or double ones if only single ones occur in it.
The quote, the backslash and what cannot be printed are escaped, a surrogate among it. Bytes are
quoted like the text of their characters, with a `b` before it, and no more than ASCII is printed.
-/

namespace UsageCensus.Text

/-- `n` in hexadecimal with at least `width` digits. -/
def hexadecimal (width n : Nat) : List Char :=
  let digits := Nat.toDigits 16 n
  List.replicate (width - digits.length) '0' ++ digits

/-- A character between two quotes. -/
def quotedChar (quote c : Char) : List Char :=
  if c = quote ∨ c = '\\' then ['\\', c]
  else if c = '\t' then ['\\', 't']
  else if c = '\n' then ['\\', 'n']
  else if c = '\r' then ['\\', 'r']
  else if isPrintable c then [c]
  else if c.toNat < 256 then '\\' :: 'x' :: hexadecimal 2 c.toNat
  else if c.toNat < 65536 then '\\' :: 'u' :: hexadecimal 4 c.toNat
  else '\\' :: 'U' :: hexadecimal 8 c.toNat

/-- The quote that is put around a text. -/
def quoteFor (text : List Char) : Char :=
  if text.contains '\'' && !text.contains '"' then '"' else '\''

/-- A text that may have surrogates in it. -/
def quotedWith (surrogates : Surrogates) (text : List Char) : List Char :=
  let quote := quoteFor text
  let write (c : Char) : List Char := match surrogates.unit? c with
    | some unit => '\\' :: 'u' :: hexadecimal 4 unit
    | none => quotedChar quote c
  quote :: text.flatMap write ++ [quote]

def quoted (text : List Char) : List Char := quotedWith .none text

/-- A byte between two quotes. -/
def quotedByte (quote : Char) (byte : UInt8) : List Char :=
  if byte.toNat < 128 then quotedChar quote (Char.ofNat byte.toNat)
  else '\\' :: 'x' :: hexadecimal 2 byte.toNat

def quotedBytes (content : List UInt8) : List Char :=
  let quote := quoteFor (content.map fun byte => Char.ofNat byte.toNat)
  'b' :: quote :: content.flatMap (quotedByte quote) ++ [quote]

end UsageCensus.Text
