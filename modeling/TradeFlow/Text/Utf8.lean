import TradeFlow.Text.Literal

/-!
Characters from bytes: UTF-8, and the base 64 notation for bytes.

Decoding never fails as a whole: a byte that belongs to no character is kept as a stray one. Base 64
texts may be broken into lines, and are padded to full groups.
-/

namespace TradeFlow

namespace Utf8

/-- Whether a byte continues a character. -/
def isTrail (b : Nat) : Bool := 0x80 ≤ b && b < 0xc0

/-- The first character of some bytes and how many of them it takes. -/
def char? : List Nat → Option (Char × Nat)
  | [] => none
  | a :: rest =>
    if a < 0x80 then some (Char.ofNat a, 1)
    else
      let tail := rest.takeWhile isTrail
      let payload := fun (lead width : Nat) =>
        (tail.take (width - 1)).foldl (fun n b => n * 0x40 + (b - 0x80)) (a - lead)
      let checked := fun (lead width least : Nat) =>
        let n := payload lead width
        if width - 1 ≤ tail.length && least ≤ n && n.isValidChar then some (Char.ofNat n, width)
        else none
      if a < 0xc0 then none
      else if a < 0xe0 then checked 0xc0 2 0x80
      else if a < 0xf0 then checked 0xe0 3 0x800
      else if a < 0xf8 then checked 0xf0 4 0x10000
      else none

/-- The characters of some bytes; the first argument says how many bytes were already used. -/
def decodeFrom : Nat → List Nat → List Char
  | _, [] => []
  | used + 1, _ :: rest => decodeFrom used rest
  | 0, a :: rest =>
    match char? (a :: rest) with
    | some (c, width) => Stray.keep c ++ decodeFrom (width - 1) rest
    | none => Stray.ofByte a :: decodeFrom 0 rest

/-- The characters of some bytes. -/
def decode (bytes : List Nat) : List Char := decodeFrom 0 bytes

end Utf8

namespace Base64

/-- The value of a character of the alphabet. -/
def value? (c : Char) : Option Nat :=
  if 'A' ≤ c ∧ c ≤ 'Z' then some (c.toNat - 0x41)
  else if 'a' ≤ c ∧ c ≤ 'z' then some (c.toNat - 0x61 + 26)
  else if '0' ≤ c ∧ c ≤ '9' then some (c.toNat - 0x30 + 52)
  else if c = '+' then some 62
  else if c = '/' then some 63
  else none

/-- The bytes of full groups of four characters; the last group may be padded. -/
def groups? : List Char → Option (List Nat)
  | [] => some []
  | [a, b, '=', '='] => do
    let n := (← value? a) * 64 + (← value? b)
    return [n / 16]
  | [a, b, c, '='] => do
    let n := ((← value? a) * 64 + (← value? b)) * 64 + (← value? c)
    return [n / 1024, n / 4 % 256]
  | a :: b :: c :: d :: rest => do
    let n := (((← value? a) * 64 + (← value? b)) * 64 + (← value? c)) * 64 + (← value? d)
    let bytes ← groups? rest
    return n / 65536 :: n / 256 % 256 :: n % 256 :: bytes
  | _ => none

/-- The bytes of a text. -/
def decode? (text : List Char) : Option (List Nat) :=
  groups? (text.filter fun c => c != '\n' && c != '\r')

/-- The character for a value below 64. -/
def char (n : Nat) : Char :=
  if n < 26 then Char.ofNat (0x41 + n)
  else if n < 52 then Char.ofNat (0x61 + (n - 26))
  else if n < 62 then Char.ofNat (0x30 + (n - 52))
  else if n = 62 then '+'
  else '/'

/-- The text of some bytes. -/
def encode : List Nat → List Char
  | [] => []
  | [a] => [char (a / 4), char (a % 4 * 16), '=', '=']
  | [a, b] => [char (a / 4), char (a % 4 * 16 + b / 16), char (b % 16 * 4), '=']
  | a :: b :: c :: rest =>
    char (a / 4) :: char (a % 4 * 16 + b / 16) :: char (b % 16 * 4 + c / 64) :: char (c % 64)
      :: encode rest

end Base64

end TradeFlow
