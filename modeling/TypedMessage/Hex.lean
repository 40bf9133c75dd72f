import TypedMessage.Bytes
import TypedMessage.Text.Quoted

/- Byte strings written as `0x` and two hexadecimal digits a byte. Writing uses
   small letters; reading takes either case, and insists on the mark `0x`. -/
namespace TypedMessage

/-- Why a text is not a hexadecimal byte string. -/
inductive HexFault
  | unmarked (text : String)
  | oddLength
  | badDigit (byte : UInt8) (position : Nat)
  deriving DecidableEq, Repr

namespace HexFault

def message : HexFault → String
  | unmarked text => "missing 0x prefix: " ++ text
  | oddLength => "invalid hex: Odd number of digits"
  | badDigit byte position =>
    "invalid hex: Invalid character " ++ Text.quotedSingle (Char.ofNat byte.toNat) ++
      " at position " ++ toString position

end HexFault

namespace Hex

/-- The value of a hexadecimal digit of either case. -/
def digitValue? (c : Char) : Option Nat :=
  if '0' ≤ c ∧ c ≤ '9' then some (c.toNat - 48)
  else if 'a' ≤ c ∧ c ≤ 'f' then some (c.toNat - 87)
  else if 'A' ≤ c ∧ c ≤ 'F' then some (c.toNat - 55)
  else none

/-- The digit of a value below sixteen. -/
def digit (n : Nat) : Char := if n < 10 then Char.ofNat (48 + n) else Char.ofNat (87 + n)

theorem digitValue?_digit : ∀ n < 16, digitValue? (digit n) = some n := by decide

/-- The two digits of a byte. -/
def byteDigits (b : UInt8) : List Char := [digit (b.toNat / 16), digit (b.toNat % 16)]

/-- The digits of a byte string, without the mark. -/
def digits (bs : Bytes) : String := String.ofList (bs.flatMap byteDigits)

/-- A byte string with the mark `0x`. -/
def encode (bs : Bytes) : String := "0x" ++ digits bs

/-- The number a list of digit values spells. -/
def value (vs : List Nat) : Nat := vs.foldl (fun n v => n * 16 + v) 0

/-- Two digit values to a byte. -/
def packPairs : List Nat → Bytes
  | hi :: lo :: vs => UInt8.ofNat (hi * 16 + lo) :: packPairs vs
  | _ => []

/-- The bytes of the digits that follow the mark. An odd number of bytes is
    reported before a character that is no digit. -/
def decodeDigits (cs : List Char) : Except HexFault Bytes :=
  if (utf8 (String.ofList cs)).length % 2 = 1 then .error .oddLength
  else match cs.dropWhile fun c => (digitValue? c).isSome with
    | [] => .ok (packPairs (cs.filterMap digitValue?))
    | c :: rest =>
      .error (.badDigit ((String.utf8EncodeChar c).headD 0) (cs.length - (rest.length + 1)))

/-- Reads a byte string. -/
def decode (s : String) : Except HexFault Bytes :=
  match s.toList with
  | '0' :: 'x' :: cs => decodeDigits cs
  | _ => .error (.unmarked s)

end Hex
end TypedMessage
