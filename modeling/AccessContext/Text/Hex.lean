import AccessContext.Bytes
import AccessContext.Text.Quoted

/-!
# Hexadecimal text

Byte strings written with two lowercase digits a byte, and read with digits of either case.
Reading what was written gives the bytes again.
-/

namespace AccessContext.Hex

/-- The digit for a number below 16. -/
def digit (n : Nat) : Char :=
  if n < 10 then Char.ofNat (48 + n) else Char.ofNat (87 + n)

/-- The value of a digit of either case, given by its code. -/
def value? (code : Nat) : Option Nat :=
  if 48 ≤ code ∧ code ≤ 57 then some (code - 48)
  else if 97 ≤ code ∧ code ≤ 102 then some (code - 87)
  else if 65 ≤ code ∧ code ≤ 70 then some (code - 55)
  else none

/-- Two digits a byte. -/
def encodeChars (bs : List UInt8) : List Char :=
  bs.flatMap fun b => [digit (b.toNat / 16), digit (b.toNat % 16)]

def encode (bs : List UInt8) : String :=
  String.ofList (encodeChars bs)

/-- Why a text is not the hexadecimal form of a byte string. -/
inductive Fault
  | oddLength
  | badDigit (byte : UInt8) (position : Nat)
deriving DecidableEq

/-- A byte that is no digit is shown as the character with its code. -/
def Fault.message : Fault → String
  | .oddLength => "Odd number of digits"
  | .badDigit byte position =>
    "Invalid character " ++ Text.quotedChar (Char.ofNat byte.toNat)
      ++ " at position " ++ toString position

/-- Reads the digits in pairs, the first of them standing at `position`. -/
def decodePairs : Nat → List UInt8 → Except Fault (List UInt8)
  | position, high :: low :: rest =>
    match value? high.toNat, value? low.toNat with
    | none, _ => .error (.badDigit high position)
    | some _, none => .error (.badDigit low (position + 1))
    | some h, some l => (decodePairs (position + 2) rest).map (UInt8.ofNat (16 * h + l) :: ·)
  | _, _ => .ok []

/-- The bytes that a text stands for; positions count its bytes. -/
def decode (s : String) : Except Fault (List UInt8) :=
  if (utf8 s).length % 2 = 1 then .error .oddLength else decodePairs 0 (utf8 s)

end AccessContext.Hex
