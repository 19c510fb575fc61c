import AccessContext.Category
import AccessContext.Text.Blank
import AccessContext.Text.Decimal
import AccessContext.Text.Hex

/-!
# Required categories

A policy says in one byte which categories must pass, a bit for each. The byte has a text: the
names of the categories that are set, then the bits that belong to none as one hexadecimal
number. Such bits are kept, and are refused elsewhere.
-/

namespace AccessContext

/-- A set of required categories, in the low four bits. -/
structure Requirements where
  bits : UInt8
deriving DecidableEq

/-- Why a text does not name a set of requirements. -/
inductive FlagFault
  | emptyFlag
  | badHex
  | unknownName
deriving DecidableEq

def FlagFault.message : FlagFault → String
  | emptyFlag => "encountered empty flag"
  | badHex => "invalid hex flag"
  | unknownName => "unrecognized named flag"

namespace Category

/-- The bit of a category. -/
def flag : Category → UInt8
  | device => 1
  | time => 2
  | location => 4
  | pattern => 8

/-- The name of a category where flags are listed. -/
def flagName : Category → List Char
  | device => "DEVICE".toList
  | time => "TIME".toList
  | location => "LOCATION".toList
  | pattern => "PATTERN".toList

end Category

namespace Requirements

/-- No category. -/
def empty : Requirements := ⟨0⟩

/-- Every category. -/
def all : Requirements := ⟨15⟩

def contains (r : Requirements) (c : Category) : Bool :=
  r.bits &&& c.flag == c.flag

def union (r s : Requirements) : Requirements :=
  ⟨r.bits ||| s.bits⟩

def ofCategories (cs : List Category) : Requirements :=
  cs.foldl (fun r c => r.union ⟨c.flag⟩) empty

/-- Whether every bit belongs to a category. -/
def isKnown (r : Requirements) : Bool :=
  r.bits &&& 15 == r.bits

/-! ### Text -/

/-- The names that are set, then the remaining bits. -/
def flagTexts (r : Requirements) : List (List Char) :=
  (Category.all.filter r.contains).map Category.flagName
    ++ if r.bits &&& 0xf0 = 0 then [] else ['0' :: 'x' :: Text.hexDigits (r.bits &&& 0xf0).toNat]

/-- Flags with bars between them; no flag is the empty text. -/
def chars (r : Requirements) : List Char :=
  [' ', '|', ' '].intercalate r.flagTexts

def text (r : Requirements) : String :=
  String.ofList r.chars

/-- The parts of a text between its bars. -/
def pieces : List Char → List (List Char)
  | [] => [[]]
  | c :: cs =>
    match pieces cs with
    | [] => [[c]]
    | p :: ps => if c = '|' then [] :: p :: ps else (c :: p) :: ps

/-- A byte in hexadecimal digits of either case, with any number of zeros in front. -/
def ofHexDigits? : List Char → Option UInt8
  | [] => none
  | d :: ds =>
    (d :: ds).foldl (fun n c =>
      match n, Hex.value? c.toNat with
      | some n, some v => if 16 * n + v < 256 then some (16 * n + v) else none
      | _, _ => none) (some 0)
    |>.map UInt8.ofNat

/-- The byte after `0x`; a plus sign may stand in front of the digits. -/
def ofHex? : List Char → Option UInt8
  | '+' :: ds => ofHexDigits? ds
  | ds => ofHexDigits? ds

/-- The bits that one flag stands for. -/
def ofFlag (flag : List Char) : Except FlagFault UInt8 :=
  match flag with
  | [] => .error .emptyFlag
  | '0' :: 'x' :: digits =>
    match ofHex? digits with
    | some bits => .ok bits
    | none => .error .badHex
  | name =>
    match Category.all.find? (·.flagName = name) with
    | some c => .ok c.flag
    | none => .error .unknownName

/-- The union of the flags, which are trimmed and read from the left. -/
def ofFlags : List (List Char) → Requirements → Except FlagFault Requirements
  | [], r => .ok r
  | flag :: rest, r =>
    match ofFlag (Text.trim flag) with
    | .error e => .error e
    | .ok bits => ofFlags rest (r.union ⟨bits⟩)

/-- The requirements a text names; a blank text names none. -/
def ofText (s : String) : Except FlagFault Requirements :=
  if (Text.trim s.toList).isEmpty then .ok empty else ofFlags (pieces s.toList) empty

/-- The bits in base two, with at least four digits. -/
def binaryText (n : Nat) : String :=
  let digits := Nat.toDigits 2 n
  "0b" ++ String.ofList (List.replicate (4 - digits.length) '0' ++ digits)

end Requirements

end AccessContext
