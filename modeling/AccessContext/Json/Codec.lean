import AccessContext.Json.Skip

/-!
# Forms of values in documents

A codec says how a value is written in the compact form and how it is read. Records are built
from their fields: they are written as objects in the order of declaration, and read from an
object in any order or from an array in that order.
-/

namespace AccessContext.Json

/-- How values of a type are read and written. -/
structure Codec (α : Type) where
  read : Reader α
  write : α → List Char

/-- Stops because of a value that does not fit. -/
def mismatch {α : Type} (cause : Mismatch) : Reader α :=
  throw (.mismatch cause)

namespace Codec

/-- The value a whole text stands for; only blanks may follow it. -/
def decode {α : Type} (c : Codec α) (s : String) : Except Fault α :=
  match c.read s.toList with
  | .error e => .error e
  | .ok (a, rest) => if (rest.dropWhile isBlank).isEmpty then .ok a else .error .malformed

/-- The compact text of a value. -/
def encode {α : Type} (c : Codec α) (a : α) : String :=
  String.ofList (c.write a)

/-- The same text for another type; reading may refuse a value and say why. -/
def refine {α β : Type} (c : Codec α) (f : α → Except String β) (g : β → α) : Codec β where
  read := do
    match f (← c.read) with
    | .ok b => return b
    | .error reason => mismatch (.refused reason)
  write b := c.write (g b)

/-- The same text for another type. -/
def map {α β : Type} (c : Codec α) (f : α → β) (g : β → α) : Codec β where
  read := do return f (← c.read)
  write b := c.write (g b)

/-- An integer between two bounds. -/
def integer (expected : String) (low high : Int) : Codec Int where
  read := do
    match ← scalar with
    | .integer n =>
      if low ≤ n ∧ n ≤ high then return n else mismatch (.wrongValue n expected)
    | found => mismatch (.wrongType found expected)
  write := Decimal.ofInt

def u8 : Codec UInt8 :=
  (integer "u8" 0 255).map (fun n => UInt8.ofNat n.toNat) fun n => n.toNat

def u32 : Codec UInt32 :=
  (integer "u32" 0 4294967295).map (fun n => UInt32.ofNat n.toNat) fun n => n.toNat

/-- An unsigned word of 64 bits under the name that a refusal gives it. -/
def word64 (expected : String) : Codec UInt64 :=
  (integer expected 0 18446744073709551615).map (fun n => UInt64.ofNat n.toNat) fun n => n.toNat

def u64 : Codec UInt64 :=
  word64 "u64"

def i32 : Codec Int32 :=
  (integer "i32" (-2147483648) 2147483647).map Int32.ofInt Int32.toInt

def i64 : Codec Int64 :=
  (integer "i64" (-9223372036854775808) 9223372036854775807).map Int64.ofInt Int64.toInt

def bool : Codec Bool where
  read := do
    match ← scalar with
    | .boolean b => return b
    | found => mismatch (.wrongType found "a boolean")
  write b := if b then ['t', 'r', 'u', 'e'] else ['f', 'a', 'l', 's', 'e']

/-- How a character is written inside a string. -/
def writeChar (c : Char) : List Char :=
  if c = '"' then ['\\', '"']
  else if c = '\\' then ['\\', '\\']
  else if c = '\x08' then ['\\', 'b']
  else if c = '\x0c' then ['\\', 'f']
  else if c = '\n' then ['\\', 'n']
  else if c = '\r' then ['\\', 'r']
  else if c = '\t' then ['\\', 't']
  else if c.toNat < 0x20 then
    ['\\', 'u', '0', '0', Hex.digit (c.toNat / 16), Hex.digit (c.toNat % 16)]
  else [c]

/-- A string between its quotes. -/
def writeString (cs : List Char) : List Char :=
  '"' :: cs.flatMap writeChar ++ ['"']

/-- A string under the description that a refusal gives it. -/
def textAs (expected : String) : Codec String where
  read := do
    match ← scalar with
    | .text cs => return String.ofList cs
    | found => mismatch (.wrongType found expected)
  write s := writeString s.toList

def text : Codec String :=
  textAs "a string"

/-- A value or `null`. -/
def nullable {α : Type} (c : Codec α) : Codec (Option α) where
  read := do
    if (← look) = some 'n' then do
      word ['n', 'u', 'l', 'l']
      return none
    else return some (← c.read)
  write
    | none => ['n', 'u', 'l', 'l']
    | some a => c.write a

end Codec

/-! ### Arrays -/

/-- Whether an array holds another element; a comma before it is read, the closing bracket is
not. -/
def nextElement (first : Bool) : Reader Bool := do
  match ← look with
  | none => throw .truncated
  | some c =>
    if c = ']' then return false
    else if first then return true
    else if c = ',' then do
      advance
      match ← look with
      | none => throw .truncated
      | some d => if d = ']' then throw .malformed else return true
    else throw .malformed

/-- Closes an array that should hold no more elements. -/
def closeArray : Reader Unit := do
  match ← look with
  | none => throw .truncated
  | some c => if c = ']' then advance else throw .malformed

/-- Reads elements up to the closing bracket; `done` holds those read, last first. Every element
uses up a character, which bounds the number of steps. -/
def elementsFrom {α : Type} (item : Reader α) : Nat → Bool → List α → Reader (List α)
  | 0, _, _, _ => .error .truncated
  | fuel + 1, first, done, s =>
    match nextElement first s with
    | .error e => .error e
    | .ok (false, rest) => .ok (done.reverse, rest)
    | .ok (true, rest) =>
      match item rest with
      | .error e => .error e
      | .ok (a, rest) => elementsFrom item fuel false (a :: done) rest

/-- Reads exactly `count` elements, of which `index` have been read before. -/
def exactlyFrom {α : Type} (item : Reader α) (expected : String) :
    Nat → Nat → Bool → Reader (List α)
  | 0, _, _ => return []
  | count + 1, index, first => do
    if ← nextElement first then do
      let a ← item
      let rest ← exactlyFrom item expected count (index + 1) false
      return a :: rest
    else mismatch (.wrongLength index expected)

/-- Opens an array, or refuses what stands there. -/
def openArray (expected : String) : Reader Unit := do
  if (← valueStart) = '[' then advance
  else mismatch (.wrongType (← scalar) expected)

/-- Parts with commas between them. -/
def separated : List (List Char) → List Char
  | [] => []
  | [part] => part
  | part :: rest => part ++ ',' :: separated rest

namespace Codec

/-- Any number of values. -/
def list {α : Type} (c : Codec α) : Codec (List α) where
  read := do
    openArray "a sequence"
    let items ← fun s => elementsFrom c.read (s.length + 1) true [] s
    closeArray
    return items
  write as := '[' :: separated (as.map c.write) ++ [']']

/-- Thirty-two bytes as an array of numbers. -/
def bytes32 : Codec Bytes32 where
  read := do
    openArray "an array of length 32"
    let items ← exactlyFrom u8.read "an array of length 32" 32 0 true
    closeArray
    return Bytes32.ofList items
  write a := '[' :: separated (a.toList.map u8.write) ++ [']']

/-- The bytes a hexadecimal text stands for, if there are 32. -/
def ofHex32 (s : String) : Except String Bytes32 :=
  match Hex.decode s with
  | .error e => .error e.message
  | .ok bs =>
    match Bytes32.ofList? bs with
    | some a => .ok a
    | none => .error ("expected 32 bytes, got " ++ toString bs.length)

/-- Thirty-two bytes as hexadecimal text. -/
def hex32 : Codec Bytes32 :=
  text.refine ofHex32 fun a => Hex.encode a.toList

/-- A list of such texts; the array is read to its end before any of them is decoded. -/
def hex32List : Codec (List Bytes32) :=
  text.list.refine (fun ss => ss.mapM ofHex32) fun as => as.map fun a => Hex.encode a.toList

/-- Such a text or `null`. -/
def hex32Option : Codec (Option Bytes32) :=
  hex32.nullable

end Codec

/-! ### Records -/

/-- The fields of a record, in order; `α` is the tuple of their values. A field with a default
may be missing. -/
inductive Fields : Type → Type 1
  | done : Fields Unit
  | field {β γ : Type} (name : String) (codec : Codec β) (default? : Option β)
      (rest : Fields γ) : Fields (β × γ)

namespace Fields

/-- The values read so far. -/
def Draft : {α : Type} → Fields α → Type
  | _, done => Unit
  | _, @field β _ _ _ _ rest => Option β × rest.Draft

/-- Nothing read yet. -/
def blank : {α : Type} → (fs : Fields α) → fs.Draft
  | _, done => ()
  | _, field _ _ _ rest => (none, rest.blank)

def count : {α : Type} → Fields α → Nat
  | _, done => 0
  | _, field _ _ _ rest => rest.count + 1

/-- Reads the value behind a key into the draft. A key that is no field is passed over; a second
value for a field is refused before it is read. -/
def member : {α : Type} → (fs : Fields α) → String → fs.Draft → Reader fs.Draft
  | _, done, _, draft => do
    colon
    skipValue
    return draft
  | _, @field β _ name codec _ rest, key, draft =>
    let (value, tail) : Option β × rest.Draft := draft
    if key = name then
      if value.isSome then mismatch (.duplicateField name)
      else do
        colon
        let b ← codec.read
        return (some b, tail)
    else do
      let tail ← rest.member key tail
      return (value, tail)

/-- The tuple of a draft; the first field that is missing is named. -/
def finish : {α : Type} → (fs : Fields α) → fs.Draft → Except Fault α
  | _, done, _ => .ok ()
  | _, @field β _ name _ default? rest, draft =>
    let (value, tail) : Option β × rest.Draft := draft
    match value <|> default? with
    | none => .error (.mismatch (.missingField name))
    | some b =>
      match rest.finish tail with
      | .error e => .error e
      | .ok tail => .ok (b, tail)

/-- Whether an object holds another member; the quote that opens its key is read, the closing
bracket is not. -/
def nextKey (first : Bool) : Reader Bool := do
  match ← look with
  | none => throw .truncated
  | some c =>
    if c = '\x7d' then return false
    else if first then
      if c = '"' then do
        advance
        return true
      else throw .malformed
    else if c = ',' then do
      advance
      match ← look with
      | none => throw .truncated
      | some d =>
        if d = '"' then do
          advance
          return true
        else throw .malformed
    else throw .malformed

/-- Reads the members of an object up to its closing bracket. Every member uses up a character,
which bounds the number of steps. -/
def membersFrom {α : Type} (fs : Fields α) : Nat → Bool → fs.Draft → Reader fs.Draft
  | 0, _, _, _ => .error .truncated
  | fuel + 1, first, draft, s =>
    match nextKey first s with
    | .error e => .error e
    | .ok (false, rest) => .ok (draft, rest)
    | .ok (true, rest) =>
      match string rest with
      | .error e => .error e
      | .ok (key, rest) =>
        match fs.member (String.ofList key) draft rest with
        | .error e => .error e
        | .ok (draft, rest) => membersFrom fs fuel false draft rest

/-- Reads the fields from the elements of an array, of which `index` have been read before. An
array that ends early leaves the defaults. -/
def elements : {α : Type} → Fields α → String → Nat → Bool → Reader α
  | _, done, _, _, _ => return ()
  | _, field _ codec default? rest, expected, index, first => do
    if ← nextElement first then do
      let b ← codec.read
      let tail ← rest.elements expected (index + 1) false
      return (b, tail)
    else
      match default? with
      | none => mismatch (.wrongLength index expected)
      | some b => do
        let tail ← rest.elements expected (index + 1) first
        return (b, tail)

/-- The members of an object, each with its key. -/
def write : {α : Type} → Fields α → α → List (List Char)
  | _, done, _ => []
  | _, field name codec _ rest, (b, tail) =>
    (Codec.writeString name.toList ++ ':' :: codec.write b) :: rest.write tail

end Fields

/-- The description of a record in a refusal for its length. -/
def recordLength (name : String) (count : Nat) : String :=
  "struct " ++ name ++ " with " ++ toString count
    ++ (if count = 1 then " element" else " elements")

/-- A record under the name that refusals give it. -/
def Codec.record {α τ : Type} (name : String) (fs : Fields τ) (build : τ → α) (parts : α → τ) :
    Codec α where
  read := do
    let c ← valueStart
    if c = '[' then do
      advance
      let tuple ← fs.elements (recordLength name fs.count) 0 true
      closeArray
      return build tuple
    else if c = '\x7b' then do
      advance
      let draft ← fun s => fs.membersFrom (s.length + 1) true fs.blank s
      let tuple ← (fs.finish draft : Except Fault τ)
      advance
      return build tuple
    else mismatch (.wrongType (← scalar) ("struct " ++ name))
  write a := '\x7b' :: separated (fs.write (parts a)) ++ ['\x7d']

end AccessContext.Json
