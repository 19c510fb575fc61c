import AccessContext.Json.Fault
import AccessContext.Text.Hex

/-!
# Reading the lexical parts of a document

A reader takes a value off the front of the text and leaves the rest, or stops with a fault.
This module reads blanks, fixed words, strings and numbers. Strings are read in one pass over
the characters; a state says what the next character may be.
-/

namespace AccessContext.Json

/-- Takes a value off the front of a text. -/
abbrev Reader := StateT (List Char) (Except Fault)

/-- The blanks between the parts of a document. -/
def isBlank (c : Char) : Bool :=
  c == ' ' || c == '\n' || c == '\t' || c == '\r'

/-- The next character after blanks, left unread; nothing at the end. -/
def look : Reader (Option Char) := fun s =>
  let rest := s.dropWhile isBlank
  .ok (rest.head?, rest)

/-- The first character of the next value, left unread. -/
def valueStart : Reader Char := do
  match ← look with
  | none => throw .truncated
  | some c => return c

/-- Drops a character that has been looked at. -/
def advance : Reader Unit := fun s => .ok ((), s.drop 1)

/-- Reads exactly the given characters. -/
def word : List Char → Reader Unit
  | [], s => .ok ((), s)
  | _ :: _, [] => .error .truncated
  | c :: cs, d :: s => if c = d then word cs s else .error .malformed

/-! ### Strings -/

/-- Whether fewer than four bytes are left, so that no escape by number fits. -/
def isShort (s : List Char) : Bool :=
  ((s.take 4).flatMap String.utf8EncodeChar).length < 4

/-- The character named by one letter after a backslash. -/
def shortEscape? (c : Char) : Option Char :=
  if c = '"' then some '"'
  else if c = '\\' then some '\\'
  else if c = '/' then some '/'
  else if c = 'b' then some '\x08'
  else if c = 'f' then some '\x0c'
  else if c = 'n' then some '\n'
  else if c = 'r' then some '\r'
  else if c = 't' then some '\t'
  else none

/-- The first half of a surrogate pair. -/
def isLead (n : Nat) : Bool :=
  0xd800 ≤ n && n ≤ 0xdbff

/-- The second half of a surrogate pair. -/
def isTrail (n : Nat) : Bool :=
  0xdc00 ≤ n && n ≤ 0xdfff

/-- Where the reading of a string stands. -/
inductive StringState
  /-- Between characters. -/
  | plain
  /-- After a backslash. -/
  | escaped
  /-- Within a number of which `count` digits are to come, after the lead of a pair if one is
  given. -/
  | digits (count value : Nat) (lead : Option Nat)
  /-- After the lead of a pair, before the backslash of its trail. -/
  | lead (n : Nat)
  /-- After that backslash. -/
  | leadEscaped (n : Nat)

/-- What follows the last digit of an escape: an error, or the character it makes, or the wait
for the trail of a pair. -/
def endEscape (value : Nat) : Option Nat → Option (Sum Char StringState)
  | some lead =>
    if isTrail value then
      some (.inl (Char.ofNat (0x10000 + (lead - 0xd800) * 0x400 + (value - 0xdc00))))
    else none
  | none =>
    if isTrail value then none
    else if isLead value then some (.inr (.lead value))
    else some (.inl (Char.ofNat value))

/-- Reads a string after its opening quote; `done` holds what was read, last character first. -/
def stringFrom : StringState → List Char → Reader (List Char)
  | _, _, [] => .error .truncated
  | .plain, done, c :: s =>
    if c = '"' then .ok (done.reverse, s)
    else if c = '\\' then stringFrom .escaped done s
    else if c.toNat < 0x20 then .error .malformed
    else stringFrom .plain (c :: done) s
  | .escaped, done, c :: s =>
    if c = 'u' then
      if isShort s then .error .truncated else stringFrom (.digits 4 0 none) done s
    else
      match shortEscape? c with
      | some d => stringFrom .plain (d :: done) s
      | none => .error .malformed
  | .digits count value lead, done, c :: s =>
    match Hex.value? c.toNat with
    | none => .error .malformed
    | some d =>
      if 1 < count then stringFrom (.digits (count - 1) (16 * value + d) lead) done s
      else
        match endEscape (16 * value + d) lead with
        | none => .error .malformed
        | some (.inl e) => stringFrom .plain (e :: done) s
        | some (.inr state) => stringFrom state done s
  | .lead n, done, c :: s =>
    if c = '\\' then stringFrom (.leadEscaped n) done s else .error .malformed
  | .leadEscaped n, done, c :: s =>
    if c = 'u' then
      if isShort s then .error .truncated else stringFrom (.digits 4 0 (some n)) done s
    else .error .malformed

/-- The characters of a string, after its opening quote. -/
def string : Reader (List Char) :=
  stringFrom .plain []

/-! ### Numbers -/

/-- Digits taken into a significand of 64 bits as long as they fit, and those left over. -/
def fill (significand : Nat) : List Char → Nat × List Char
  | [] => (significand, [])
  | d :: ds =>
    if 10 * significand + Decimal.value d < UInt64.size then
      fill (10 * significand + Decimal.value d) ds
    else (significand, d :: ds)

/-- A number that is not an integer of 64 bits; one out of range breaks the grammar. -/
def fraction (negative : Bool) (significand : Nat) (place : Int) : Reader Found := fun s =>
  match Binary64.ofDecimal significand place with
  | some v => .ok (.fraction negative v, s)
  | none => .error .malformed

/-- The digits of an exponent. -/
def exponentDigits : Reader Nat
  | [] => .error .truncated
  | c :: s =>
    if Decimal.isDigit c then
      .ok (Decimal.ofDigits ((c :: s).takeWhile Decimal.isDigit),
        (c :: s).dropWhile Decimal.isDigit)
    else .error .malformed

/-- An exponent after its letter. -/
def exponent : Reader Int
  | '+' :: s => (exponentDigits s).map fun (n, rest) => ((n : Int), rest)
  | '-' :: s => (exponentDigits s).map fun (n, rest) => (-(n : Int), rest)
  | s => (exponentDigits s).map fun (n, rest) => ((n : Int), rest)

/-- The end of a number whose digits are read: an exponent, or nothing. -/
def afterDigits (negative : Bool) (significand : Nat) (place : Int) : Reader Found
  | c :: s =>
    if c = 'e' || c = 'E' then
      match exponent s with
      | .error e => .error e
      | .ok (n, rest) => fraction negative significand (place + n) rest
    else fraction negative significand place (c :: s)
  | [] => fraction negative significand place []

/-- An integer of 64 bits, signed if negative; minus zero is not one. -/
def integer (negative : Bool) (n : Nat) : Reader Found := fun s =>
  if negative then
    if n = 0 ∨ 9223372036854775808 < n then fraction true n 0 s else .ok (.integer (-n), s)
  else .ok (.integer n, s)

/-- A number after its minus sign, if it has one. -/
def number (negative : Bool) : Reader Found
  | [] => .error .truncated
  | c :: s =>
    if !Decimal.isDigit c then .error .malformed
    else if c = '0' ∧ s.head?.any Decimal.isDigit then .error .malformed
    else
      let (significand, extra) := fill 0 ((c :: s).takeWhile Decimal.isDigit)
      match (c :: s).dropWhile Decimal.isDigit with
      | [] =>
        if extra.isEmpty then integer negative significand []
        else fraction negative significand extra.length []
      | d :: rest =>
        if d = '.' then
          let places := rest.takeWhile Decimal.isDigit
          if places.isEmpty then .error (if rest.isEmpty then .truncated else .malformed)
          else
            let (significand, left) := fill significand places
            afterDigits negative significand
              ((extra.length : Int) - (places.length - left.length : Nat))
              (rest.dropWhile Decimal.isDigit)
        else if d = 'e' || d = 'E' then
          afterDigits negative significand extra.length (d :: rest)
        else if extra.isEmpty then integer negative significand (d :: rest)
        else fraction negative significand extra.length (d :: rest)

/-! ### Values without parts -/

/-- Reads a value that has no parts. A bracket is only named and stays unread. -/
def scalar : Reader Found := do
  let c ← valueStart
  if c = 'n' then do
    word ['n', 'u', 'l', 'l']
    return .null
  else if c = 't' then do
    word ['t', 'r', 'u', 'e']
    return .boolean true
  else if c = 'f' then do
    word ['f', 'a', 'l', 's', 'e']
    return .boolean false
  else if c = '-' then do
    advance
    number true
  else if Decimal.isDigit c then number false
  else if c = '"' then do
    advance
    let cs ← string
    return .text cs
  else if c = '[' then return .sequence
  else if c = '\x7b' then return .map
  else throw .malformed

end AccessContext.Json
