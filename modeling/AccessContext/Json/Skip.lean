import AccessContext.Json.Reader

/-!
# Passing over a value

A field that no record knows is passed over whole, to any depth. Its text must be well formed,
but numbers may have any size and strings may hold half a surrogate pair. The brackets that are
still open are kept in a list, so nesting costs no recursion.
-/

namespace AccessContext.Json

/-- Where the passing over a string stands: between characters, after a backslash, or before
`count` more digits. -/
inductive SkipState
  | plain
  | escaped
  | digits (count : Nat)

/-- Passes over a string after its opening quote. -/
def skipStringFrom : SkipState → Reader Unit
  | _, [] => .error .truncated
  | .plain, c :: s =>
    if c = '"' then .ok ((), s)
    else if c = '\\' then skipStringFrom .escaped s
    else if c.toNat < 0x20 then .error .malformed
    else skipStringFrom .plain s
  | .escaped, c :: s =>
    if c = 'u' then
      if isShort s then .error .truncated else skipStringFrom (.digits 4) s
    else if (shortEscape? c).isSome then skipStringFrom .plain s
    else .error .malformed
  | .digits count, c :: s =>
    if (Hex.value? c.toNat).isSome then
      if 1 < count then skipStringFrom (.digits (count - 1)) s else skipStringFrom .plain s
    else .error .malformed

def skipString : Reader Unit :=
  skipStringFrom .plain

/-- Passes over one digit or more; a text that ends here is malformed, not truncated. -/
def skipDigits : Reader Unit
  | c :: s =>
    if Decimal.isDigit c then .ok ((), s.dropWhile Decimal.isDigit) else .error .malformed
  | [] => .error .malformed

/-- Passes over an exponent, if there is one. -/
def skipExponent : Reader Unit
  | c :: s =>
    if c = 'e' || c = 'E' then
      match s with
      | '+' :: t => skipDigits t
      | '-' :: t => skipDigits t
      | t => skipDigits t
    else .ok ((), c :: s)
  | [] => .ok ((), [])

/-- Passes over the places after a point, if there is one, and an exponent. -/
def skipFraction : Reader Unit
  | '.' :: s =>
    match skipDigits s with
    | .error e => .error e
    | .ok (_, rest) => skipExponent rest
  | s => skipExponent s

/-- Passes over a number after its minus sign. -/
def skipNumber : Reader Unit
  | [] => .error .malformed
  | c :: s =>
    if c = '0' then
      if s.head?.any Decimal.isDigit then .error .malformed else skipFraction s
    else if Decimal.isDigit c then skipFraction (s.dropWhile Decimal.isDigit)
    else .error .malformed

/-- A bracket that is open. -/
inductive Bracket
  | square
  | curly
deriving DecidableEq

def Bracket.close : Bracket → Char
  | square => ']'
  | curly => '\x7d'

/-- Passes over a value without parts, or opens a bracket. -/
def skipScalar : Reader (Option Bracket) := do
  let c ← valueStart
  if c = '[' then do
    advance
    return some .square
  else if c = '\x7b' then do
    advance
    return some .curly
  else do
    if c = 'n' then word ['n', 'u', 'l', 'l']
    else if c = 't' then word ['t', 'r', 'u', 'e']
    else if c = 'f' then word ['f', 'a', 'l', 's', 'e']
    else if c = '-' then do
      advance
      skipNumber
    else if Decimal.isDigit c then skipNumber
    else if c = '"' then do
      advance
      skipString
    else throw .malformed
    return none

/-- Reads the colon between a key and its value. -/
def colon : Reader Unit := do
  match ← look with
  | none => throw .truncated
  | some c => if c = ':' then advance else throw .malformed

/-- Passes over a key and its colon before a member of an object. -/
def skipKey : Bracket → Reader Unit
  | .square => pure ()
  | .curly => do
    match ← look with
    | none => throw .truncated
    | some c =>
      if c = '"' then do
        advance
        skipString
        colon
      else throw .malformed

/-- What comes next while a value is passed over. -/
inductive Stage
  /-- A value. -/
  | value
  /-- The first part after an opening bracket, or the closing bracket. -/
  | first
  /-- A comma or the closing bracket. -/
  | next
deriving DecidableEq

/-- Within a bracket: closes it, or goes on to its next value. -/
def skipBetween (stage : Stage) (b : Bracket) : Reader Bool := do
  match ← look with
  | none => throw .truncated
  | some c =>
    if c = b.close then do
      advance
      return true
    else if stage = .first then do
      skipKey b
      return false
    else if c = ',' then do
      advance
      skipKey b
      return false
    else throw .malformed

/-- Passes over text until no bracket is open. Every two steps use up a character, which bounds
the number of steps. -/
def skipFrom : Nat → Stage → List Bracket → Reader Unit
  | 0, _, _, _ => .error .truncated
  | fuel + 1, .value, stack, s =>
    match skipScalar s with
    | .error e => .error e
    | .ok (none, rest) => skipFrom fuel .next stack rest
    | .ok (some b, rest) => skipFrom fuel .first (b :: stack) rest
  | _ + 1, _, [], s => .ok ((), s)
  | fuel + 1, stage, b :: stack, s =>
    match skipBetween stage b s with
    | .error e => .error e
    | .ok (true, rest) => skipFrom fuel .next stack rest
    | .ok (false, rest) => skipFrom fuel .value (b :: stack) rest

/-- Passes over one value. -/
def skipValue : Reader Unit := fun s =>
  skipFrom (2 * s.length + 2) .value [] s

end AccessContext.Json
