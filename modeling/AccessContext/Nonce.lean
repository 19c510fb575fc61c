import AccessContext.Bytes
import AccessContext.Error
import AccessContext.Text.Blank

/-!
# Challenges

The relying party issues a fresh byte string for each request, and a proof answers one of them.
A challenge that holds nothing but blanks is refused wherever one is used.
-/

namespace AccessContext

/-- A challenge as it came in. -/
structure Nonce where
  bytes : List UInt8
deriving DecidableEq

namespace Nonce

/-- Whether there is nothing but ASCII blanks. -/
def isBlank (n : Nonce) : Bool :=
  n.bytes.all Text.isAsciiBlank

def validate (n : Nonce) : Except ContextError Unit :=
  if n.isBlank then .error .blankNonce else .ok ()

/-- A challenge from the relying party's bytes. -/
def ofBytes (bytes : List UInt8) : Except ContextError Nonce :=
  let n : Nonce := ⟨bytes⟩
  match n.validate with
  | .error e => .error e
  | .ok () => .ok n

/-- A challenge from 32 random bytes. -/
def ofEntropy (entropy : Bytes32) : Nonce :=
  ⟨entropy.toList⟩

/-- How a challenge is shown in logs. -/
def summary (n : Nonce) : String :=
  "ChallengeNonce(" ++ Hex.encode n.bytes ++ ")"

end Nonce

end AccessContext
