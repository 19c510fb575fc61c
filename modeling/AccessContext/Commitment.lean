import AccessContext.Hash.Sha3

/-!
# Commitments

A commitment hashes a tag and a list of parts. Each of them is preceded by its length, so the
hashed string determines the tag and every part, and no byte can move from one to the next.
-/

namespace AccessContext

/-- A string behind its length in eight bytes. -/
def lengthPrefixed (part : List UInt8) : List UInt8 :=
  leBytes 8 part.length ++ part

/-- The string that a commitment hashes. -/
def commitPreimage (tag : List UInt8) (parts : List (List UInt8)) : List UInt8 :=
  lengthPrefixed tag ++ parts.flatMap lengthPrefixed

/-- The commitment to `parts` under the domain `tag`. -/
def commit (tag : List UInt8) (parts : List (List UInt8)) : Digest :=
  sha3 (commitPreimage tag parts)

end AccessContext
