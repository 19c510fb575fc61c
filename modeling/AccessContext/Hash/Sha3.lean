import AccessContext.Bytes
import AccessContext.Hash.Keccak

/-!
# SHA3-256

The sponge with a rate of 136 bytes and a digest of 32. Nothing elsewhere looks inside this
function: laws that need it to separate inputs say so as a hypothesis on the strings hashed.
-/

namespace AccessContext

namespace Sha3

open Keccak

/-- Bytes absorbed between two permutations. -/
def rate : Nat := 136

/-- A sponge that has absorbed some bytes, the last of them just before `position`. -/
structure Sponge where
  state : State
  position : Nat

/-- Absorbs one byte, permuting when the block is full. -/
def Sponge.absorb (s : Sponge) (b : UInt8) : Sponge :=
  let state := s.state.addByte s.position b
  if s.position + 1 = rate then ⟨permute state, 0⟩ else ⟨state, s.position + 1⟩

/-- Ends the message with its domain bits and the closing bit, and permutes. -/
def Sponge.finish (s : Sponge) : State :=
  permute ((s.state.addByte s.position 0x06).addByte (rate - 1) 0x80)

end Sha3

/-- The SHA3-256 digest of a byte string. -/
def sha3 (message : List UInt8) : Digest :=
  let state := (message.foldl Sha3.Sponge.absorb ⟨Keccak.State.zero, 0⟩).finish
  ⟨(List.range 32).map state.byte, by simp⟩

end AccessContext
