import AccessContext.Text.Hex
import Mathlib.Tactic.IntervalCases

/-!
# Hexadecimal text

Bytes that were written with two digits each are read back. Main statement: `Hex.decode_encode`.
-/

namespace AccessContext

theorem utf8_ofList (cs : List Char) : utf8 (String.ofList cs) = cs.flatMap String.utf8EncodeChar := by
  simp [utf8, List.utf8Encode]

namespace Hex

/-- A digit takes up one byte, and that byte has its value. -/
theorem exists_byte_digit {n : Nat} (h : n < 16) :
    ∃ b, String.utf8EncodeChar (digit n) = [b] ∧ value? b.toNat = some n := by
  interval_cases n <;> exact ⟨_, rfl, rfl⟩

/-- The text of a byte takes up two bytes, which have the values of its halves. -/
theorem exists_pair (b : UInt8) (bs : List UInt8) :
    ∃ high low, (encodeChars (b :: bs)).flatMap String.utf8EncodeChar =
        high :: low :: (encodeChars bs).flatMap String.utf8EncodeChar ∧
      value? high.toNat = some (b.toNat / 16) ∧ value? low.toNat = some (b.toNat % 16) := by
  have hb := b.toNat_lt
  obtain ⟨high, hhigh, hhigh'⟩ := exists_byte_digit (n := b.toNat / 16) (by omega)
  obtain ⟨low, hlow, hlow'⟩ := exists_byte_digit (n := b.toNat % 16) (by omega)
  exact ⟨high, low, by simp [encodeChars, hhigh, hlow], hhigh', hlow'⟩

theorem decodePairs_encode (position : Nat) (bs : List UInt8) :
    decodePairs position ((encodeChars bs).flatMap String.utf8EncodeChar) = .ok bs := by
  induction bs generalizing position with
  | nil => rfl
  | cons b bs ih =>
    obtain ⟨high, low, hpair, hhigh, hlow⟩ := exists_pair b bs
    rw [hpair, decodePairs, hhigh, hlow]
    dsimp only
    rw [ih, Nat.div_add_mod, UInt8.ofNat_toNat]
    rfl

theorem length_encodeChars (bs : List UInt8) :
    ((encodeChars bs).flatMap String.utf8EncodeChar).length = 2 * bs.length := by
  induction bs with
  | nil => rfl
  | cons b bs ih =>
    obtain ⟨high, low, hpair, -, -⟩ := exists_pair b bs
    rw [hpair, List.length_cons, List.length_cons, ih, List.length_cons]
    omega

/-- Bytes are read back from their text. -/
theorem decode_encode (bs : List UInt8) : decode (encode bs) = .ok bs := by
  rw [decode, encode, utf8_ofList, length_encodeChars, if_neg (by omega), decodePairs_encode]

end Hex

end AccessContext
