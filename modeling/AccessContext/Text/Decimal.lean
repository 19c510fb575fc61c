/-!
# Decimal numerals

Natural numbers and integers in base ten, without leading zeros. Reading the digits of a number
gives the number again.
-/

namespace AccessContext.Decimal

def isDigit (c : Char) : Bool :=
  '0' ≤ c && c ≤ '9'

/-- The value of a digit. -/
def value (c : Char) : Nat :=
  c.toNat - 48

/-- The digit for a number below ten. -/
def digit (n : Nat) : Char :=
  Char.ofNat (48 + n)

/-- The digits of a number, most significant first. -/
def digits (n : Nat) : List Char :=
  if n < 10 then [digit n] else digits (n / 10) ++ [digit (n % 10)]

/-- The number with the given digits. -/
def ofDigits (cs : List Char) : Nat :=
  cs.foldl (fun n c => 10 * n + value c) 0

/-- An integer, with a minus sign in front if it is negative. -/
def ofInt : Int → List Char
  | .ofNat n => digits n
  | .negSucc n => '-' :: digits (n + 1)

theorem value_digit {n : Nat} (h : n < 10) : value (digit n) = n := by
  have : ∀ k : Fin 10, value (digit k) = k := by decide
  exact this ⟨n, h⟩

theorem isDigit_digit {n : Nat} (h : n < 10) : isDigit (digit n) = true := by
  have : ∀ k : Fin 10, isDigit (digit k) = true := by decide
  exact this ⟨n, h⟩

theorem ofDigits_digits (n : Nat) : ofDigits (digits n) = n := by
  induction n using Nat.strongRecOn with
  | ind n ih =>
    rw [digits]
    split
    · simp [ofDigits, value_digit ‹n < 10›]
    · have := ih (n / 10) (by omega)
      simp only [ofDigits, List.foldl_append, List.foldl_cons, List.foldl_nil] at this ⊢
      rw [this, value_digit (by omega)]
      omega

theorem isDigit_of_mem_digits {n : Nat} {c : Char} (h : c ∈ digits n) : isDigit c = true := by
  induction n using Nat.strongRecOn with
  | ind n ih =>
    rw [digits] at h
    split at h
    · rw [List.mem_singleton.1 h]
      exact isDigit_digit ‹n < 10›
    · rcases List.mem_append.1 h with h | h
      · exact ih (n / 10) (by omega) h
      · rw [List.mem_singleton.1 h]
        exact isDigit_digit (by omega)

theorem digits_ne_nil (n : Nat) : digits n ≠ [] := by
  rw [digits]
  split <;> simp

end AccessContext.Decimal
