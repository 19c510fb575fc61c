import AccessContext.Json.Codec
import Mathlib.Tactic.Common
import Mathlib.Tactic.SplitIfs
import Mathlib.Tactic.IntervalCases

/-!
# Reading what was written: numbers and strings

A value that was written is read back with whatever follows it left over, as long as that is the
end of the text, a comma or a closing bracket. This module proves it for the parts of a document
without parts of their own. Main statements: `scalar_integer`, `scalar_string`.
-/

namespace AccessContext.Json

/-- What may follow a value: nothing, a comma or a closing bracket. -/
def Ends (rest : List Char) : Prop :=
  ∀ c ∈ rest.head?, c = ',' ∨ c = ']' ∨ c = '\x7d'

/-- Whether a text opens a value: with a character that is neither blank nor a closing bracket. -/
def Opens (cs : List Char) : Prop :=
  ∃ c s, cs = c :: s ∧ isBlank c = false ∧ c ≠ ']'

theorem ends_nil : Ends [] := nofun

theorem ends_cons {c : Char} {s : List Char} (h : c = ',' ∨ c = ']' ∨ c = '\x7d') :
    Ends (c :: s) := by
  rintro d ⟨⟩
  exact h

section Reader

variable {α β : Type}

theorem bind_of_ok {x : Reader α} {f : α → Reader β} {s t : List Char} {a : α}
    (h : x s = .ok (a, t)) : (x >>= f) s = f a t := by
  change (x s >>= fun p => f p.1 p.2) = f a t
  rw [h]
  rfl

theorem look_cons {c : Char} {s : List Char} (h : isBlank c = false) :
    look (c :: s) = .ok (some c, c :: s) := by
  rw [look, List.dropWhile_cons_of_neg (by simp [h])]
  rfl

theorem valueStart_cons {c : Char} {s : List Char} (h : isBlank c = false) :
    valueStart (c :: s) = .ok (c, c :: s) := by
  rw [valueStart, bind_of_ok (look_cons h)]
  rfl

theorem advance_cons (c : Char) (s : List Char) : advance (c :: s) = .ok ((), s) := rfl

theorem word_append (cs s : List Char) : word cs (cs ++ s) = .ok ((), s) := by
  induction cs with
  | nil => rfl
  | cons c cs ih => rw [List.cons_append, word, if_pos rfl, ih]

end Reader

/-! ### Numbers -/

theorem isDigit_of_ends {rest : List Char} (h : Ends rest) :
    rest.head?.any Decimal.isDigit = false := by
  cases rest with
  | nil => rfl
  | cons c s =>
    rcases h c rfl with rfl | rfl | rfl <;> rfl

/-- More digits make no smaller number. -/
theorem le_foldl_value (ds : List Char) (n : Nat) :
    n ≤ ds.foldl (fun n c => 10 * n + Decimal.value c) n := by
  induction ds generalizing n with
  | nil => exact Nat.le_refl n
  | cons d ds ih => exact Nat.le_trans (by omega) (ih (10 * n + Decimal.value d))

/-- Digits whose number is a word are all taken in. -/
theorem fill_eq {ds : List Char} {significand : Nat}
    (h : ds.foldl (fun n c => 10 * n + Decimal.value c) significand < UInt64.size) :
    fill significand ds = (ds.foldl (fun n c => 10 * n + Decimal.value c) significand, []) := by
  induction ds generalizing significand with
  | nil => rfl
  | cons d ds ih =>
    rw [List.foldl_cons] at h ⊢
    have hlt := Nat.lt_of_le_of_lt (le_foldl_value ds _) h
    rw [fill, if_pos hlt, ih h]

theorem exists_digits_eq (n : Nat) :
    ∃ d ds, Decimal.digits n = d :: ds ∧ Decimal.isDigit d = true := by
  obtain ⟨d, ds, hds⟩ := List.exists_cons_of_ne_nil (Decimal.digits_ne_nil n)
  exact ⟨d, ds, hds, Decimal.isDigit_of_mem_digits (hds ▸ List.mem_cons_self)⟩

theorem ne_of_isDigit {c d : Char} (hd : Decimal.isDigit d = true)
    (hc : Decimal.isDigit c = false) : d ≠ c := by
  rintro rfl
  rw [hd] at hc
  cases hc

theorem isBlank_of_isDigit {d : Char} (hd : Decimal.isDigit d = true) : isBlank d = false := by
  have hspace : d ≠ ' ' := ne_of_isDigit hd rfl
  have hline : d ≠ '\n' := ne_of_isDigit hd rfl
  have htab : d ≠ '\t' := ne_of_isDigit hd rfl
  have hreturn : d ≠ '\r' := ne_of_isDigit hd rfl
  simp [isBlank, hspace, hline, htab, hreturn]

/-- Only zero is written with a zero in front. -/
theorem digits_eq_zero_cons {n : Nat} {ds : List Char} (h : Decimal.digits n = '0' :: ds) :
    ds = [] := by
  induction n using Nat.strongRecOn generalizing ds with
  | ind n ih =>
    rw [Decimal.digits] at h
    split_ifs at h with hlt
    · exact (List.cons.inj h).2.symm
    · exfalso
      obtain ⟨c, cs, hcs⟩ := List.exists_cons_of_ne_nil (Decimal.digits_ne_nil (n / 10))
      rw [hcs, List.cons_append] at h
      obtain ⟨rfl, htail⟩ := List.cons.inj h
      obtain rfl := ih (n / 10) (by omega) hcs
      have hvalue := Decimal.ofDigits_digits (n / 10)
      rw [hcs] at hvalue
      have hzero : Decimal.ofDigits ['0'] = 0 := rfl
      omega

theorem takeWhile_digits (n : Nat) {rest : List Char} (h : Ends rest) :
    (Decimal.digits n ++ rest).takeWhile Decimal.isDigit = Decimal.digits n := by
  have hall : ∀ c ∈ Decimal.digits n, Decimal.isDigit c = true :=
    fun c hc => Decimal.isDigit_of_mem_digits hc
  rw [List.takeWhile_append_of_pos hall]
  have hrest := isDigit_of_ends h
  cases rest with
  | nil => simp
  | cons c s => simp_all

theorem dropWhile_digits (n : Nat) {rest : List Char} (h : Ends rest) :
    (Decimal.digits n ++ rest).dropWhile Decimal.isDigit = rest := by
  have hall : ∀ c ∈ Decimal.digits n, Decimal.isDigit c = true :=
    fun c hc => Decimal.isDigit_of_mem_digits hc
  rw [List.dropWhile_append_of_pos hall]
  have hrest := isDigit_of_ends h
  cases rest with
  | nil => rfl
  | cons c s => simp_all

/-- The digits of a word are read as its number. -/
theorem number_digits {n : Nat} (hn : n < UInt64.size) (negative : Bool) {rest : List Char}
    (h : Ends rest) : number negative (Decimal.digits n ++ rest) = integer negative n rest := by
  obtain ⟨d, ds, hds, hd⟩ := exists_digits_eq n
  have hzero : ¬ (d = '0' ∧ (ds ++ rest).head?.any Decimal.isDigit = true) := by
    rintro ⟨rfl, hany⟩
    rw [digits_eq_zero_cons hds, List.nil_append, isDigit_of_ends h] at hany
    cases hany
  have htake := takeWhile_digits n h
  have hdrop := dropWhile_digits n h
  have hfill : fill 0 (Decimal.digits n) = (n, []) := by
    have hvalue := Decimal.ofDigits_digits n
    rw [Decimal.ofDigits] at hvalue
    rw [fill_eq (by rw [hvalue]; exact hn), hvalue]
  rw [hds, List.cons_append] at htake hdrop ⊢
  rw [number, hd, if_neg (by simp), if_neg hzero, htake, hdrop, ← hds, hfill]
  cases rest with
  | nil => rfl
  | cons c s => rcases h c rfl with rfl | rfl | rfl <;> rfl

theorem scalar_digits {n : Nat} (hn : n < UInt64.size) {rest : List Char} (h : Ends rest) :
    scalar (Decimal.digits n ++ rest) = .ok (.integer n, rest) := by
  obtain ⟨d, ds, hds, hd⟩ := exists_digits_eq n
  have hnumber := number_digits hn false h
  rw [hds, List.cons_append] at hnumber ⊢
  rw [scalar, bind_of_ok (valueStart_cons (isBlank_of_isDigit hd)), if_neg (ne_of_isDigit hd rfl),
    if_neg (ne_of_isDigit hd rfl), if_neg (ne_of_isDigit hd rfl), if_neg (ne_of_isDigit hd rfl),
    if_pos hd, hnumber]
  rfl

/-- An integer that some word of 64 bits holds is read back. -/
theorem scalar_integer {n : Int} (hlow : -2 ^ 63 ≤ n) (hhigh : n < 2 ^ 64) {rest : List Char}
    (h : Ends rest) : scalar (Decimal.ofInt n ++ rest) = .ok (.integer n, rest) := by
  cases n with
  | ofNat n =>
    have hn : (n : Int) < 2 ^ 64 := hhigh
    have hsize : n < UInt64.size := by
      rw [UInt64.size]
      omega
    exact scalar_digits hsize h
  | negSucc n =>
    have hn : n + 1 < UInt64.size := by
      rw [UInt64.size]
      omega
    rw [Decimal.ofInt, List.cons_append, scalar, bind_of_ok (valueStart_cons rfl), if_neg (by decide),
      if_neg (by decide), if_neg (by decide), if_pos rfl, bind_of_ok (advance_cons _ _),
      number_digits hn true h, integer, if_pos rfl, if_neg (by omega)]
    rfl

theorem opens_digits (n : Nat) : Opens (Decimal.digits n) := by
  obtain ⟨d, ds, hds, hd⟩ := exists_digits_eq n
  exact ⟨d, ds, hds, isBlank_of_isDigit hd, ne_of_isDigit hd rfl⟩

theorem opens_integer (n : Int) : Opens (Decimal.ofInt n) := by
  cases n with
  | ofNat n => exact opens_digits n
  | negSucc n => exact ⟨'-', _, rfl, rfl, by decide⟩

/-! ### Strings -/

/-- A control character is read back from its number. -/
theorem stringFrom_control {n : Nat} (hn : n < 0x20) (done s : List Char) :
    stringFrom .plain done
        ('\\' :: 'u' :: '0' :: '0' :: Hex.digit (n / 16) :: Hex.digit (n % 16) :: s) =
      stringFrom .plain (Char.ofNat n :: done) s := by
  interval_cases n <;> rfl

/-- Every character is read back, whether it was escaped or not. -/
theorem stringFrom_writeChar (c : Char) (done s : List Char) :
    stringFrom .plain done (Codec.writeChar c ++ s) = stringFrom .plain (c :: done) s := by
  rw [Codec.writeChar]
  split_ifs with hquote hslash hback hfeed hline hreturn htab hcontrol
  · rw [hquote]
    rfl
  · rw [hslash]
    rfl
  · rw [hback]
    rfl
  · rw [hfeed]
    rfl
  · rw [hline]
    rfl
  · rw [hreturn]
    rfl
  · rw [htab]
    rfl
  · have hread := stringFrom_control hcontrol done s
    rwa [Char.ofNat_toNat] at hread
  · rw [List.singleton_append, stringFrom, if_neg hquote, if_neg hslash, if_neg hcontrol]

theorem stringFrom_flatMap (cs done rest : List Char) :
    stringFrom .plain done (cs.flatMap Codec.writeChar ++ '"' :: rest) =
      .ok (done.reverse ++ cs, rest) := by
  induction cs generalizing done with
  | nil => simp [stringFrom]
  | cons c cs ih =>
    rw [List.flatMap_cons, List.append_assoc, stringFrom_writeChar, ih]
    simp

theorem string_flatMap (cs rest : List Char) :
    string (cs.flatMap Codec.writeChar ++ '"' :: rest) = .ok (cs, rest) :=
  stringFrom_flatMap cs [] rest

theorem writeString_append (cs rest : List Char) : Codec.writeString cs ++ rest =
    '"' :: (cs.flatMap Codec.writeChar ++ '"' :: rest) := by
  simp [Codec.writeString]

/-- A string is read back, with whatever follows it left over. -/
theorem scalar_string (cs rest : List Char) :
    scalar (Codec.writeString cs ++ rest) = .ok (.text cs, rest) := by
  rw [writeString_append, scalar, bind_of_ok (valueStart_cons rfl), if_neg (by decide),
    if_neg (by decide), if_neg (by decide), if_neg (by decide), if_neg (by decide), if_pos rfl,
    bind_of_ok (advance_cons _ _), bind_of_ok (string_flatMap cs rest)]
  rfl

theorem scalar_true (rest : List Char) :
    scalar (['t', 'r', 'u', 'e'] ++ rest) = .ok (.boolean true, rest) :=
  rfl

theorem scalar_false (rest : List Char) :
    scalar (['f', 'a', 'l', 's', 'e'] ++ rest) = .ok (.boolean false, rest) :=
  rfl

end AccessContext.Json
