import AccessContext.Error
import Mathlib.Data.Int.DivMod
import Mathlib.Tactic.Linarith

/-!
# Computing with words

Integers are computed with in three modes: on integers of any size, on words that keep the lowest
bits of every result, and on words that stop at the first result they do not hold. A computation
that goes through in all modes with one outcome has no arithmetic fault: nothing overflows, and the
words compute what the integers do.
-/

namespace AccessContext.Arithmetic

/-- The integers that a word of some width holds. -/
inductive WordType
  | unsigned (width : Nat)
  | signed (width : Nat)
deriving DecidableEq

namespace WordType

def low : WordType → Int
  | unsigned _ => 0
  | signed width => -2 ^ (width - 1)

/-- The first integer that is too large. -/
def bound : WordType → Int
  | unsigned width => 2 ^ width
  | signed width => 2 ^ (width - 1)

def Holds (t : WordType) (n : Int) : Prop :=
  t.low ≤ n ∧ n < t.bound

instance (t : WordType) (n : Int) : Decidable (t.Holds n) :=
  inferInstanceAs (Decidable (_ ∧ _))

/-- The word with the lowest bits of an integer. -/
def wrap (t : WordType) (n : Int) : Int :=
  t.low + (n - t.low) % (t.bound - t.low)

/-- The word nearest to an integer. -/
def clamp (t : WordType) (n : Int) : Int :=
  max t.low (min n (t.bound - 1))

theorem wrap_of_holds {t : WordType} {n : Int} (h : t.Holds n) : t.wrap n = n := by
  obtain ⟨hlow, hbound⟩ := h
  rw [wrap, Int.emod_eq_of_lt (by omega) (by omega)]
  omega

theorem clamp_of_holds {t : WordType} {n : Int} (h : t.Holds n) : t.clamp n = n := by
  obtain ⟨hlow, hbound⟩ := h
  rw [clamp]
  omega

end WordType

abbrev u8 : WordType := .unsigned 8

abbrev u32 : WordType := .unsigned 32

abbrev u64 : WordType := .unsigned 64

abbrev u128 : WordType := .unsigned 128

abbrev i32 : WordType := .signed 32

abbrev i64 : WordType := .signed 64

abbrev i128 : WordType := .signed 128

/-- How results are kept. -/
inductive Mode
  /-- As integers of any size. -/
  | exact
  /-- As words with their lowest bits. -/
  | wrapping
  /-- As words that hold them, or not at all. -/
  | checked
deriving DecidableEq

/-- What stops a computation. -/
inductive Fault
  | overflow (t : WordType) (n : Int)
  | zeroDivisor
deriving DecidableEq

/-- A computation that a fault may stop. -/
abbrev Machine := Except Fault

/-- A step that goes through hands on its result. -/
theorem bind_ok {α β : Type} {x : Machine α} {a : α} {f : α → Machine β} (h : x = .ok a) :
    (x >>= f) = f a := by
  rw [h]
  rfl

/-- Keeps the result of an operation, or of a conversion, as a word. -/
def store (mode : Mode) (t : WordType) (n : Int) : Machine Int :=
  match mode with
  | .exact => .ok n
  | .wrapping => .ok (t.wrap n)
  | .checked => if t.Holds n then .ok n else .error (.overflow t n)

/-- Keeps the result of an operation that saturates. -/
def saturate (mode : Mode) (t : WordType) (n : Int) : Int :=
  match mode with
  | .exact => n
  | .wrapping | .checked => t.clamp n

/-- A quotient, rounded towards zero. -/
def divide (mode : Mode) (t : WordType) (a b : Int) : Machine Int :=
  if b = 0 then .error .zeroDivisor else store mode t (a.tdiv b)

/-- A quotient whose remainder is not negative. -/
def divideDown (mode : Mode) (t : WordType) (a b : Int) : Machine Int :=
  if b = 0 then .error .zeroDivisor else store mode t (a / b)

/-- The remainder that is not negative. -/
def remainder (mode : Mode) (t : WordType) (a b : Int) : Machine Int :=
  if b = 0 then .error .zeroDivisor else store mode t (a % b)

section Words

variable (mode : Mode) {t : WordType} {width : Nat} {a b n : Int}

/-- What a word holds is kept in every mode. -/
theorem store_of_holds (h : t.Holds n) : store mode t n = .ok n := by
  cases mode with
  | exact => rfl
  | wrapping => rw [store, WordType.wrap_of_holds h]
  | checked => exact if_pos h

theorem store_unsigned (hlow : 0 ≤ n) (hhigh : n < 2 ^ width) :
    store mode (.unsigned width) n = .ok n :=
  store_of_holds mode ⟨hlow, hhigh⟩

theorem store_signed (hlow : -2 ^ (width - 1) ≤ n) (hhigh : n < 2 ^ (width - 1)) :
    store mode (.signed width) n = .ok n :=
  store_of_holds mode ⟨hlow, hhigh⟩

theorem saturate_of_holds (h : t.Holds n) : saturate mode t n = n := by
  cases mode with
  | exact => rfl
  | wrapping => exact WordType.clamp_of_holds h
  | checked => exact WordType.clamp_of_holds h

theorem saturate_unsigned (hlow : 0 ≤ n) (hhigh : n < 2 ^ width) :
    saturate mode (.unsigned width) n = n :=
  saturate_of_holds mode ⟨hlow, hhigh⟩

theorem saturate_signed (hlow : -2 ^ (width - 1) ≤ n) (hhigh : n < 2 ^ (width - 1)) :
    saturate mode (.signed width) n = n :=
  saturate_of_holds mode ⟨hlow, hhigh⟩

/-- Saturation from above does not change how a word compares with a result. -/
theorem le_saturate_iff (h : t.Holds a) (hn : t.low ≤ n) : a ≤ saturate mode t n ↔ a ≤ n := by
  obtain ⟨hlow, hhigh⟩ := h
  cases mode with
  | exact => exact Iff.rfl
  | wrapping =>
    rw [saturate, WordType.clamp]
    omega
  | checked =>
    rw [saturate, WordType.clamp]
    omega

theorem divide_unsigned (ha : 0 ≤ a) (hb : 0 < b) (hlt : a < 2 ^ width) :
    divide mode (.unsigned width) a b = .ok (a / b) := by
  have hle : a / b ≤ a := Int.ediv_le_self b ha
  rw [divide, if_neg hb.ne', Int.tdiv_eq_ediv_of_nonneg ha]
  exact store_unsigned mode (Int.ediv_nonneg ha hb.le) (by omega)

end Words

/-! ### Bits -/

section Bits

variable (mode : Mode)

def bitAnd (a b : Int) : Machine Int :=
  store mode u64 (a * b)

def bitNot (a : Int) : Machine Int :=
  store mode u64 (1 - a)

def bitOr (a b : Int) : Machine Int := do
  let sum ← store mode u64 (a + b)
  let product ← store mode u64 (a * b)
  store mode u64 (sum - product)

def bitSelect (b ifSet ifClear : Int) : Machine Int := do
  let first ← store mode u64 (b * ifSet)
  let clear ← store mode u64 (1 - b)
  let second ← store mode u64 (clear * ifClear)
  store mode u64 (first + second)

def bitIfRequired (check : Int) (flag : Bool) : Machine Int := do
  bitOr mode (← bitNot mode flag.toInt) check

def bitAll (bits : List Int) : Machine Int :=
  bits.foldlM (bitAnd mode) 1

/-- Whether a bit is set. -/
def isSet (b : Int) : Bool :=
  b == 1

@[simp] theorem isSet_toInt (b : Bool) : isSet b.toInt = b := by
  cases b <;> rfl

/-- The arithmetic of bits stays among bits, and is the Boolean one. -/
theorem bitAnd_toInt (a b : Bool) : bitAnd mode a.toInt b.toInt = .ok (a && b).toInt := by
  cases mode <;> cases a <;> cases b <;> rfl

theorem bitNot_toInt (a : Bool) : bitNot mode a.toInt = .ok (!a).toInt := by
  cases mode <;> cases a <;> rfl

theorem bitOr_toInt (a b : Bool) : bitOr mode a.toInt b.toInt = .ok (a || b).toInt := by
  cases mode <;> cases a <;> cases b <;> rfl

theorem bitSelect_toInt (b ifSet ifClear : Bool) :
    bitSelect mode b.toInt ifSet.toInt ifClear.toInt =
      .ok (if b then ifSet else ifClear).toInt := by
  cases mode <;> cases b <;> cases ifSet <;> cases ifClear <;> rfl

theorem bitIfRequired_toInt (check flag : Bool) :
    bitIfRequired mode check.toInt flag = .ok (!flag || check).toInt := by
  rw [bitIfRequired, bitNot_toInt, ok_bind, bitOr_toInt]

theorem foldlM_bitAnd (bits : List Bool) (a : Bool) :
    (bits.map Bool.toInt).foldlM (bitAnd mode) a.toInt = .ok (a && bits.all id).toInt := by
  induction bits generalizing a with
  | nil => simp [pure, Except.pure]
  | cons b bits ih =>
    rw [List.map_cons, List.foldlM_cons, bitAnd_toInt, ok_bind, ih, List.all_cons, Bool.and_assoc]
    rfl

theorem bitAll_toInt (bits : List Bool) :
    bitAll mode (bits.map Bool.toInt) = .ok (bits.all id).toInt :=
  foldlM_bitAnd mode bits true

end Bits

/-! ### Outcomes -/

/-- A computation that may also refuse its input. -/
abbrev Run := ExceptT ContextError Machine

/-- Whether a computation comes to its end without a fault, and how it ends. -/
def Computes {α : Type} (x : Run α) (y : Except ContextError α) : Prop :=
  x.run = .ok y

section Computes

variable {α β : Type}

theorem computes_pure_iff {a b : α} : Computes (pure a) (.ok b) ↔ a = b := by
  constructor
  · intro h
    exact Except.ok.inj (Except.ok.inj h)
  · rintro rfl
    rfl

theorem computes_throw (e : ContextError) : Computes (throw e : Run α) (.error e) :=
  rfl

theorem Computes.bind_ok {x : Run α} {a : α} {f : α → Run β} {y : Except ContextError β}
    (hx : Computes x (.ok a)) (hf : Computes (f a) y) : Computes (x >>= f) y := by
  have hrun : (x >>= f).run = x.run >>= ExceptT.bindCont f := rfl
  rw [Computes, hrun, hx]
  exact hf

theorem Computes.bind_error {x : Run α} {e : ContextError} {f : α → Run β}
    (hx : Computes x (.error e)) : Computes (x >>= f) (.error e) := by
  have hrun : (x >>= f).run = x.run >>= ExceptT.bindCont f := rfl
  rw [Computes, hrun, hx]
  rfl

/-- One step after another. -/
theorem Computes.bind {x : Run α} {y : Except ContextError α} {f : α → Run β}
    {g : α → Except ContextError β} (hx : Computes x y)
    (hf : ∀ a, y = .ok a → Computes (f a) (g a)) : Computes (x >>= f) (y >>= g) := by
  cases y with
  | error e => exact hx.bind_error
  | ok a => exact hx.bind_ok (hf a rfl)

/-- A computation that cannot refuse its input. -/
theorem Computes.of_eq {x : Machine α} {a : α} (hx : x = .ok a) :
    Computes (liftM x : Run α) (.ok a) := by
  rw [hx]
  rfl

/-- A computation that cannot refuse its input goes in front. -/
theorem Computes.lift {x : Machine α} {a : α} {f : α → Run β} {y : Except ContextError β}
    (hx : x = .ok a) (hf : Computes (f a) y) : Computes (liftM x >>= f) y := by
  rw [hx]
  exact hf

end Computes

end AccessContext.Arithmetic
