/-!
# Categories of context and levels of strictness

A request is judged in four categories, always listed in the same order. How good the whole
context has to be is chosen among four levels.
-/

namespace AccessContext

/-- What a part of the context is about. -/
inductive Category
  | device
  | time
  | location
  | pattern
deriving DecidableEq

namespace Category

/-- The categories in the order in which they are checked and reported. -/
def all : List Category :=
  [device, time, location, pattern]

def name : Category → String
  | device => "device"
  | time => "time"
  | location => "location"
  | pattern => "pattern"

theorem mem_all (c : Category) : c ∈ all := by
  cases c <;> simp [all]

end Category

/-- How strictly the whole context is judged. -/
inductive Level
  | basic
  | standard
  | high
  | maximum
deriving DecidableEq

namespace Level

def all : List Level :=
  [basic, standard, high, maximum]

def name : Level → String
  | basic => "Basic"
  | standard => "Standard"
  | high => "High"
  | maximum => "Maximum"

/-- Levels are numbered from 1. -/
def number : Level → UInt8
  | basic => 1
  | standard => 2
  | high => 3
  | maximum => 4

def ofNumber? (n : UInt8) : Option Level :=
  if n = 1 then some basic
  else if n = 2 then some standard
  else if n = 3 then some high
  else if n = 4 then some maximum
  else none

/-- The least trust score that a level accepts: a quarter of the scale for each step. -/
def minTrust (level : Level) : UInt8 :=
  level.number * 25

theorem ofNumber?_eq_some_iff {n : UInt8} {level : Level} :
    ofNumber? n = some level ↔ n = level.number := by
  constructor
  · intro h
    unfold ofNumber? at h
    repeat' split at h
    all_goals (cases h <;> assumption)
  · rintro rfl
    cases level <;> rfl

theorem toNat_minTrust (level : Level) : level.minTrust.toNat = 25 * level.number.toNat := by
  cases level <;> rfl

end Level

end AccessContext
