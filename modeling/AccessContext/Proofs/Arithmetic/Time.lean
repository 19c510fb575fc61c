import AccessContext.Proofs.Arithmetic.Machine
import AccessContext.Proofs.Calendar

/-!
# The arithmetic of the time category

Every operation on integers in the checks on a time of access, from the magnitude of the offset to
the code. The magnitude is the only one that can fail: that of the least offset is no word.
-/

namespace AccessContext

open Arithmetic

/-- The hour of the day where clocks differ by `offset` seconds. -/
def clockHourIn (mode : Mode) (time offset : Int) : Machine Int := do
  let shifted ← store mode i128 (time + offset)
  let second ← remainder mode i128 shifted secondsPerDay
  let hour ← divide mode i128 second secondsPerHour
  store mode u8 hour

/-- The number of the step that a time falls into. -/
def stepNumberIn (mode : Mode) (time step : Int) : Machine Int := do
  let step ← store mode i64 (max step 1)
  divideDown mode i64 time step

/-- Six digits from a seed for one step. -/
def codeIn (mode : Mode) (seed : Bytes32) (step : Int) : Machine Int := do
  let hash := (sha256 (utf8 "zkctx/rolling-code/v1" ++ seed.toList
    ++ beBytes 8 (Int64.ofInt step).toUInt64.toNat)).toList
  let place : Int := (hash.getD 31 0 &&& 0x0f).toNat
  let second ← store mode u64 (place + 1)
  let third ← store mode u64 (place + 2)
  let fourth ← store mode u64 (place + 3)
  let byte (i : Int) : UInt8 := hash.getD i.toNat 0
  let number := ofBeBytes [byte place &&& 0x7f, byte second, byte third, byte fourth]
  remainder mode u32 number 1000000

/-- Whether an hour lies in the half-open range. -/
def withinHoursIn (mode : Mode) (hour opens closes : Int) : Machine Int := do
  let afterOpening := (decide (opens ≤ hour)).toInt
  let beforeClosing := (decide (hour < closes)).toInt
  let both ← bitAnd mode afterOpening beforeClosing
  let either ← bitOr mode afterOpening beforeClosing
  bitSelect mode (decide (opens ≤ closes)).toInt both either

section Parts

variable (mode : Mode)

theorem clockHourIn_eq (time : Int64) (offset : Int32) :
    clockHourIn mode time.toInt offset.toInt = .ok (clockHour time offset).toNat := by
  have h₁ := time.le_toInt
  have h₂ := time.toInt_lt
  have h₃ := offset.le_toInt
  have h₄ := offset.toInt_lt
  have hday : secondsPerDay = 86400 := rfl
  have hhour : secondsPerHour = 3600 := rfl
  rw [clockHourIn, store_signed mode (by omega) (by omega), ok_bind, remainder, hday,
    if_neg (by decide), store_signed mode (by omega) (by omega), ok_bind, divide, hhour,
    if_neg (by decide), Int.tdiv_eq_ediv_of_nonneg (by omega),
    store_signed mode (by omega) (by omega), ok_bind, store_unsigned mode (by omega) (by omega),
    clockHour, UInt8.toNat_ofNat', hday, hhour]
  congr 1
  omega

theorem stepNumberIn_eq {time : Int64} (htime : 0 ≤ time.toInt) (step : UInt32) :
    stepNumberIn mode time.toInt step.toNat = .ok (stepNumber time step).toInt := by
  have htop := time.toInt_lt
  have hstep := step.toNat_lt
  have hmax : (max (step.toNat : Int) 1) = (max step.toNat 1 : Nat) := by omega
  have hpos : 0 < (max step.toNat 1 : Nat) := by omega
  have hle : time.toInt / (max step.toNat 1 : Nat) ≤ time.toInt := Int.ediv_le_self _ htime
  have hnonneg : 0 ≤ time.toInt / (max step.toNat 1 : Nat) :=
    Int.ediv_nonneg htime (Int.natCast_nonneg _)
  rw [stepNumberIn, store_signed mode (by omega) (by omega), ok_bind, divideDown, hmax,
    if_neg (by omega), store_signed mode (by omega) (by omega), stepNumber,
    Int64.toInt_ofInt_of_le (by omega) (by omega)]

theorem take_drop_eq (bs : List UInt8) (place : Nat) (h : place + 3 < bs.length) :
    (bs.drop place).take 4 =
      [bs.getD place 0, bs.getD (place + 1) 0, bs.getD (place + 2) 0, bs.getD (place + 3) 0] := by
  rw [List.drop_eq_getElem_cons (by omega), List.drop_eq_getElem_cons (by omega),
    List.drop_eq_getElem_cons (by omega), List.drop_eq_getElem_cons (by omega)]
  simp only [List.take_succ_cons, List.take_zero]
  rw [List.getElem_eq_getD 0, List.getElem_eq_getD 0, List.getElem_eq_getD 0,
    List.getElem_eq_getD 0]

/-- Without its top bit, the first byte makes the number smaller by a power of two. -/
theorem ofBeBytes_and (a b c d : UInt8) :
    ofBeBytes [a &&& 0x7f, b, c, d] = ofBeBytes [a, b, c, d] % 2147483648 := by
  have ha : (a &&& 0x7f).toNat = a.toNat % 128 := by
    rw [UInt8.toNat_and]
    exact Nat.and_two_pow_sub_one_eq_mod a.toNat 7
  have hb := b.toNat_lt
  have hc := c.toNat_lt
  have hd := d.toNat_lt
  simp [ofBeBytes, ofLeBytes, ha]
  omega

theorem codeIn_eq (seed : Bytes32) (step : Int64) :
    codeIn mode seed step.toInt = .ok (codeAt seed step).toNat := by
  obtain ⟨hash, hhash⟩ : ∃ d : Digest, d = sha256 (utf8 "zkctx/rolling-code/v1" ++ seed.toList
    ++ beBytes 8 step.toUInt64.toNat) := ⟨_, rfl⟩
  have hlength := hash.length_toList
  have hplace : (hash.toList.getD 31 0 &&& 0x0f).toNat = (hash.toList.getD 31 0).toNat % 16 := by
    rw [UInt8.toNat_and]
    exact Nat.and_two_pow_sub_one_eq_mod _ 4
  obtain ⟨place, heq⟩ : ∃ n, n = (hash.toList.getD 31 0).toNat % 16 := ⟨_, rfl⟩
  have hbytes := take_drop_eq hash.toList place (by omega)
  have hsecond : (place : Int) + 1 = (place + 1 : Nat) := rfl
  have hthird : (place : Int) + 2 = (place + 2 : Nat) := rfl
  have hfourth : (place : Int) + 3 = (place + 3 : Nat) := rfl
  rw [codeIn, codeAt, Int64.ofInt_toInt, ← hhash]
  dsimp only
  rw [hplace, ← heq, store_unsigned mode (by omega) (by omega), ok_bind,
    store_unsigned mode (by omega) (by omega), ok_bind, store_unsigned mode (by omega) (by omega),
    ok_bind, ofBeBytes_and, hsecond, hthird, hfourth]
  simp only [Int.toNat_natCast]
  rw [← hbytes, remainder, if_neg (by decide), store_unsigned mode (by omega) (by omega),
    UInt32.toNat_ofNat']
  congr 1
  omega

theorem withinHoursIn_eq (hour opens closes : UInt8) :
    withinHoursIn mode hour.toNat opens.toNat closes.toNat =
      .ok (withinHours hour opens closes).toBool.toInt := by
  rw [withinHoursIn, bitAnd_toInt, ok_bind, bitOr_toInt, ok_bind, bitSelect_toInt]
  simp [withinHours, UInt8.le_iff_toNat_le, UInt8.lt_iff_toNat_lt]

end Parts

namespace TimeWitness

/-- Whether the offset is beyond its bound. -/
def offsetFaultIn (mode : Mode) (offset : Int32) : Machine (Option InputFault) := do
  let magnitude ← store mode i32 offset.toInt.natAbs
  return if maxOffset.toInt < magnitude then some (.offsetTooLarge offset maxOffset) else none

/-- The first thing wrong with the input. -/
def faultIn (mode : Mode) (w : TimeWitness) : Machine (Option InputFault) :=
  if w.current < 0 then return some .currentBeforeEpoch
  else if maxTime < w.current then return some (.currentTooLate maxTime)
  else if w.previous < 0 then return some .previousBeforeEpoch
  else if w.current < w.previous then return some .previousAfterCurrent
  else offsetFaultIn mode w.offset

/-- Times in order, with the one offset whose magnitude is no word. -/
structure Overflows (w : TimeWitness) : Prop where
  previous : 0 ≤ w.previous
  ordered : w.previous ≤ w.current
  current : w.current ≤ maxTime
  offset : w.offset = Int32.minValue

/-- The checks on a time of access. -/
def checksIn (mode : Mode) (w : TimeWitness) (p : TimePolicy) : Machine TimeChecks := do
  let inWindow ← bitAnd mode (decide (p.earliest ≤ w.current)).toInt
    (decide (w.current ≤ p.latest)).toInt
  let elapsed := saturate mode i64 (w.current.toInt - w.previous.toInt)
  let rateLimitOk := (decide (p.minInterval.toInt ≤ elapsed)).toInt
  let hour ← clockHourIn mode w.current.toInt w.offset.toInt
  let hoursOk ← bitIfRequired mode (← withinHoursIn mode hour p.opens.toNat p.closes.toNat)
    p.requireHours
  let code ← codeIn mode w.seed (← stepNumberIn mode w.current.toInt p.codeStep.toNat)
  let codeOk ← bitIfRequired mode (decide (code = p.expectedCode.toNat)).toInt p.requireCode
  let verified ← bitAll mode [inWindow, rateLimitOk, hoursOk, codeOk]
  return {
    inWindow := isSet inWindow
    rateLimitOk := isSet rateLimitOk
    hoursOk := isSet hoursOk
    codeOk := isSet codeOk
    verified := isSet verified
    proofHash := p.proofHash (isSet verified) }

/-- The checks on a time whose input is well formed. -/
def verifyIn (mode : Mode) (w : TimeWitness) (p : TimePolicy) : Run TimeChecks := do
  match ← w.faultIn mode with
  | some fault => throw (.invalidInput fault)
  | none => w.checksIn mode p

variable {mode : Mode} {w : TimeWitness}

/-- On words the least offset is no fault, so it comes as far as its magnitude. -/
theorem Overflows.of_fault? (h : w.fault? = none) (hmin : w.offset = Int32.minValue) :
    w.Overflows := by
  obtain ⟨hprevious, hordered, hcurrent⟩ := times_of_fault? h
  have hzero : (0 : Int64).toInt = 0 := rfl
  have hmax : maxTime.toInt = 253402300799 := rfl
  constructor
  · rwa [Int64.le_iff_toInt_le, hzero]
  · rwa [Int64.le_iff_toInt_le]
  · rwa [Int64.le_iff_toInt_le, hmax]
  · exact hmin

theorem store_abs {offset : Int32} (h : mode = .wrapping ∨ offset ≠ Int32.minValue) :
    store mode i32 offset.toInt.natAbs = .ok offset.abs.toInt := by
  by_cases hmin : offset = Int32.minValue
  · obtain rfl := h.resolve_right (not_not.mpr hmin)
    rw [hmin]
    exact congrArg Except.ok (by decide +kernel)
  · have hlow := offset.le_toInt
    have hhigh := offset.toInt_lt
    have hne : offset.toInt ≠ -2 ^ 31 := fun heq => hmin (Int32.toInt_inj.mp heq)
    rw [toInt_abs hmin, store_signed mode (by omega) (by omega)]

theorem offsetFaultIn_eq {offset : Int32} (h : mode = .wrapping ∨ offset ≠ Int32.minValue) :
    offsetFaultIn mode offset =
      .ok (if maxOffset < offset.abs then some (.offsetTooLarge offset maxOffset) else none) := by
  rw [offsetFaultIn, store_abs h, ok_bind]
  simp only [← Int32.lt_iff_toInt_lt]
  rfl

theorem natAbs_minValue : (Int32.minValue.toInt.natAbs : Int) = 2147483648 := by
  decide +kernel

/-- No word is the magnitude of the least offset. -/
theorem offsetFaultIn_checked :
    offsetFaultIn .checked Int32.minValue = .error (.overflow i32 2147483648) := by
  rw [offsetFaultIn, natAbs_minValue, store, if_neg (by decide), error_bind]

theorem offsetFaultIn_exact :
    offsetFaultIn .exact Int32.minValue = .ok (some (.offsetTooLarge Int32.minValue maxOffset)) := by
  rw [offsetFaultIn, natAbs_minValue, store, ok_bind, if_pos (by decide)]
  rfl

theorem faultIn_of_overflows (h : w.Overflows) :
    w.faultIn mode = offsetFaultIn mode Int32.minValue := by
  rw [faultIn, if_neg, if_neg, if_neg, if_neg, h.offset]
  · exact Int64.not_lt.mpr h.ordered
  · exact Int64.not_lt.mpr h.previous
  · exact Int64.not_lt.mpr h.current
  · exact Int64.not_lt.mpr (Int64.le_trans h.previous h.ordered)

/-- Apart from that offset, the first fault is the same in all modes. -/
theorem faultIn_eq (h : mode = .wrapping ∨ ¬ w.Overflows) : w.faultIn mode = .ok w.fault? := by
  rw [faultIn, fault?]
  split_ifs with hcurrent hlate hprevious horder hbig
  · rfl
  · rfl
  · rfl
  · rfl
  all_goals
    rw [Int64.not_lt] at hlate hprevious horder
    rw [offsetFaultIn_eq (h.imp_right fun hno hmin => hno ⟨hprevious, horder, hlate, hmin⟩)]
  · rw [if_pos hbig]
  · rw [if_neg hbig]

theorem checksIn_eq (p : TimePolicy) (h : w.fault? = none) :
    w.checksIn mode p = .ok (w.checks p) := by
  obtain ⟨hprevious, hle, -⟩ := times_of_fault? h
  have htop := w.current.toInt_lt
  have helapsed : saturate mode i64 (w.current.toInt - w.previous.toInt) =
      (saturate64 (w.current.toInt - w.previous.toInt)).toInt := by
    rw [toInt_elapsed h]
    exact saturate_signed mode (by omega) (by omega)
  rw [checksIn, bitAnd_toInt, ok_bind, helapsed, clockHourIn_eq, ok_bind, withinHoursIn_eq,
    ok_bind, bitIfRequired_toInt, ok_bind, stepNumberIn_eq mode (by omega), ok_bind, codeIn_eq,
    ok_bind, bitIfRequired_toInt, ok_bind]
  refine (bind_ok (bitAll_toInt mode [_, _, _, _])).trans ?_
  simp [checks, code, Int64.le_iff_toInt_le, ← UInt32.toNat_inj, pure, Except.pure]

theorem verifyIn_computes (p : TimePolicy) (h : mode = .wrapping ∨ ¬ w.Overflows) :
    Computes (w.verifyIn mode p) (w.verify p) := by
  apply Computes.lift (faultIn_eq h)
  rw [verify]
  cases hfault : w.fault? with
  | some fault => exact computes_throw _
  | none => exact Computes.of_eq (checksIn_eq p hfault)

end TimeWitness

end AccessContext
