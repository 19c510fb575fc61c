import AccessContext.Proofs.Arithmetic.Behavior
import AccessContext.Proofs.Arithmetic.Decision
import AccessContext.Proofs.Arithmetic.Device
import AccessContext.Proofs.Arithmetic.Location
import AccessContext.Proofs.Arithmetic.Time
import AccessContext.Proofs.Refusal

/-!
# The arithmetic of evaluations

An evaluation that keeps track of every operation on integers, from the checks of the input to the
decision. On words, on words that stop at a result they do not hold and on integers of any size it
comes to the same outcome, unless it meets the least offset: the magnitude of that one is no word,
stops the second and makes the others disagree. Main statement: `Witness.evaluate_faultless_iff`.
-/

namespace AccessContext

open Arithmetic

namespace Arithmetic

variable {α β : Type}

/-- A step without arithmetic. -/
def settled (x : Except ContextError α) : Run α :=
  ExceptT.mk (.ok x)

theorem computes_settled (x : Except ContextError α) : Computes (settled x) x :=
  rfl

/-- A step without arithmetic that passed. -/
theorem run_settled_bind {x : Except ContextError α} {a : α} {f : α → Run β} (h : x = .ok a) :
    (settled x >>= f).run = (f a).run := by
  rw [h]
  rfl

/-- The outcome of a category that may be absent. -/
def ifPresentIn (part : Option α) (verify : α → Run β) : Run (Option β) :=
  match part with
  | none => return none
  | some a => do
    let outcome ← verify a
    return some outcome

theorem ifPresentIn_computes {part : Option α} {verifyIn : α → Run β}
    {verify : α → Except ContextError β}
    (h : ∀ a, part = some a → Computes (verifyIn a) (verify a)) :
    Computes (ifPresentIn part verifyIn) (ifPresent part verify) := by
  cases part with
  | none => exact computes_pure_iff.mpr rfl
  | some a =>
    have ha := h a rfl
    rw [ifPresentIn, ifPresent]
    cases hverify : verify a with
    | error e =>
      rw [hverify] at ha
      exact ha.bind_error
    | ok b =>
      rw [hverify] at ha
      exact ha.bind_ok (computes_pure_iff.mpr rfl)

end Arithmetic

namespace Witness

/-- The first thing wrong with the time, if there is one. -/
def timeFaultIn (mode : Mode) (w : Witness) : Machine (Option InputFault) :=
  match w.time with
  | none => return none
  | some t => t.faultIn mode

/-- The first thing wrong in any category that is present. -/
def faultIn (mode : Mode) (w : Witness) : Machine (Option InputFault) :=
  match w.device.bind DeviceWitness.fault? with
  | some fault => return some fault
  | none => do
    let timeFault ← w.timeFaultIn mode
    return timeFault <|> w.location.bind LocationWitness.fault? <|>
      w.behavior.bind BehaviorWitness.fault?

def validateIn (mode : Mode) (w : Witness) : Run Unit := do
  match ← w.faultIn mode with
  | some fault => throw (.invalidInput fault)
  | none => return ()

/-- Judges a request. -/
def evaluateIn (mode : Mode) (w : Witness) (s : Snapshot) (nonce : Nonce) : Run Evaluation := do
  settled nonce.validate
  settled (w.checkVersion s)
  settled (w.checkRequired s)
  w.validateIn mode
  let p := s.policy
  let device ← ifPresentIn w.device fun d => d.verifyIn mode p.device nonce
  let time ← ifPresentIn w.time fun t => t.verifyIn mode p.time
  let location ← ifPresentIn w.location fun l => l.verifyIn mode p.location
  let pattern ← ifPresentIn w.behavior fun b => b.verifyIn mode p.pattern
  let verdicts := Verdicts.ofChecks device time location pattern
  let hashes := Contributions.ofChecks p nonce device time location pattern
  let decision ← verdicts.decisionIn mode hashes p.access nonce s.version
  return ⟨device, time, location, pattern, decision⟩

/-- Whether the magnitude of the offset is taken and is no word: all checks before it pass. -/
structure Overflows (w : Witness) (s : Snapshot) (nonce : Nonce) : Prop where
  challenge : nonce.validate = .ok ()
  version : w.checkVersion s = .ok ()
  required : w.checkRequired s = .ok ()
  device : w.device.bind DeviceWitness.fault? = none
  time : ∃ t, w.time = some t ∧ t.Overflows

variable {mode : Mode} {w : Witness} {s : Snapshot} {nonce : Nonce}

/-! ### Without a fault -/

theorem timeFaultIn_eq (h : ∀ t, w.time = some t → mode = .wrapping ∨ ¬ t.Overflows) :
    w.timeFaultIn mode = .ok (w.time.bind TimeWitness.fault?) := by
  rw [timeFaultIn]
  cases htime : w.time with
  | none => rfl
  | some t => exact TimeWitness.faultIn_eq (h t htime)

theorem faultIn_eq (h : w.device.bind DeviceWitness.fault? = none →
      ∀ t, w.time = some t → mode = .wrapping ∨ ¬ t.Overflows) :
    w.faultIn mode = .ok w.fault? := by
  rw [faultIn, fault?]
  cases hdevice : w.device.bind DeviceWitness.fault? with
  | some fault => rfl
  | none => exact bind_ok (timeFaultIn_eq (h hdevice))

theorem validateIn_computes (h : w.device.bind DeviceWitness.fault? = none →
      ∀ t, w.time = some t → mode = .wrapping ∨ ¬ t.Overflows) :
    Computes (w.validateIn mode) w.validate := by
  apply Computes.lift (faultIn_eq h)
  rw [validate]
  cases w.fault? with
  | some fault => exact computes_throw _
  | none => exact computes_pure_iff.mpr rfl

/-- An evaluation that does not meet the least offset is the same in all modes. -/
theorem evaluateIn_computes (h : mode = .wrapping ∨ ¬ w.Overflows s nonce) :
    Computes (w.evaluateIn mode s nonce) (w.evaluate s nonce) := by
  rw [evaluateIn, evaluate]
  apply Computes.bind (computes_settled _)
  intro _ hchallenge
  apply Computes.bind (computes_settled _)
  intro _ hversion
  apply Computes.bind (computes_settled _)
  intro _ hrequired
  have htimes (hdevice : w.device.bind DeviceWitness.fault? = none) (t : TimeWitness)
      (ht : w.time = some t) : mode = .wrapping ∨ ¬ t.Overflows :=
    h.imp_right fun hno hoverflows =>
      hno ⟨hchallenge, hversion, hrequired, hdevice, t, ht, hoverflows⟩
  apply Computes.bind (validateIn_computes htimes)
  intro _ hvalid
  have hdevice : w.device.bind DeviceWitness.fault? = none :=
    Option.bind_eq_none_iff.mpr (fault?_eq_none_iff.mp (validate_eq_ok_iff.mp hvalid)).1
  apply Computes.bind (ifPresentIn_computes fun d _ =>
    DeviceWitness.verifyIn_computes mode s.policy.device nonce)
  intro device _
  apply Computes.bind (ifPresentIn_computes fun t ht =>
    TimeWitness.verifyIn_computes s.policy.time (htimes hdevice t ht))
  intro time _
  apply Computes.bind (ifPresentIn_computes fun l _ =>
    LocationWitness.verifyIn_computes mode s.policy.location)
  intro location _
  apply Computes.bind (ifPresentIn_computes fun b _ =>
    BehaviorWitness.verifyIn_computes mode s.policy.pattern)
  intro pattern _
  apply Computes.bind (Verdicts.decisionIn_computes mode _ s.policy.access nonce s.version)
  intro decision _
  exact computes_pure_iff.mpr rfl

/-- Words that wrap around always come to the evaluation. -/
theorem run_evaluateIn_wrapping (w : Witness) (s : Snapshot) (nonce : Nonce) :
    (w.evaluateIn .wrapping s nonce).run = .ok (w.evaluate s nonce) :=
  evaluateIn_computes (.inl rfl)

/-! ### The least offset -/

theorem Overflows.faultIn_eq (h : w.Overflows s nonce) :
    w.faultIn mode = (do
      let timeFault ← TimeWitness.offsetFaultIn mode Int32.minValue
      return timeFault <|> w.location.bind LocationWitness.fault? <|>
        w.behavior.bind BehaviorWitness.fault?) := by
  obtain ⟨t, ht, hoverflows⟩ := h.time
  rw [faultIn, h.device, timeFaultIn, ht]
  dsimp only
  rw [TimeWitness.faultIn_of_overflows hoverflows]

theorem Overflows.run_evaluateIn (h : w.Overflows s nonce) :
    (w.evaluateIn .checked s nonce).run = .error (.overflow i32 2147483648) := by
  rw [evaluateIn, run_settled_bind h.challenge, run_settled_bind h.version,
    run_settled_bind h.required, validateIn, h.faultIn_eq, TimeWitness.offsetFaultIn_checked]
  rfl

theorem Overflows.run_evaluateIn_exact (h : w.Overflows s nonce) :
    (w.evaluateIn .exact s nonce).run =
      .ok (.error (.invalidInput (.offsetTooLarge Int32.minValue TimeWitness.maxOffset))) := by
  rw [evaluateIn, run_settled_bind h.challenge, run_settled_bind h.version,
    run_settled_bind h.required, validateIn, h.faultIn_eq, TimeWitness.offsetFaultIn_exact]
  rfl

/-! ### Main statement -/

/-- An offset beyond its bound is a fault of the input, unless its magnitude is taken and is no
word. -/
theorem exists_validate_eq_error {t : TimeWitness} (ht : w.time = some t)
    (hbeyond : t.offset < -TimeWitness.maxOffset ∨ TimeWitness.maxOffset < t.offset)
    (h : ¬ t.Overflows) : ∃ fault, w.validate = .error (.invalidInput fault) := by
  cases hfault : w.fault? with
  | some fault =>
    use fault
    rw [validate, hfault]
  | none =>
    have htime := (fault?_eq_none_iff.mp hfault).2.1 t ht
    have hmin : t.offset ≠ Int32.minValue := fun hmin => h (.of_fault? htime hmin)
    obtain ⟨-, -, -, habs⟩ := TimeWitness.bounds_of_fault? htime hmin
    have hlow : (-TimeWitness.maxOffset).toInt = -50400 := rfl
    have hhigh : TimeWitness.maxOffset.toInt = 50400 := rfl
    rw [Int32.lt_iff_toInt_lt, Int32.lt_iff_toInt_lt, hlow, hhigh] at hbeyond
    omega

/-- All arithmetic of an evaluation goes through, on words and on integers of any size with the
same outcome, exactly if it does not take the magnitude of the least offset; and a time with any
other offset beyond its bound is refused as a fault of the input. -/
theorem evaluate_faultless_iff (w : Witness) (s : Snapshot) (nonce : Nonce) :
    ((∀ mode, (w.evaluateIn mode s nonce).run = .ok (w.evaluate s nonce)) ↔
        ¬ w.Overflows s nonce) ∧
      ∀ t, w.time = some t →
        t.offset < -TimeWitness.maxOffset ∨ TimeWitness.maxOffset < t.offset →
        ¬ t.Overflows →
        ∃ fault, w.validate = .error (.invalidInput fault) ∧
          w.evaluate s nonce = (do
            nonce.validate
            w.checkVersion s
            w.checkRequired s
            throw (.invalidInput fault)) := by
  constructor
  · constructor
    · intro h hoverflows
      have hchecked := h .checked
      rw [hoverflows.run_evaluateIn] at hchecked
      cases hchecked
    · intro h mode
      exact evaluateIn_computes (.inr h)
  · intro t ht hbeyond hno
    obtain ⟨fault, hfault⟩ := exists_validate_eq_error ht hbeyond hno
    refine ⟨fault, hfault, ?_⟩
    rw [evaluate, hfault]
    rfl

/-- The time of an access at the end of the lenient policy, with some offset. -/
def withOffset (offset : Int32) : Witness :=
  { empty with time := some ⟨1700000000, 1700000000, offset, .zero⟩ }

theorem evaluate_faultless_one_second :
    (∀ mode, ((withOffset 50401).evaluateIn mode Snapshot.lenient ⟨[1]⟩).run =
        .ok ((withOffset 50401).evaluate Snapshot.lenient ⟨[1]⟩)) ∧
      ∃ fault, (withOffset 50401).validate = .error (.invalidInput fault) := by
  obtain ⟨hmodes, hrefused⟩ := evaluate_faultless_iff (withOffset 50401) Snapshot.lenient ⟨[1]⟩
  have hno : ¬ (⟨1700000000, 1700000000, 50401, .zero⟩ : TimeWitness).Overflows :=
    fun h => absurd h.offset (by decide)
  constructor
  · apply hmodes.mpr
    intro h
    obtain ⟨t, ht, hoverflows⟩ := h.time
    obtain rfl := Option.some.inj ht
    exact hno hoverflows
  · obtain ⟨fault, hfault, -⟩ := hrefused _ rfl (.inr (by decide)) hno
    exact ⟨fault, hfault⟩

/-- The least offset is accepted, although it is beyond the bound: words that do not wrap around
stop at its magnitude, and integers refuse it. -/
theorem evaluate_least_offset :
    (∃ e, (withOffset Int32.minValue).evaluate Snapshot.lenient ⟨[1]⟩ = .ok e) ∧
      ((withOffset Int32.minValue).evaluateIn .checked Snapshot.lenient ⟨[1]⟩).run =
        .error (.overflow i32 2147483648) ∧
      ((withOffset Int32.minValue).evaluateIn .exact Snapshot.lenient ⟨[1]⟩).run =
        .ok (.error (.invalidInput (.offsetTooLarge Int32.minValue 50400))) := by
  have hoverflows : (withOffset Int32.minValue).Overflows Snapshot.lenient ⟨[1]⟩ :=
    ⟨rfl, rfl, rfl, rfl, _, rfl, ⟨by decide, by decide, by decide, rfl⟩⟩
  exact ⟨exists_evaluate rfl rfl rfl (by decide), hoverflows.run_evaluateIn,
    hoverflows.run_evaluateIn_exact⟩

end Witness

end AccessContext
