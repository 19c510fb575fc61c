import AccessContext.Proofs.R1cs.Building
import AccessContext.Proofs.R1cs.Terms
import AccessContext.R1cs.PublicVector

/-!
# Wires of public vectors

A vector that was read off a list is the list again. The variables that a relation makes of the
numbers of a vector form a vector, too. If the numbers are the residues of integers, the variables
hold these, field by field.
-/

namespace AccessContext.R1cs

variable (a : Assignment)

structure SignalVector.Holds (z : SignalVector (Wire Scalar)) (v : SignalVector Int) : Prop where
  device : z.device.Holds a v.device
  time : z.time.Holds a v.time
  location : z.location.Holds a v.location
  pattern : z.pattern.Holds a v.pattern
  overall : z.overall.Holds a v.overall
  trust : z.trust.Holds a v.trust
  levelMet : z.levelMet.Holds a v.levelMet
  level : z.level.Holds a v.level
  requirements : z.requirements.Holds a v.requirements
  risk : z.risk.Holds a v.risk

structure TimeVector.Holds (z : TimeVector (Wire Scalar)) (v : TimeVector Int) : Prop where
  earliest : z.earliest.Holds a v.earliest
  latest : z.latest.Holds a v.latest
  minInterval : z.minInterval.Holds a v.minInterval
  opens : z.opens.Holds a v.opens
  closes : z.closes.Holds a v.closes
  requireHours : z.requireHours.Holds a v.requireHours
  requireCode : z.requireCode.Holds a v.requireCode
  expectedCode : z.expectedCode.Holds a v.expectedCode

structure DiskVector.Holds (z : DiskVector (Wire Scalar)) (v : DiskVector Int) : Prop where
  lat : z.lat.Holds a v.lat
  lon : z.lon.Holds a v.lon
  radiusSq : z.radiusSq.Holds a v.radiusSq

structure LocationVector.Holds (z : LocationVector (Wire Scalar)) (v : LocationVector Int) :
    Prop where
  authorized : z.authorized.Holds a v.authorized
  hasBlacklist : z.hasBlacklist.Holds a v.hasBlacklist
  blacklisted : z.blacklisted.Holds a v.blacklisted
  maxSpeed : z.maxSpeed.Holds a v.maxSpeed
  ipToleranceSq : z.ipToleranceSq.Holds a v.ipToleranceSq
  requireIp : z.requireIp.Holds a v.requireIp

structure PatternVector.Holds (z : PatternVector (Wire Scalar)) (v : PatternVector Int) :
    Prop where
  minSession : z.minSession.Holds a v.minSession
  maxSession : z.maxSession.Holds a v.maxSession
  minTyping : z.minTyping.Holds a v.minTyping
  maxTyping : z.maxTyping.Holds a v.maxTyping
  maxVariance : z.maxVariance.Holds a v.maxVariance
  riskThreshold : z.riskThreshold.Holds a v.riskThreshold

/-! ### Vectors of lists -/

section Vectors

variable {α : Type} {l rest : List α}

theorem SignalVector.eq_of_take? {v : SignalVector α} (h : take? l = some (v, rest)) :
    l = v.toList ++ rest := by
  unfold take? at h
  split at h
  · cases h
    rfl
  · cases h

theorem TimeVector.eq_of_take? {v : TimeVector α} (h : take? l = some (v, rest)) :
    l = v.toList ++ rest := by
  unfold take? at h
  split at h
  · cases h
    rfl
  · cases h

theorem LocationVector.eq_of_take? {v : LocationVector α} (h : take? l = some (v, rest)) :
    l = v.toList ++ rest := by
  unfold take? at h
  split at h
  · cases h
    rfl
  · cases h

theorem PatternVector.eq_of_take? {v : PatternVector α} (h : take? l = some (v, rest)) :
    l = v.toList ++ rest := by
  unfold take? at h
  split at h
  · cases h
    rfl
  · cases h

theorem SignalVector.eq_of_ofList? {v : SignalVector α} (h : ofList? l = some v) :
    l = v.toList := by
  unfold ofList? at h
  split at h
  · next hl =>
    cases h
    rw [eq_of_take? hl, List.append_nil]
  · cases h

theorem ContextVector.eq_of_ofList? {v : ContextVector α} (h : ofList? l = some v) :
    l = v.toList := by
  unfold ofList? at h
  simp only [Option.bind_eq_bind, Option.bind_eq_some_iff] at h
  obtain ⟨⟨signals, l₁⟩, hsignals, ⟨time, l₂⟩, htime, ⟨location, l₃⟩, hlocation,
    ⟨pattern, l₄⟩, hpattern, hbinding⟩ := h
  dsimp only at htime hlocation hpattern hbinding
  rw [SignalVector.eq_of_take? hsignals, TimeVector.eq_of_take? htime,
    LocationVector.eq_of_take? hlocation, PatternVector.eq_of_take? hpattern]
  split at hbinding
  · next binding =>
    cases hbinding
    simp only [toList, List.append_assoc]
  · cases hbinding

variable {β : Type} {f : α → β} {l' : List α}

def ContextVector.map (f : α → β) (v : ContextVector α) : ContextVector β :=
  ⟨v.signals.map f, v.time.map f, v.location.map f, v.pattern.map f, f v.binding⟩

theorem SignalVector.map_eq_of_ofList? {v v' : SignalVector α} (hv : ofList? l = some v)
    (hv' : ofList? l' = some v') (h : l.map f = l'.map f) : v.map f = v'.map f := by
  rw [eq_of_ofList? hv, eq_of_ofList? hv'] at h
  have hmap : ofList? (v.toList.map f) = ofList? (v'.toList.map f) := congrArg ofList? h
  exact Option.some.inj hmap

theorem ContextVector.map_eq_of_ofList? {v v' : ContextVector α} (hv : ofList? l = some v)
    (hv' : ofList? l' = some v') (h : l.map f = l'.map f) : v.map f = v'.map f := by
  rw [eq_of_ofList? hv, eq_of_ofList? hv'] at h
  have hmap : ofList? (v.toList.map f) = ofList? (v'.toList.map f) := congrArg ofList? h
  exact Option.some.inj hmap

end Vectors

/-! ### Numbered variables -/

/-- The first ten variables. -/
def SignalVector.wires (v : SignalVector Scalar) : SignalVector (Wire Scalar) where
  device := ⟨.aux 0, some v.device⟩
  time := ⟨.aux 1, some v.time⟩
  location := ⟨.aux 2, some v.location⟩
  pattern := ⟨.aux 3, some v.pattern⟩
  overall := ⟨.aux 4, some v.overall⟩
  trust := ⟨.aux 5, some v.trust⟩
  levelMet := ⟨.aux 6, some v.levelMet⟩
  level := ⟨.aux 7, some v.level⟩
  requirements := ⟨.aux 8, some v.requirements⟩
  risk := ⟨.aux 9, some v.risk⟩

/-- The first variables, as many as the vector has numbers. -/
def ContextVector.wires (v : ContextVector Scalar) : ContextVector (Wire Scalar) where
  signals := v.signals.wires
  time :=
    { earliest := ⟨.aux 10, some v.time.earliest⟩
      latest := ⟨.aux 11, some v.time.latest⟩
      minInterval := ⟨.aux 12, some v.time.minInterval⟩
      opens := ⟨.aux 13, some v.time.opens⟩
      closes := ⟨.aux 14, some v.time.closes⟩
      requireHours := ⟨.aux 15, some v.time.requireHours⟩
      requireCode := ⟨.aux 16, some v.time.requireCode⟩
      expectedCode := ⟨.aux 17, some v.time.expectedCode⟩ }
  location :=
    { authorized :=
        { lat := ⟨.aux 18, some v.location.authorized.lat⟩
          lon := ⟨.aux 19, some v.location.authorized.lon⟩
          radiusSq := ⟨.aux 20, some v.location.authorized.radiusSq⟩ }
      hasBlacklist := ⟨.aux 21, some v.location.hasBlacklist⟩
      blacklisted :=
        { lat := ⟨.aux 22, some v.location.blacklisted.lat⟩
          lon := ⟨.aux 23, some v.location.blacklisted.lon⟩
          radiusSq := ⟨.aux 24, some v.location.blacklisted.radiusSq⟩ }
      maxSpeed := ⟨.aux 25, some v.location.maxSpeed⟩
      ipToleranceSq := ⟨.aux 26, some v.location.ipToleranceSq⟩
      requireIp := ⟨.aux 27, some v.location.requireIp⟩ }
  pattern :=
    { minSession := ⟨.aux 28, some v.pattern.minSession⟩
      maxSession := ⟨.aux 29, some v.pattern.maxSession⟩
      minTyping := ⟨.aux 30, some v.pattern.minTyping⟩
      maxTyping := ⟨.aux 31, some v.pattern.maxTyping⟩
      maxVariance := ⟨.aux 32, some v.pattern.maxVariance⟩
      riskThreshold := ⟨.aux 33, some v.pattern.riskThreshold⟩ }
  binding := ⟨.aux 34, some v.binding⟩

theorem SignalVector.ofList?_inputWires (v : SignalVector Scalar) :
    ofList? (inputWires 0 v.toList) = some v.wires := rfl

theorem ContextVector.ofList?_inputWires (v : ContextVector Scalar) :
    ofList? (inputWires 0 v.toList) = some v.wires := rfl

variable {a}

/-- The values of the wires are the numbers themselves. -/
theorem SignalVector.values_wires {v : SignalVector Scalar}
    (h : ∀ i x, v.toList[i]? = some x → a.value (.aux i) = x) :
    v.wires.map (fun w => a.value w.var) = v := by
  simp only [map, wires, h 0 _ rfl, h 1 _ rfl, h 2 _ rfl, h 3 _ rfl, h 4 _ rfl, h 5 _ rfl,
    h 6 _ rfl, h 7 _ rfl, h 8 _ rfl, h 9 _ rfl]

/-! ### Integers in the numbered variables -/

theorem bool_bounds (b : Bool) : -2 ^ 63 ≤ b.toInt ∧ b.toInt < 2 ^ 64 := by
  cases b <;> exact ⟨by decide, by decide⟩

theorem byte_bounds (n : UInt8) : -2 ^ 63 ≤ (n.toNat : Int) ∧ (n.toNat : Int) < 2 ^ 64 := by
  have := n.toNat_lt
  omega

theorem uint32_bounds (n : UInt32) : -2 ^ 63 ≤ (n.toNat : Int) ∧ (n.toNat : Int) < 2 ^ 64 := by
  have := n.toNat_lt
  omega

theorem uint64_bounds (n : UInt64) : -2 ^ 63 ≤ (n.toNat : Int) ∧ (n.toNat : Int) < 2 ^ 64 := by
  have := n.toNat_lt
  omega

theorem int32_bounds (n : Int32) : -2 ^ 63 ≤ n.toInt ∧ n.toInt < 2 ^ 64 := by
  have := n.le_toInt
  have := n.toInt_lt
  omega

theorem int64_bounds (n : Int64) : -2 ^ 63 ≤ n.toInt ∧ n.toInt < 2 ^ 64 := by
  have := n.le_toInt
  have := n.toInt_lt
  omega

theorem holds_signals_wires {g : PublicSignals}
    (h : ∀ i x, (g.vector.map Scalar.ofInt).toList[i]? = some x → a.value (.aux i) = x) :
    (g.vector.map Scalar.ofInt).wires.Holds a g.vector where
  device := ⟨rfl, h 0 _ rfl, bool_bounds _⟩
  time := ⟨rfl, h 1 _ rfl, bool_bounds _⟩
  location := ⟨rfl, h 2 _ rfl, bool_bounds _⟩
  pattern := ⟨rfl, h 3 _ rfl, bool_bounds _⟩
  overall := ⟨rfl, h 4 _ rfl, bool_bounds _⟩
  trust := ⟨rfl, h 5 _ rfl, byte_bounds _⟩
  levelMet := ⟨rfl, h 6 _ rfl, bool_bounds _⟩
  level := ⟨rfl, h 7 _ rfl, byte_bounds _⟩
  requirements := ⟨rfl, h 8 _ rfl, byte_bounds _⟩
  risk := ⟨rfl, h 9 _ rfl, byte_bounds _⟩

variable {s : Statement}
  (h : ∀ i x, s.publicVector.toList[i]? = some x → a.value (.aux i) = x)

include h

theorem holds_time_wires : s.publicVector.wires.time.Holds a s.snapshot.policy.time.vector where
  earliest := ⟨rfl, h 10 _ rfl, int64_bounds _⟩
  latest := ⟨rfl, h 11 _ rfl, int64_bounds _⟩
  minInterval := ⟨rfl, h 12 _ rfl, int64_bounds _⟩
  opens := ⟨rfl, h 13 _ rfl, byte_bounds _⟩
  closes := ⟨rfl, h 14 _ rfl, byte_bounds _⟩
  requireHours := ⟨rfl, h 15 _ rfl, bool_bounds _⟩
  requireCode := ⟨rfl, h 16 _ rfl, bool_bounds _⟩
  expectedCode := ⟨rfl, h 17 _ rfl, uint32_bounds _⟩

theorem holds_location_wires :
    s.publicVector.wires.location.Holds a s.snapshot.policy.location.vector where
  authorized := ⟨⟨rfl, h 18 _ rfl, int32_bounds _⟩, ⟨rfl, h 19 _ rfl, int32_bounds _⟩,
    ⟨rfl, h 20 _ rfl, uint64_bounds _⟩⟩
  hasBlacklist := ⟨rfl, h 21 _ rfl, bool_bounds _⟩
  blacklisted := ⟨⟨rfl, h 22 _ rfl, int32_bounds _⟩, ⟨rfl, h 23 _ rfl, int32_bounds _⟩,
    ⟨rfl, h 24 _ rfl, uint64_bounds _⟩⟩
  maxSpeed := ⟨rfl, h 25 _ rfl, uint64_bounds _⟩
  ipToleranceSq := ⟨rfl, h 26 _ rfl, uint64_bounds _⟩
  requireIp := ⟨rfl, h 27 _ rfl, bool_bounds _⟩

theorem holds_pattern_wires :
    s.publicVector.wires.pattern.Holds a s.snapshot.policy.pattern.vector where
  minSession := ⟨rfl, h 28 _ rfl, int64_bounds _⟩
  maxSession := ⟨rfl, h 29 _ rfl, int64_bounds _⟩
  minTyping := ⟨rfl, h 30 _ rfl, uint32_bounds _⟩
  maxTyping := ⟨rfl, h 31 _ rfl, uint32_bounds _⟩
  maxVariance := ⟨rfl, h 32 _ rfl, uint64_bounds _⟩
  riskThreshold := ⟨rfl, h 33 _ rfl, byte_bounds _⟩

/-- The signals come first in the public vector. -/
theorem values_signals_wires {i : Nat} {x : Scalar}
    (hx : (s.signals.vector.map Scalar.ofInt).toList[i]? = some x) : a.value (.aux i) = x := by
  refine h i x ?_
  obtain ⟨hlt, -⟩ := List.getElem?_eq_some_iff.mp hx
  rw [ContextVector.toList, List.append_assoc, List.append_assoc, List.append_assoc,
    List.getElem?_append_left]
  · exact hx
  · exact hlt

end AccessContext.R1cs
