import AccessContext.Decision
import Mathlib.Tactic.SplitIfs
import Mathlib.Tactic.Common

/-!
# The decision rule

What a decision says in numbers: the trust score is a quarter of the weighted points, rounded
down, and it never leaves the scale; the level is met from 25 points for each step on. Signals
are consistent if their overall verdict, trust and level follow from their own verdicts, which
is so exactly for the signals of decisions. Main statements: `Verdicts.trust_eq_ok_iff`,
`PublicSignals.isConsistent_iff_decision`, `PublicSignals.isDecided_iff`.
-/

namespace AccessContext

theorem toNat_boolWord (b : Bool) : (PublicSignals.boolWord b).toNat = b.toNat := by
  cases b <;> rfl

namespace Verdicts

/-- The points of verdicts, of which a quarter is the trust score. -/
def points (v : Verdicts) : Nat :=
  120 * v.device.toNat + 80 * v.time.toNat + 100 * v.location.toNat + (100 - v.risk.toNat)

/-- A trust score is a quarter of the points, and is refused only for a risk out of range. -/
theorem trust_eq_ok_iff {v : Verdicts} {t : UInt8} :
    v.trust = .ok t ↔ v.risk.toNat ≤ 100 ∧ t.toNat = v.points / 4 := by
  have hdevice := v.device.toNat_lt
  have htime := v.time.toNat_lt
  have hlocation := v.location.toNat_lt
  have hrisk : (100 : UInt64) < v.risk.toUInt64 ↔ 100 < v.risk.toNat := by
    rw [UInt64.lt_iff_toNat_lt, UInt8.toNat_toUInt64]
    rfl
  by_cases h : v.risk.toNat ≤ 100
  · obtain ⟨score, hscore⟩ : ∃ s : UInt64, s = (120 * PublicSignals.boolWord v.device
        + 80 * PublicSignals.boolWord v.time + 100 * PublicSignals.boolWord v.location
        + (100 - v.risk.toUInt64)) / 4 := ⟨_, rfl⟩
    have hnat : score.toNat = v.points / 4 := by
      rw [hscore]
      have hle : v.risk.toUInt64 ≤ 100 := by
        rw [UInt64.le_iff_toNat_le, UInt8.toNat_toUInt64]
        exact h
      simp only [UInt64.toNat_div, UInt64.toNat_add, UInt64.toNat_mul, toNat_boolWord,
        UInt64.toNat_sub_of_le _ _ hle, UInt8.toNat_toUInt64, UInt64.reduceToNat, points]
      omega
    have hle : v.points / 4 ≤ 100 := by
      unfold points
      omega
    have htrust : v.trust = .ok score.toUInt8 := by
      unfold trust
      rw [if_neg (by rw [hrisk]; omega)]
      dsimp only
      rw [← hscore, if_neg]
      rw [UInt64.lt_iff_toNat_lt, hnat]
      exact Nat.not_lt.mpr hle
    rw [htrust, Except.ok.injEq, ← UInt8.toNat_inj, UInt64.toNat_toUInt8, hnat]
    omega
  · have htrust : v.trust = .error (.riskOutOfRange v.risk.toUInt64.toNat) := by
      unfold trust
      rw [if_pos (by rw [hrisk]; omega)]
    rw [htrust]
    simp [h]

/-- The points never leave the scale, so a risk within it is enough for a trust score. -/
theorem exists_trust {v : Verdicts} (h : v.risk ≤ 100) : ∃ t, v.trust = .ok t := by
  have hdevice := v.device.toNat_lt
  have htime := v.time.toNat_lt
  have hlocation := v.location.toNat_lt
  have hpoints : v.points / 4 < 256 := by
    unfold points
    omega
  exact ⟨UInt8.ofNat (v.points / 4),
    trust_eq_ok_iff.mpr ⟨UInt8.le_iff_toNat_le.mp h, UInt8.toNat_ofNat_of_lt' hpoints⟩⟩

/-- A decision is made exactly if there is a trust score, and the score and the verdicts determine it. -/
theorem decision_eq_ok_iff {v : Verdicts} {hashes : Contributions} {access : AccessPolicy}
    {nonce : Nonce} {version : UInt64} {d : Decision} :
    v.decision hashes access nonce version = .ok d ↔ ∃ t, v.trust = .ok t ∧ d =
      { artifact := ⟨v.device, v.time, v.location, v.pattern, v.overall access.requirements, t,
          access.level.isReached t,
          auditDigest (v.overall access.requirements) t access nonce version hashes⟩
        signals := ⟨v.device, v.time, v.location, v.pattern, v.overall access.requirements, t,
          access.level.isReached t, access.level, access.requirements, v.risk⟩ } := by
  rw [decision]
  cases v.trust with
  | error e => exact ⟨nofun, fun ⟨t, ht, _⟩ => nomatch ht⟩
  | ok t =>
    constructor
    · rintro ⟨⟩
      exact ⟨t, rfl, rfl⟩
    · rintro ⟨_, ⟨⟩, rfl⟩
      rfl

theorem exists_decision {v : Verdicts} (h : v.risk ≤ 100) (hashes : Contributions)
    (access : AccessPolicy) (nonce : Nonce) (version : UInt64) :
    ∃ d, v.decision hashes access nonce version = .ok d := by
  obtain ⟨t, ht⟩ := exists_trust h
  exact ⟨_, decision_eq_ok_iff.mpr ⟨t, ht, rfl⟩⟩

/-- What the artifact of a decision holds beside the verdicts and the commitment. -/
theorem artifact_of_decision {v : Verdicts} {hashes : Contributions} {access : AccessPolicy}
    {nonce : Nonce} {version : UInt64} {d : Decision}
    (h : v.decision hashes access nonce version = .ok d) :
    d.artifact.overall = v.overall access.requirements ∧ v.trust = .ok d.artifact.trust := by
  obtain ⟨t, ht, rfl⟩ := decision_eq_ok_iff.mp h
  exact ⟨rfl, ht⟩

/-- The artifact repeats the verdicts. -/
theorem verdict_of_decision {v : Verdicts} {hashes : Contributions} {access : AccessPolicy}
    {nonce : Nonce} {version : UInt64} {d : Decision}
    (h : v.decision hashes access nonce version = .ok d) (c : Category) :
    d.artifact.verdict c = v.get c := by
  obtain ⟨t, -, rfl⟩ := decision_eq_ok_iff.mp h
  cases c <;> rfl

end Verdicts

theorem Level.number_inj {l m : Level} (h : l.number = m.number) : l = m := by
  revert h
  cases l <;> cases m <;> decide

theorem Level.isReached_eq (level : Level) (trust : UInt8) :
    level.isReached trust = decide (25 * level.number.toNat ≤ trust.toNat) := by
  rw [isReached, Bit.toBool_leq, decide_eq_decide, UInt8.le_iff_toNat_le, toNat_minTrust]

theorem Verdicts.overall_eq_all (v : Verdicts) (r : Requirements) :
    v.overall r = Category.all.all fun c => !r.contains c || v.get c := by
  simp [overall, Requirements.passes, List.all_map, Function.comp_def]

/-! ### Consistent signals -/

namespace PublicSignals

/-- The verdicts and the risk among the signals. -/
def verdicts (g : PublicSignals) : Verdicts :=
  ⟨g.device, g.time, g.location, g.pattern, g.risk⟩

/-- The access policy that the signals claim. -/
def access (g : PublicSignals) : AccessPolicy :=
  ⟨g.requirements, g.level⟩

/-- Whether overall verdict, trust and level follow from the signals' own verdicts. -/
structure IsConsistent (g : PublicSignals) : Prop where
  overall : g.overall = g.verdicts.overall g.requirements
  trust : g.verdicts.trust = .ok g.trust
  levelMet : g.levelMet = g.level.isReached g.trust

/-- The signals of a decision are consistent, and hold what it was made from. -/
theorem of_decision {v : Verdicts} {hashes : Contributions} {access : AccessPolicy}
    {nonce : Nonce} {version : UInt64} {d : Decision}
    (h : v.decision hashes access nonce version = .ok d) :
    d.signals.IsConsistent ∧ d.signals.verdicts = v ∧ d.signals.access = access := by
  obtain ⟨t, htrust, rfl⟩ := Verdicts.decision_eq_ok_iff.mp h
  exact ⟨⟨rfl, htrust, rfl⟩, rfl, rfl⟩

/-- Signals are consistent exactly if the decision on their own verdicts has them as signals. -/
theorem isConsistent_iff_decision (g : PublicSignals) (hashes : Contributions) (nonce : Nonce)
    (version : UInt64) :
    g.IsConsistent ↔
      ∃ d, g.verdicts.decision hashes g.access nonce version = .ok d ∧ d.signals = g := by
  constructor
  · rintro ⟨hoverall, htrust, hlevel⟩
    refine ⟨_, Verdicts.decision_eq_ok_iff.mpr ⟨g.trust, htrust, rfl⟩, ?_⟩
    cases g
    simp_all [verdicts, access]
  · rintro ⟨d, hd, rfl⟩
    exact (of_decision hd).1

/-- Whether the signals are those of a decision on some verdicts, under an access policy without
unknown requirements. -/
def IsDecided (g : PublicSignals) : Prop :=
  ∃ (v : Verdicts) (access : AccessPolicy) (hashes : Contributions) (nonce : Nonce)
    (version : UInt64) (d : Decision), v.risk ≤ 100 ∧ access.requirements.isKnown = true ∧
      v.decision hashes access nonce version = .ok d ∧ d.signals = g

/-- Contributions, challenge and version have no part in the signals. -/
theorem isDecided_iff (g : PublicSignals) :
    g.IsDecided ↔ g.requirements.isKnown = true ∧ g.IsConsistent := by
  constructor
  · rintro ⟨v, access, hashes, nonce, version, d, -, hknown, hd, rfl⟩
    obtain ⟨hconsistent, -, haccess⟩ := of_decision hd
    refine ⟨?_, hconsistent⟩
    rw [← haccess] at hknown
    exact hknown
  · rintro ⟨hknown, hconsistent⟩
    obtain ⟨d, hd, hsignals⟩ := (isConsistent_iff_decision g ⟨.zero, .zero, .zero, .zero⟩
      (.ofEntropy .zero) 0).mp hconsistent
    have hrisk := (Verdicts.trust_eq_ok_iff.mp hconsistent.trust).1
    exact ⟨g.verdicts, g.access, _, _, _, d, UInt8.le_iff_toNat_le.mpr hrisk, hknown, hd, hsignals⟩

/-- Consistency in numbers. -/
theorem isConsistent_iff (g : PublicSignals) :
    g.IsConsistent ↔ g.overall = (Category.all.all fun c =>
        !g.requirements.contains c || g.verdicts.get c) ∧
      g.risk.toNat ≤ 100 ∧ g.trust.toNat = g.verdicts.points / 4 ∧
      g.levelMet = decide (25 * g.level.number.toNat ≤ g.trust.toNat) := by
  rw [← Verdicts.overall_eq_all, ← Level.isReached_eq]
  constructor
  · rintro ⟨hoverall, htrust, hlevel⟩
    obtain ⟨hrisk, hpoints⟩ := Verdicts.trust_eq_ok_iff.mp htrust
    exact ⟨hoverall, hrisk, hpoints, hlevel⟩
  · rintro ⟨hoverall, hrisk, hpoints, hlevel⟩
    exact ⟨hoverall, Verdicts.trust_eq_ok_iff.mpr ⟨hrisk, hpoints⟩, hlevel⟩

end PublicSignals

end AccessContext
