import AccessContext.Signals
import AccessContext.Proofs.Decision
import AccessContext.Theory.Words

/-!
# Reading public signals

Words are read as signals exactly if they were written from them and the signals require known
categories alone; any other words are refused, for their number or for one of them. Main statements:
`PublicSignals.ofList_eq_ok_iff`, `PublicSignals.isMisread_of_error`.
-/

namespace AccessContext.PublicSignals

theorem readBool_eq_ok_iff {index : Nat} {word : UInt64} {b : Bool} :
    readBool index word = .ok b ↔ word = boolWord b := by
  rw [readBool]
  split_ifs with hzero hone
  · subst hzero
    cases b <;> simp [boolWord]
  · subst hone
    cases b <;> simp [boolWord]
  · cases b <;> simp [boolWord, hzero, hone]

theorem readByte_eq_ok_iff {index : Nat} {word : UInt64} {n : UInt8} :
    readByte index word = .ok n ↔ word = n.toUInt64 := by
  rw [readByte]
  constructor
  · intro h
    split_ifs at h with hlt
    obtain rfl := Except.ok.inj h
    have hnat : word.toNat < 256 := UInt64.lt_iff_toNat_lt.mp hlt
    rw [← UInt64.toNat_inj, UInt8.toNat_toUInt64, UInt64.toNat_toUInt8, Nat.mod_eq_of_lt hnat]
  · rintro rfl
    have hlt : n.toUInt64 < 256 := by
      rw [UInt64.lt_iff_toNat_lt, UInt8.toNat_toUInt64]
      exact n.toNat_lt
    rw [if_pos hlt, UInt8.toUInt8_toUInt64]

theorem readRequirements_eq_ok_iff {word : UInt64} {r : Requirements} :
    readRequirements word = .ok r ↔ word = r.bits.toUInt64 ∧ r.isKnown = true := by
  rw [readRequirements]
  rw [bind_eq_ok_iff]
  constructor
  · rintro ⟨bits, hbits, h⟩
    split_ifs at h with hknown
    obtain rfl := Except.ok.inj h
    exact ⟨readByte_eq_ok_iff.mp hbits, hknown⟩
  · rintro ⟨hword, hknown⟩
    exact ⟨r.bits, readByte_eq_ok_iff.mpr hword, if_pos hknown⟩

theorem levelOfNumber_eq_ok_iff {n : UInt8} {level : Level} :
    AccessPolicy.levelOfNumber n = .ok level ↔ n = level.number := by
  rw [← Level.ofNumber?_eq_some_iff, AccessPolicy.levelOfNumber]
  cases Level.ofNumber? n <;> simp

/-- Words are read as the signals they were written from, and nothing else is read. -/
theorem ofList_eq_ok_iff {words : List UInt64} {g : PublicSignals} :
    ofList words = .ok g ↔ words = g.toList ∧ g.requirements.isKnown = true := by
  constructor
  · intro h
    unfold ofList at h
    split at h
    · simp only [bind_eq_ok_iff, readBool_eq_ok_iff, readByte_eq_ok_iff,
        readRequirements_eq_ok_iff, levelOfNumber_eq_ok_iff] at h
      obtain ⟨requirements, ⟨rfl, hknown⟩, device, rfl, time, rfl, location, rfl, pattern, rfl,
        overall, rfl, trust, rfl, levelMet, rfl, number, rfl, level, rfl, risk, rfl, h⟩ := h
      obtain rfl := Except.ok.inj h
      exact ⟨rfl, hknown⟩
    · cases h
  · rintro ⟨rfl, hknown⟩
    unfold ofList toList
    simp only [bind_eq_ok_iff, readBool_eq_ok_iff, readByte_eq_ok_iff,
      readRequirements_eq_ok_iff, levelOfNumber_eq_ok_iff]
    exact ⟨_, ⟨rfl, hknown⟩, _, rfl, _, rfl, _, rfl, _, rfl, _, rfl, _, rfl, _, rfl, _, rfl, _, rfl,
      _, rfl, rfl⟩

/-! ### Words that are refused -/

/-- Why words are not read as signals. All but a level out of range is a malformed proof. -/
inductive IsMisread (words : List UInt64) : ContextError → Prop
  | count (other : words.length ≠ 10) :
      IsMisread words (.malformedProof (.signalCount words.length))
  | notBoolean (index : Nat) {word : UInt64} (place : index ∈ [0, 1, 2, 3, 4, 6])
      (found : words[index]? = some word) (big : 1 < word) :
      IsMisread words (.malformedProof (.notBoolean index word))
  | outOfRange (index : Nat) {word : UInt64} (place : index ∈ [5, 7, 8, 9])
      (found : words[index]? = some word) (big : 256 ≤ word) :
      IsMisread words (.malformedProof (.outOfRange index word))
  | requirements {r : Requirements} (found : words[8]? = some r.bits.toUInt64)
      (unknown : r.isKnown = false) :
      IsMisread words (.malformedProof (.unknownRequirements r.bits.toUInt64))
  | level {n : UInt8} (found : words[7]? = some n.toUInt64) (outside : n = 0 ∨ 4 < n) :
      IsMisread words (.invalidPolicy (.levelOutOfRange n))

theorem readBool_eq_error_iff {index : Nat} {word : UInt64} {e : ContextError} :
    readBool index word = .error e ↔ 1 < word ∧ e = .malformedProof (.notBoolean index word) := by
  have hword : 1 < word ↔ word ≠ 0 ∧ word ≠ 1 := by
    rw [ne_eq, ne_eq, ← UInt64.toNat_inj, ← UInt64.toNat_inj, UInt64.lt_iff_toNat_lt]
    simp
    omega
  rw [readBool, hword]
  split_ifs with hzero hone
  · simp [hzero]
  · simp [hone]
  · simp [hzero, hone, eq_comm]

theorem readByte_eq_error_iff {index : Nat} {word : UInt64} {e : ContextError} :
    readByte index word = .error e ↔
      256 ≤ word ∧ e = .malformedProof (.outOfRange index word) := by
  rw [readByte]
  split_ifs with hlt
  · simp [UInt64.not_le.mpr hlt]
  · simp [UInt64.not_lt.mp hlt, eq_comm]

theorem readRequirements_eq_error {word : UInt64} {e : ContextError}
    (h : readRequirements word = .error e) :
    256 ≤ word ∧ e = .malformedProof (.outOfRange 8 word) ∨
      ∃ r : Requirements, word = r.bits.toUInt64 ∧ r.isKnown = false ∧
        e = .malformedProof (.unknownRequirements word) := by
  rw [readRequirements, bind_eq_error_iff] at h
  rcases h with h | ⟨bits, hbits, h⟩
  · exact .inl (readByte_eq_error_iff.mp h)
  · refine .inr ⟨⟨bits⟩, readByte_eq_ok_iff.mp hbits, ?_⟩
    split_ifs at h with hknown
    · cases h
    · exact ⟨Bool.eq_false_iff.mpr hknown, (Except.error.inj h).symm⟩

theorem levelOfNumber_eq_error {n : UInt8} {e : ContextError}
    (h : AccessPolicy.levelOfNumber n = .error e) :
    (n = 0 ∨ 4 < n) ∧ e = .invalidPolicy (.levelOutOfRange n) := by
  rw [AccessPolicy.levelOfNumber] at h
  split at h
  · cases h
  · next hnone =>
    refine ⟨?_, (Except.error.inj h).symm⟩
    revert hnone
    rw [Level.ofNumber?]
    split_ifs with h1 h2 h3 h4
    · nofun
    · nofun
    · nofun
    · nofun
    · intro _
      rw [← UInt8.toNat_inj, UInt8.lt_iff_toNat_lt]
      rw [← UInt8.toNat_inj] at h1 h2 h3 h4
      simp at h1 h2 h3 h4 ⊢
      omega

/-- An error names a word at which reading stops. -/
theorem isMisread_of_error {words : List UInt64} {e : ContextError}
    (h : ofList words = .error e) : IsMisread words e := by
  unfold ofList at h
  split at h
  · simp only [bind_eq_error_iff, readBool_eq_error_iff, readByte_eq_error_iff,
      readByte_eq_ok_iff] at h
    rcases h with h | ⟨requirements, -, h⟩
    · rcases readRequirements_eq_error h with ⟨hbig, rfl⟩ | ⟨r, rfl, hunknown, rfl⟩
      · exact .outOfRange 8 (by decide) rfl hbig
      · exact .requirements rfl hunknown
    rcases h with ⟨hbig, rfl⟩ | ⟨_, -, h⟩
    · exact .notBoolean 0 (by decide) rfl hbig
    rcases h with ⟨hbig, rfl⟩ | ⟨_, -, h⟩
    · exact .notBoolean 1 (by decide) rfl hbig
    rcases h with ⟨hbig, rfl⟩ | ⟨_, -, h⟩
    · exact .notBoolean 2 (by decide) rfl hbig
    rcases h with ⟨hbig, rfl⟩ | ⟨_, -, h⟩
    · exact .notBoolean 3 (by decide) rfl hbig
    rcases h with ⟨hbig, rfl⟩ | ⟨_, -, h⟩
    · exact .notBoolean 4 (by decide) rfl hbig
    rcases h with ⟨hbig, rfl⟩ | ⟨_, -, h⟩
    · exact .outOfRange 5 (by decide) rfl hbig
    rcases h with ⟨hbig, rfl⟩ | ⟨_, -, h⟩
    · exact .notBoolean 6 (by decide) rfl hbig
    rcases h with ⟨hbig, rfl⟩ | ⟨n, rfl, h⟩
    · exact .outOfRange 7 (by decide) rfl hbig
    rcases h with h | ⟨_, -, h⟩
    · obtain ⟨houtside, rfl⟩ := levelOfNumber_eq_error h
      exact .level rfl houtside
    rcases h with ⟨hbig, rfl⟩ | ⟨_, -, h⟩
    · exact .outOfRange 9 (by decide) rfl hbig
    · cases h
  · next hother =>
    cases h
    refine .count fun hlength => ?_
    match words, hlength, hother with
    | [_, _, _, _, _, _, _, _, _, _], _, hother => exact hother _ _ _ _ _ _ _ _ _ _ rfl

/-! ### Words and bytes that are told apart -/

theorem boolWord_inj {b c : Bool} (h : boolWord b = boolWord c) : b = c := by
  revert h
  cases b <;> cases c <;> decide

/-- Signals are determined by their words, whichever categories they require. -/
theorem toList_inj {g h : PublicSignals} (heq : g.toList = h.toList) : g = h := by
  obtain ⟨_, _, _, _, _, _, _, _, ⟨_⟩, _⟩ := g
  obtain ⟨_, _, _, _, _, _, _, _, ⟨_⟩, _⟩ := h
  simp only [toList, List.cons.injEq, UInt8.toUInt64_inj, and_true] at heq
  obtain ⟨hdevice, htime, hlocation, hpattern, hoverall, htrust, hmet, hlevel, hbits, hrisk⟩ := heq
  rw [PublicSignals.mk.injEq, Requirements.mk.injEq]
  exact ⟨boolWord_inj hdevice, boolWord_inj htime, boolWord_inj hlocation, boolWord_inj hpattern,
    boolWord_inj hoverall, htrust, boolWord_inj hmet, Level.number_inj hlevel, hbits, hrisk⟩

theorem toBytes_eq_iff {g h : PublicSignals} : g.toBytes = h.toBytes ↔ g = h :=
  flatMap_uint64_inj.trans ⟨toList_inj, congrArg toList⟩

theorem length_toBytes (g : PublicSignals) : g.toBytes.length = 80 := by
  simp [toBytes, toList]

end AccessContext.PublicSignals
