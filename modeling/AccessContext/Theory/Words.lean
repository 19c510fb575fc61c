import AccessContext.Geo
import Mathlib.Algebra.Ring.Nat

/-!
# Words as bytes

Writing a word of a fixed width and reading it back gives the word again, so strings that are
built from such words can be taken apart. Main statements: `ofLeBytes_leBytes`, `leBytes_inj`,
`flatMap_inj_of_length`, and for each type of words that it is determined by its bytes.
-/

namespace AccessContext

theorem ofLeBytes_leBytes (width n : Nat) : ofLeBytes (leBytes width n) = n % 256 ^ width := by
  induction width generalizing n with
  | zero => simp [leBytes, ofLeBytes, Nat.mod_one]
  | succ width ih =>
    rw [leBytes, ofLeBytes, ih, Nat.pow_succ', Nat.mod_mul]
    simp [UInt8.toNat_ofNat']

theorem ofLeBytes_lt (bs : List UInt8) : ofLeBytes bs < 256 ^ bs.length := by
  induction bs with
  | nil => decide
  | cons b bs ih =>
    have hb := b.toNat_lt
    rw [ofLeBytes, List.length_cons, Nat.pow_succ]
    omega

/-- Strings of one length that stand for the same number are the same. -/
theorem ofLeBytes_inj {bs cs : List UInt8} (hlength : bs.length = cs.length)
    (h : ofLeBytes bs = ofLeBytes cs) : bs = cs := by
  induction bs generalizing cs with
  | nil => exact (List.eq_nil_of_length_eq_zero hlength.symm).symm
  | cons b bs ih =>
    cases cs with
    | nil => cases hlength
    | cons c cs =>
      have hb := b.toNat_lt
      have hc := c.toNat_lt
      simp only [ofLeBytes] at h
      rw [UInt8.toNat_inj.mp (show b.toNat = c.toNat by omega),
        ih (Nat.succ.inj hlength) (by omega)]

/-- Words of one width have different bytes when they differ. -/
theorem leBytes_inj {width m n : Nat} (hm : m < 256 ^ width) (hn : n < 256 ^ width)
    (h : leBytes width m = leBytes width n) : m = n := by
  have hread : ofLeBytes (leBytes width m) = ofLeBytes (leBytes width n) := congrArg ofLeBytes h
  rwa [ofLeBytes_leBytes, ofLeBytes_leBytes, Nat.mod_eq_of_lt hm, Nat.mod_eq_of_lt hn] at hread

theorem boolByte_eq_iff {a b : Bool} : boolByte a = boolByte b ↔ a = b :=
  ⟨boolByte_inj, congrArg boolByte⟩

/-- Values that take the same number of bytes each are told apart when they stand one after another.
-/
theorem flatMap_inj_of_length {α : Type} {f : α → List UInt8} {width : Nat}
    (hlength : ∀ x, (f x).length = width) (hpos : 0 < width) (hinj : ∀ x y, f x = f y → x = y)
    {xs ys : List α} (h : xs.flatMap f = ys.flatMap f) : xs = ys := by
  have hne (x : α) (rest : List UInt8) : [] ≠ f x ++ rest := by
    intro heq
    have hzero := congrArg List.length heq
    rw [List.length_append, hlength, List.length_nil] at hzero
    omega
  induction xs generalizing ys with
  | nil =>
    cases ys with
    | nil => rfl
    | cons y ys => exact absurd h (hne y _)
  | cons x xs ih =>
    cases ys with
    | nil => exact absurd h.symm (hne x _)
    | cons y ys =>
      obtain ⟨hhead, htail⟩ := List.append_inj h ((hlength x).trans (hlength y).symm)
      rw [hinj x y hhead, ih htail]

section Inj

variable {x y : UInt64} {m n : UInt32} {a b : Int64} {i j : Int32}

theorem leBytes_uint64_inj : leBytes 8 x.toNat = leBytes 8 y.toNat ↔ x = y := by
  constructor
  · intro h
    exact UInt64.toNat_inj.mp (leBytes_inj x.toNat_lt y.toNat_lt h)
  · rintro rfl
    rfl

theorem leBytes_uint32_inj : leBytes 4 m.toNat = leBytes 4 n.toNat ↔ m = n := by
  constructor
  · intro h
    exact UInt32.toNat_inj.mp (leBytes_inj m.toNat_lt n.toNat_lt h)
  · rintro rfl
    rfl

theorem flatMap_uint64_inj {xs ys : List UInt64} :
    xs.flatMap (fun x => leBytes 8 x.toNat) = ys.flatMap (fun y => leBytes 8 y.toNat) ↔ xs = ys :=
  ⟨flatMap_inj_of_length (fun _ => length_leBytes 8 _) (by decide)
    fun _ _ => leBytes_uint64_inj.mp, congrArg _⟩

theorem flatMap_uint32_inj {xs ys : List UInt32} :
    xs.flatMap (fun x => leBytes 4 x.toNat) = ys.flatMap (fun y => leBytes 4 y.toNat) ↔ xs = ys :=
  ⟨flatMap_inj_of_length (fun _ => length_leBytes 4 _) (by decide)
    fun _ _ => leBytes_uint32_inj.mp, congrArg _⟩

theorem leBytes_int64_inj :
    leBytes 8 a.toUInt64.toNat = leBytes 8 b.toUInt64.toNat ↔ a = b := by
  cases a
  cases b
  rw [leBytes_uint64_inj, Int64.ofUInt64.injEq]

theorem leBytes_int32_inj :
    leBytes 4 i.toUInt32.toNat = leBytes 4 j.toUInt32.toNat ↔ i = j := by
  cases i
  cases j
  rw [leBytes_uint32_inj, Int32.ofUInt32.injEq]

end Inj

theorem GeoPoint.toBytes_inj {p q : GeoPoint} : p.toBytes = q.toBytes ↔ p = q := by
  constructor
  · intro h
    obtain ⟨hlat, hlon⟩ := List.append_inj h (by simp)
    cases p
    cases q
    rw [GeoPoint.mk.injEq]
    exact ⟨leBytes_int32_inj.mp hlat, leBytes_int32_inj.mp hlon⟩
  · rintro rfl
    rfl

end AccessContext
