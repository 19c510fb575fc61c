import AccessContext.Proofs.Risk
import Mathlib.Algebra.BigOperators.Ring.Finset
import Mathlib.Algebra.Order.BigOperators.Group.List
import Mathlib.Algebra.Order.Ring.Nat

/-!
# The timing of a behavior

The mean of nine intervals and their mean distance from it are rounded down one after the other, and
words of 64 bits hold both. The mean lies among the intervals and the deviation is at most their
spread, whatever the rounding does. The order of the intervals does not count, so neither the baseline
nor the risk of a behavior depends on it; a shift of all intervals moves the mean and nothing else.
Main statement: `meanAndDeviation_exact`.
-/

namespace AccessContext

/-- The mean of nine intervals, rounded down. -/
def meanInterval (xs : List Int) : Int :=
  xs.sum / 9

/-- The distances of integers from a mean. -/
def distances (mean : Int) (xs : List Int) : List Int :=
  xs.map fun x => ((x - mean).natAbs : Int)

/-- The mean distance of nine intervals from their mean, rounded down. -/
def timingDeviation (xs : List Int) : Int :=
  meanInterval (distances (meanInterval xs) xs)

/-! ### Means of nine integers -/

section Means

variable {xs ys : List Int} {lo hi mean k : Int}

theorem sum_bounds (h : ∀ x ∈ xs, lo ≤ x ∧ x ≤ hi) :
    xs.length * lo ≤ xs.sum ∧ xs.sum ≤ xs.length * hi := by
  have hlow := List.card_nsmul_le_sum xs lo fun x hx => (h x hx).1
  have hhigh := List.sum_le_card_nsmul xs hi fun x hx => (h x hx).2
  rw [nsmul_eq_mul] at hlow hhigh
  exact ⟨hlow, hhigh⟩

/-- A mean that is rounded down is among the bounds of the integers. -/
theorem meanInterval_bounds (hlength : xs.length = 9) (h : ∀ x ∈ xs, lo ≤ x ∧ x ≤ hi) :
    lo ≤ meanInterval xs ∧ meanInterval xs ≤ hi := by
  obtain ⟨hlow, hhigh⟩ := sum_bounds h
  rw [hlength] at hlow hhigh
  unfold meanInterval
  omega

@[simp] theorem distances_nil : distances mean [] = [] :=
  rfl

@[simp] theorem distances_cons {x : Int} :
    distances mean (x :: xs) = ((x - mean).natAbs : Int) :: distances mean xs :=
  rfl

theorem length_distances : (distances mean xs).length = xs.length :=
  List.length_map _

/-- Integers are no further from a mean among them than they are spread. -/
theorem distances_bounds (hmean : lo ≤ mean ∧ mean ≤ hi) (h : ∀ x ∈ xs, lo ≤ x ∧ x ≤ hi) :
    ∀ d ∈ distances mean xs, 0 ≤ d ∧ d ≤ hi - lo := by
  intro d hd
  obtain ⟨x, hx, rfl⟩ := List.mem_map.mp hd
  obtain ⟨hlow, hhigh⟩ := h x hx
  omega

theorem timingDeviation_bounds (hlength : xs.length = 9) (h : ∀ x ∈ xs, lo ≤ x ∧ x ≤ hi) :
    0 ≤ timingDeviation xs ∧ timingDeviation xs ≤ hi - lo :=
  meanInterval_bounds (length_distances.trans hlength)
    (distances_bounds (meanInterval_bounds hlength h) h)

theorem meanInterval_perm (h : xs.Perm ys) : meanInterval xs = meanInterval ys := by
  rw [meanInterval, meanInterval, h.sum_eq]

theorem timingDeviation_perm (h : xs.Perm ys) : timingDeviation xs = timingDeviation ys := by
  rw [timingDeviation, timingDeviation, meanInterval_perm h]
  exact meanInterval_perm (h.map _)

/-- Nine integers that are moved by `k` have a sum moved by `9 * k`. -/
theorem meanInterval_shift (hlength : xs.length = 9) :
    meanInterval (xs.map (· + k)) = meanInterval xs + k := by
  have hsum : (xs.map (· + k)).sum = xs.sum + 9 * k := by
    rw [List.sum_map_add, List.map_id', List.map_const', List.sum_replicate, hlength, nsmul_eq_mul]
    rfl
  rw [meanInterval, hsum, meanInterval]
  omega

theorem distances_shift : distances (mean + k) (xs.map (· + k)) = distances mean xs := by
  rw [distances, distances, List.map_map]
  refine List.map_congr_left fun x _ => ?_
  rw [Function.comp_apply, add_sub_add_right_eq_sub]

theorem timingDeviation_shift (hlength : xs.length = 9) :
    timingDeviation (xs.map (· + k)) = timingDeviation xs := by
  rw [timingDeviation, meanInterval_shift hlength, distances_shift, timingDeviation]

end Means

/-! ### Words -/

/-- Whether integers are words of 64 bits without a sign. -/
def AreWords (xs : List Int) : Prop :=
  ∀ x ∈ xs, 0 ≤ x ∧ x < 2 ^ 64

namespace AreWords

variable {xs : List Int} {mean : Int}

theorem le (h : AreWords xs) : ∀ x ∈ xs, 0 ≤ x ∧ x ≤ 2 ^ 64 - 1 :=
  fun x hx => ⟨(h x hx).1, Int.le_sub_one_of_lt (h x hx).2⟩

theorem sum_nine_bounds (h : AreWords xs) (hlength : xs.length = 9) :
    0 ≤ xs.sum ∧ xs.sum ≤ 9 * (2 ^ 64 - 1) := by
  have := sum_bounds h.le
  rwa [hlength, mul_zero] at this

/-- The mean of nine words is a word. -/
theorem mean_bounds (h : AreWords xs) (hlength : xs.length = 9) :
    0 ≤ meanInterval xs ∧ meanInterval xs < 2 ^ 64 := by
  obtain ⟨hlow, hhigh⟩ := meanInterval_bounds hlength h.le
  exact ⟨hlow, Int.lt_of_le_sub_one hhigh⟩

/-- The distances of words from another are words. -/
theorem distances_words (h : AreWords xs) (hmean : 0 ≤ mean ∧ mean < 2 ^ 64) :
    AreWords (distances mean xs) := by
  intro d hd
  have := distances_bounds ⟨hmean.1, Int.le_sub_one_of_lt hmean.2⟩ h.le d hd
  omega

theorem deviation_bounds (h : AreWords xs) (hlength : xs.length = 9) :
    0 ≤ timingDeviation xs ∧ timingDeviation xs < 2 ^ 64 :=
  (h.distances_words (h.mean_bounds hlength)).mean_bounds (length_distances.trans hlength)

end AreWords

section Intervals

variable {intervals other : Vector UInt64 9}

/-- The intervals in numbers. -/
def intervalNumbers (intervals : Vector UInt64 9) : List Int :=
  (intervals.map fun x => (x.toNat : Int)).toList

theorem length_intervalNumbers : (intervalNumbers intervals).length = 9 :=
  Vector.length_toList

theorem intervalNumbers_eq (intervals : Vector UInt64 9) :
    intervalNumbers intervals = intervals.toList.map fun x => (x.toNat : Int) :=
  Vector.toList_map

theorem intervalNumbers_bounds {lo hi : UInt64} (h : ∀ x ∈ intervals, lo ≤ x ∧ x ≤ hi) :
    ∀ n ∈ intervalNumbers intervals, (lo.toNat : Int) ≤ n ∧ n ≤ hi.toNat := by
  intro n hn
  rw [intervalNumbers_eq] at hn
  obtain ⟨x, hx, rfl⟩ := List.mem_map.mp hn
  obtain ⟨hlow, hhigh⟩ := h x (Vector.mem_toList_iff.mp hx)
  exact ⟨Int.ofNat_le.mpr (UInt64.le_iff_toNat_le.mp hlow),
    Int.ofNat_le.mpr (UInt64.le_iff_toNat_le.mp hhigh)⟩

theorem areWords_intervalNumbers (intervals : Vector UInt64 9) :
    AreWords (intervalNumbers intervals) := by
  intro n hn
  rw [intervalNumbers_eq] at hn
  obtain ⟨x, -, rfl⟩ := List.mem_map.mp hn
  have := x.toNat_lt
  omega

theorem total_eq_sum (ns : List Nat) : total ns = ns.sum := by
  induction ns with
  | nil => rfl
  | cons n ns ih => rw [total, List.sum_cons, ih]

/-- The mean of nine words is rounded down once and not cut. -/
theorem toNat_ofNat_total {ns : List Nat} (hlength : ns.length = 9) (h : ∀ n ∈ ns, n < 2 ^ 64) :
    (UInt64.ofNat (total ns / 9)).toNat = ns.sum / 9 := by
  have hsum := List.sum_le_card_nsmul ns (2 ^ 64 - 1) fun n hn => Nat.le_sub_one_of_lt (h n hn)
  rw [hlength, Nat.nsmul_eq_mul] at hsum
  rw [total_eq_sum, UInt64.toNat_ofNat']
  omega

theorem toNat_meanAndDeviation_fst (intervals : Vector UInt64 9) :
    (meanAndDeviation intervals).1.toNat = (intervals.toList.map UInt64.toNat).sum / 9 := by
  refine toNat_ofNat_total ((List.length_map _).trans Vector.length_toList) fun n hn => ?_
  obtain ⟨x, -, rfl⟩ := List.mem_map.mp hn
  exact x.toNat_lt

theorem toNat_meanAndDeviation_snd (intervals : Vector UInt64 9) :
    (meanAndDeviation intervals).2.toNat = (intervals.toList.map fun x =>
      ((x.toNat : Int) - (meanAndDeviation intervals).1.toNat).natAbs).sum / 9 := by
  refine toNat_ofNat_total ((List.length_map _).trans Vector.length_toList) fun n hn => ?_
  obtain ⟨x, -, rfl⟩ := List.mem_map.mp hn
  have hmean := (meanAndDeviation intervals).1.toNat_lt
  have hx := x.toNat_lt
  change ((x.toNat : Int) - (meanAndDeviation intervals).1.toNat).natAbs < 2 ^ 64
  omega

/-- The mean in words is that of the integers. -/
theorem toNat_mean (intervals : Vector UInt64 9) :
    ((meanAndDeviation intervals).1.toNat : Int) = meanInterval (intervalNumbers intervals) := by
  rw [toNat_meanAndDeviation_fst, Int.natCast_ediv, Nat.cast_list_sum, List.map_map,
    intervalNumbers_eq]
  rfl

/-- So is the deviation. -/
theorem toNat_deviation (intervals : Vector UInt64 9) :
    ((meanAndDeviation intervals).2.toNat : Int) = timingDeviation (intervalNumbers intervals) := by
  rw [toNat_meanAndDeviation_snd, timingDeviation, ← toNat_mean, distances, intervalNumbers_eq,
    Int.natCast_ediv, Nat.cast_list_sum, List.map_map, List.map_map]
  rfl

theorem meanAndDeviation_perm (h : other.toList.Perm intervals.toList) :
    meanAndDeviation other = meanAndDeviation intervals := by
  have hnumbers : (intervalNumbers other).Perm (intervalNumbers intervals) := by
    rw [intervalNumbers_eq, intervalNumbers_eq]
    exact h.map _
  have hmean : (meanAndDeviation other).1 = (meanAndDeviation intervals).1 := by
    rw [← UInt64.toNat_inj, ← Nat.cast_inj (R := Int), toNat_mean, toNat_mean,
      meanInterval_perm hnumbers]
  have hdeviation : (meanAndDeviation other).2 = (meanAndDeviation intervals).2 := by
    rw [← UInt64.toNat_inj, ← Nat.cast_inj (R := Int), toNat_deviation, toNat_deviation,
      timingDeviation_perm hnumbers]
  exact Prod.ext hmean hdeviation

theorem intervalNumbers_shift {k : Int}
    (h : ∀ i : Fin 9, (other[i].toNat : Int) = intervals[i].toNat + k) :
    intervalNumbers other = (intervalNumbers intervals).map (· + k) := by
  refine List.ext_getElem ?_ fun i hi hi' => ?_
  · rw [List.length_map, length_intervalNumbers, length_intervalNumbers]
  · have hindex : i < 9 := hi.trans_eq length_intervalNumbers
    simpa [intervalNumbers] using h ⟨i, hindex⟩

theorem meanAndDeviation_shift {k : Int}
    (h : ∀ i : Fin 9, (other[i].toNat : Int) = intervals[i].toNat + k) :
    ((meanAndDeviation other).1.toNat : Int) = (meanAndDeviation intervals).1.toNat + k ∧
      (meanAndDeviation other).2 = (meanAndDeviation intervals).2 := by
  have hnumbers := intervalNumbers_shift h
  constructor
  · rw [toNat_mean, toNat_mean, hnumbers, meanInterval_shift length_intervalNumbers]
  · rw [← UInt64.toNat_inj, ← Nat.cast_inj (R := Int), toNat_deviation, toNat_deviation, hnumbers,
      timingDeviation_shift length_intervalNumbers]

end Intervals

/-! ### What depends on the timing -/

/-- A behavior enters every check through mean and deviation alone. -/
theorem BehaviorWitness.checks_congr_intervals (w : BehaviorWitness) {intervals : Vector UInt64 9}
    (h : meanAndDeviation intervals = meanAndDeviation w.intervals) :
    ({ w with intervals } : BehaviorWitness).commitment = w.commitment ∧
      ∀ p, ({ w with intervals } : BehaviorWitness).verify p = w.verify p := by
  have hcommitment : ({ w with intervals } : BehaviorWitness).commitment = w.commitment := by
    simp only [commitment, commitmentParts, h]
  refine ⟨hcommitment, fun p => ?_⟩
  simp only [verify, fault?, checks, hcommitment, h]

/-- Mean and deviation of the timing are the rounded averages of the intervals and of their distances
from the mean, without any loss to the width of words. Bounds of the intervals, such as the least and
the greatest of them, are bounds of the mean, and the deviation is at most their difference. The order
of the intervals does not count: not for mean and deviation, and therefore not for the baseline and
the outcome of the checks with its risk. Intervals that are all moved by one integer have the mean
moved by it and the same deviation. -/
theorem meanAndDeviation_exact (intervals : Vector UInt64 9) :
    (meanAndDeviation intervals).1.toNat = (intervals.toList.map UInt64.toNat).sum / 9 ∧
    (meanAndDeviation intervals).2.toNat = (intervals.toList.map fun x =>
      ((x.toNat : Int) - (meanAndDeviation intervals).1.toNat).natAbs).sum / 9 ∧
    (∀ lo hi, (∀ x ∈ intervals, lo ≤ x ∧ x ≤ hi) →
      lo ≤ (meanAndDeviation intervals).1 ∧ (meanAndDeviation intervals).1 ≤ hi ∧
        (meanAndDeviation intervals).2.toNat ≤ hi.toNat - lo.toNat) ∧
    (∀ other : Vector UInt64 9, other.toList.Perm intervals.toList →
      meanAndDeviation other = meanAndDeviation intervals ∧
      ∀ w : BehaviorWitness, w.intervals = intervals →
        ({ w with intervals := other } : BehaviorWitness).commitment = w.commitment ∧
        ∀ p, ({ w with intervals := other } : BehaviorWitness).verify p = w.verify p) ∧
    (∀ (other : Vector UInt64 9) (k : Int),
      (∀ i : Fin 9, (other[i].toNat : Int) = intervals[i].toNat + k) →
      ((meanAndDeviation other).1.toNat : Int) = (meanAndDeviation intervals).1.toNat + k ∧
        (meanAndDeviation other).2 = (meanAndDeviation intervals).2) := by
  refine ⟨toNat_meanAndDeviation_fst intervals, toNat_meanAndDeviation_snd intervals, ?_, ?_,
    fun other k => meanAndDeviation_shift⟩
  · intro lo hi hbounds
    have hnumbers := intervalNumbers_bounds hbounds
    have hmean := meanInterval_bounds length_intervalNumbers hnumbers
    have hdeviation := timingDeviation_bounds length_intervalNumbers hnumbers
    rw [← toNat_mean] at hmean
    rw [← toNat_deviation] at hdeviation
    refine ⟨UInt64.le_iff_toNat_le.mpr ?_, UInt64.le_iff_toNat_le.mpr ?_, ?_⟩ <;> omega
  · intro other hperm
    have hsame := meanAndDeviation_perm hperm
    refine ⟨hsame, ?_⟩
    rintro w rfl
    exact w.checks_congr_intervals hsame

/-- The intervals of the irregular session in order, and all of them moved until the last word is
reached. -/
theorem meanAndDeviation_exact_jittery :
    let intervals := BehaviorWitness.jittery.intervals
    let inOrder : Vector UInt64 9 := #v[100, 100, 100, 100, 200, 300, 300, 300, 300]
    let low : UInt64 := 0 - 201
    let high : UInt64 := 0 - 1
    let moved : Vector UInt64 9 := #v[low, high, low, high, low, high, low, high, 0 - 101]
    (∀ x ∈ intervals, 100 ≤ x ∧ x ≤ 300) ∧ inOrder.toList.Perm intervals.toList ∧
    (∀ i : Fin 9, (moved[i].toNat : Int) = intervals[i].toNat + (2 ^ 64 - 301)) ∧
    (meanAndDeviation intervals).2.toNat ≤ 300 - 100 ∧
    meanAndDeviation inOrder = (200, 88) ∧
    ({ BehaviorWitness.jittery with intervals := inOrder } : BehaviorWitness).verify
        (BehaviorWitness.learned 176) =
      BehaviorWitness.jittery.verify (BehaviorWitness.learned 176) ∧
    (meanAndDeviation moved).2 = 88 := by
  intro intervals inOrder low high moved
  obtain ⟨-, -, hamong, horder, hshift⟩ := meanAndDeviation_exact intervals
  have hbounds : ∀ x ∈ intervals, 100 ≤ x ∧ x ≤ 300 := by
    simp [intervals, BehaviorWitness.jittery]
  have hperm : inOrder.toList.Perm intervals.toList := List.isPerm_iff.mp (by decide)
  have hmoved : ∀ i : Fin 9, (moved[i].toNat : Int) = intervals[i].toNat + (2 ^ 64 - 301) := by
    decide
  have hvalue : meanAndDeviation intervals = (200, 88) := by decide
  obtain ⟨hsame, houtcome⟩ := horder inOrder hperm
  refine ⟨hbounds, hperm, hmoved, (hamong 100 300 hbounds).2.2, hsame.trans hvalue,
    (houtcome _ rfl).2 _, ?_⟩
  exact (hshift moved _ hmoved).2.trans (congrArg Prod.snd hvalue)

end AccessContext
