import AccessContext.Proofs.R1cs.Signals
import AccessContext.Theory.Words

/-!
# What a public vector tells of its statement

The entries of a public vector are the residues of integers that are small against the order: signed
words, flags, and a number of 192 bits that packs the first words of the hash. So nothing is lost in
the field, and equal vectors come from statements that agree in all that was entered. A missing
blacklist is entered as a disk like any other, but its flag tells it from every disk that is there.
Main statement: `Statement.publicVector_eq_iff`.
-/

namespace AccessContext

open R1cs
open Fin.CommRing

/-! ### The packed hash -/

/-- The words of a digest that are packed. -/
def bindingWords (hash : Digest) : List Nat :=
  [0, 8, 16].map fun place => ofLeBytes ((hash.toList.drop place).take 8)

/-- Packing goes on from what was packed before. -/
def packWords (acc : Nat) (words : List Nat) : Nat :=
  words.foldl (fun acc word => acc * UInt64.size + word) acc

/-- Packing in the field. -/
def R1cs.Scalar.packWords (acc : Scalar) (words : List Nat) : Scalar :=
  words.foldl (fun acc word => acc * .ofNat UInt64.size + .ofNat word) acc

theorem bindingNumber_eq_packWords (hash : Digest) :
    bindingNumber hash = packWords 0 (bindingWords hash) := by
  simp [bindingNumber, packWords, bindingWords]

theorem lt_of_mem_bindingWords (hash : Digest) :
    ∀ word ∈ bindingWords hash, word < UInt64.size := by
  intro word h
  obtain ⟨place, -, rfl⟩ := List.mem_map.mp h
  refine lt_of_lt_of_le (ofLeBytes_lt _) ?_
  exact Nat.pow_le_pow_right (by decide) (List.length_take_le _ _)

/-- Words packed behind a number take 64 bits each. -/
theorem packWords_lt {words : List Nat} (h : ∀ word ∈ words, word < UInt64.size) (acc : Nat) :
    packWords acc words < (acc + 1) * UInt64.size ^ words.length := by
  induction words generalizing acc with
  | nil => simp [packWords]
  | cons word words ih =>
    obtain ⟨hword, hwords⟩ := List.forall_mem_cons.mp h
    calc packWords acc (word :: words)
        < (acc * UInt64.size + word + 1) * UInt64.size ^ words.length := ih hwords _
      _ ≤ (acc + 1) * UInt64.size * UInt64.size ^ words.length :=
          Nat.mul_le_mul_right _ (by rw [Nat.add_one_mul]; omega)
      _ = (acc + 1) * UInt64.size ^ (words.length + 1) := by rw [Nat.pow_succ', Nat.mul_assoc]

theorem packWords_inj {words words' : List Nat} (hlength : words.length = words'.length)
    (h : ∀ word ∈ words, word < UInt64.size) (h' : ∀ word ∈ words', word < UInt64.size)
    {acc acc' : Nat} (heq : packWords acc words = packWords acc' words') :
    acc = acc' ∧ words = words' := by
  induction words generalizing acc acc' words' with
  | nil =>
    obtain rfl := List.eq_nil_of_length_eq_zero hlength.symm
    exact ⟨heq, rfl⟩
  | cons word words ih =>
    cases words' with
    | nil => cases hlength
    | cons word' words' =>
      obtain ⟨hword, hwords⟩ := List.forall_mem_cons.mp h
      obtain ⟨hword', hwords'⟩ := List.forall_mem_cons.mp h'
      obtain ⟨hacc, rfl⟩ := ih (Nat.succ.inj hlength) hwords hwords' heq
      dsimp only at hacc
      unfold UInt64.size at hword hword' hacc
      obtain ⟨rfl, rfl⟩ : acc = acc' ∧ word = word' := by omega
      exact ⟨rfl, rfl⟩

theorem R1cs.Scalar.packWords_zero (words : List Nat) :
    Scalar.packWords 0 words = .ofNat (AccessContext.packWords 0 words) := by
  refine List.foldl_hom Scalar.ofNat fun acc word => ?_
  simp only [Scalar.ofNat_eq_cast, Nat.cast_add, Nat.cast_mul]

/-- Three words are packed in the field as in the natural numbers. -/
theorem R1cs.Scalar.val_packWords {words : List Nat} (h : ∀ word ∈ words, word < UInt64.size)
    (hlength : words.length ≤ 3) :
    (Scalar.packWords 0 words).val = AccessContext.packWords 0 words := by
  have hlt : AccessContext.packWords 0 words < order :=
    calc AccessContext.packWords 0 words
        < (0 + 1) * UInt64.size ^ words.length := packWords_lt h 0
      _ ≤ (0 + 1) * UInt64.size ^ 3 :=
          Nat.mul_le_mul_left _ (Nat.pow_le_pow_right (by decide) hlength)
      _ ≤ order := by decide
  rw [Scalar.packWords_zero]
  exact Nat.mod_eq_of_lt hlt

/-- The words are those of the first 24 bytes. -/
theorem bindingWords_eq_iff {hash hash' : Digest} :
    bindingWords hash = bindingWords hash' ↔ hash.toList.take 24 = hash'.toList.take 24 := by
  constructor
  · intro h
    have hword {place : Nat} (heq : ofLeBytes ((hash.toList.drop place).take 8) =
        ofLeBytes ((hash'.toList.drop place).take 8)) :
        (hash.toList.drop place).take 8 = (hash'.toList.drop place).take 8 :=
      ofLeBytes_inj (by simp [hash.length_toList, hash'.length_toList]) heq
    have hsplit (bs : List UInt8) : bs.take 24 =
        (bs.drop 0).take 8 ++ ((bs.drop 8).take 8 ++ (bs.drop 16).take 8) := by
      rw [List.drop_zero, List.take_add (i := 8) (j := 16), List.take_add (i := 8) (j := 8),
        List.drop_drop]
    simp only [bindingWords, List.map_cons, List.cons.injEq] at h
    obtain ⟨hfirst, hsecond, hthird, -⟩ := h
    rw [hsplit, hsplit, hword hfirst, hword hsecond, hword hthird]
  · intro h
    have hwords (d : Digest) : bindingWords d =
        [0, 8, 16].map fun place => ofLeBytes (((d.toList.take 24).drop place).take 8) := by
      refine List.map_congr_left fun place hplace => ?_
      have hle : 8 ≤ 24 - place := by
        revert place
        decide
      rw [List.drop_take, List.take_take, Nat.min_eq_left hle]
    rw [hwords hash, hwords hash', h]

theorem bindingNumber_eq_iff {hash hash' : Digest} :
    bindingNumber hash = bindingNumber hash' ↔ hash.toList.take 24 = hash'.toList.take 24 := by
  rw [bindingNumber_eq_packWords, bindingNumber_eq_packWords, ← bindingWords_eq_iff]
  have hlength : (bindingWords hash).length = (bindingWords hash').length := rfl
  constructor
  · intro h
    exact (packWords_inj hlength (lt_of_mem_bindingWords hash) (lt_of_mem_bindingWords hash') h).2
  · intro h
    rw [h]

/-! ### The parts of a policy -/

theorem toInt_eq_iff {b c : Bool} : b.toInt = c.toInt ↔ b = c :=
  ⟨bool_inj, congrArg _⟩

/-- The time policy is determined up to the step of its code, which no relation reads. -/
theorem TimePolicy.vector_inj {p q : TimePolicy} :
    p.vector = q.vector ↔ { p with codeStep := q.codeStep } = q := by
  cases p
  cases q
  simp only [vector, TimeVector.mk.injEq, TimePolicy.mk.injEq, Int64.toInt_inj, Int.ofNat_inj,
    UInt8.toNat_inj, UInt32.toNat_inj, toInt_eq_iff]
  tauto

theorem Region.vector_inj {r r' : Region} : r.vector = r'.vector ↔ r = r' := by
  rcases r with ⟨⟨lat, lon⟩, radiusSq⟩
  rcases r' with ⟨⟨lat', lon'⟩, radiusSq'⟩
  simp [vector, Int32.toInt_inj, UInt64.toNat_inj, and_assoc]

/-- The flag tells a missing blacklist from one of radius zero about the origin. -/
theorem LocationPolicy.vector_inj {p q : LocationPolicy} : p.vector = q.vector ↔ p = q := by
  have hblacklist {r r' : Option Region} (hpresent : r.isSome = r'.isSome)
      (hregion : r.getD ⟨.origin, 0⟩ = r'.getD ⟨.origin, 0⟩) : r = r' := by
    cases r <;> cases r' <;> simp_all
  constructor
  · intro h
    simp only [vector, LocationVector.mk.injEq, Region.vector_inj, toInt_eq_iff, Int.ofNat_inj,
      UInt64.toNat_inj] at h
    obtain ⟨hauthorized, hpresent, hregion, hspeed, htolerance, hip⟩ := h
    cases p
    cases q
    rw [LocationPolicy.mk.injEq]
    exact ⟨hauthorized, hblacklist hpresent hregion, hspeed, htolerance, hip⟩
  · rintro rfl
    rfl

/-- Whether two pattern policies bound the session, the typing, the timing and the risk alike. -/
structure PatternPolicy.BoundAlike (p q : PatternPolicy) : Prop where
  minSession : p.minSession = q.minSession
  maxSession : p.maxSession = q.maxSession
  minTyping : p.minTyping = q.minTyping
  maxTyping : p.maxTyping = q.maxTyping
  maxVariance : p.maxVariance = q.maxVariance
  riskThreshold : p.riskThreshold = q.riskThreshold

theorem PatternPolicy.vector_inj {p q : PatternPolicy} : p.vector = q.vector ↔ p.BoundAlike q := by
  simp only [vector, PatternVector.mk.injEq, Int64.toInt_inj, Int.ofNat_inj, UInt32.toNat_inj,
    UInt64.toNat_inj, UInt8.toNat_inj]
  constructor
  · rintro ⟨hmin, hmax, hminTyping, hmaxTyping, hvariance, hthreshold⟩
    exact ⟨hmin, hmax, hminTyping, hmaxTyping, hvariance, hthreshold⟩
  · intro h
    exact ⟨h.minSession, h.maxSession, h.minTyping, h.maxTyping, h.maxVariance, h.riskThreshold⟩

theorem PublicSignals.vector_inj {g h : PublicSignals} : g.vector = h.vector ↔ g = h :=
  ⟨fun heq => signals_eq_of_vector (congrArg _ heq), congrArg _⟩

/-! ### Integers behind the entries -/

/-- An integer that no entry of a vector exceeds in size. -/
def IsEntry (n : Int) : Prop :=
  -2 ^ 63 ≤ n ∧ n < 2 ^ 192

theorem isEntry_of_bounds {n : Int} (h : -2 ^ 63 ≤ n ∧ n < 2 ^ 64) : IsEntry n :=
  ⟨h.1, by omega⟩

/-- Nothing is reduced: the scalar has the integer as its number, or its negative has the negative.
-/
theorem IsEntry.val_ofInt {n : Int} (h : IsEntry n) :
    (0 ≤ n → ((Scalar.ofInt n).val : Int) = n) ∧ (n < 0 → ((-Scalar.ofInt n).val : Int) = -n) := by
  obtain ⟨hlow, hhigh⟩ := h
  rw [Scalar.ofInt_eq_cast, ← Int.cast_neg, Scalar.val_cast, Scalar.val_cast]
  unfold order
  omega

theorem map_ofInt_inj {l l' : List Int} (h : ∀ n ∈ l, IsEntry n) (h' : ∀ n ∈ l', IsEntry n)
    (heq : l.map Scalar.ofInt = l'.map Scalar.ofInt) : l = l' := by
  induction l generalizing l' with
  | nil => exact (List.map_eq_nil_iff.mp heq.symm).symm
  | cons n l ih =>
    cases l' with
    | nil => cases heq
    | cons n' l' =>
      obtain ⟨hn, hl⟩ := List.forall_mem_cons.mp h
      obtain ⟨hn', hl'⟩ := List.forall_mem_cons.mp h'
      obtain ⟨hhead, htail⟩ := List.cons.inj heq
      rw [Scalar.ofInt_eq_cast, Scalar.ofInt_eq_cast] at hhead
      obtain rfl : n = n' := by
        have hmod := Scalar.cast_eq_cast_iff.mp hhead
        obtain ⟨hlow, hhigh⟩ := hn
        obtain ⟨hlow', hhigh'⟩ := hn'
        unfold order at hmod
        omega
      rw [ih hl hl' htail]

namespace Statement

/-- The integers that are entered for a statement. -/
def integerVector (s : Statement) : ContextVector Int where
  signals := s.signals.vector
  time := s.snapshot.policy.time.vector
  location := s.snapshot.policy.location.vector
  pattern := s.snapshot.policy.pattern.vector
  binding := bindingNumber s.hash

theorem toList_publicVector (s : Statement) :
    s.publicVector.toList = s.integerVector.toList.map Scalar.ofInt := rfl

theorem isEntry_binding (hash : Digest) : IsEntry (bindingNumber hash) := by
  have hlt : bindingNumber hash < (0 + 1) * UInt64.size ^ 3 := by
    rw [bindingNumber_eq_packWords]
    exact packWords_lt (lt_of_mem_bindingWords hash) 0
  unfold UInt64.size at hlt
  exact ⟨by omega, by omega⟩

theorem isEntry_of_mem {s : Statement} {n : Int} (h : n ∈ s.integerVector.toList) : IsEntry n := by
  revert n
  simp only [ContextVector.toList, SignalVector.toList, TimeVector.toList, LocationVector.toList,
    DiskVector.toList, PatternVector.toList, integerVector, List.forall_mem_append,
    List.forall_mem_cons, List.not_mem_nil, IsEmpty.forall_iff, implies_true, and_true]
  have hbool (b : Bool) : IsEntry b.toInt := isEntry_of_bounds (bool_bounds b)
  have hbyte (b : UInt8) : IsEntry b.toNat := isEntry_of_bounds (byte_bounds b)
  have hword (x : UInt64) : IsEntry x.toNat := isEntry_of_bounds (uint64_bounds x)
  have hsigned (x : Int64) : IsEntry x.toInt := isEntry_of_bounds (int64_bounds x)
  have hhalf (x : UInt32) : IsEntry x.toNat := isEntry_of_bounds (uint32_bounds x)
  have hregion (r : Region) :
      IsEntry r.vector.lat ∧ IsEntry r.vector.lon ∧ IsEntry r.vector.radiusSq :=
    ⟨isEntry_of_bounds (int32_bounds _), isEntry_of_bounds (int32_bounds _), hword _⟩
  refine ⟨⟨⟨⟨?_, ?_⟩, ?_⟩, ?_⟩, isEntry_binding _⟩
  · exact ⟨hbool _, hbool _, hbool _, hbool _, hbool _, hbyte _, hbool _, hbyte _, hbyte _, hbyte _⟩
  · exact ⟨hsigned _, hsigned _, hsigned _, hbyte _, hbyte _, hbool _, hbool _, hhalf _⟩
  · exact ⟨⟨hregion _, hbool _, hregion _⟩, hword _, hword _, hbool _⟩
  · exact ⟨hsigned _, hsigned _, hhalf _, hhalf _, hword _, hbyte _⟩

/-- Whether two statements agree in all that is entered in a public vector. -/
structure EnteredAlike (s t : Statement) : Prop where
  signals : s.signals = t.signals
  /-- Every field but the step of the rolling code. -/
  time : { s.snapshot.policy.time with codeStep := t.snapshot.policy.time.codeStep } =
    t.snapshot.policy.time
  location : s.snapshot.policy.location = t.snapshot.policy.location
  pattern : s.snapshot.policy.pattern.BoundAlike t.snapshot.policy.pattern
  hash : s.hash.toList.take 24 = t.hash.toList.take 24

theorem integerVector_eq_iff {s t : Statement} :
    s.integerVector = t.integerVector ↔ s.EnteredAlike t := by
  rw [integerVector, integerVector, ContextVector.mk.injEq, PublicSignals.vector_inj,
    TimePolicy.vector_inj, LocationPolicy.vector_inj, PatternPolicy.vector_inj, Int.ofNat_inj,
    bindingNumber_eq_iff]
  constructor
  · rintro ⟨hsignals, htime, hlocation, hpattern, hhash⟩
    exact ⟨hsignals, htime, hlocation, hpattern, hhash⟩
  · intro h
    exact ⟨h.signals, h.time, h.location, h.pattern, h.hash⟩

/-- Two statements have the same public vector exactly if they agree in the ten signals, in the time
policy up to the step of its code, in the location policy, in the bounds of the pattern policy and
in the first 24 bytes of their hashes. No value is reduced on the way: an entry for a natural number
has it as its number, the negative of an entry for a negative integer has the absolute value, and
the last entry is packed from its words in the field as in the natural numbers, at every step. -/
theorem publicVector_eq_iff (s t : Statement) :
    (s.publicVector.toList = t.publicVector.toList ↔ s.EnteredAlike t) ∧
    s.publicVector.toList = s.integerVector.toList.map Scalar.ofInt ∧
    (∀ n ∈ s.integerVector.toList, (0 ≤ n → ((Scalar.ofInt n).val : Int) = n) ∧
      (n < 0 → ((-Scalar.ofInt n).val : Int) = -n)) ∧
    s.publicVector.binding = Scalar.packWords 0 (bindingWords s.hash) ∧
    ∀ k, (Scalar.packWords 0 ((bindingWords s.hash).take k)).val =
      packWords 0 ((bindingWords s.hash).take k) := by
  have hpacked (k : Nat) : (Scalar.packWords 0 ((bindingWords s.hash).take k)).val =
      packWords 0 ((bindingWords s.hash).take k) :=
    Scalar.val_packWords (fun word h => lt_of_mem_bindingWords s.hash word (List.mem_of_mem_take h))
      (List.length_take_le' k _)
  have hbinding : s.publicVector.binding = Scalar.packWords 0 (bindingWords s.hash) := by
    rw [Scalar.packWords_zero, ← bindingNumber_eq_packWords]
    rfl
  refine ⟨?_, rfl, fun n h => (isEntry_of_mem h).val_ofInt, hbinding, hpacked⟩
  rw [toList_publicVector, toList_publicVector, ← integerVector_eq_iff]
  constructor
  · intro h
    have hlist := congrArg ContextVector.ofList?
      (map_ofInt_inj (fun _ => isEntry_of_mem) (fun _ => isEntry_of_mem) h)
    rw [ContextVector.ofList?_toList, ContextVector.ofList?_toList] at hlist
    exact Option.some.inj hlist
  · intro h
    rw [h]

end Statement

end AccessContext
