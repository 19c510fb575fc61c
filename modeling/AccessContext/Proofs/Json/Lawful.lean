import AccessContext.Proofs.Json.Lexical
import AccessContext.Theory.HexText

/-!
# Lawful codecs

A codec is lawful if every value is read back from its text, whatever follows. Words, truth values,
texts and strings of 32 bytes have lawful codecs, and options, lists and refinements keep the law.
Different values of a lawful codec have different texts. Main statements:
`Codec.IsLawful.decode_encode`, `Codec.IsLawful.encode_inj`, `Codec.IsLawful.list`,
`Codec.isLawful_bytes32`.
-/

namespace AccessContext.Json

namespace Codec

variable {α β : Type} {c : Codec α}

/-- Whether a value is read back from its text, with whatever follows left over. -/
structure Returns (c : Codec α) (a : α) : Prop where
  opens : Opens (c.write a)
  read : ∀ rest, Ends rest → c.read (c.write a ++ rest) = .ok (a, rest)

/-- Whether every value is read back. -/
def IsLawful (c : Codec α) : Prop :=
  ∀ a, c.Returns a

theorem IsLawful.decode_encode (h : c.IsLawful) (a : α) : c.decode (c.encode a) = .ok a := by
  have hread := (h a).read [] ends_nil
  rw [List.append_nil] at hread
  rw [decode, encode, String.toList_ofList, hread]
  rfl

/-- Different values have different texts. -/
theorem IsLawful.encode_inj (h : c.IsLawful) {a b : α} (heq : c.encode a = c.encode b) : a = b := by
  have ha := h.decode_encode a
  rw [heq, h.decode_encode b] at ha
  exact (Except.ok.inj ha).symm

theorem Returns.map {f : α → β} {g : β → α} {b : β} (h : c.Returns (g b)) (hb : f (g b) = b) :
    (c.map f g).Returns b where
  opens := h.opens
  read rest hrest := by
    refine (bind_of_ok (h.read rest hrest)).trans ?_
    rw [hb]
    rfl

theorem Returns.refine {f : α → Except String β} {g : β → α} {b : β} (h : c.Returns (g b))
    (hb : f (g b) = .ok b) : (c.refine f g).Returns b where
  opens := h.opens
  read rest hrest := by
    refine (bind_of_ok (h.read rest hrest)).trans ?_
    rw [hb]
    rfl

/-! ### Words -/

theorem returns_integer {expected : String} {low high n : Int} (hlow : low ≤ n) (hhigh : n ≤ high)
    (hlow' : -2 ^ 63 ≤ n) (hhigh' : n < 2 ^ 64) : (integer expected low high).Returns n where
  opens := opens_integer n
  read rest hrest := by
    refine (bind_of_ok (scalar_integer hlow' hhigh' hrest)).trans ?_
    dsimp only
    rw [if_pos ⟨hlow, hhigh⟩]
    rfl

theorem isLawful_u8 : u8.IsLawful := by
  intro n
  have hn := n.toNat_lt
  exact (returns_integer (by omega) (by omega) (by omega) (by omega)).map (by simp)

theorem isLawful_u32 : u32.IsLawful := by
  intro n
  have hn := n.toNat_lt
  exact (returns_integer (by omega) (by omega) (by omega) (by omega)).map (by simp)

theorem isLawful_word64 (expected : String) : (word64 expected).IsLawful := by
  intro n
  have hn := n.toNat_lt
  exact (returns_integer (by omega) (by omega) (by omega) (by omega)).map (by simp)

theorem isLawful_i32 : i32.IsLawful := by
  intro n
  have hlow := n.le_toInt
  have hhigh := n.toInt_lt
  exact (returns_integer (by omega) (by omega) (by omega) (by omega)).map (by simp)

theorem isLawful_i64 : i64.IsLawful := by
  intro n
  have hlow := n.le_toInt
  have hhigh := n.toInt_lt
  exact (returns_integer (by omega) (by omega) (by omega) (by omega)).map (by simp)

/-! ### Truth values and texts -/

theorem isLawful_bool : bool.IsLawful := by
  intro b
  cases b with
  | true =>
    refine ⟨⟨'t', _, rfl, rfl, by decide⟩, fun rest _ => ?_⟩
    exact bind_of_ok (scalar_true rest)
  | false =>
    refine ⟨⟨'f', _, rfl, rfl, by decide⟩, fun rest _ => ?_⟩
    exact bind_of_ok (scalar_false rest)

theorem isLawful_textAs (expected : String) : (textAs expected).IsLawful := by
  intro s
  refine ⟨⟨'"', _, rfl, rfl, by decide⟩, fun rest _ => ?_⟩
  refine (bind_of_ok (scalar_string s.toList rest)).trans ?_
  dsimp only
  rw [String.ofList_toList]
  rfl

/-- A value whose text is not that of `null` may be missing. -/
theorem IsLawful.nullable (h : c.IsLawful) (hnull : ∀ a, (c.write a).head? ≠ some 'n') :
    c.nullable.IsLawful := by
  intro o
  cases o with
  | none =>
    refine ⟨⟨'n', _, rfl, rfl, by decide⟩, fun rest _ => ?_⟩
    refine (bind_of_ok (look_cons rfl)).trans ?_
    rw [if_pos rfl]
    exact bind_of_ok (word_append _ rest)
  | some a =>
    obtain ⟨d, ds, hds, hblank, hclose⟩ := (h a).opens
    refine ⟨(h a).opens, fun rest hrest => ?_⟩
    have hread := (h a).read rest hrest
    have hne : ¬ some d = some 'n' := by
      have := hnull a
      rwa [hds] at this
    change c.nullable.read (c.write a ++ rest) = _
    rw [hds, List.cons_append] at hread ⊢
    refine (bind_of_ok (look_cons hblank)).trans ?_
    rw [if_neg hne]
    exact bind_of_ok hread

end Codec

/-! ### Lists -/

theorem separated_cons (part : List Char) (parts : List (List Char)) :
    separated (part :: parts) = part ++ parts.flatMap (',' :: ·) := by
  induction parts generalizing part with
  | nil => simp [separated]
  | cons next parts ih =>
    rw [separated, ih, List.flatMap_cons, List.cons_append]
    exact List.cons_ne_nil next parts

/-- What follows a part is another part behind a comma, or the closing bracket. -/
theorem ends_parts (parts : List (List Char)) {bracket : Char} (rest : List Char)
    (h : bracket = ']' ∨ bracket = '\x7d') :
    Ends (parts.flatMap (',' :: ·) ++ bracket :: rest) := by
  cases parts with
  | nil => exact ends_cons (.inr h)
  | cons part parts => exact ends_cons (.inl rfl)

theorem length_le_parts (parts : List (List Char)) :
    parts.length ≤ (parts.flatMap (',' :: ·)).length := by
  induction parts with
  | nil => exact Nat.le_refl 0
  | cons part parts ih =>
    simp only [List.flatMap_cons, List.length_cons, List.length_append]
    omega

theorem nextElement_close (first : Bool) (rest : List Char) :
    nextElement first (']' :: rest) = .ok (false, ']' :: rest) :=
  rfl

theorem nextElement_first {cs : List Char} (h : Opens cs) (rest : List Char) :
    nextElement true (cs ++ rest) = .ok (true, cs ++ rest) := by
  obtain ⟨c, s, rfl, hblank, hclose⟩ := h
  rw [List.cons_append, nextElement, bind_of_ok (look_cons hblank)]
  dsimp only
  rw [if_neg hclose]
  rfl

theorem nextElement_comma {cs : List Char} (h : Opens cs) (rest : List Char) :
    nextElement false (',' :: (cs ++ rest)) = .ok (true, cs ++ rest) := by
  obtain ⟨c, s, rfl, hblank, hclose⟩ := h
  rw [nextElement, bind_of_ok (look_cons rfl)]
  dsimp only
  rw [if_neg (by decide), if_neg (by decide), if_pos rfl, bind_of_ok (advance_cons _ _),
    List.cons_append, bind_of_ok (look_cons hblank)]
  dsimp only
  rw [if_neg hclose]
  rfl

theorem openArray_cons (expected : String) (rest : List Char) :
    openArray expected ('[' :: rest) = .ok ((), rest) := by
  rw [openArray, bind_of_ok (valueStart_cons rfl), if_pos rfl]
  rfl

namespace Codec

variable {α : Type} {c : Codec α}

/-- The elements after the first are read one behind each comma. -/
theorem IsLawful.elementsFrom_parts (h : c.IsLawful) (as done : List α) {fuel : Nat}
    (hfuel : as.length < fuel) (rest : List Char) :
    elementsFrom c.read fuel false done ((as.map c.write).flatMap (',' :: ·) ++ ']' :: rest) =
      .ok (done.reverse ++ as, ']' :: rest) := by
  induction as generalizing done fuel with
  | nil =>
    obtain ⟨fuel, rfl⟩ := Nat.exists_eq_add_one_of_ne_zero (Nat.ne_of_gt hfuel)
    simp [elementsFrom, nextElement_close]
  | cons a as ih =>
    obtain ⟨fuel, rfl⟩ := Nat.exists_eq_add_one_of_ne_zero (Nat.ne_zero_of_lt hfuel)
    rw [List.length_cons] at hfuel
    rw [List.map_cons, List.flatMap_cons, List.cons_append, List.cons_append, List.append_assoc,
      elementsFrom, nextElement_comma (h a).opens]
    dsimp only
    rw [(h a).read _ (ends_parts _ rest (.inl rfl))]
    dsimp only
    rw [ih (a :: done) (by omega)]
    simp

theorem IsLawful.elementsFrom_separated (h : c.IsLawful) (as : List α) {fuel : Nat}
    (hfuel : as.length < fuel) (rest : List Char) :
    elementsFrom c.read fuel true [] (separated (as.map c.write) ++ ']' :: rest) =
      .ok (as, ']' :: rest) := by
  obtain ⟨fuel, rfl⟩ := Nat.exists_eq_add_one_of_ne_zero (Nat.ne_zero_of_lt hfuel)
  cases as with
  | nil => rfl
  | cons a as =>
    rw [List.length_cons] at hfuel
    rw [List.map_cons, separated_cons, List.append_assoc, elementsFrom,
      nextElement_first (h a).opens]
    dsimp only
    rw [(h a).read _ (ends_parts _ rest (.inl rfl))]
    dsimp only
    rw [h.elementsFrom_parts as [a] (by omega)]
    rfl

theorem IsLawful.length_le_separated (h : c.IsLawful) (as : List α) :
    as.length ≤ (separated (as.map c.write)).length := by
  cases as with
  | nil => exact Nat.le_refl 0
  | cons a as =>
    obtain ⟨d, ds, hds, -⟩ := (h a).opens
    have hle := length_le_parts (as.map c.write)
    rw [List.length_map] at hle
    rw [List.map_cons, separated_cons, List.length_append, List.length_cons, hds, List.length_cons]
    omega

/-- A list of values is read back if each of them is. -/
theorem IsLawful.list (h : c.IsLawful) : c.list.IsLawful := by
  intro as
  refine ⟨⟨'[', _, rfl, rfl, by decide⟩, fun rest _ => ?_⟩
  have hlength := h.length_le_separated as
  have hwrite : c.list.write as ++ rest =
      '[' :: (separated (as.map c.write) ++ ']' :: rest) := by
    simp [Codec.list]
  have hfuel : as.length < (separated (as.map c.write) ++ ']' :: rest).length + 1 := by
    rw [List.length_append]
    omega
  rw [hwrite]
  refine (bind_of_ok (openArray_cons _ _)).trans ?_
  exact bind_of_ok (x := fun s => elementsFrom c.read (s.length + 1) true [] s)
    (h.elementsFrom_separated as hfuel rest)

/-! ### Arrays of a fixed length -/

/-- As many elements as are asked for are read, and the closing bracket is left over. -/
theorem IsLawful.exactlyFrom_parts (h : c.IsLawful) (expected : String) (as : List α) (index : Nat)
    (rest : List Char) :
    exactlyFrom c.read expected as.length index false
        ((as.map c.write).flatMap (',' :: ·) ++ ']' :: rest) = .ok (as, ']' :: rest) := by
  induction as generalizing index with
  | nil => rfl
  | cons a as ih =>
    rw [List.map_cons, List.flatMap_cons, List.cons_append, List.cons_append, List.append_assoc,
      List.length_cons, exactlyFrom, bind_of_ok (nextElement_comma (h a).opens _), if_pos rfl,
      bind_of_ok ((h a).read _ (ends_parts _ rest (.inl rfl))), bind_of_ok (ih (index + 1))]
    rfl

theorem IsLawful.exactlyFrom_separated (h : c.IsLawful) (expected : String) (as : List α)
    (rest : List Char) :
    exactlyFrom c.read expected as.length 0 true (separated (as.map c.write) ++ ']' :: rest) =
      .ok (as, ']' :: rest) := by
  cases as with
  | nil => rfl
  | cons a as =>
    rw [List.map_cons, separated_cons, List.append_assoc, List.length_cons, exactlyFrom,
      bind_of_ok (nextElement_first (h a).opens _), if_pos rfl,
      bind_of_ok ((h a).read _ (ends_parts _ rest (.inl rfl))),
      bind_of_ok (h.exactlyFrom_parts expected as 1 rest)]
    rfl

/-- Thirty-two bytes are read back from an array of their numbers. -/
theorem isLawful_bytes32 : bytes32.IsLawful := by
  intro a
  refine ⟨⟨'[', _, rfl, rfl, by decide⟩, fun rest _ => ?_⟩
  have hwrite : bytes32.write a ++ rest =
      '[' :: (separated (a.toList.map u8.write) ++ ']' :: rest) := by
    simp [bytes32]
  have hread := isLawful_u8.exactlyFrom_separated "an array of length 32" a.toList rest
  rw [a.length_toList] at hread
  rw [hwrite]
  refine (bind_of_ok (openArray_cons _ _)).trans ?_
  refine (bind_of_ok hread).trans ?_
  rw [Bytes32.ofList_toList]
  rfl

/-! ### Hexadecimal texts -/

theorem ofHex32_encode (a : Bytes32) : ofHex32 (Hex.encode a.toList) = .ok a := by
  rw [ofHex32, Hex.decode_encode]
  dsimp only
  rw [Bytes32.ofList?_toList]

theorem mapM_ofHex32 (as : List Bytes32) :
    (as.map fun a => Hex.encode a.toList).mapM ofHex32 = .ok as := by
  induction as with
  | nil => rfl
  | cons a as ih =>
    rw [List.map_cons, List.mapM_cons, ofHex32_encode, ih]
    rfl

theorem isLawful_hex32 : hex32.IsLawful :=
  fun a => (isLawful_textAs _ _).refine (ofHex32_encode a)

theorem isLawful_hex32List : hex32List.IsLawful :=
  fun as => ((isLawful_textAs _).list _).refine (mapM_ofHex32 as)

theorem isLawful_hex32Option : hex32Option.IsLawful :=
  isLawful_hex32.nullable fun _ h => nomatch h

end Codec

end AccessContext.Json
