/-!
# Byte strings

Machine words written least or most significant byte first, texts as UTF-8, and strings of
exactly 32 bytes, which hold every digest, salt, key and seed. A text is determined by its bytes,
and a truth value by its byte.
-/

namespace AccessContext

/-- The `width` lowest bytes of `n`, least significant first. -/
def leBytes : Nat → Nat → List UInt8
  | 0, _ => []
  | width + 1, n => UInt8.ofNat n :: leBytes width (n / 256)

/-- The number whose bytes are given, least significant first. -/
def ofLeBytes : List UInt8 → Nat
  | [] => 0
  | b :: bs => b.toNat + 256 * ofLeBytes bs

/-- The `width` lowest bytes of `n`, most significant first. -/
def beBytes (width n : Nat) : List UInt8 :=
  (leBytes width n).reverse

/-- The number whose bytes are given, most significant first. -/
def ofBeBytes (bs : List UInt8) : Nat :=
  ofLeBytes bs.reverse

@[simp] theorem length_leBytes (width n : Nat) : (leBytes width n).length = width := by
  induction width generalizing n with
  | zero => rfl
  | succ width ih => simp [leBytes, ih]

/-- A one-byte truth value: 1 or 0. -/
def boolByte (b : Bool) : UInt8 :=
  if b then 1 else 0

theorem boolByte_inj {a b : Bool} (h : boolByte a = boolByte b) : a = b := by
  revert h
  cases a <;> cases b <;> decide

/-- The UTF-8 form of a text. -/
def utf8 (s : String) : List UInt8 :=
  s.toByteArray.data.toList

theorem utf8_inj {s t : String} (h : utf8 s = utf8 t) : s = t :=
  String.toByteArray_inj.1 (ByteArray.ext (Array.toList_inj.1 h))

/-- A string of 32 bytes. -/
structure Bytes32 where
  toList : List UInt8
  length_toList : toList.length = 32
deriving DecidableEq

/-- What the 32-byte hash functions return. -/
abbrev Digest := Bytes32

namespace Bytes32

@[ext] theorem ext {a b : Bytes32} (h : a.toList = b.toList) : a = b := by
  cases a; cases b; cases h; rfl

theorem toList_inj {a b : Bytes32} : a.toList = b.toList ↔ a = b :=
  ⟨ext, congrArg toList⟩

/-- A list of bytes, if there are 32 of them. -/
def ofList? (bs : List UInt8) : Option Bytes32 :=
  if h : bs.length = 32 then some ⟨bs, h⟩ else none

/-- The first 32 bytes of a list, filled up with zeros. -/
def ofList (bs : List UInt8) : Bytes32 :=
  ⟨bs.take 32 ++ List.replicate (32 - bs.length) 0, by simp; omega⟩

@[simp] theorem ofList?_toList (a : Bytes32) : ofList? a.toList = some a := by
  simp [ofList?, a.length_toList]

@[simp] theorem ofList_toList (a : Bytes32) : ofList a.toList = a := by
  apply ext
  simp [ofList, a.length_toList, List.take_of_length_le]

theorem ofList?_eq_some_iff {bs : List UInt8} {a : Bytes32} :
    ofList? bs = some a ↔ bs = a.toList := by
  constructor
  · intro h
    unfold ofList? at h
    split at h
    · cases h; rfl
    · cases h
  · rintro rfl
    exact ofList?_toList a

/-- Thirty-two zero bytes. -/
def zero : Bytes32 :=
  ⟨List.replicate 32 0, List.length_replicate⟩

end Bytes32

end AccessContext
