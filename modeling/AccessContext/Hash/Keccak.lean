/-!
# The Keccak permutation

Keccak-f[1600] on 25 lanes of 64 bits, lane `x + 5 y` standing at column `x` and row `y`.
Sponges read and write the state byte by byte, each lane least significant byte first.
-/

namespace AccessContext.Keccak

/-- The 1600-bit state. -/
abbrev State := Vector UInt64 25

/-- The state a sponge starts from. -/
def State.zero : State :=
  Vector.replicate 25 0

/-- A lane turned left by a number of bits below 64. -/
def rotateLeft (lane : UInt64) (bits : UInt64) : UInt64 :=
  if bits = 0 then lane else lane <<< bits ||| lane >>> (64 - bits)

/-- A column or row, counted modulo 5. -/
def wrap (x : Nat) : Fin 5 :=
  ⟨x % 5, by omega⟩

/-- Lane at column `x` and row `y`, both counted modulo 5. -/
def State.lane (s : State) (x y : Nat) : UInt64 :=
  s.get ⟨x % 5 + 5 * (y % 5), by omega⟩

/-- How far each lane is turned before it moves. -/
def rotations : Vector UInt64 25 :=
  #v[0, 1, 62, 28, 27, 36, 44, 6, 55, 20, 3, 10, 43, 25, 39, 41, 45, 15, 21, 8, 18, 2, 61, 56, 14]

/-- The constants that make the rounds differ. -/
def roundConstants : List UInt64 :=
  [0x0000000000000001, 0x0000000000008082, 0x800000000000808a, 0x8000000080008000,
   0x000000000000808b, 0x0000000080000001, 0x8000000080008081, 0x8000000000008009,
   0x000000000000008a, 0x0000000000000088, 0x0000000080008009, 0x000000008000000a,
   0x000000008000808b, 0x800000000000008b, 0x8000000000008089, 0x8000000000008003,
   0x8000000000008002, 0x8000000000000080, 0x000000000000800a, 0x800000008000000a,
   0x8000000080008081, 0x8000000000008080, 0x0000000080000001, 0x8000000080008008]

/-- Adds to each lane the parity of two neighbouring columns. -/
def mixColumns (s : State) : State :=
  let parity : Vector UInt64 5 := Vector.ofFn fun x =>
    s.lane x 0 ^^^ s.lane x 1 ^^^ s.lane x 2 ^^^ s.lane x 3 ^^^ s.lane x 4
  let effect : Vector UInt64 5 := Vector.ofFn fun x =>
    parity[wrap (x.val + 4)] ^^^ rotateLeft parity[wrap (x.val + 1)] 1
  Vector.ofFn fun i => s[i] ^^^ effect[wrap i.val]

/-- Turns every lane and moves it to its new place. -/
def moveLanes (s : State) : State :=
  let turned : State := Vector.ofFn fun i => rotateLeft s[i] rotations[i]
  Vector.ofFn fun i => turned.lane (i.val % 5 + 3 * (i.val / 5)) (i.val % 5)

/-- The only step that is not linear: combines each lane with the next two of its row. -/
def mixRows (s : State) : State :=
  Vector.ofFn fun i =>
    s[i] ^^^ (~~~ s.lane (i.val % 5 + 1) (i.val / 5) &&& s.lane (i.val % 5 + 2) (i.val / 5))

/-- One round with its constant. -/
def round (s : State) (constant : UInt64) : State :=
  let s := mixRows (moveLanes (mixColumns s))
  s.set 0 (s[0] ^^^ constant)

/-- The permutation: 24 rounds. -/
def permute (s : State) : State :=
  roundConstants.foldl round s

/-- Byte `i` of the state; 0 beyond its end. -/
def State.byte (s : State) (i : Nat) : UInt8 :=
  if h : i / 8 < 25 then (s[i / 8] >>> (8 * (i % 8)).toUInt64).toUInt8 else 0

/-- The state with `b` added to byte `i`. -/
def State.addByte (s : State) (i : Nat) (b : UInt8) : State :=
  if h : i / 8 < 25 then s.set (i / 8) (s[i / 8] ^^^ b.toUInt64 <<< (8 * (i % 8)).toUInt64) else s

end AccessContext.Keccak
