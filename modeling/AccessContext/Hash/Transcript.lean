import AccessContext.Bytes
import AccessContext.Hash.Keccak

/-!
# Transcripts

A transcript absorbs labelled messages and answers with challenge bytes that depend on all of
them. It is a duplex over the Keccak permutation with a rate of 166 bytes, in which every
operation is framed by its kind and by where the operation before it began.
-/

namespace AccessContext

/-- A duplex in the middle of an operation. -/
structure Transcript where
  state : Keccak.State
  position : Nat
  /-- Where the current operation began, counted from 1; 0 if it began in an earlier block. -/
  start : Nat

namespace Transcript

/-- Bytes between two permutations. -/
def rate : Nat := 166

/-- Closes the block and permutes. -/
def permute (t : Transcript) : Transcript :=
  let state := ((t.state.addByte t.position (UInt8.ofNat t.start)).addByte
    (t.position + 1) 0x04).addByte (rate + 1) 0x80
  ⟨Keccak.permute state, 0, 0⟩

/-- Moves past the byte just worked on. -/
def step (t : Transcript) (state : Keccak.State) : Transcript :=
  let next : Transcript := { t with state, position := t.position + 1 }
  if next.position = rate then next.permute else next

def absorbByte (t : Transcript) (b : UInt8) : Transcript :=
  t.step (t.state.addByte t.position b)

def absorb (t : Transcript) (bytes : List UInt8) : Transcript :=
  bytes.foldl absorbByte t

/-- Takes a byte out of the state, leaving zero in its place. -/
def squeezeByte (t : Transcript) : UInt8 × Transcript :=
  let b := t.state.byte t.position
  (b, t.step (t.state.addByte t.position b))

def squeeze : Nat → Transcript → List UInt8 × Transcript
  | 0, t => ([], t)
  | count + 1, t =>
    let (b, t) := t.squeezeByte
    let (rest, t) := squeeze count t
    (b :: rest, t)

/-- Kinds of operation, as the bytes that announce them. -/
def metadata : UInt8 := 0x12

def message : UInt8 := 0x02

def challengeKind : UInt8 := 0x07

/-- Announces a new operation. -/
def announce (t : Transcript) (kind : UInt8) : Transcript :=
  { t with start := t.position + 1 }.absorb [UInt8.ofNat t.start, kind]

/-- An empty duplex for the framing protocol. -/
def initial : Transcript :=
  let header := [1, 168, 1, 0, 1, 96] ++ utf8 "STROBEv1.0.2"
  let state := (header.zipIdx).foldl (fun s (b, i) => s.addByte i b) Keccak.State.zero
  ⟨Keccak.permute state, 0, 0⟩

/-- Absorbs a message with its label and length. -/
def append (t : Transcript) (label : String) (bytes : List UInt8) : Transcript :=
  (((t.announce metadata).absorb (utf8 label)).absorb (leBytes 4 bytes.length)
    |>.announce message).absorb bytes

/-- Absorbs a word of 64 bits. -/
def appendWord (t : Transcript) (label : String) (word : UInt64) : Transcript :=
  t.append label (leBytes 8 word.toNat)

/-- A fresh transcript for one use. -/
def ofLabel (label : String) : Transcript :=
  ((initial.announce metadata).absorb (utf8 "Merlin v1.0")).append "dom-sep" (utf8 label)

/-- As many challenge bytes as asked for; they start in a block of their own. -/
def challenge (t : Transcript) (label : String) (count : Nat) : List UInt8 :=
  let t := (((t.announce metadata).absorb (utf8 label)).absorb (leBytes 4 count)).announce
    challengeKind
  (squeeze count (if t.position = 0 then t else t.permute)).1

theorem length_squeeze (count : Nat) (t : Transcript) : (squeeze count t).1.length = count := by
  induction count generalizing t with
  | zero => rfl
  | succ count ih => simp [squeeze, ih]

@[simp] theorem length_challenge (t : Transcript) (label : String) (count : Nat) :
    (t.challenge label count).length = count :=
  length_squeeze _ _

end Transcript

end AccessContext
