import AccessContext.AccessTime
import AccessContext.Behavior
import AccessContext.Device
import AccessContext.Location

/-!
# Policies

The public parameters for one protected resource: what each category has to satisfy, which
categories must pass, and how strictly. A policy has one compact document, whose digest stands
for all of its fields. A snapshot is a policy that was found usable, with its digest.
-/

namespace AccessContext

/-- Which categories must pass, and the level. -/
structure AccessPolicy where
  requirements : Requirements
  level : Level
deriving DecidableEq

namespace AccessPolicy

/-- The device alone, at the lowest level. -/
def minimal : AccessPolicy :=
  ⟨.ofCategories [.device], .basic⟩

/-- Device, time and location, at the second level. -/
def standard : AccessPolicy :=
  ⟨.ofCategories [.device, .time, .location], .standard⟩

/-- Every category, at the highest level. -/
def maximum : AccessPolicy :=
  ⟨.all, .maximum⟩

/-- The requirements a text names, or the reason it names none. -/
def requirementsOfText (s : String) : Except String Requirements :=
  match Requirements.ofText s with
  | .ok r => .ok r
  | .error fault => .error fault.message

/-- The level with a number. -/
def levelOfNumber (n : UInt8) : Except ContextError Level :=
  match Level.ofNumber? n with
  | some level => .ok level
  | none => .error (.invalidPolicy (.levelOutOfRange n))

/-- The level with a number, or the reason there is none. -/
def readLevel (n : UInt8) : Except String Level :=
  match levelOfNumber n with
  | .ok level => .ok level
  | .error e => .error e.message

open Json in
/-- Requirements as the text of their flags. -/
def requirementsCodec : Codec Requirements :=
  (Codec.textAs "a string value of `|` separated flags").refine requirementsOfText
    Requirements.text

open Json in
/-- Levels as their numbers. -/
def levelCodec : Codec Level :=
  Codec.u8.refine readLevel Level.number

open Json in
def codec : Codec AccessPolicy :=
  .record "AccessPolicy"
    (.field "requirements" requirementsCodec none <| .field "level" levelCodec none .done)
    (fun (requirements, level, ()) => ⟨requirements, level⟩)
    (fun p => (p.requirements, p.level, ()))

/-- Requirements may only use the bits of the four categories. -/
def fault? (p : AccessPolicy) : Option PolicyFault :=
  if p.requirements.isKnown then none else some (.unknownRequirements p.requirements.bits)

end AccessPolicy

/-- The public parameters for one resource. -/
structure Policy where
  version : UInt64
  device : DevicePolicy
  time : TimePolicy
  location : LocationPolicy
  pattern : PatternPolicy
  access : AccessPolicy
deriving DecidableEq

namespace Policy

open Json in
def codec : Codec Policy :=
  .record "PolicyParameters"
    (.field "version" .u64 none <| .field "device" DevicePolicy.codec none <|
      .field "time" TimePolicy.codec none <| .field "location" LocationPolicy.codec none <|
      .field "pattern" PatternPolicy.codec none <| .field "access" AccessPolicy.codec none .done)
    (fun (version, device, time, location, pattern, access, ()) =>
      ⟨version, device, time, location, pattern, access⟩)
    (fun p => (p.version, p.device, p.time, p.location, p.pattern, p.access, ()))

/-- The first thing that makes the policy unusable. -/
def fault? (p : Policy) : Option PolicyFault :=
  p.time.fault? <|> p.location.fault? <|> p.pattern.fault? <|> p.access.fault?

def validate (p : Policy) : Except ContextError Unit :=
  match p.fault? with
  | some fault => .error (.invalidPolicy fault)
  | none => .ok ()

/-- The compact document. -/
def document (p : Policy) : String :=
  codec.encode p

/-- The policy in a document, if it is usable. -/
def ofDocument (text : String) : Except ContextError Policy :=
  match codec.decode text with
  | .error fault => .error (.badDocument fault)
  | .ok p =>
    match p.validate with
    | .error e => .error e
    | .ok () => .ok p

/-- Stands for every field of the policy. -/
def digest (p : Policy) : Digest :=
  commit (utf8 "zkctx/policy-digest/v1") [utf8 p.document]

end Policy

/-- A usable policy with its digest. -/
structure Snapshot where
  policy : Policy
  digest : Digest
  fault?_eq : policy.fault? = none
  digest_eq : digest = policy.digest

namespace Snapshot

@[ext] theorem ext {s t : Snapshot} (h : s.policy = t.policy) : s = t := by
  rcases s with ⟨p, d, hp, rfl⟩
  rcases t with ⟨q, e, hq, rfl⟩
  cases h
  rfl

/-- The snapshot of a policy, if it is usable. -/
def ofPolicy (p : Policy) : Except ContextError Snapshot :=
  match h : p.fault? with
  | some fault => .error (.invalidPolicy fault)
  | none => .ok ⟨p, p.digest, h, rfl⟩

def version (s : Snapshot) : UInt64 :=
  s.policy.version

/-- A snapshot that requires nothing. -/
def lenient : Snapshot where
  policy :=
    { version := 1
      device := ⟨.zero, .zero, none, []⟩
      time := ⟨0, 1700000000, 0, 0, 24, 30, 0, false, false⟩
      location := ⟨⟨.origin, 2500⟩, none, 100, 0, false⟩
      pattern := ⟨.zero, 0, 3600, 0, 100, 300, 50, 50⟩
      access := ⟨.empty, .basic⟩ }
  digest := _
  fault?_eq := rfl
  digest_eq := rfl

end Snapshot

end AccessContext
