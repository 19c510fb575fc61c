import AccessContext.AccessTime
import AccessContext.Behavior
import AccessContext.Device
import AccessContext.Location

/-!
# Witnesses

The private input of one request: any of the four categories, and the policy version it was
gathered for, if it was gathered for one. Shown in logs, a witness gives away only which
categories are present.
-/

namespace AccessContext

/-- The private input of a request. -/
structure Witness where
  device : Option DeviceWitness
  time : Option TimeWitness
  location : Option LocationWitness
  behavior : Option BehaviorWitness
  policyVersion : Option UInt64
deriving DecidableEq

namespace Witness

def empty : Witness :=
  ⟨none, none, none, none, none⟩

/-- Whether a category is present. -/
def has (w : Witness) : Category → Bool
  | .device => w.device.isSome
  | .time => w.time.isSome
  | .location => w.location.isSome
  | .pattern => w.behavior.isSome

/-- The first thing wrong in any category that is present. -/
def fault? (w : Witness) : Option InputFault :=
  w.device.bind DeviceWitness.fault? <|> w.time.bind TimeWitness.fault?
    <|> w.location.bind LocationWitness.fault? <|> w.behavior.bind BehaviorWitness.fault?

def validate (w : Witness) : Except ContextError Unit :=
  match w.fault? with
  | some fault => .error (.invalidInput fault)
  | none => .ok ()

/-- How a witness is shown in logs. -/
def summary (w : Witness) : String :=
  let present (b : Bool) : String := if b then "true" else "false"
  let version :=
    match w.policyVersion with
    | some v => s!"Some({v})"
    | none => "None"
  "ContextWitness \x7b device: " ++ present w.device.isSome
    ++ ", time: " ++ present w.time.isSome
    ++ ", location: " ++ present w.location.isSome
    ++ ", behavior: " ++ present w.behavior.isSome
    ++ ", policy_version: " ++ version ++ " \x7d"

/-- How one category of a witness is shown in logs: by the name of its type alone. -/
def partSummary : Category → String
  | .device => "DeviceWitness \x7b .. \x7d"
  | .time => "TimeWitness \x7b .. \x7d"
  | .location => "LocationWitness \x7b .. \x7d"
  | .pattern => "BehaviorWitness \x7b .. \x7d"

end Witness

end AccessContext
