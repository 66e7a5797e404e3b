/-!
# Kinds of control packets

The fourteen kinds, their four-bit type codes, and the flags that a fixed header must carry for
each. Codes 0 and 15 are reserved and name no kind.
-/
namespace Mqtt

/-- The kinds of control packets. -/
inductive Kind where
  | connect
  | connAck
  | publish
  | pubAck
  | pubRec
  | pubRel
  | pubComp
  | subscribe
  | subAck
  | unsubscribe
  | unsubAck
  | pingReq
  | pingResp
  | disconnect
  deriving DecidableEq

namespace Kind

/-- The type code of a kind. -/
def code : Kind → Nat
  | connect => 1
  | connAck => 2
  | publish => 3
  | pubAck => 4
  | pubRec => 5
  | pubRel => 6
  | pubComp => 7
  | subscribe => 8
  | subAck => 9
  | unsubscribe => 10
  | unsubAck => 11
  | pingReq => 12
  | pingResp => 13
  | disconnect => 14

/-- The kind of a type code, unless the code is reserved. -/
def ofCode? : Nat → Option Kind
  | 1 => some connect
  | 2 => some connAck
  | 3 => some publish
  | 4 => some pubAck
  | 5 => some pubRec
  | 6 => some pubRel
  | 7 => some pubComp
  | 8 => some subscribe
  | 9 => some subAck
  | 10 => some unsubscribe
  | 11 => some unsubAck
  | 12 => some pingReq
  | 13 => some pingResp
  | 14 => some disconnect
  | _ => none

/-- The name a kind is printed with. -/
def name : Kind → String
  | connect => "Connect"
  | connAck => "ConnAck"
  | publish => "Publish"
  | pubAck => "PubAck"
  | pubRec => "PubRec"
  | pubRel => "PubRel"
  | pubComp => "PubComp"
  | subscribe => "Subscribe"
  | subAck => "SubAck"
  | unsubscribe => "Unsubscribe"
  | unsubAck => "UnsubAck"
  | pingReq => "PingReq"
  | pingResp => "PingResp"
  | disconnect => "Disconnect"

/-- The flags that the fixed header of a kind must carry. A publish packet has none fixed: its
flags tell how the message is delivered. -/
def requiredFlags : Kind → Option Nat
  | publish => none
  | pubRel | subscribe | unsubscribe => some 2
  | _ => some 0

@[simp] theorem ofCode?_code (k : Kind) : ofCode? k.code = some k := by
  cases k <;> rfl

theorem ofCode?_eq_some_iff {n : Nat} {k : Kind} : ofCode? n = some k ↔ n = k.code := by
  constructor
  · intro h
    unfold ofCode? at h
    split at h <;> cases h <;> rfl
  · rintro rfl
    exact ofCode?_code k

theorem code_lt (k : Kind) : k.code < 16 := by
  cases k <;> decide

theorem code_injective {j k : Kind} (h : j.code = k.code) : j = k := by
  have := congrArg ofCode? h
  simpa using this

end Kind
end Mqtt
