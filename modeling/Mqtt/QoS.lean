/-!
# Quality of service

The three delivery guarantees and their two-bit levels. The fourth level, 3, is reserved.
-/
namespace Mqtt

/-- How hard a message is tried to be delivered. -/
inductive QoS where
  | atMostOnce
  | atLeastOnce
  | exactlyOnce
  deriving DecidableEq

namespace QoS

/-- The level that stands on the wire. -/
def level : QoS → Nat
  | atMostOnce => 0
  | atLeastOnce => 1
  | exactlyOnce => 2

/-- The guarantee of a level; levels from 3 on name none. -/
def ofLevel? : Nat → Option QoS
  | 0 => some atMostOnce
  | 1 => some atLeastOnce
  | 2 => some exactlyOnce
  | _ => none

/-- The name a guarantee is printed with. -/
def name : QoS → String
  | atMostOnce => "AtMostOnce"
  | atLeastOnce => "AtLeastOnce"
  | exactlyOnce => "ExactlyOnce"

theorem level_lt (q : QoS) : q.level < 3 := by
  cases q <;> decide

@[simp] theorem ofLevel?_level (q : QoS) : ofLevel? q.level = some q := by
  cases q <;> rfl

theorem ofLevel?_eq_some_iff {n : Nat} {q : QoS} : ofLevel? n = some q ↔ n = q.level := by
  constructor
  · intro h
    match n with
    | 0 | 1 | 2 => simp only [ofLevel?, Option.some.injEq] at h; subst h; rfl
    | n + 3 => simp [ofLevel?] at h
  · rintro rfl
    exact ofLevel?_level q

end QoS
end Mqtt
