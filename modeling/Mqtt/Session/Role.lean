import Mqtt.Packet.Decode

/-!
# Roles

A session reads what one side of a connection sends. The server's side reads what a client sends
and the client's side what a server sends; each opens with a kind of its own. Which kinds these are
stands in a table for each side, with what reads them at the places of their type codes.
-/
namespace Mqtt

/-- The side of a connection that reads. -/
inductive Role where
  | server
  | client
  deriving DecidableEq

/-- What reads a packet, from the flags of its header on, at the place of each type code. Nothing
stands at a code that the other side may not send, nor at a reserved one. -/
abbrev DispatchTable := Vector (Option (Nat → Decoder Packet)) 16

/-- The packets that a client may send. -/
def DispatchTable.server : DispatchTable :=
  #v[none,
    some (Packet.decode .connect),
    none,
    some (Packet.decode .publish),
    some (Packet.decode .pubAck),
    some (Packet.decode .pubRec),
    some (Packet.decode .pubRel),
    some (Packet.decode .pubComp),
    some (Packet.decode .subscribe),
    none,
    some (Packet.decode .unsubscribe),
    none,
    some (Packet.decode .pingReq),
    none,
    some (Packet.decode .disconnect),
    none]

/-- The packets that a server may send. -/
def DispatchTable.client : DispatchTable :=
  #v[none,
    none,
    some (Packet.decode .connAck),
    some (Packet.decode .publish),
    some (Packet.decode .pubAck),
    some (Packet.decode .pubRec),
    some (Packet.decode .pubRel),
    some (Packet.decode .pubComp),
    none,
    some (Packet.decode .subAck),
    none,
    some (Packet.decode .unsubAck),
    none,
    some (Packet.decode .pingResp),
    none,
    none]

namespace Role

/-- The name a role is printed with. -/
def name : Role → String
  | server => "Server"
  | client => "Client"

/-- The kind that must come first, and may not come again. -/
def first : Role → Kind
  | server => .connect
  | client => .connAck

/-- The packets that the other side may send. -/
def table : Role → DispatchTable
  | server => .server
  | client => .client

/-- What reads the packets of a type code, if the other side may send them. -/
def reader? (r : Role) (code : Nat) : Option (Nat → Decoder Packet) :=
  r.table[code]?.join

/-- Whether the other side may send a kind at all. -/
def accepts (r : Role) (kind : Kind) : Bool :=
  (r.reader? kind.code).isSome

theorem accepts_first (r : Role) : r.accepts r.first = true := by
  cases r <;> rfl

/-- What stands at the code of a kind reads that kind. -/
theorem reader?_code (r : Role) (kind : Kind) :
    r.reader? kind.code = if r.accepts kind then some (Packet.decode kind) else none := by
  cases r <;> cases kind <;> rfl

/-- Nothing stands at a code that names no kind. -/
theorem reader?_of_ofCode? (r : Role) {code : Nat} (h : Kind.ofCode? code = none) :
    r.reader? code = none := by
  match code with
  | 0 | 15 => cases r <;> rfl
  | 1 | 2 | 3 | 4 | 5 | 6 | 7 | 8 | 9 | 10 | 11 | 12 | 13 | 14 => cases h
  | code + 16 =>
    have outside : ¬ code + 16 < 16 := by omega
    simp [reader?, outside]

/-- **Each slot of the tables is the decoder of the kind of its code**, where the other side may
send that kind. -/
theorem reader?_eq_some_iff {r : Role} {code : Nat} {d : Nat → Decoder Packet} :
    r.reader? code = some d
      ↔ ∃ kind : Kind, code = kind.code ∧ r.accepts kind = true ∧ d = Packet.decode kind := by
  constructor
  · intro h
    cases hkind : Kind.ofCode? code with
    | none =>
      rw [r.reader?_of_ofCode? hkind] at h
      cases h
    | some kind =>
      have code_eq := Kind.ofCode?_eq_some_iff.mp hkind
      have accepts : r.accepts kind = true := by
        rw [Role.accepts, ← code_eq, h]
        rfl
      rw [code_eq, reader?_code, if_pos accepts] at h
      cases h
      exact ⟨kind, code_eq, accepts, rfl⟩
  · intro h
    obtain ⟨kind, code_eq, accepts, rfl⟩ := h
    rw [code_eq, reader?_code, if_pos accepts]

end Role
end Mqtt
