import Mqtt.Wire.Field

/-!
# What a list of steps writes

A list of steps either writes bytes or fails at its first bad step. `Step.Writes` says that all
steps succeed and what they write together; the lemmas take such a list apart, step by step or at a
seam between two lists.
-/
namespace Mqtt.Step

/-- All steps succeed, and together they write the bytes. -/
def Writes (steps : List Step) (b : Bytes) : Prop :=
  writeAll steps = (b, none)

@[simp] theorem writes_nil {b : Bytes} : Writes [] b ↔ b = [] := by
  rw [Writes, writeAll, Prod.mk.injEq, eq_self, and_true, eq_comm]

theorem writes_cons {step : Step} {steps : List Step} {b : Bytes} :
    Writes (step :: steps) b
      ↔ ∃ front back, b = front ++ back ∧ step.run = .ok front ∧ Writes steps back := by
  rw [Writes, writeAll]
  cases step.run with
  | error fault => simp
  | ok front =>
      simp only [Writes, Except.ok.injEq, Prod.ext_iff]
      constructor
      · rintro ⟨rfl, h⟩
        exact ⟨front, _, rfl, rfl, rfl, h⟩
      · rintro ⟨_, back, rfl, rfl, rfl, h⟩
        exact ⟨rfl, h⟩

@[simp] theorem writes_require_cons {condition : Bool} {fault : EncodeFault} {steps : List Step}
    {b : Bytes} :
    Writes (.require condition fault :: steps) b ↔ condition = true ∧ Writes steps b := by
  rw [writes_cons]
  cases condition with
  | false => simp [run]
  | true =>
      constructor
      · rintro ⟨_, back, rfl, ⟨⟩, h⟩
        exact ⟨rfl, h⟩
      · rintro ⟨-, h⟩
        exact ⟨[], b, rfl, rfl, h⟩

@[simp] theorem writes_write_cons {field : Field} {steps : List Step} {b : Bytes} :
    Writes (.write field :: steps) b
      ↔ ∃ front back, b = front ++ back ∧ field.encode = .ok front ∧ Writes steps back :=
  writes_cons

@[simp] theorem writes_write {field : Field} {b : Bytes} :
    Writes [.write field] b ↔ field.encode = .ok b := by
  simp

theorem writes_append {steps more : List Step} {b : Bytes} :
    Writes (steps ++ more) b
      ↔ ∃ front back, b = front ++ back ∧ Writes steps front ∧ Writes more back := by
  induction steps generalizing b with
  | nil =>
      constructor
      · intro h
        exact ⟨[], b, rfl, writes_nil.mpr rfl, h⟩
      · rintro ⟨_, back, rfl, h, hback⟩
        rwa [writes_nil.mp h]
  | cons step steps ih =>
      simp only [List.cons_append, writes_cons, ih]
      constructor
      · rintro ⟨front, _, rfl, hstep, middle, back, rfl, hsteps, hmore⟩
        exact ⟨front ++ middle, back, (List.append_assoc ..).symm,
          ⟨front, middle, rfl, hstep, hsteps⟩, hmore⟩
      · rintro ⟨_, back, rfl, ⟨front, middle, rfl, hstep, hsteps⟩, hmore⟩
        exact ⟨front, middle ++ back, List.append_assoc .., hstep, middle, back, rfl, hsteps,
          hmore⟩

end Mqtt.Step
