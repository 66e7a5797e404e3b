import Mqtt.Proofs.Wire.Reading

/-!
# Rounds of a loop

A decoder that reads items up to the end of a body goes round once for each item. The rounds are
said here apart from the loop, also those of a loop that fails in the end, so that they can be
counted: if every item takes a number of bytes at least, there are no more rounds than the bytes
ahead have room for.
-/
namespace Mqtt.Decoder

variable {α β : Type} {item : Decoder α} {items : List α} {c c' m : Cursor} {least : Nat}

/-! ### One decoder after the other -/

theorem read_bind_of_ok {d : Decoder α} {f : α → Decoder β} {a : α}
    (h : d.read c = (.ok a, m)) : (d >>= f).read c = (f a).read m := by
  change Decoder.bind d f c = _
  rw [Decoder.bind, show d c = _ from h]
  rfl

theorem read_bind_of_error {d : Decoder α} {f : α → Decoder β} {e : DecodeError}
    (h : d.read c = (.error e, m)) : (d >>= f).read c = (.error e, m) :=
  read_bind_eq_error_iff.mpr (.inl h)

/-! ### Rounds -/

/-- Items that are read one behind the other, and the cursor behind them. -/
inductive Rounds (item : Decoder α) : Cursor → List α → Cursor → Prop
  | none (c : Cursor) : Rounds item c [] c
  | more {c m c' : Cursor} {a : α} {items : List α} (first : item.read c = (.ok a, m))
      (others : Rounds item m items c') : Rounds item c (a :: items) c'

/-- The rounds of a loop and what comes of them: the items, if the body is used up behind the last
one, or the failure of the first item that cannot be read. -/
inductive Loops (item : Decoder α) (c : Cursor) :
    List α → Except DecodeError (List α) → Cursor → Prop
  | ended {items : List α} {c' : Cursor} (rounds : Rounds item c items c')
      (atEnd : c'.atEnd = true) : Loops item c items (.ok items) c'
  | failed {items : List α} {m c' : Cursor} {e : DecodeError} (rounds : Rounds item c items m)
      (failure : item.read m = (.error e, c')) : Loops item c items (.error e) c'

/-- A decoder that takes a number of bytes at least whenever it succeeds. -/
def Takes (least : Nat) (d : Decoder α) : Prop :=
  ∀ c a c', d.read c = (.ok a, c') → c'.remaining + least ≤ c.remaining

/-- A decoder takes as many bytes as every form that it reads has. -/
theorem Reads.takes {d : Decoder α} {F : Form α} (h : d.Reads F)
    (size : ∀ {a b left}, F a b left → least ≤ b.length) : d.Takes least := by
  intro c a c' hread
  obtain ⟨b, past, hF⟩ := (h c a c').mp hread
  have hsize := size hF
  simp only [Cursor.remaining, past.ahead, List.length_append]
  omega

/-! ### What comes of a loop -/

/-- A loop behind an item goes on with the others. -/
theorem Loops.cons {a : α} {r : Except DecodeError (List α)}
    (first : item.read c = (.ok a, m)) (h : Loops item m items r c') :
    Loops item c (a :: items) (r.map (a :: ·)) c' := by
  cases h with
  | ended rounds atEnd => exact .ended (.more first rounds) atEnd
  | failed rounds failure => exact .failed (.more first rounds) failure

/-- What comes of a loop stands behind the items that were found before. The induction is on the
loop; each of its rounds is the first one of those that are left. -/
theorem exists_loops_untilEndFrom (consumes : item.Consumes) (found : List α) (c : Cursor) :
    ∃ items r c', Loops item c items r c'
      ∧ untilEndFrom item consumes found c = (r.map (found.reverse ++ ·), c') := by
  induction found, c using untilEndFrom.induct item consumes with
  | case1 found c hend =>
      refine ⟨[], .ok [], c, .ended (.none c) hend, ?_⟩
      rw [untilEndFrom_of_atEnd hend, Except.map, List.append_nil]
  | case2 found c hend e m hitem =>
      refine ⟨[], .error e, m, .failed (.none c) hitem, ?_⟩
      rw [untilEndFrom_of_error (Bool.eq_false_iff.mpr hend) hitem, Except.map]
  | case3 found c hend a m hitem ih =>
      obtain ⟨items, r, c', loops, result⟩ := ih
      refine ⟨a :: items, r.map (a :: ·), c', loops.cons hitem, ?_⟩
      rw [untilEndFrom_of_ok (Bool.eq_false_iff.mpr hend) hitem, result]
      cases r <;> simp [Except.map]

/-- **A loop up to the end of the body ends**, with what comes of its rounds. -/
theorem exists_loops_untilEnd (consumes : item.Consumes) (c : Cursor) :
    ∃ items r c', Loops item c items r c' ∧ (untilEnd item consumes).read c = (r, c') := by
  obtain ⟨items, r, c', loops, result⟩ := exists_loops_untilEndFrom consumes [] c
  refine ⟨items, r, c', loops, ?_⟩
  rw [read, untilEnd, result]
  cases r <;> simp [Except.map]

/-! ### How many rounds there are -/

/-- Rounds take the bytes of their items off those ahead. -/
theorem Rounds.remaining_add_le (takes : item.Takes least) (h : Rounds item c items c') :
    c'.remaining + items.length * least ≤ c.remaining := by
  induction h with
  | none c => simp
  | more first others ih =>
      have taken := takes _ _ _ first
      rw [List.length_cons, Nat.succ_mul]
      omega

/-- **There are no more rounds than the bytes ahead have room for.** -/
theorem Rounds.length_le (takes : item.Takes least) (positive : 0 < least)
    (h : Rounds item c items c') : items.length ≤ c.remaining / least := by
  have room := h.remaining_add_le takes
  exact (Nat.le_div_iff_mul_le positive).mpr (by omega)

theorem Loops.length_le {r : Except DecodeError (List α)} (takes : item.Takes least)
    (positive : 0 < least) (h : Loops item c items r c') :
    items.length ≤ c.remaining / least := by
  cases h with
  | ended rounds | failed rounds => exact rounds.length_le takes positive

end Mqtt.Decoder
