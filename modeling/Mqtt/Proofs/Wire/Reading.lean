import Mqtt.Packet.Decode
import Mqtt.Proofs.Wire.Field

/-!
# What a decoder accepts

A form of values says which bytes stand for a value. A decoder reads a form if it succeeds exactly
where the bytes ahead open with the form of a value, and then stops right behind it. Both directions
are one statement, and it composes: what is read piece by piece has its form piece by piece.

## Main definitions

* `Form`: which bytes stand for a value.
* `Cursor.Past`: the cursor that some bytes lead to.
* `Decoder.Reads`: a decoder accepts exactly what has a form.

## Main statements

* `Decoder.Reads.bind`: one decoder after the other.
* `Decoder.Reads.after`: a decoder behind a condition.
* `Decoder.Reads.untilEnd`: a decoder again and again, up to the end of the body.
-/
namespace Mqtt

/-- Which bytes stand for a value: `F a b left` says that `b` in front of `left` stands for `a`.
Most forms do not look at what is left. -/
def Form (α : Type) : Type := α → Bytes → Bytes → Prop

/-- The bytes `b` lie between the cursors. -/
structure Cursor.Past (c : Cursor) (b : Bytes) (c' : Cursor) : Prop where
  ahead : c.ahead = b ++ c'.ahead
  position : c'.position = c.position + b.length

namespace Cursor

theorem past_append {c c' : Cursor} {a b : Bytes} :
    c.Past (a ++ b) c' ↔ ∃ m, c.Past a m ∧ m.Past b c' := by
  constructor
  · rintro ⟨ahead, position⟩
    refine ⟨⟨c.position + a.length, b ++ c'.ahead⟩, ⟨?_, rfl⟩, ⟨rfl, ?_⟩⟩
    · rw [ahead, List.append_assoc]
    · rw [position, List.length_append, Nat.add_assoc]
  · rintro ⟨m, first, second⟩
    refine ⟨?_, ?_⟩
    · rw [first.ahead, second.ahead, List.append_assoc]
    · rw [second.position, first.position, List.length_append, Nat.add_assoc]

theorem past_nil {c c' : Cursor} : c.Past [] c' ↔ c' = c := by
  constructor
  · rintro ⟨ahead, position⟩
    cases c
    cases c'
    simp only [List.nil_append, List.length_nil, Nat.add_zero] at ahead position
    rw [ahead, position]
  · rintro rfl
    exact ⟨rfl, rfl⟩

end Cursor

namespace Decoder

variable {α β : Type} {F : Form α}

/-- The decoder succeeds exactly where the bytes ahead open with a form of a value, and then gives
that value and stops behind the form. -/
def Reads (d : Decoder α) (F : Form α) : Prop :=
  ∀ c a c', d.read c = (.ok a, c') ↔ ∃ b, c.Past b c' ∧ F a b c'.ahead

theorem Reads.congr {d : Decoder α} {G : Form α} (h : d.Reads F)
    (hFG : ∀ a b left, F a b left ↔ G a b left) : d.Reads G := by
  intro c a c'
  simp only [h c a c', hFG]

/-- The two directions apart: what is read has a form, and what has a form is read. -/
theorem Reads.intro {d : Decoder α}
    (sound : ∀ c a c', d.read c = (.ok a, c') → ∃ b, c.Past b c' ∧ F a b c'.ahead)
    (complete : ∀ n a b left, F a b left →
      d.read ⟨n, b ++ left⟩ = (.ok a, ⟨n + b.length, left⟩)) : d.Reads F := by
  intro c a c'
  constructor
  · exact sound c a c'
  · rintro ⟨b, ⟨ahead, position⟩, hF⟩
    cases c
    cases c'
    simp only at ahead position hF
    subst ahead position
    exact complete _ a b _ hF

theorem Reads.read_append {d : Decoder α} (h : d.Reads F) {a : α} {b left : Bytes}
    (hF : F a b left) (n : Nat) :
    d.read ⟨n, b ++ left⟩ = (.ok a, ⟨n + b.length, left⟩) :=
  (h _ _ _).mpr ⟨b, ⟨rfl, rfl⟩, hF⟩

/-- At the front of the same bytes there is only one value, in one form, if the form does not look
at what is left. -/
theorem Reads.form_inj {d : Decoder α} {F : α → Bytes → Prop} (h : d.Reads fun a b _ => F a b)
    {a a' : α} {b b' left left' : Bytes} (hF : F a b) (hF' : F a' b')
    (same : b ++ left = b' ++ left') : a = a' ∧ b = b' ∧ left = left' := by
  have first : d.read ⟨0, b ++ left⟩ = (.ok a, ⟨0 + b.length, left⟩) := h.read_append hF 0
  have second : d.read ⟨0, b' ++ left'⟩ = (.ok a', ⟨0 + b'.length, left'⟩) := h.read_append hF' 0
  rw [same, second] at first
  simp only [Prod.mk.injEq, Except.ok.injEq, Cursor.mk.injEq] at first
  obtain ⟨rfl, -, rfl⟩ := first
  exact ⟨rfl, List.append_cancel_right same, rfl⟩

/-! ### Decoders in sequence -/

theorem read_bind_eq_ok_iff {d : Decoder α} {f : α → Decoder β} {c c' : Cursor} {y : β} :
    (d >>= f).read c = (.ok y, c')
      ↔ ∃ a m, d.read c = (.ok a, m) ∧ (f a).read m = (.ok y, c') := by
  change Decoder.bind d f c = (.ok y, c') ↔ _
  rw [Decoder.bind, read]
  rcases d c with ⟨e | a, m⟩
  · simp
  · constructor
    · intro h
      exact ⟨a, m, rfl, h⟩
    · rintro ⟨_, _, ⟨⟩, h⟩
      exact h

theorem read_bind_eq_error_iff {d : Decoder α} {f : α → Decoder β} {c c' : Cursor}
    {e : DecodeError} :
    (d >>= f).read c = (.error e, c')
      ↔ d.read c = (.error e, c')
        ∨ ∃ a m, d.read c = (.ok a, m) ∧ (f a).read m = (.error e, c') := by
  change Decoder.bind d f c = (.error e, c') ↔ _
  rw [Decoder.bind, read]
  rcases d c with ⟨e' | a, m⟩
  · simp
  · simp only [Prod.mk.injEq, reduceCtorEq, false_and, false_or]
    constructor
    · intro h
      exact ⟨a, m, ⟨rfl, rfl⟩, h⟩
    · intro h
      obtain ⟨_, _, ⟨⟨⟩, ⟨⟩⟩, h⟩ := h
      exact h

/-- What a mapped decoder reads is an image. -/
theorem exists_eq_of_read_map {f : α → β} {d : Decoder α} {c c' : Cursor} {y : β}
    (h : (f <$> d).read c = (.ok y, c')) : ∃ a, f a = y := by
  obtain ⟨a, m, -, h⟩ := read_bind_eq_ok_iff.mp h
  cases h
  exact ⟨a, rfl⟩

/-- **One decoder after the other** reads one form behind the other. -/
theorem Reads.bind {d : Decoder α} {f : α → Decoder β} {G : α → Form β} (hd : d.Reads F)
    (hf : ∀ a, (f a).Reads (G a)) :
    (d >>= f).Reads fun y b left =>
      ∃ a front back, b = front ++ back ∧ F a front (back ++ left) ∧ G a y back left := by
  intro c y c'
  rw [read_bind_eq_ok_iff]
  constructor
  · rintro ⟨a, m, hfirst, hsecond⟩
    obtain ⟨front, pastFront, hF⟩ := (hd c a m).mp hfirst
    obtain ⟨back, pastBack, hG⟩ := (hf a m y c').mp hsecond
    rw [pastBack.ahead] at hF
    exact ⟨front ++ back, Cursor.past_append.mpr ⟨m, pastFront, pastBack⟩, a, front, back, rfl, hF,
      hG⟩
  · rintro ⟨_, past, a, front, back, rfl, hF, hG⟩
    obtain ⟨m, pastFront, pastBack⟩ := Cursor.past_append.mp past
    rw [← pastBack.ahead] at hF
    exact ⟨a, m, (hd c a m).mpr ⟨front, pastFront, hF⟩, (hf a m y c').mpr ⟨back, pastBack, hG⟩⟩

/-- A decoder that consumes nothing and looks at nothing has only a condition to add to what comes
after it. -/
theorem Reads.after {d : Decoder α} {r : Except DecodeError α} (hd : ∀ c, d.read c = (r, c))
    {f : α → Decoder β} {G : α → Form β} (hf : ∀ a, (f a).Reads (G a)) :
    (d >>= f).Reads fun y b left => ∃ a, r = .ok a ∧ G a y b left := by
  intro c y c'
  rw [read_bind_eq_ok_iff, hd]
  constructor
  · rintro ⟨a, m, hr, hy⟩
    obtain ⟨rfl, rfl⟩ := Prod.mk.inj hr
    obtain ⟨b, past, hG⟩ := (hf a c y c').mp hy
    exact ⟨b, past, a, rfl, hG⟩
  · rintro ⟨b, past, a, rfl, hG⟩
    exact ⟨a, c, rfl, (hf a c y c').mpr ⟨b, past, hG⟩⟩

theorem reads_pure (x : α) : (pure x : Decoder α).Reads fun a b _ => a = x ∧ b = [] := by
  intro c a c'
  change ((.ok x, c) : Except DecodeError α × Cursor) = (.ok a, c') ↔ _
  constructor
  · rintro ⟨⟩
    exact ⟨[], Cursor.past_nil.mpr rfl, rfl, rfl⟩
  · rintro ⟨_, past, rfl, rfl⟩
    rw [Cursor.past_nil.mp past]

theorem Reads.bind_pure {d : Decoder α} (f : α → β) (h : d.Reads F) :
    (d >>= fun a => pure (f a)).Reads fun y b left => ∃ a, y = f a ∧ F a b left := by
  refine (h.bind fun a => reads_pure (f a)).congr fun y b left => ?_
  constructor
  · rintro ⟨a, front, _, rfl, hF, rfl, rfl⟩
    rw [List.append_nil]
    exact ⟨a, rfl, hF⟩
  · rintro ⟨a, rfl, hF⟩
    exact ⟨a, b, [], (List.append_nil b).symm, hF, rfl, rfl⟩

theorem Reads.map {d : Decoder α} (f : α → β) (h : d.Reads F) :
    (f <$> d).Reads fun y b left => ∃ a, y = f a ∧ F a b left :=
  h.bind_pure f

/-- A whole body, if nothing may be left of it. -/
theorem Reads.read_whole_map {d : Decoder α} {F : α → Bytes → Prop}
    (h : d.Reads fun a b left => F a b ∧ left = []) (f : α → β) {body : Bytes} {y : β} :
    ((f <$> d).read (.start body)).1 = .ok y ↔ ∃ a, y = f a ∧ F a body := by
  constructor
  · intro hy
    have hread : (f <$> d).read (.start body) = (.ok y, ((f <$> d).read (.start body)).2) :=
      Prod.ext hy rfl
    obtain ⟨b, ⟨ahead, -⟩, a, rfl, hF, nothing⟩ := (h.map f _ _ _).mp hread
    rw [nothing, List.append_nil] at ahead
    obtain rfl : body = b := ahead
    exact ⟨a, rfl, hF⟩
  · rintro ⟨a, rfl, hF⟩
    have hread := (h.map f).read_append ⟨a, rfl, hF, rfl⟩ 0
    rw [List.append_nil] at hread
    exact congrArg Prod.fst hread

theorem Reads.require {f : Unit → Decoder α} (condition : Bool) (kind : Kind)
    (violation : Violation) (h : (f ()).Reads F) :
    (require condition kind violation >>= f).Reads fun a b left =>
      condition = true ∧ F a b left := by
  cases condition with
  | true =>
      refine (Reads.after (r := .ok ()) (fun _ => rfl) fun _ => h).congr fun a b left => ?_
      simp
  | false =>
      refine (Reads.after (r := .error (.malformed kind violation)) (fun _ => rfl)
        fun _ => h).congr fun a b left => ?_
      simp

theorem Reads.lift {x : Except Violation α} {f : α → Decoder β} {G : α → Form β} (kind : Kind)
    (hf : ∀ a, (f a).Reads (G a)) :
    (lift kind x >>= f).Reads fun y b left => ∃ a, x = .ok a ∧ G a y b left := by
  cases x with
  | ok a =>
      refine (Reads.after (r := .ok a) (fun _ => rfl) hf).congr fun y b left => ?_
      simp
  | error violation =>
      refine (Reads.after (r := .error (.malformed kind violation)) (fun _ => rfl) hf).congr
        fun y b left => ?_
      simp

theorem Reads.guarantee {f : QoS → Decoder β} {G : QoS → Form β} (level : Nat) (kind : Kind)
    (violation : Violation) (hf : ∀ q, (f q).Reads (G q)) :
    (guarantee level kind violation >>= f).Reads fun y b left =>
      ∃ q : QoS, level = q.level ∧ G q y b left := by
  have stays : ∀ c, (Decoder.guarantee level kind violation).read c
      = (((QoS.ofLevel? level).elim (.error (.malformed kind violation)) .ok), c) := by
    intro c
    rw [Decoder.guarantee]
    cases QoS.ofLevel? level <;> rfl
  refine (Reads.after stays hf).congr fun y b left => ?_
  constructor
  · rintro ⟨q, hq, hG⟩
    cases hlevel : QoS.ofLevel? level with
    | none => simp [hlevel] at hq
    | some p =>
        simp only [hlevel, Option.elim_some, Except.ok.injEq] at hq
        subst hq
        exact ⟨p, QoS.ofLevel?_eq_some_iff.mp hlevel, hG⟩
  · rintro ⟨q, rfl, hG⟩
    exact ⟨q, by simp, hG⟩

/-! ### Fields -/

theorem reads_byte : byte.Reads fun a b _ => (Field.byte a).encode = .ok b := by
  apply Reads.intro
  · intro c a c' h
    rw [read, byte] at h
    split at h
    · next v ahead hc =>
      cases h
      exact ⟨[a], ⟨hc, rfl⟩, rfl⟩
    · cases h
  · rintro n a _ left ⟨⟩
    rfl

theorem reads_word : word.Reads fun a b _ => (Field.word a).encode = .ok b := by
  apply Reads.intro
  · intro c a c' h
    rw [read, word] at h
    split at h
    · next high low ahead hc =>
      cases h
      exact ⟨[high, low], ⟨hc, rfl⟩, congrArg Except.ok (Bytes.ofWord_word high low)⟩
    · cases h
  · rintro n a _ left ⟨⟩
    exact congrArg (fun w => (Except.ok w, Cursor.mk (n + 2) left)) (Bytes.word_ofWord a)

theorem reads_take (n : Nat) : (take n).Reads fun a b _ => b = a ∧ a.length = n := by
  apply Reads.intro
  · intro c a c' h
    rw [read, take] at h
    split at h
    · cases h
    · next hlen =>
      cases h
      rw [List.length_take] at hlen
      have hfront : (c.ahead.take n).length = n := by rw [List.length_take]; omega
      refine ⟨c.ahead.take n, ⟨(List.take_append_drop n c.ahead).symm, ?_⟩, rfl, hfront⟩
      rw [hfront]
  · rintro m a _ left ⟨rfl, rfl⟩
    rw [read, take, List.take_left, List.drop_left, if_neg (Nat.lt_irrefl _)]

theorem reads_data : data.Reads fun a b _ => (Field.data a).encode = .ok b := by
  refine (reads_word.bind fun size => reads_take size.toNat).congr fun a b left => ?_
  rw [Field.encode, Field.encodeData_eq_ok_iff_exists]
  constructor
  · rintro ⟨size, _, _, rfl, ⟨⟩, rfl, hsize⟩
    exact ⟨size, hsize.symm, rfl⟩
  · rintro ⟨size, hsize, rfl⟩
    exact ⟨size, _, a, rfl, rfl, rfl, hsize.symm⟩

theorem reads_text : text.Reads fun a b _ => (Field.text a).encode = .ok b := by
  have stay (raw : Bytes) :
      Reads (fun c => (textOf raw, c)) fun a b _ => textOf raw = .ok a ∧ b = [] := by
    apply Reads.intro
    · intro c a c' h
      obtain ⟨hraw, rfl⟩ := Prod.mk.inj h
      exact ⟨[], Cursor.past_nil.mpr rfl, hraw, rfl⟩
    · rintro n a _ left ⟨hraw, rfl⟩
      exact congrArg (fun r => (r, Cursor.mk n left)) hraw
  refine (reads_data.bind stay).congr fun a b left => ?_
  rw [Field.encode, Field.encodeText_eq_ok_iff]
  constructor
  · rintro ⟨raw, front, _, rfl, hraw, htext, rfl⟩
    obtain ⟨hnull, rfl⟩ := textOf_eq_ok_iff.mp htext
    exact ⟨hnull, by rwa [List.append_nil]⟩
  · rintro ⟨hnull, hb⟩
    exact ⟨Bytes.ofText a, b, [], (List.append_nil b).symm, hb,
      textOf_eq_ok_iff.mpr ⟨hnull, rfl⟩, rfl⟩

theorem reads_rest : rest.Reads fun a b left => b = a ∧ left = [] := by
  apply Reads.intro
  · intro c a c' h
    cases h
    exact ⟨c.ahead, ⟨(List.append_nil _).symm, rfl⟩, rfl, rfl⟩
  · rintro n a _ left ⟨rfl, rfl⟩
    rw [List.append_nil]
    rfl

/-! ### Fields that are announced, and fields up to the end -/

/-- A field that may be absent: its form if it is announced, and nothing otherwise. -/
def optionalForm (announced : Bool) (F : Form α) : Form (Option α)
  | none, b, _ => announced = false ∧ b = []
  | some a, b, left => announced = true ∧ F a b left

theorem Reads.optional {d : Decoder α} (announced : Bool) (h : d.Reads F) :
    (optional announced d).Reads (optionalForm announced F) := by
  cases announced with
  | true =>
      refine (h.map some).congr fun y b left => ?_
      cases y with
      | none => simp [optionalForm]
      | some a => simp [optionalForm]
  | false =>
      refine (reads_pure none).congr fun y b left => ?_
      cases y with
      | none => simp [optionalForm]
      | some a => simp [optionalForm]

/-- Items one behind the other, up to the end. -/
def listForm (F : Form α) : Form (List α)
  | [], b, left => b = [] ∧ left = []
  | a :: items, b, left =>
    ∃ front back, b = front ++ back ∧ F a front (back ++ left) ∧ listForm F items back left

/-- The form of an item is not empty if the decoder of the item consumes something. -/
theorem Reads.ne_nil_of_consumes {d : Decoder α} (h : d.Reads F) (consumes : d.Consumes) {a : α}
    {b left : Bytes} (hF : F a b left) : b ≠ [] := by
  rintro rfl
  have read := (h ⟨0, left⟩ a ⟨0, left⟩).mpr ⟨[], Cursor.past_nil.mpr rfl, hF⟩
  exact Nat.lt_irrefl _ (consumes _ _ _ read)

section Loop

variable {item : Decoder α} {consumes : item.Consumes} {found : List α} {c c' : Cursor}

theorem untilEndFrom_of_atEnd (h : c.atEnd = true) :
    untilEndFrom item consumes found c = (.ok found.reverse, c) := by
  rw [untilEndFrom, if_pos h]

theorem untilEndFrom_of_error {e : DecodeError} (h : c.atEnd = false)
    (hitem : item c = (.error e, c')) :
    untilEndFrom item consumes found c = (.error e, c') := by
  rw [untilEndFrom, if_neg (by simp [h])]
  split <;> simp_all

theorem untilEndFrom_of_ok {a : α} (h : c.atEnd = false) (hitem : item c = (.ok a, c')) :
    untilEndFrom item consumes found c = untilEndFrom item consumes (a :: found) c' := by
  rw [untilEndFrom, if_neg (by simp [h])]
  split <;> simp_all

end Loop

/-- Items that are read stand behind those found before. The induction is on the loop: each round
takes the form of one item off the bytes ahead. -/
theorem Reads.untilEndFrom {item : Decoder α} (h : item.Reads F) (consumes : item.Consumes)
    (found : List α) :
    Reads (untilEndFrom item consumes found) fun items b left =>
      ∃ more, items = found.reverse ++ more ∧ listForm F more b left := by
  apply Reads.intro
  · intro c items c' hread
    change Decoder.untilEndFrom item consumes found c = _ at hread
    induction found, c using Decoder.untilEndFrom.induct item consumes with
    | case1 found c hend =>
        rw [untilEndFrom_of_atEnd hend] at hread
        cases hread
        exact ⟨[], Cursor.past_nil.mpr rfl, [], (List.append_nil _).symm, rfl,
          List.isEmpty_iff.mp hend⟩
    | case2 found c hend e m hitem =>
        rw [untilEndFrom_of_error (Bool.eq_false_iff.mpr hend) hitem] at hread
        cases hread
    | case3 found c hend a m hitem ih =>
        rw [untilEndFrom_of_ok (Bool.eq_false_iff.mpr hend) hitem] at hread
        obtain ⟨front, pastFront, hF⟩ := (h c a m).mp hitem
        obtain ⟨back, pastBack, more, rfl, hmore⟩ := ih hread
        rw [pastBack.ahead] at hF
        refine ⟨front ++ back, Cursor.past_append.mpr ⟨m, pastFront, pastBack⟩, a :: more, ?_,
          front, back, rfl, hF, hmore⟩
        rw [List.reverse_cons, List.append_assoc, List.singleton_append]
  · rintro n _ b left ⟨more, rfl, hF⟩
    change Decoder.untilEndFrom item consumes found _ = _
    induction more generalizing found n b with
    | nil =>
        obtain ⟨rfl, rfl⟩ := hF
        rw [untilEndFrom_of_atEnd rfl]
        simp
    | cons a more ih =>
        obtain ⟨front, back, rfl, hfront, hback⟩ := hF
        have hne : front ≠ [] := h.ne_nil_of_consumes consumes hfront
        have hitem : item ⟨n, front ++ back ++ left⟩
            = (.ok a, ⟨n + front.length, back ++ left⟩) :=
          (h _ a _).mpr ⟨front, ⟨List.append_assoc .., rfl⟩, hfront⟩
        have hend : Cursor.atEnd ⟨n, front ++ back ++ left⟩ = false := by
          simp [Cursor.atEnd, hne]
        rw [untilEndFrom_of_ok hend hitem, ih (a :: found) (n + front.length) back hback]
        simp [Nat.add_assoc]

/-- **A decoder again and again** reads items up to the end of the body. -/
theorem Reads.untilEnd {item : Decoder α} (h : item.Reads F) (consumes : item.Consumes) :
    (untilEnd item consumes).Reads (listForm F) := by
  refine Reads.congr (h.untilEndFrom consumes []) fun items b left => ?_
  simp

/-- Nothing may be ahead. -/
theorem reads_ended (kind : Kind) : (ended kind).Reads fun _ b left => b = [] ∧ left = [] := by
  apply Reads.intro
  · intro c a c' h
    rw [read, ended] at h
    cases hend : c.atEnd with
    | true =>
        rw [hend] at h
        cases h
        exact ⟨[], Cursor.past_nil.mpr rfl, rfl, List.isEmpty_iff.mp hend⟩
    | false =>
        rw [hend] at h
        cases h
  · rintro n a _ _ ⟨rfl, rfl⟩
    rfl

end Decoder
end Mqtt
