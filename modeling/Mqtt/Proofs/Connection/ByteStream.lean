import Mqtt.Connection.ByteStream

/-!
# What reaches a byte stream

Writing is a loop, since a stream may accept less than it is given. As long as every write accepts
something, the loop ends with all of the bytes accepted or at the end of what the stream accepts in
all, and then the stream has as much of them as fits. How the bytes are cut makes no difference.
-/
namespace Mqtt.ByteStream

variable {s : ByteStream}

/-! ### Reads -/

/-- The stream behind a read that leaves some deliveries. -/
def afterRead (s : ByteStream) (incoming : List Delivery) : ByteStream :=
  { s with incoming, reads := s.reads + 1 }

theorem read_of_fault {text : String} {rest : List Delivery} (h : s.incoming = .fault text :: rest)
    (room : Nat) : s.read room = (.error text, s.afterRead rest) := by
  rw [read, h, afterRead]

theorem read_of_end {rest : List Delivery}
    (h : s.incoming = [] ∧ rest = [] ∨ s.incoming = .bytes [] :: rest) (room : Nat) :
    s.read room = (.ok [], s.afterRead rest) := by
  rcases h with ⟨h, rfl⟩ | h
  · simp [read, h, afterRead]
  · simp [read, h, afterRead, Delivery.afterTaking]

theorem read_of_bytes {b : Bytes} {rest : List Delivery} (h : s.incoming = .bytes b :: rest)
    (room : Nat) :
    s.read room = (.ok (b.take room), s.afterRead (Delivery.afterTaking room b ++ rest)) := by
  rw [read, h, afterRead]

/-- **What a read can find**: a fault, the end, or bytes, of which it takes as many as it has room
for. -/
theorem incoming_cases (s : ByteStream) {room : Nat} (hroom : 0 < room) :
    (∃ text rest, s.incoming = .fault text :: rest)
      ∨ (∃ rest, s.incoming = [] ∧ rest = [] ∨ s.incoming = .bytes [] :: rest)
      ∨ ∃ b rest, s.incoming = .bytes b :: rest ∧ b.take room ≠ [] := by
  cases h : s.incoming with
  | nil => exact .inr (.inl ⟨[], .inl ⟨rfl, rfl⟩⟩)
  | cons delivery rest =>
      cases delivery with
      | fault text => exact .inl ⟨text, rest, rfl⟩
      | bytes b =>
          cases b with
          | nil => exact .inr (.inl ⟨rest, .inr rfl⟩)
          | cons first more =>
              refine .inr (.inr ⟨first :: more, rest, rfl, ?_⟩)
              simp [Nat.pos_iff_ne_zero.mp hroom]

/-! ### Writes -/

/-- A stream of which every write accepts something, short of the end. -/
structure Flowing (s : ByteStream) : Prop where
  pieces : ∀ n ∈ s.pieces, 0 < n
  maxWrite : ∀ n ∈ s.maxWrite, 0 < n

/-- A stream accepts so many bytes in all. -/
def Fits (s : ByteStream) (n : Nat) : Prop :=
  ∀ limit ∈ s.limit, n ≤ limit.total

/-- The part of the bytes that a stream accepts, when they are all that is written to it. -/
def within (s : ByteStream) (b : Bytes) : Bytes :=
  match s.limit with
  | none => b
  | some limit => b.take limit.total

/-- The answer to a writer with whose bytes a stream would have so many in all. -/
def verdict (s : ByteStream) (n : Nat) : Except WriteFault Unit :=
  match s.limit with
  | none => .ok ()
  | some limit => if n ≤ limit.total then .ok () else .error (.refused limit.fault)

theorem within_of_fits {b : Bytes} (h : s.Fits b.length) : s.within b = b := by
  rw [within]
  split
  · rfl
  · next limit hlimit => exact List.take_of_length_le (h limit hlimit)

theorem verdict_eq_ok_iff {n : Nat} : s.verdict n = .ok () ↔ s.Fits n := by
  rw [verdict, Fits]
  split
  · next h => simp [h]
  · next limit h =>
    by_cases hle : n ≤ limit.total <;> simp [h, hle]

/-- Bytes that did not fit make no room for others. -/
theorem within_append (w b : Bytes) : s.within (s.within w ++ b) = s.within (w ++ b) := by
  rw [within, within, within]
  cases s.limit with
  | none => rfl
  | some limit =>
      have room : limit.total - min limit.total w.length = limit.total - w.length := by omega
      simp only [List.take_append, List.take_take, Nat.min_self, List.length_take, room]

/-- Behind bytes of which some did not fit, no others fit. -/
theorem verdict_within_append {w b : Bytes} (hb : b ≠ []) :
    s.verdict (s.within w ++ b).length = s.verdict (w ++ b).length := by
  have hpos := List.length_pos_iff.mpr hb
  rw [verdict, verdict, within]
  cases s.limit with
  | none => rfl
  | some limit =>
      have same : (w.take limit.total ++ b).length ≤ limit.total
          ↔ (w ++ b).length ≤ limit.total := by
        simp only [List.length_append, List.length_take]
        omega
      simp only [same]

theorem fits_within (b : Bytes) : s.Fits (s.within b).length := by
  intro limit hlimit
  rw [within, Option.mem_def.mp hlimit]
  exact List.length_take_le ..

/-- What fits is told by the limit alone. -/
theorem within_congr {t : ByteStream} (h : s.limit = t.limit) (b : Bytes) :
    s.within b = t.within b := by
  rw [within, within, h]

theorem verdict_congr {t : ByteStream} (h : s.limit = t.limit) (n : Nat) :
    s.verdict n = t.verdict n := by
  rw [verdict, verdict, h]

theorem verdict_eq_error_iff {n : Nat} {fault : WriteFault} :
    s.verdict n = .error fault
      ↔ ∃ limit ∈ s.limit, limit.total < n ∧ fault = .refused limit.fault := by
  rw [verdict]
  split
  · next h => simp [h]
  · next limit h =>
    by_cases hle : n ≤ limit.total
    · simp [h, hle, Nat.not_lt.mpr hle]
    · simp [h, hle, Nat.lt_of_not_le hle, eq_comm]

/-- What one write accepts: nothing at the end of the stream, and else a part that still fits. -/
theorem accepts_cases (flows : s.Flowing) (fits : s.Fits s.written.length) {n : Nat}
    (hn : 0 < n) :
    (∃ limit, s.limit = some limit ∧ limit.total = s.written.length
        ∧ s.accepts n = .error limit.fault)
      ∨ ∃ k, 0 < k ∧ k ≤ n ∧ s.Fits (s.written.length + k) ∧ s.accepts n = .ok k := by
  have piece : ∃ k, (s.pieces.head?.or s.maxWrite).elim n (min n) = k ∧ 0 < k ∧ k ≤ n := by
    refine ⟨_, rfl, ?_⟩
    cases hroom : s.pieces.head?.or s.maxWrite with
    | none => exact ⟨hn, Nat.le_refl n⟩
    | some most =>
        have hmost : 0 < most := by
          rcases Option.or_eq_some_iff.mp hroom with hhead | ⟨-, hlater⟩
          · exact flows.pieces most (List.mem_of_head? hhead)
          · exact flows.maxWrite most hlater
        exact ⟨Nat.lt_min.mpr ⟨hn, hmost⟩, Nat.min_le_left ..⟩
  obtain ⟨k, hk, hpos, hle⟩ := piece
  rw [accepts, hk]
  cases hlimit : s.limit with
  | none => exact .inr ⟨k, hpos, hle, by simp [Fits, hlimit], rfl⟩
  | some limit =>
      have hfits : s.written.length ≤ limit.total := fits limit hlimit
      by_cases hend : limit.total ≤ s.written.length
      · exact .inl ⟨limit, rfl, Nat.le_antisymm hend hfits, if_pos hend⟩
      · refine .inr ⟨min k (limit.total - s.written.length), ?_, ?_, ?_, if_neg hend⟩
        · omega
        · omega
        · intro other hother
          obtain rfl := Option.some.inj (hlimit.symm.trans hother)
          omega

/-! ### Writing all -/

@[simp] theorem writeAll_nil (s : ByteStream) : s.writeAll [] = (.ok (), s) := by
  rw [writeAll]
  rfl

theorem writeAll_of_error {b : Bytes} {text : String} (hb : b ≠ [])
    (h : s.accepts b.length = .error text) : s.writeAll b = (.error (.refused text), s) := by
  rw [writeAll, if_neg (by simpa using hb), write, h]

theorem writeAll_of_ok {b : Bytes} {k : Nat} (hb : b ≠ []) (hk : 0 < k)
    (h : s.accepts b.length = .ok k) :
    s.writeAll b
      = { s with pieces := s.pieces.tail, written := s.written ++ b.take k }.writeAll
          (b.drop k) := by
  obtain ⟨k, rfl⟩ := Nat.exists_eq_add_of_lt hk
  rw [writeAll, if_neg (by simpa using hb), write, h]

theorem Flowing.tail (flows : s.Flowing) (written : Bytes) :
    { s with pieces := s.pieces.tail, written }.Flowing :=
  ⟨fun n hn => flows.pieces n (List.mem_of_mem_tail hn), flows.maxWrite⟩

/-- **What is written, and the answer to it**: as much as fits, and an error if that is not all. The
induction is on the number of bytes that the next write leaves to be written. -/
theorem writeAll_eq (flows : s.Flowing) (fits : s.Fits s.written.length) (b : Bytes) :
    ∃ pieces, (∀ n ∈ pieces, 0 < n)
      ∧ s.writeAll b
        = (s.verdict (s.written ++ b).length,
            { s with pieces, written := s.within (s.written ++ b) }) := by
  induction hlength : b.length using Nat.strongRecOn generalizing s b with
  | ind n ih =>
      by_cases hb : b = []
      · refine ⟨s.pieces, flows.pieces, ?_⟩
        rw [hb, writeAll_nil, List.append_nil, within_of_fits fits, verdict_eq_ok_iff.mpr fits]
      · rcases accepts_cases flows fits (List.length_pos_iff.mpr hb) with
          ⟨limit, hlimit, hend, refused⟩ | ⟨k, hpos, hle, hfits, accepted⟩
        · refine ⟨s.pieces, flows.pieces, ?_⟩
          have excess : ¬ (s.written ++ b).length ≤ limit.total := by
            have := List.length_pos_iff.mpr hb
            rw [List.length_append]
            omega
          have written : s.within (s.written ++ b) = s.written := by
            simp only [within, hlimit, List.take_left' hend.symm]
          have answer : s.verdict (s.written ++ b).length = .error (.refused limit.fault) := by
            simp only [verdict, hlimit, if_neg excess]
          rw [writeAll_of_error hb refused, written, answer]
        · let next : ByteStream :=
            { s with pieces := s.pieces.tail, written := s.written ++ b.take k }
          have shorter : (b.drop k).length < n := by
            rw [List.length_drop]
            omega
          have room : next.Fits next.written.length := by
            rwa [List.length_append, List.length_take_of_le hle]
          obtain ⟨pieces, hpieces, written⟩ := ih _ shorter (flows.tail _) room (b.drop k) rfl
          have whole : next.written ++ b.drop k = s.written ++ b := by
            rw [List.append_assoc, List.take_append_drop]
          rw [whole] at written
          exact ⟨pieces, hpieces, (writeAll_of_ok hb hpos accepted).trans written⟩

theorem write_frame {b : Bytes} {answer : Except String Nat} {t : ByteStream}
    (h : s.write b = (answer, t)) : ∃ pieces written, t = { s with pieces, written } := by
  rw [write] at h
  split at h
  · cases h
    exact ⟨s.pieces, s.written, rfl⟩
  · cases h
    exact ⟨_, _, rfl⟩

/-- **Writing leaves the reading side as it is**, and the limits of the stream. -/
theorem writeAll_frame (s : ByteStream) (b : Bytes) :
    ∃ pieces written, (s.writeAll b).2 = { s with pieces, written } := by
  induction b, s using writeAll.induct with
  | case1 b s empty =>
      rw [writeAll, if_pos empty]
      exact ⟨s.pieces, s.written, rfl⟩
  | case2 b s more text t refused =>
      rw [writeAll, if_neg more, refused]
      exact write_frame refused
  | case3 b s more t stalled =>
      rw [writeAll, if_neg more, stalled]
      exact write_frame stalled
  | case4 b s more n t accepted ih =>
      obtain ⟨pieces, written, rfl⟩ := write_frame accepted
      rw [writeAll, if_neg more, accepted]
      exact ih

end Mqtt.ByteStream
