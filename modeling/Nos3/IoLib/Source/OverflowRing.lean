import Nos3.IoLib.Source.TmSdlp

/-!
# The overflow buffer as a ring

The octets that wait in the overflow buffer, whatever they are. Data that is stored
joins them at the end and data that is copied to a frame leaves at the front.
-/
namespace Nos3.IoLib
open Base.BigEndian (Octet)
open Base.FileImage (window)
open Base.FixedArray (patch)
open Base.RingBuffer

theorem sub16_of_le {a b : Nat} (hb : b ≤ a) (ha : a < 2 ^ 16) : sub16 a b = a - b := by
  unfold sub16
  omega

theorem add16_of_lt {a b : Nat} (h : a + b < 2 ^ 16) : add16 a b = a + b := by
  unfold add16
  omega

/-- The octets that wait in the overflow buffer. -/
def waiting (o : OverflowInfo) : List Octet :=
  readWrapped o.buffer o.dataStart (o.buffSize - o.freeOctets)

/-- Counts and pointers of the overflow buffer agree. -/
structure Ring (o : OverflowInfo) : Prop where
  length : o.buffer.length = o.buffSize
  small : o.buffSize < 2 ^ 16
  room : o.freeOctets ≤ o.buffSize
  start : o.dataStart < o.buffSize ∨ o.buffSize = 0 ∧ o.dataStart = 0
  stop : o.dataEnd = wrapIndex o.buffSize o.dataStart (o.buffSize - o.freeOctets)

variable {o : OverflowInfo}

theorem Ring.start_lt (h : Ring o) (hsome : 0 < o.buffSize) : o.dataStart < o.buffSize :=
  h.start.resolve_right (by omega)

theorem Ring.waiting_eq (h : Ring o) :
    waiting o = contents o.buffer o.dataStart (o.buffSize - o.freeOctets) := by
  have hlength := h.length
  have hstart := h.start
  exact readWrapped_eq (by omega) (by omega)

theorem Ring.waiting_length (h : Ring o) : (waiting o).length = o.buffSize - o.freeOctets := by
  rw [h.waiting_eq, contents_length]

/-- How many of the octets that wait a frame of that size takes. -/
theorem Ring.taken_eq (h : Ring o) (size : Nat) :
    (if size < sub16 o.buffSize o.freeOctets then size else sub16 o.buffSize o.freeOctets) =
      min size (waiting o).length := by
  rw [sub16_of_le h.room h.small, ← h.waiting_length]
  split <;> omega

/-- Reading from the start gives the oldest octets. -/
theorem Ring.read (h : Ring o) {k : Nat} (hk : k ≤ o.buffSize - o.freeOctets) :
    readWrapped o.buffer o.dataStart k = (waiting o).take k := by
  have hlength := h.length
  have hstart := h.start
  rcases Nat.eq_zero_or_pos k with rfl | hpos
  · rw [List.take_zero]
    exact List.eq_nil_of_length_eq_zero (readWrapped_length (Nat.zero_le _))
  · have hsplit := @contents_split _ _ o.buffer o.dataStart (o.buffSize - o.freeOctets - k)
      (by rw [hlength]; exact h.start_lt (by omega)) k (by omega)
    rw [Nat.add_sub_cancel' hk] at hsplit
    rw [readWrapped_eq (by omega) (by omega), h.waiting_eq, hsplit,
      List.take_left' (contents_length _ _ _)]

/-! ## Storing -/

theorem copyToOverflow_error {data : List Octet} {length : Nat} {isPartial : Bool}
    (h : (copyToOverflow o data length isPartial).1 < 0) :
    (copyToOverflow o data length isPartial).2 = o := by
  revert h
  unfold copyToOverflow
  split
  · exact fun _ => rfl
  · split
    · exact fun _ => rfl
    · intro h
      have h : sdlpSuccess < 0 := h
      exact absurd h (by decide)

/-- The two copies put one block behind the queue. -/
theorem copyToOverflow_block {data : List Octet} {length : Nat} {isPartial : Bool}
    (hbuffer : o.buffer.length = o.buffSize) (hdata : length ≤ data.length)
    (h : 0 ≤ (copyToOverflow o data length isPartial).1) :
    length ≤ o.freeOctets ∧
      (copyToOverflow o data length isPartial).2 =
        { o with
          buffer := writeWrapped o.buffer o.dataEnd (data.take length)
          dataEnd := if length < o.buffSize - o.dataEnd then o.dataEnd + length
            else length - (o.buffSize - o.dataEnd)
          partialOctets := if isPartial then length else o.partialOctets
          freeOctets := o.freeOctets - length } := by
  have htake : (data.take length).length = length := by
    rw [List.length_take]
    omega
  revert h
  unfold copyToOverflow
  split
  · intro h
    have h : 0 ≤ sdlpInvalidLength := h
    exact absurd h (by decide)
  · split
    · intro h
      have h : 0 ≤ sdlpOverflowFull := h
      exact absurd h (by decide)
    · intro _
      refine ⟨by omega, ?_⟩
      unfold writeWrapped
      rw [htake, hbuffer]
      by_cases hwrap : length < o.buffSize - o.dataEnd
      · cases isPartial <;> simp [hwrap]
      · have hfront : (data.take length).take (o.buffSize - o.dataEnd) =
            data.take (o.buffSize - o.dataEnd) := by
          rw [List.take_take, Nat.min_eq_left (by omega)]
        have hback : (data.take length).drop (o.buffSize - o.dataEnd) =
            window data (o.buffSize - o.dataEnd) (length - (o.buffSize - o.dataEnd)) := by
          rw [window, List.drop_take]
        rw [hfront, hback]
        cases isPartial <;> simp [hwrap]

/-- Octets that are stored join those that wait. -/
theorem Ring.push {data : List Octet} {length : Nat} {isPartial : Bool} (h : Ring o)
    (hpos : 0 < length) (hlen : length ≤ data.length)
    (hok : 0 ≤ (copyToOverflow o data length isPartial).1) :
    Ring (copyToOverflow o data length isPartial).2 ∧
      waiting (copyToOverflow o data length isPartial).2 = waiting o ++ data.take length ∧
      (copyToOverflow o data length isPartial).2.partialOctets =
        if isPartial then length else o.partialOctets := by
  obtain ⟨hroom, heq⟩ := copyToOverflow_block h.length hlen hok
  have hlength := h.length
  have hused := h.room
  have hstart := h.start_lt (by omega)
  have hstop := h.stop
  have hcount : (data.take length).length = length := by
    rw [List.length_take]
    omega
  have hin : o.dataStart < o.buffer.length := hlength ▸ hstart
  have hwritten := @contents_write _ _ o.buffer (data.take length) o.dataStart
    (o.buffSize - o.freeOctets) hin (by omega)
  have hend : wrapIndex o.buffSize o.dataStart (o.buffSize - o.freeOctets) < o.buffSize :=
    wrapIndex_lt hstart (by omega)
  have hnew : o.buffSize - (o.freeOctets - length) = o.buffSize - o.freeOctets + length := by omega
  rw [hcount, hlength, ← hstop] at hwritten
  have hring : Ring (copyToOverflow o data length isPartial).2 := by
    rw [heq]
    refine ⟨?_, h.small, ?_, .inl hstart, ?_⟩
    · dsimp only
      rw [writeWrapped_length (by rw [hlength, hstop]; omega) (by omega), hlength]
    · dsimp only
      omega
    · dsimp only
      rw [hnew, ← wrapIndex_add hstart (by omega), hstop]
      unfold wrapIndex
      split <;> split <;> split <;> first | rfl | omega
  refine ⟨hring, ?_, by rw [heq]⟩
  rw [hring.waiting_eq, h.waiting_eq, ← hwritten, heq]
  dsimp only
  rw [hnew]

/-! ## Taking -/

/-- Octets that are taken leave the rest waiting. -/
theorem Ring.pop {count : Nat} (h : Ring o) (hcount : count ≤ o.buffSize - o.freeOctets)
    (hpos : 0 < count) (cut : Nat) :
    Ring { o with
        partialOctets := cut
        dataStart := wrapIndex o.buffSize o.dataStart count
        freeOctets := o.freeOctets + count } ∧
      waiting { o with
        partialOctets := cut
        dataStart := wrapIndex o.buffSize o.dataStart count
        freeOctets := o.freeOctets + count } = (waiting o).drop count := by
  have hlength := h.length
  have hstart := h.start_lt (by omega)
  have hleft : o.buffSize - (o.freeOctets + count) = o.buffSize - o.freeOctets - count := by omega
  have hring : Ring { o with
      partialOctets := cut
      dataStart := wrapIndex o.buffSize o.dataStart count
      freeOctets := o.freeOctets + count } := by
    refine ⟨h.length, h.small, ?_, .inl (wrapIndex_lt hstart (by omega)), ?_⟩
    · dsimp only
      omega
    · dsimp only
      rw [hleft, wrapIndex_add hstart (by omega), Nat.add_sub_cancel' hcount]
      exact h.stop
  refine ⟨hring, ?_⟩
  have hsplit := @contents_split _ _ o.buffer o.dataStart (o.buffSize - o.freeOctets - count)
    (by rw [hlength]; exact hstart) count (by omega)
  rw [Nat.add_sub_cancel' hcount, hlength] at hsplit
  rw [hring.waiting_eq, h.waiting_eq, hsplit, List.drop_left' (contents_length _ _ _)]
  dsimp only
  rw [hleft]

end Nos3.IoLib
