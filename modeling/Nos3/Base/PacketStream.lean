import Mathlib.Data.List.Basic

/-!
# Packets cut into frames

A stream takes packets and gives frames: what a frame has no room for waits in a
queue and is the beginning of the next ones. Every cell knows whether it is the
first of its packet, so that the first packet that starts in a frame is a fact
about the frame's cells. `queued` describes the queue by the rest of a packet
that was cut and the whole packets behind it.
-/
namespace Nos3.Base.PacketStream

universe u
variable {α : Type u}

structure Item (α : Type u) where
  cell : α
  first : Bool
  deriving DecidableEq

def packetItems : List α → List (Item α)
  | [] => []
  | cell :: rest => ⟨cell, true⟩ :: rest.map (⟨·, false⟩)

/-- The cells in the current frame and those that wait. -/
structure Stream (α : Type u) where
  data : List (Item α)
  queue : List (Item α)

def cells (items : List (Item α)) : List α := items.map Item.cell

def Stream.start : Stream α := ⟨[], []⟩

/-- A packet goes into the frame as far as there is room. -/
def Stream.add (s : Stream α) (room : Nat) (packet : List α) : Stream α :=
  ⟨s.data ++ (packetItems packet).take room, s.queue ++ (packetItems packet).drop room⟩

/-- The oldest cells of the queue go into the frame. -/
def Stream.drain (s : Stream α) (count : Nat) : Stream α :=
  ⟨s.data ++ s.queue.take count, s.queue.drop count⟩

def Stream.complete (s : Stream α) : Stream α := ⟨[], s.queue⟩

/-- Where the first packet starts among the cells. -/
def firstStart (items : List (Item α)) : Option Nat := items.findIdx? (·.first)

/-! ## Cells -/

@[simp] theorem cells_nil : cells ([] : List (Item α)) = [] := rfl

@[simp] theorem cells_append (a b : List (Item α)) : cells (a ++ b) = cells a ++ cells b :=
  List.map_append

@[simp] theorem cells_length (items : List (Item α)) : (cells items).length = items.length :=
  List.length_map _

theorem cells_take (items : List (Item α)) (n : Nat) : cells (items.take n) = (cells items).take n :=
  List.map_take

theorem cells_drop (items : List (Item α)) (n : Nat) : cells (items.drop n) = (cells items).drop n :=
  List.map_drop

@[simp] theorem cells_packetItems (packet : List α) : cells (packetItems packet) = packet := by
  cases packet with
  | nil => rfl
  | cons cell rest => simp [cells, packetItems, Function.comp_def]

@[simp] theorem packetItems_length (packet : List α) : (packetItems packet).length = packet.length := by
  rw [← cells_length, cells_packetItems]

/-- What is in the frame and what waits, in order. -/
def Stream.items (s : Stream α) : List (Item α) := s.data ++ s.queue

/-- A packet is appended where it is not put in front of cells that wait. -/
theorem Stream.items_add {s : Stream α} {room : Nat} (packet : List α)
    (h : room = 0 ∨ s.queue = []) :
    (s.add room packet).items = s.items ++ packetItems packet := by
  unfold Stream.items Stream.add
  rcases h with hroom | hqueue
  · rw [hroom]
    simp
  · rw [hqueue]
    simp

theorem Stream.items_drain (s : Stream α) (count : Nat) : (s.drain count).items = s.items := by
  unfold Stream.items Stream.drain
  rw [List.append_assoc, List.take_append_drop]

/-- Draining in two steps. -/
theorem Stream.drain_drain (s : Stream α) (a b : Nat) :
    (s.drain a).drain b = s.drain (a + b) := by
  unfold Stream.drain
  rw [List.append_assoc, List.drop_drop, List.take_add]

/-! ## Where packets start -/

theorem firstStart_eq_none {items : List (Item α)} (h : ∀ item ∈ items, item.first = false) :
    firstStart items = none := by
  rw [firstStart, List.findIdx?_eq_none_iff]
  exact h

/-- Cells behind a start do not matter. -/
theorem firstStart_append_some {a : List (Item α)} {i : Nat} (h : firstStart a = some i)
    (b : List (Item α)) : firstStart (a ++ b) = some i := by
  rw [firstStart, List.findIdx?_append]
  rw [firstStart] at h
  rw [h]
  rfl

theorem firstStart_append_none {a : List (Item α)} (h : firstStart a = none) (b : List (Item α)) :
    firstStart (a ++ b) = (firstStart b).map (· + a.length) := by
  rw [firstStart, List.findIdx?_append]
  rw [firstStart] at h
  rw [h]
  rfl

theorem firstStart_packet {packet : List α} (h : packet ≠ []) {n : Nat} (hn : 0 < n) :
    firstStart ((packetItems packet).take n) = some 0 := by
  obtain ⟨m, rfl⟩ := Nat.exists_eq_succ_of_ne_zero (Nat.ne_of_gt hn)
  cases packet with
  | nil => exact absurd rfl h
  | cons cell rest => rfl

/-- Behind its first cell a packet has no start. -/
theorem packetItems_drop_first {packet : List α} {n : Nat} (hn : 0 < n) :
    ∀ item ∈ (packetItems packet).drop n, item.first = false := by
  obtain ⟨m, rfl⟩ := Nat.exists_eq_succ_of_ne_zero (Nat.ne_of_gt hn)
  cases packet with
  | nil => exact nofun
  | cons cell rest =>
    intro item hitem
    obtain ⟨value, -, rfl⟩ := List.mem_map.mp (List.mem_of_mem_drop hitem)
    rfl

/-! ## The queue -/

/-- The rest of a cut packet, `cut` cells long, and whole packets behind it. -/
def Queued (good : List α → Prop) (cut : Nat) (queue : List (Item α)) : Prop :=
  ∃ (rest : List (Item α)) (packets : List (List α)), queue = rest ++ packets.flatMap packetItems ∧ rest.length = cut ∧
    (∀ item ∈ rest, item.first = false) ∧ ∀ packet ∈ packets, good packet

variable {good : List α → Prop} {cut : Nat} {queue : List (Item α)}

theorem Queued.nil : Queued good 0 [] := ⟨[], [], rfl, rfl, nofun, nofun⟩

/-- A whole packet joins the queue. -/
theorem Queued.add (h : Queued good cut queue) {packet : List α} (hgood : good packet) :
    Queued good cut (queue ++ packetItems packet) := by
  obtain ⟨rest, packets, rfl, hcut, hrest, hpackets⟩ := h
  refine ⟨rest, packets ++ [packet], ?_, hcut, hrest, ?_⟩
  · rw [List.flatMap_append, List.append_assoc]
    simp
  · intro other hother
    rcases List.mem_append.mp hother with hold | hnew
    · exact hpackets other hold
    · exact List.mem_singleton.mp hnew ▸ hgood

/-- The part of a packet that did not fit is all there is in the queue. -/
theorem Queued.of_cut (packet : List α) {room : Nat} (hroom : 0 < room) :
    Queued good (packet.length - room) ((packetItems packet).drop room) := by
  refine ⟨(packetItems packet).drop room, [], (List.append_nil _).symm, ?_,
    packetItems_drop_first hroom, nofun⟩
  rw [List.length_drop, packetItems_length]

theorem Queued.cut_le (h : Queued good cut queue) : cut ≤ queue.length := by
  obtain ⟨rest, packets, rfl, rfl, -, -⟩ := h
  rw [List.length_append]
  exact Nat.le_add_right _ _

/-- Cells taken from the rest of a cut packet. -/
theorem Queued.drain_rest (h : Queued good cut queue) {count : Nat} (hcount : count ≤ cut) :
    Queued good (cut - count) (queue.drop count) ∧
      ∀ item ∈ queue.take count, item.first = false := by
  obtain ⟨rest, packets, rfl, hcut, hrest, hpackets⟩ := h
  have hle : count ≤ rest.length := hcut ▸ hcount
  constructor
  · refine ⟨rest.drop count, packets, List.drop_append_of_le_length hle, ?_,
      fun item hitem => hrest item (List.mem_of_mem_drop hitem), hpackets⟩
    rw [List.length_drop, hcut]
  · rw [List.take_append_of_le_length hle]
    exact fun item hitem => hrest item (List.mem_of_mem_take hitem)

/-- With no packet cut, the queue begins with a whole one. -/
theorem Queued.next (h : Queued good 0 queue) (hqueue : queue ≠ []) :
    ∃ packet later, good packet ∧ queue = packetItems packet ++ later ∧ Queued good 0 later := by
  obtain ⟨rest, packets, rfl, hcut, hrest, hpackets⟩ := h
  obtain rfl := List.eq_nil_of_length_eq_zero hcut
  cases packets with
  | nil => exact absurd rfl hqueue
  | cons packet packets =>
    refine ⟨packet, packets.flatMap packetItems, hpackets packet List.mem_cons_self, ?_, ?_⟩
    · simp
    · exact ⟨[], packets, rfl, rfl, nofun,
        fun other hother => hpackets other (List.mem_cons_of_mem _ hother)⟩

/-- Cells taken from that packet, all of it or a part. -/
theorem Queued.drain_packet {packet : List α} {later : List (Item α)}
    (hlater : Queued good 0 later) {count : Nat} (hpos : 0 < count)
    (hcount : count ≤ packet.length) :
    Queued good (packet.length - count) ((packetItems packet ++ later).drop count) := by
  obtain ⟨rest, packets, rfl, hcut, -, hpackets⟩ := hlater
  obtain rfl := List.eq_nil_of_length_eq_zero hcut
  refine ⟨(packetItems packet).drop count, packets, ?_, ?_, packetItems_drop_first hpos, hpackets⟩
  · rw [List.drop_append_of_le_length (by rw [packetItems_length]; exact hcount), List.nil_append]
  · rw [List.length_drop, packetItems_length]

end Nos3.Base.PacketStream
