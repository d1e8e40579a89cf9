import Nos3.Novatel.Source.Device

/-!
# The receive buffer

`strtok_r` works on a buffer of just the octets that were received, with no room for the end
of a string, and a buffer that is parsed is not released.
-/
namespace Nos3.Novatel
open Nos3.Base.BigEndian
open Base.Strtok

/-- The buffer is released as often as it was allocated, and an error leaves the data as they
were. -/
structure Released (data : DeviceData) (returned : Returned) : Prop where
  one : returned.allocated ≤ 1
  released : returned.freed = returned.allocated
  unchanged : returned.status ≠ OS_SUCCESS → returned.data = data

/-- The reader returns without reading behind the buffer, and releases it. -/
def Contained (data : DeviceData) (result : Option Returned) : Prop :=
  ∃ returned, result = some returned ∧ Released data returned

/-- The octets received from the first that is no comma on. -/
def Uart.text (uart : Uart) : List Octet := skipDelim comma uart.buffer

/-- Nothing is received, or the first token has an end and is none of the logs. -/
def NothingParsed (logs : List (List Octet)) (uart : Uart) : Prop :=
  uart.bytesAvailable ≤ 0 ∨ (uart.readPort uart.bytesAvailable.toNat).1 ≠ uart.bytesAvailable ∨
    (∃ c ∈ uart.text, c = 0 ∨ c ∈ comma) ∧ ∀ log ∈ logs, ¬log <+: uart.text

/-- What `strncmp` finds at the start of the token stands at the start of the text. -/
theorem find_log_eq_none_iff {parsers : List (List Octet × Parser)}
    (hlogs : ∀ p ∈ parsers, ∀ c ∈ p.1, isText 0 comma c) {uart : Uart} {token : Token Octet}
    {saveptr : List Octet} (h : strtokR 0 comma uart.buffer = some (some token, saveptr)) :
    parsers.find? (fun p => p.1.isPrefixOf token.text) = none ↔
      ∀ log ∈ parsers.map Prod.fst, ¬log <+: uart.text := by
  obtain ⟨hptr, htext⟩ := ptr_of_strtokR h
  have hsame {p : List Octet × Parser} (hp : p ∈ parsers) :
      p.1.isPrefixOf token.text = true ↔ p.1 <+: uart.text := by
    rw [List.isPrefixOf_iff_prefix, htext, hptr, prefix_takeWhile_iff (hlogs p hp)]
    rfl
  rw [List.find?_eq_none, List.forall_mem_map]
  exact forall₂_congr fun p hp => not_congr (hsame hp)

theorem Contained.error {data : DeviceData} {allocated : Nat} (h : allocated ≤ 1) :
    Contained data (some ⟨OS_ERROR, data, allocated, allocated⟩) :=
  ⟨_, rfl, h, rfl, fun _ => rfl⟩

/-- A parsed buffer is lost. -/
theorem not_contained_of_parsed (data : DeviceData) (parsed : Option DeviceData) :
    ¬Contained data (parsed.map fun d => ⟨OS_SUCCESS, d, 1, 0⟩) := by
  rintro ⟨returned, hreturned, hreleased⟩
  obtain ⟨d, -, rfl⟩ := Option.map_eq_some_iff.mp hreturned
  exact Nat.zero_ne_one hreleased.released

theorem readLog_contained_iff {parsers : List (List Octet × Parser)}
    (hlogs : ∀ p ∈ parsers, p.1 ≠ [] ∧ ∀ c ∈ p.1, isText 0 comma c) (uart : Uart)
    (data : DeviceData) :
    Contained data (readLog parsers uart data) ↔
      NothingParsed (parsers.map Prod.fst) uart := by
  unfold readLog NothingParsed
  by_cases hsize : 0 < uart.bytesAvailable
  · rw [if_pos hsize, or_iff_right (not_le.mpr hsize)]
    by_cases hread : (uart.readPort uart.bytesAvailable.toNat).1 ≠ uart.bytesAvailable
    · rw [if_pos hread]
      exact iff_of_true (.error (le_refl 1)) (Or.inl hread)
    · rw [if_neg hread, or_iff_right hread]
      have hend : strtokR 0 comma uart.buffer = none ↔ ¬∃ c ∈ uart.text, c = 0 ∨ c ∈ comma := by
        rw [strtokR_eq_none_iff]
        simp [Uart.text, skipDelim, isText]
      cases hcall : strtokR 0 comma uart.buffer with
      | none =>
        refine iff_of_false ?_ fun h => hend.mp hcall h.1
        rintro ⟨returned, ⟨⟩, -⟩
      | some call =>
        have hstop : ∃ c ∈ uart.text, c = 0 ∨ c ∈ comma := by
          by_contra h
          rw [hend.mpr h] at hcall
          cases hcall
        rw [and_iff_right hstop]
        obtain ⟨token, saveptr⟩ := call
        cases token with
        | none =>
          refine iff_of_true (.error (le_refl 1)) fun log hlog hprefix => ?_
          -- the text is empty, and no log is
          obtain ⟨p, hp, rfl⟩ := List.mem_map.mp hlog
          obtain ⟨hne, htext⟩ := hlogs p hp
          obtain ⟨c, more, hc⟩ := List.exists_cons_of_ne_nil hne
          obtain ⟨rest, hrest⟩ := hprefix
          have hhead := head_of_strtokR_none hcall
          rw [hc] at hrest htext
          change uart.text.head? = some 0 at hhead
          rw [← hrest] at hhead
          cases hhead
          exact (isText_iff.mp (htext 0 (by simp))).1 rfl
        | some token =>
          have hfind := find_log_eq_none_iff (fun p hp => (hlogs p hp).2) hcall
          simp only [Option.bind_some]
          cases hlog : parsers.find? fun p => p.1.isPrefixOf token.text with
          | none => exact iff_of_true (.error (le_refl 1)) (hfind.mp hlog)
          | some parser =>
            refine iff_of_false (not_contained_of_parsed data _) fun h => ?_
            rw [hfind.mpr h] at hlog
            cases hlog
  · rw [if_neg hsize]
    exact iff_of_true (.error (Nat.zero_le 1)) (Or.inl (not_lt.mp hsize))

theorem log_isText : ∀ log ∈ [bestXyza, gpgga], log ≠ [] ∧ ∀ c ∈ log, isText 0 comma c := by
  decide

/-- Both readers stay in the buffer and release it exactly when nothing is parsed. -/
theorem readers_contained_iff (uart : Uart) (data : DeviceData) :
    (Contained data (requestData uart data) ↔ NothingParsed [bestXyza] uart) ∧
      (Contained data (childProcessReadData uart data) ↔
        NothingParsed [bestXyza, gpgga] uart) := by
  constructor
  · exact readLog_contained_iff (fun p hp => log_isText p.1 (by simp_all)) uart data
  · refine readLog_contained_iff (fun p hp => log_isText p.1 ?_) uart data
    rcases hp with _ | ⟨_, _ | ⟨_, ⟨⟩⟩⟩ <;> simp

/-- One octet that is neither a comma nor the end of a string. -/
def oneOctet : Uart where
  bytesAvailable := 1
  readPort := fun _ => (1, ascii ['$'])

def noData : DeviceData where
  weeks := .zero
  secondsIntoWeek := .zero
  fractions := .zero
  ecefX := .zero
  ecefY := .zero
  ecefZ := .zero
  velX := .zero
  velY := .zero
  velZ := .zero
  lat := ⟨.zero, .zero⟩
  lon := ⟨.zero, .zero⟩
  alt := .zero

theorem readers_contained_not : ¬∀ (uart : Uart) (data : DeviceData),
    Contained data (requestData uart data) ∧ Contained data (childProcessReadData uart data) := by
  intro h
  obtain ⟨returned, hreturned, -⟩ := (h oneOctet noData).1
  have hnone : requestData oneOctet noData = none := by
    have hcall : strtokR 0 comma oneOctet.buffer = none := by decide
    rw [requestData, readLog, if_pos (by decide), if_neg (by decide), hcall]
    rfl
  rw [hnone] at hreturned
  cases hreturned

end Nos3.Novatel
