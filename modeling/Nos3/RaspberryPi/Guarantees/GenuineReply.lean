import Nos3.RaspberryPi.Source.Device

/-!
# A request succeeds on a genuine reply

What a genuine reply is, is said about the outcomes of the UART. A request takes two others
for it: one to a command that was not completely written, and, for data, one with another
header or trailer.
-/
namespace Nos3.RaspberryPi
open Nos3.Base.BigEndian

/-! ## Reads -/

/-- The octets are there at the poll `k` after `polls`, before the timeout and not earlier. -/
structure ArrivesAt (u : Uart) (dataLength polls k : Nat) : Prop where
  intime : k < u.msTimeout.toNat
  enough : (dataLength : Int) ≤ u.available (polls + k)
  before : ∀ j < k, u.available (polls + j) < dataLength

structure FullRead (u : Uart) (dataLength : Nat) (s : Progress) (content : Buffer)
    (s' : Progress) : Prop where
  arrives : ∃ k, ArrivesAt u dataLength s.polls k ∧ s' = ⟨s.polls + k + 1, s.reads + 1⟩
  complete : u.read s.reads dataLength = ((dataLength : Int), content)

theorem ArrivesAt.unique {u : Uart} {dataLength polls j k : Nat}
    (hj : ArrivesAt u dataLength polls j) (hk : ArrivesAt u dataLength polls k) : j = k := by
  rcases Nat.lt_trichotomy j k with hlt | heq | hgt
  · exact absurd (hk.before j hlt) (Int.not_lt.mpr hj.enough)
  · exact heq
  · exact absurd (hj.before k hgt) (Int.not_lt.mpr hk.enough)

theorem FullRead.unique {u : Uart} {dataLength : Nat} {s s₁ s₂ : Progress} {c₁ c₂ : Buffer}
    (h₁ : FullRead u dataLength s c₁ s₁) (h₂ : FullRead u dataLength s c₂ s₂) :
    c₁ = c₂ ∧ s₁ = s₂ := by
  obtain ⟨j, hj, rfl⟩ := h₁.arrives
  obtain ⟨k, hk, rfl⟩ := h₂.arrives
  have hcontent := h₁.complete.symm.trans h₂.complete
  exact ⟨(Prod.mk.inj hcontent).2, by rw [hj.unique hk]⟩

/-- The loop ends at the first poll with enough octets, or when no round is left. -/
theorem waitLoop_cases (u : Uart) (dataLength : Int) (left polls : Nat) :
    (∃ k < left, dataLength ≤ u.available (polls + k) ∧
        (∀ j < k, u.available (polls + j) < dataLength) ∧
        waitLoop u dataLength left (u.available polls) (polls + 1) =
          (left - k, u.available (polls + k), polls + k + 1)) ∨
      (∀ k < left, u.available (polls + k) < dataLength) ∧
        (waitLoop u dataLength left (u.available polls) (polls + 1)).1 = 0 := by
  induction left generalizing polls with
  | zero => exact Or.inr ⟨fun k hk => absurd hk (Nat.not_lt_zero k), rfl⟩
  | succ left ih =>
    by_cases hshort : u.available polls < dataLength
    · have hshift (k : Nat) : polls + 1 + k = polls + (k + 1) := by omega
      rw [waitLoop, if_pos hshort]
      rcases ih (polls + 1) with ⟨k, hk, henough, hbefore, hloop⟩ | ⟨hnever, hloop⟩
      · refine Or.inl ⟨k + 1, Nat.succ_lt_succ hk, hshift k ▸ henough, fun j hj => ?_, ?_⟩
        · cases j with
          | zero => exact hshort
          | succ j => exact hshift j ▸ hbefore j (Nat.lt_of_succ_lt_succ hj)
        · rw [hloop, hshift, Nat.succ_sub_succ]
      · refine Or.inr ⟨fun k hk => ?_, hloop⟩
        cases k with
        | zero => exact hshort
        | succ k => exact hshift k ▸ hnever k (Nat.lt_of_succ_lt_succ hk)
    · refine Or.inl ⟨0, Nat.succ_pos left, Int.not_lt.mp hshort,
        fun j hj => absurd hj (Nat.not_lt_zero j), ?_⟩
      rw [waitLoop, if_neg hshort]
      rfl

/-- `readData` succeeds on a full read, and fails where there is none. -/
theorem readData_cases (u : Uart) (buffer : Buffer) (dataLength : Nat) (s : Progress) :
    (∃ content s', FullRead u dataLength s content s' ∧
        readData u buffer dataLength s = ⟨OS_SUCCESS, content, s'⟩) ∨
      (∀ content s', ¬FullRead u dataLength s content s') ∧
        (readData u buffer dataLength s).status = OS_ERROR := by
  rcases waitLoop_cases u dataLength u.msTimeout.toNat s.polls with
    ⟨k, hk, henough, hbefore, hloop⟩ | ⟨hnever, hloop⟩
  · have hlimit : (if u.available (s.polls + k) > dataLength then (dataLength : Int)
        else u.available (s.polls + k)) = dataLength := by
      split <;> omega
    have hleft : 0 < u.msTimeout.toNat - k := by omega
    by_cases hcount : (u.read s.reads dataLength).1 = dataLength
    · refine Or.inl ⟨(u.read s.reads dataLength).2, ⟨s.polls + k + 1, s.reads + 1⟩,
        ⟨⟨k, ⟨hk, henough, hbefore⟩, rfl⟩, Prod.ext hcount rfl⟩, ?_⟩
      simp [readData, hloop, hlimit, hleft, hcount]
    · refine Or.inr ⟨fun content s' hfull => hcount (by rw [hfull.complete]), ?_⟩
      simp [readData, hloop, hlimit, hleft, hcount]
  · refine Or.inr ⟨fun content s' hfull => ?_, ?_⟩
    · obtain ⟨k, hk, -⟩ := hfull.arrives
      exact absurd (hnever k hk.intime) (Int.not_lt.mpr hk.enough)
    · simp [readData, hloop]

/-! ## Commands -/

/-- The command was completely written, and its echo was read back equal. -/
structure Echoed (u : Uart) (cmdCode : Octet) (s : Progress) : Prop where
  flush : u.flush = UART_SUCCESS
  written : u.write (writeData cmdCode 0) = RASPBERRY_PI_DEVICE_CMD_SIZE
  echo : ∃ echo, FullRead u RASPBERRY_PI_DEVICE_CMD_SIZE {} echo s ∧
    ∀ i, ∀ octet ∈ (writeData cmdCode 0)[i]?, echo i = octet

/-- The flush succeeds, and less or more than the command is written. -/
structure NotWritten (u : Uart) (cmdCode : Octet) : Prop where
  flush : u.flush = UART_SUCCESS
  short : u.write (writeData cmdCode 0) ≠ RASPBERRY_PI_DEVICE_CMD_SIZE

theorem confirmEcho_success (echo : Buffer) (octets : List Octet) (start : Nat) :
    confirmEcho echo octets start = OS_SUCCESS ↔
      ∀ i, ∀ octet ∈ octets[i]?, echo (start + i) = octet := by
  induction octets generalizing start with
  | nil => simp [confirmEcho]
  | cons first rest ih =>
    by_cases hfirst : echo start = first
    · simp only [confirmEcho, ne_eq, hfirst, not_true_eq_false, if_false, ih]
      constructor
      · intro hrest i octet hoctet
        cases i with
        | zero => simpa [hfirst] using hoctet
        | succ i =>
          have hnext := hrest i octet (by simpa using hoctet)
          simpa only [Nat.add_right_comm, Nat.add_assoc] using hnext
      · intro hall i octet hoctet
        have hnext := hall (i + 1) octet (by simpa using hoctet)
        simpa only [Nat.add_right_comm, Nat.add_assoc] using hnext
    · simp only [confirmEcho, ne_eq, hfirst, not_false_eq_true, if_true]
      exact ⟨fun h => absurd h (by decide), fun hall => absurd (hall 0 first rfl) hfirst⟩

/-- The command is echoed, or it was not written and that is not noticed, or the command
fails. -/
theorem commandDevice_cases (u : Uart) (cmdCode : Octet) :
    (∃ s, Echoed u cmdCode s ∧ commandDevice u cmdCode 0 {} = (OS_SUCCESS, s)) ∨
      NotWritten u cmdCode ∧ commandDevice u cmdCode 0 {} = (OS_SUCCESS, {}) ∨
      ¬NotWritten u cmdCode ∧ (∀ s, ¬Echoed u cmdCode s) ∧
        (commandDevice u cmdCode 0 {}).1 ≠ OS_SUCCESS := by
  by_cases hflush : u.flush = UART_SUCCESS
  · by_cases hwrite : u.write (writeData cmdCode 0) = RASPBERRY_PI_DEVICE_CMD_SIZE
    · have hwritten : ¬NotWritten u cmdCode := fun h => h.short hwrite
      rcases readData_cases u u.stack RASPBERRY_PI_DEVICE_CMD_SIZE {} with
        ⟨echo, s, hfull, hread⟩ | ⟨hnone, hread⟩
      · have hcommand : commandDevice u cmdCode 0 {} =
            (confirmEcho echo (writeData cmdCode 0) 0, s) := by
          simp only [commandDevice, hflush, hwrite, hread, if_true]
        by_cases hecho : confirmEcho echo (writeData cmdCode 0) 0 = OS_SUCCESS
        · refine Or.inl ⟨s, ⟨hflush, hwrite, echo, hfull, ?_⟩, by rw [hcommand, hecho]⟩
          simpa using (confirmEcho_success echo _ 0).mp hecho
        · refine Or.inr (Or.inr ⟨hwritten, fun s' hechoed => hecho ?_, by rwa [hcommand]⟩)
          obtain ⟨content, hcontent, hequal⟩ := hechoed.echo
          rw [(hfull.unique hcontent).1]
          exact (confirmEcho_success content _ 0).mpr (by simpa using hequal)
      · refine Or.inr (Or.inr ⟨hwritten, fun s hechoed => ?_, ?_⟩)
        · obtain ⟨content, hcontent, -⟩ := hechoed.echo
          exact hnone content s hcontent
        · have herror : OS_ERROR ≠ OS_SUCCESS := by decide
          simpa only [commandDevice, hflush, hwrite, hread, if_true, herror, if_false] using herror
    · exact Or.inr (Or.inl ⟨⟨hflush, hwrite⟩, by
        simp only [commandDevice, hflush, hwrite, if_true, if_false, UART_SUCCESS]⟩)
  · refine Or.inr (Or.inr ⟨fun h => hflush h.flush, fun s h => hflush h.flush, ?_⟩)
    have hcommand : commandDevice u cmdCode 0 {} = (u.flush, {}) := if_neg hflush
    rw [hcommand]
    exact hflush

/-! ## Requests -/

/-- The command was echoed, and then a full reply was read. -/
def Asked (u : Uart) (cmdCode : Octet) (size : Nat) (reply : Buffer) : Prop :=
  ∃ s s', Echoed u cmdCode s ∧ FullRead u size s reply s'

/-- A full reply was read although the command was not written. -/
def Unasked (u : Uart) (cmdCode : Octet) (size : Nat) (reply : Buffer) : Prop :=
  NotWritten u cmdCode ∧ ∃ s, FullRead u size {} reply s

/-- A reply that was asked for, with its header and its trailer. -/
def Genuine (u : Uart) (cmdCode : Octet) (size trailer : Nat) (reply : Buffer) : Prop :=
  Asked u cmdCode size reply ∧ framed reply trailer

/-- The reply a request looks at. -/
def exchange (u : Uart) (cmdCode : Octet) (size : Nat) : Option Buffer :=
  let command := commandDevice u cmdCode 0 {}
  if command.1 = OS_SUCCESS then
    let reply := readData u u.stack size command.2
    if reply.status = OS_SUCCESS then some reply.readData else none
  else none

theorem Asked.unique {u : Uart} {cmdCode : Octet} {size : Nat} {s : Progress}
    (hechoed : Echoed u cmdCode s) {reply : Buffer} (h : Asked u cmdCode size reply) :
    ∃ s', FullRead u size s reply s' := by
  obtain ⟨t, t', hechoed', hfull⟩ := h
  obtain ⟨e, hecho, -⟩ := hechoed.echo
  obtain ⟨e', hecho', -⟩ := hechoed'.echo
  rw [(hecho.unique hecho').2]
  exact ⟨t', hfull⟩

theorem Asked.not_unasked {u : Uart} {cmdCode : Octet} {size : Nat} {r₁ r₂ : Buffer}
    (h : Asked u cmdCode size r₁) : ¬Unasked u cmdCode size r₂ := by
  obtain ⟨s, s', hechoed, -⟩ := h
  exact fun hun => hun.1.short hechoed.written

/-- A read as the last step of an exchange. -/
theorem readReply_eq_some (u : Uart) (size : Nat) (s : Progress) (reply : Buffer) :
    (if (readData u u.stack size s).status = OS_SUCCESS then
        some (readData u u.stack size s).readData else none) = some reply ↔
      ∃ s', FullRead u size s reply s' := by
  rcases readData_cases u u.stack size s with ⟨content, s', hfull, hread⟩ | ⟨hnone, hread⟩
  · rw [hread, if_pos rfl, Option.some.injEq]
    constructor
    · rintro rfl
      exact ⟨s', hfull⟩
    · rintro ⟨t, hreply⟩
      exact (hfull.unique hreply).1
  · rw [hread, if_neg (by decide)]
    exact ⟨(nomatch ·), fun ⟨t, hreply⟩ => absurd hreply (hnone reply t)⟩

theorem exchange_eq_some (u : Uart) (cmdCode : Octet) (size : Nat) (reply : Buffer) :
    exchange u cmdCode size = some reply ↔
      Asked u cmdCode size reply ∨ Unasked u cmdCode size reply := by
  rcases commandDevice_cases u cmdCode with ⟨s, hechoed, hcommand⟩ | ⟨hnot, hcommand⟩ |
    ⟨hwritten, hechoed, hcommand⟩
  · simp only [exchange, hcommand, if_true, readReply_eq_some]
    constructor
    · rintro ⟨s', hfull⟩
      exact Or.inl ⟨s, s', hechoed, hfull⟩
    · rintro (hasked | hunasked)
      · exact hasked.unique hechoed
      · exact absurd hechoed.written hunasked.1.short
  · simp only [exchange, hcommand, if_true, readReply_eq_some]
    constructor
    · exact fun hfull => Or.inr ⟨hnot, hfull⟩
    · rintro (⟨s, s', hechoed, -⟩ | hunasked)
      · exact absurd hechoed.written hnot.short
      · exact hunasked.2
  · simp only [exchange, hcommand, if_false]
    constructor
    · exact (nomatch ·)
    · rintro (⟨s, s', hecho, -⟩ | hunasked)
      · exact absurd hecho (hechoed s)
      · exact absurd hunasked.1 hwritten

/-- At most one reply is read, and either it was asked for or it was not. -/
theorem exchange_cases (u : Uart) (cmdCode : Octet) (size : Nat) :
    (∃ reply, exchange u cmdCode size = some reply ∧ Asked u cmdCode size reply ∧
        (∀ r, Asked u cmdCode size r → r = reply) ∧ ∀ r, ¬Unasked u cmdCode size r) ∨
      (∃ reply, exchange u cmdCode size = some reply ∧ Unasked u cmdCode size reply ∧
        (∀ r, Unasked u cmdCode size r → r = reply) ∧ ∀ r, ¬Asked u cmdCode size r) ∨
      exchange u cmdCode size = none ∧ (∀ r, ¬Asked u cmdCode size r) ∧
        ∀ r, ¬Unasked u cmdCode size r := by
  have hiff := exchange_eq_some u cmdCode size
  cases hreply : exchange u cmdCode size with
  | none =>
    simp only [hreply, reduceCtorEq, false_iff, not_or] at hiff
    exact Or.inr (Or.inr ⟨rfl, fun r => (hiff r).1, fun r => (hiff r).2⟩)
  | some reply =>
    simp only [hreply, Option.some.injEq] at hiff
    rcases (hiff reply).mp rfl with hasked | hunasked
    · exact Or.inl ⟨reply, rfl, hasked, fun r h => ((hiff r).mpr (Or.inl h)).symm,
        fun r => hasked.not_unasked⟩
    · exact Or.inr (Or.inl ⟨reply, rfl, hunasked, fun r h => ((hiff r).mpr (Or.inr h)).symm,
        fun r h => h.not_unasked hunasked⟩)

/-- What a request makes of the reply; `bad` is its status for another header or trailer. -/
structure Outcome {α : Type} (u : Uart) (cmdCode : Octet) (size trailer : Nat) (bad : Int)
    (fields : Buffer → α) (data : α) (result : Int × α) : Prop where
  reply : ∀ r, exchange u cmdCode size = some r →
    result = if framed r trailer then (OS_SUCCESS, fields r) else (bad, data)
  none : exchange u cmdCode size = none → result.1 ≠ OS_SUCCESS ∧ result.2 = data

theorem requestHK_outcome (u : Uart) (data : DeviceHk) :
    Outcome u RASPBERRY_PI_DEVICE_REQ_HK_CMD RASPBERRY_PI_DEVICE_HK_SIZE 14 OS_ERROR
      interpretHk data (requestHK u data) := by
  unfold requestHK
  by_cases hcommand : (commandDevice u RASPBERRY_PI_DEVICE_REQ_HK_CMD 0 {}).1 = OS_SUCCESS
  · by_cases hread : (readData u u.stack RASPBERRY_PI_DEVICE_HK_SIZE
        (commandDevice u RASPBERRY_PI_DEVICE_REQ_HK_CMD 0 {}).2).status = OS_SUCCESS
    · refine ⟨fun r hr => ?_, fun hnone => ?_⟩
      · simp only [exchange, hcommand, hread, if_true, Option.some.injEq] at hr ⊢
        rw [hr]
      · simp only [exchange, hcommand, hread, if_true, reduceCtorEq] at hnone
    · refine ⟨fun r hr => ?_, fun _ => ?_⟩
      · simp only [exchange, hcommand, hread, if_true, if_false, reduceCtorEq] at hr
      · simp only [hcommand, hread, if_true, if_false]
        exact ⟨hread, trivial⟩
  · refine ⟨fun r hr => ?_, fun _ => ?_⟩
    · simp only [exchange, hcommand, if_false, reduceCtorEq] at hr
    · simp only [hcommand, if_false]
      exact ⟨hcommand, trivial⟩

theorem requestData_outcome (u : Uart) (data : DeviceData) :
    Outcome u RASPBERRY_PI_DEVICE_REQ_DATA_CMD RASPBERRY_PI_DEVICE_DATA_SIZE 12 OS_SUCCESS
      interpretData data (requestData u data) := by
  unfold requestData
  by_cases hcommand : (commandDevice u RASPBERRY_PI_DEVICE_REQ_DATA_CMD 0 {}).1 = OS_SUCCESS
  · by_cases hread : (readData u u.stack RASPBERRY_PI_DEVICE_DATA_SIZE
        (commandDevice u RASPBERRY_PI_DEVICE_REQ_DATA_CMD 0 {}).2).status = OS_SUCCESS
    · refine ⟨fun r hr => ?_, fun hnone => ?_⟩
      · simp only [exchange, hcommand, hread, if_true, Option.some.injEq] at hr ⊢
        rw [hr]
      · simp only [exchange, hcommand, hread, if_true, reduceCtorEq] at hnone
    · refine ⟨fun r hr => ?_, fun _ => ?_⟩
      · simp only [exchange, hcommand, hread, if_true, if_false, reduceCtorEq] at hr
      · simp only [hcommand, hread, if_true, if_false]
        exact ⟨by decide, trivial⟩
  · refine ⟨fun r hr => ?_, fun _ => ?_⟩
    · simp only [exchange, hcommand, if_false, reduceCtorEq] at hr
    · simp only [hcommand, if_false]
      exact ⟨hcommand, trivial⟩

/-! ## Fields -/

theorem readLong_eq (d : Buffer) (i : Nat) :
    readLong d i = ofBe [d i, d (i + 1), d (i + 2), d (i + 3)] := by
  simp only [readLong, ofBe, List.foldl_cons, List.foldl_nil, BitVec.shiftLeft_or_distrib,
    ← BitVec.shiftLeft_add]
  simp

theorem readShort_eq (d : Buffer) (i : Nat) : readShort d i = ofBe [d i, d (i + 1)] := by
  simp [readShort, ofBe]

/-- The big-endian values at the offsets of a reply. -/
def hkFields (d : Buffer) : DeviceHk where
  deviceCounter := ofBe [d 2, d 3, d 4, d 5]
  deviceConfig := ofBe [d 6, d 7, d 8, d 9]
  deviceStatus := ofBe [d 10, d 11, d 12, d 13]

def dataFields (d : Buffer) : DeviceData where
  deviceCounter := ofBe [d 2, d 3, d 4, d 5]
  deviceDataX := ofBe [d 6, d 7]
  deviceDataY := ofBe [d 8, d 9]
  deviceDataZ := ofBe [d 10, d 11]

theorem interpretHk_eq (d : Buffer) : interpretHk d = hkFields d := by
  simp only [interpretHk, hkFields, readLong_eq]

theorem interpretData_eq (d : Buffer) : interpretData d = dataFields d := by
  simp only [interpretData, dataFields, readLong_eq, readShort_eq]

/-! ## The guarantee -/

/-- A request with the result `result` succeeds on a genuine reply alone and takes its fields,
and otherwise leaves the data of the caller alone. -/
structure OnlyGenuine {α : Type} (u : Uart) (cmdCode : Octet) (size trailer : Nat)
    (fields : Buffer → α) (data : α) (result : Int × α) : Prop where
  success_iff : result.1 = OS_SUCCESS ↔ ∃ reply, Genuine u cmdCode size trailer reply
  taken : ∀ reply, Genuine u cmdCode size trailer reply → result.2 = fields reply
  unchanged : (∀ reply, ¬Genuine u cmdCode size trailer reply) → result.2 = data

def HkOnlyGenuine (u : Uart) (data : DeviceHk) : Prop :=
  OnlyGenuine u RASPBERRY_PI_DEVICE_REQ_HK_CMD RASPBERRY_PI_DEVICE_HK_SIZE 14 hkFields data
    (requestHK u data)

def DataOnlyGenuine (u : Uart) (data : DeviceData) : Prop :=
  OnlyGenuine u RASPBERRY_PI_DEVICE_REQ_DATA_CMD RASPBERRY_PI_DEVICE_DATA_SIZE 12 dataFields data
    (requestData u data)

/-- No reply with header and trailer comes to a command that was not written. -/
def HkAsked (u : Uart) : Prop :=
  ∀ reply, Unasked u RASPBERRY_PI_DEVICE_REQ_HK_CMD RASPBERRY_PI_DEVICE_HK_SIZE reply →
    ¬framed reply 14

/-- No reply comes to a command that was not written, and each other one has its header and its
trailer. -/
def DataAsked (u : Uart) : Prop :=
  (∀ reply, ¬Unasked u RASPBERRY_PI_DEVICE_REQ_DATA_CMD RASPBERRY_PI_DEVICE_DATA_SIZE reply) ∧
    ∀ reply, Asked u RASPBERRY_PI_DEVICE_REQ_DATA_CMD RASPBERRY_PI_DEVICE_DATA_SIZE reply →
      framed reply 12

section Iff
variable {α : Type} {u : Uart} {cmdCode : Octet} {size trailer : Nat} {fields : Buffer → α}
  {data : α} {result : Int × α}

theorem onlyGenuine_of_none (hnone : ∀ r, ¬Genuine u cmdCode size trailer r) :
    OnlyGenuine u cmdCode size trailer fields data result ↔
      result.1 ≠ OS_SUCCESS ∧ result.2 = data := by
  constructor
  · intro h
    exact ⟨fun hs => (h.success_iff.mp hs).elim hnone, h.unchanged hnone⟩
  · rintro ⟨hfail, hkept⟩
    exact ⟨iff_of_false hfail fun ⟨r, hr⟩ => hnone r hr, fun r hr => absurd hr (hnone r),
      fun _ => hkept⟩

theorem Outcome.onlyGenuine_iff {bad : Int}
    (h : Outcome u cmdCode size trailer bad fields data result) :
    OnlyGenuine u cmdCode size trailer fields data result ↔
      (∀ reply, Unasked u cmdCode size reply → ¬framed reply trailer ∧ bad ≠ OS_SUCCESS) ∧
        ∀ reply, Asked u cmdCode size reply → framed reply trailer ∨ bad ≠ OS_SUCCESS := by
  rcases exchange_cases u cmdCode size with ⟨reply, hreply, hasked, hone, hun⟩ |
    ⟨reply, hreply, hunasked, hone, hnot⟩ | ⟨hreply, hnot, hun⟩
  · have hresult := h.reply reply hreply
    by_cases hframed : framed reply trailer
    · rw [if_pos hframed] at hresult
      have hgenuine : Genuine u cmdCode size trailer reply := ⟨hasked, hframed⟩
      refine iff_of_true ⟨iff_of_true (by rw [hresult]) ⟨reply, hgenuine⟩, fun r hr => ?_,
        fun hnone => absurd hgenuine (hnone reply)⟩ ⟨fun r hr => absurd hr (hun r), fun r hr => ?_⟩
      · rw [hresult, hone r hr.1]
      · exact Or.inl (hone r hr ▸ hframed)
    · rw [if_neg hframed] at hresult
      have hnone (r : Buffer) : ¬Genuine u cmdCode size trailer r :=
        fun hr => hframed (hone r hr.1 ▸ hr.2)
      rw [onlyGenuine_of_none hnone, hresult]
      constructor
      · exact fun hbad => ⟨fun r hr => absurd hr (hun r), fun _ _ => Or.inr hbad.1⟩
      · exact fun hall => ⟨(hall.2 reply hasked).resolve_left hframed, rfl⟩
  · have hresult := h.reply reply hreply
    rw [onlyGenuine_of_none fun r hr => hnot r hr.1, hresult]
    by_cases hframed : framed reply trailer
    · rw [if_pos hframed]
      exact iff_of_false (fun hs => hs.1 rfl) fun hall => (hall.1 reply hunasked).1 hframed
    · rw [if_neg hframed]
      constructor
      · exact fun hbad => ⟨fun r hr => ⟨hone r hr ▸ hframed, hbad.1⟩,
          fun r hr => absurd hr (hnot r)⟩
      · exact fun hall => ⟨(hall.1 reply hunasked).2, rfl⟩
  · rw [onlyGenuine_of_none fun r hr => hnot r hr.1]
    exact iff_of_true (h.none hreply)
      ⟨fun r hr => absurd hr (hun r), fun r hr => absurd hr (hnot r)⟩

end Iff

/-- Each request succeeds on a genuine reply alone exactly as long as no other one comes that it
takes for it. -/
theorem requests_onlyGenuine_iff (u : Uart) (hk : DeviceHk) (data : DeviceData) :
    (HkOnlyGenuine u hk ↔ HkAsked u) ∧ (DataOnlyGenuine u data ↔ DataAsked u) := by
  have herror : OS_ERROR ≠ OS_SUCCESS := by decide
  have hhk := requestHK_outcome u hk
  have hdata := requestData_outcome u data
  rw [funext interpretHk_eq] at hhk
  rw [funext interpretData_eq] at hdata
  constructor
  · rw [HkOnlyGenuine, hhk.onlyGenuine_iff]
    exact ⟨fun h r hr => (h.1 r hr).1, fun h => ⟨fun r hr => ⟨h r hr, herror⟩,
      fun _ _ => Or.inr herror⟩⟩
  · rw [DataOnlyGenuine, hdata.onlyGenuine_iff]
    exact ⟨fun h => ⟨fun r hr => (h.1 r hr).2 rfl,
        fun r hr => (h.2 r hr).resolve_right fun hbad => hbad rfl⟩,
      fun h => ⟨fun r hr => absurd hr (h.1 r), fun r hr => Or.inl (h.2 r hr)⟩⟩

/-- The echo of the data request and a reply of 14 octets that are all zero. -/
def zeroReply : Uart where
  flush := 0
  write := fun octets => octets.length
  available := fun _ => 14
  read := fun n length => (length,
    fun i => if n = 0 then (writeData RASPBERRY_PI_DEVICE_REQ_DATA_CMD 0).getD i 0 else 0)
  stack := fun _ => 0

/-- No octet is written, and the reply to an earlier request comes. -/
def lateReply : Uart where
  flush := 0
  write := fun _ => 0
  available := fun _ => 16
  read := fun _ length => (length, fun i => [0xDE, 0xAD, 0, 0, 0, 7].getD i
    (if i = 14 then 0xBE else if i = 15 then 0xEF else 0))
  stack := fun _ => 0

theorem requests_onlyGenuine_not : ¬HkOnlyGenuine lateReply ⟨0, 0, 0⟩ ∧
    ¬DataOnlyGenuine zeroReply ⟨0, 0, 0, 0⟩ := by
  constructor
  · intro h
    obtain ⟨r, ⟨s, s', hechoed, -⟩, -⟩ := h.success_iff.mp (by decide)
    exact absurd hechoed.written (by decide)
  · intro h
    obtain ⟨r, ⟨s, s', hechoed, hfull⟩, hframed⟩ := h.success_iff.mp (by decide)
    obtain ⟨echo, hecho, -⟩ := hechoed.echo
    obtain ⟨k, -, rfl⟩ := hecho.arrives
    have hzero : r 0 = 0 := by
      rw [← (Prod.mk.inj hfull.complete).2]
      rfl
    simp [framed, hzero, RASPBERRY_PI_DEVICE_HDR_0] at hframed

end Nos3.RaspberryPi
