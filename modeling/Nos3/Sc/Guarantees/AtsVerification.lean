import Nos3.Sc.Source.TimeIndex

/-!
# Verified tables are the tables that load

One step of the load and of the append count is written with the verification of
an entry, so that the three parsers walk the same entries.
-/
namespace Nos3.Sc
open Function (update update_self update_of_ne)

theorem atsCmdNumber_isSome {words : List Word} {o : Nat} (h : o < words.length) :
    ∃ cmdNum, atsCmdNumber words o = some cmdNum :=
  ⟨_, congrArg (Option.map _) (List.getElem?_eq_getElem h)⟩

theorem getAtsEntryTime_isSome {words : List Word} {o : Nat} (h : o + 1 < words.length) :
    ∃ time, getAtsEntryTime words o = some time :=
  ⟨_, congrArg (Option.map _) (List.getElem?_eq_getElem h)⟩

theorem atsMsgSize_isSome {words : List Word} {o : Nat} (h : o + SC_ATS_HDR_WORDS ≤ words.length) :
    ∃ size, atsMsgSize words o = some size := by
  have hlast : o + SC_ATS_HDR_NOPKT_WORDS + 1 < words.length := Nat.lt_of_succ_le h
  exact ⟨_, congrArg (Option.map _) (List.getElem?_eq_getElem hlast)⟩

/-- A whole entry for a command lies at an offset. -/
structure EntryAt (words : List Word) (bufferWords : Nat) (i : CmdIndex) (o size : Nat) : Prop where
  number : atsCmdNumber words o = some (i.val + 1)
  fits : o + size ≤ bufferWords
  packet : ∃ bytes, atsMsgSize words o = some bytes ∧ SC_PACKET_MIN_SIZE ≤ bytes ∧
    bytes ≤ SC_PACKET_MAX_SIZE ∧ size = SC_ATS_HDR_NOPKT_WORDS + wordsOf bytes

theorem wordsOf_packet {bytes : Nat} (h : SC_PACKET_MIN_SIZE ≤ bytes) :
    SC_ATS_HDR_WORDS ≤ SC_ATS_HDR_NOPKT_WORDS + wordsOf bytes := by
  simp only [wordsOf, SC_ATS_HDR_WORDS, SC_ATS_HDR_NOPKT_WORDS, SC_ATS_HEADER_SIZE,
    SC_PACKET_MIN_SIZE, SC_BYTES_IN_WORD, SC_ROUND_UP_BYTES] at h ⊢
  omega

/-- The smallest entry fits where a whole one does. -/
theorem EntryAt.header_fits {words : List Word} {bufferWords : Nat} {i : CmdIndex} {o size : Nat}
    (h : EntryAt words bufferWords i o size) : o + SC_ATS_HDR_WORDS ≤ bufferWords := by
  obtain ⟨bytes, -, hmin, -, rfl⟩ := h.packet
  have := wordsOf_packet hmin
  have := h.fits
  omega

/-- Every check of an entry ends, and accepts only a whole new entry. -/
theorem verifyAtsEntry_cases {words : List Word} {bufferWords : Nat}
    (hlen : words.length = bufferWords) (dup : CmdIndex → Option Nat) (o : Nat) :
    verifyAtsEntry words bufferWords dup o = some .endOfTable ∧
      (o ≥ bufferWords ∨ atsCmdNumber words o = some 0) ∨
    verifyAtsEntry words bufferWords dup o = some .error ∨
    ∃ i size, verifyAtsEntry words bufferWords dup o = some (.entry i size) ∧ dup i = none ∧
      EntryAt words bufferWords i o size := by
  rw [verifyAtsEntry]
  split
  case isTrue hend => exact .inl ⟨rfl, .inl hend⟩
  case isFalse hinside =>
    obtain ⟨cmdNum, hnumber⟩ := atsCmdNumber_isSome (show o < words.length by omega)
    rw [hnumber, Option.bind_eq_bind, Option.bind_some]
    split
    case isTrue hzero => exact .inl ⟨rfl, .inr (congrArg some hzero)⟩
    case isFalse =>
      cases hindex : atsCmdNumToIndex cmdNum with
      | none => exact .inr (.inl rfl)
      | some i =>
        dsimp only
        split
        case isTrue => exact .inr (.inl rfl)
        case isFalse hroom =>
          obtain ⟨bytes, hbytes⟩ :=
            atsMsgSize_isSome (show o + SC_ATS_HDR_WORDS ≤ words.length by omega)
          rw [hbytes, Option.bind_some]
          split
          case isTrue => exact .inr (.inl rfl)
          case isFalse hlength =>
            split
            case isTrue => exact .inr (.inl rfl)
            case isFalse hfits =>
              split
              case isTrue => exact .inr (.inl rfl)
              case isFalse hnew =>
                refine .inr (.inr ⟨i, _, rfl, Option.not_isSome_iff_eq_none.mp hnew, ?_, by omega,
                  bytes, hbytes, by omega, by omega, rfl⟩)
                rw [hnumber, atsCmdNumToIndex_eq_some hindex]

/-- What the load does with the check of the entry it is at. -/
def loadStep (words : List Word) (fuel o : Nat) (d : AtsData) :
    EntryCheck → Option (Bool × Nat × AtsData)
  | .endOfTable => some (true, o, d)
  | .error => some (false, o, d)
  | .entry i size => loadAtsLoop words fuel (o + size) (d.addEntry i o)

theorem loadAtsLoop_eq {words : List Word} (hlen : words.length = SC_ATS_BUFF_SIZE32)
    {d : AtsData} {dup : CmdIndex → Option Nat}
    (hdup : ∀ i, d.cmdStatus i = .empty ↔ dup i = none) (fuel o : Nat) :
    loadAtsLoop words (fuel + 1) o d =
      (verifyAtsEntry words SC_ATS_BUFF_SIZE32 dup o).bind (loadStep words fuel o d) := by
  rw [loadAtsLoop, verifyAtsEntry]
  by_cases hinside : o < SC_ATS_BUFF_SIZE32
  · rw [if_pos hinside, if_neg (Nat.not_le.mpr hinside)]
    obtain ⟨cmdNum, hnumber⟩ := atsCmdNumber_isSome (show o < words.length by omega)
    simp only [hnumber, Option.bind_eq_bind, Option.bind_some]
    by_cases hzero : cmdNum = 0
    · rw [if_pos hzero, if_pos hzero]
      rfl
    · rw [if_neg hzero, if_neg hzero]
      have hsame : o > SC_ATS_BUFF_SIZE32 - SC_ATS_HDR_WORDS ↔
          o + SC_ATS_HDR_WORDS > SC_ATS_BUFF_SIZE32 := by
        have hsmall : SC_ATS_HDR_WORDS ≤ SC_ATS_BUFF_SIZE32 := by decide
        omega
      cases hindex : atsCmdNumToIndex cmdNum with
      | none =>
        dsimp only
        split <;> rfl
      | some i =>
        dsimp only
        by_cases hroom : o + SC_ATS_HDR_WORDS > SC_ATS_BUFF_SIZE32
        · rw [if_pos (hsame.mpr hroom), if_pos hroom]
          rfl
        · obtain ⟨bytes, hbytes⟩ :=
            atsMsgSize_isSome (show o + SC_ATS_HDR_WORDS ≤ words.length by omega)
          rw [if_neg (fun h => hroom (hsame.mp h)), if_neg hroom, hbytes]
          simp only [Option.bind_some]
          by_cases hempty : d.cmdStatus i = .empty
          · have hnew : ¬ (dup i).isSome = true := by simp [(hdup i).mp hempty]
            rw [if_pos hempty]
            by_cases hlength : bytes < SC_PACKET_MIN_SIZE ∨ bytes > SC_PACKET_MAX_SIZE
            · rw [if_neg (by omega), if_pos hlength]
              rfl
            · rw [if_pos (by omega), if_neg hlength]
              by_cases hfits : o + SC_ATS_HDR_NOPKT_WORDS + wordsOf bytes > SC_ATS_BUFF_SIZE32
              · rw [if_neg (by omega), if_pos hfits]
                rfl
              · rw [if_pos (by omega), if_neg hfits, if_neg hnew, Option.bind_some, loadStep,
                  Nat.add_comm (wordsOf bytes)]
          · have hused : (dup i).isSome = true :=
              Option.isSome_iff_ne_none.mpr fun h => hempty ((hdup i).mpr h)
            rw [if_neg hempty, if_pos hused]
            split
            · rfl
            · split <;> rfl
  · rw [if_neg hinside, if_pos (Nat.not_lt.mp hinside)]
    rfl

/-- The structures of a loaded prefix and the duplicate test array agree, and
every offset leads to a whole entry in front of the end. -/
structure Prefix (words : List Word) (bufferWords o count : Nat) (dup : CmdIndex → Option Nat)
    (d : AtsData) : Prop where
  inside : o ≤ bufferWords
  index : d.cmdIndex = dup
  status : ∀ i, d.cmdStatus i = if (dup i).isSome then .loaded else .empty
  count : d.numberOfCommands = count
  used : d.numberOfCommands = d.used.card
  entries : ∀ i off, dup i = some off → ∃ size, EntryAt words o i off size

theorem Prefix.empty_iff {words : List Word} {bufferWords o count : Nat}
    {dup : CmdIndex → Option Nat} {d : AtsData} (h : Prefix words bufferWords o count dup d)
    (i : CmdIndex) : d.cmdStatus i = .empty ↔ dup i = none := by
  rw [h.status i]
  cases dup i <;> simp

theorem EntryAt.mono {words : List Word} {bufferWords larger : Nat} {i : CmdIndex} {o size : Nat}
    (h : EntryAt words bufferWords i o size) (hle : bufferWords ≤ larger) :
    EntryAt words larger i o size := ⟨h.number, h.fits.trans hle, h.packet⟩

theorem Prefix.addEntry {words : List Word} {bufferWords o count size : Nat}
    {dup : CmdIndex → Option Nat} {d : AtsData} {i : CmdIndex}
    (h : Prefix words bufferWords o count dup d) (hnew : dup i = none)
    (hentry : EntryAt words bufferWords i o size) :
    Prefix words bufferWords (o + size) (count + 1) (update dup i (some o)) (d.addEntry i o) where
  inside := hentry.fits
  index := by
    rw [← h.index]
    rfl
  status j := by
    rw [AtsData.addEntry]
    by_cases hj : j = i
    · subst hj
      simp
    · simp only [update_of_ne hj]
      exact h.status j
  count := congrArg (· + 1) h.count
  used := by
    rw [AtsData.used_card_addEntry (h.index ▸ hnew), ← h.used]
    rfl
  entries j off hoff := by
    by_cases hj : j = i
    · subst hj
      rw [update_self] at hoff
      obtain rfl := Option.some.inj hoff
      exact ⟨size, hentry.number, Nat.le_refl _, hentry.packet⟩
    · rw [update_of_ne hj] at hoff
      obtain ⟨size', h'⟩ := h.entries j off hoff
      exact ⟨size', h'.mono (Nat.le_add_right o size)⟩

/-- The verification and the load of a buffer end at the same place with the
same entries. -/
theorem verify_load_agree {words : List Word} (hlen : words.length = SC_ATS_BUFF_SIZE32)
    {fuel o count : Nat} {dup : CmdIndex → Option Nat} {d : AtsData}
    (h : Prefix words SC_ATS_BUFF_SIZE32 o count dup d)
    (hfuel : SC_ATS_BUFF_SIZE32 < fuel + o) :
    ∃ success count' o' dup' d',
      verifyLoop words SC_ATS_BUFF_SIZE32 fuel o count dup = some (success, count', o', dup') ∧
      loadAtsLoop words fuel o d = some (success, o', d') ∧
      Prefix words SC_ATS_BUFF_SIZE32 o' count' dup' d' ∧ initAtsTables d' = initAtsTables d := by
  induction fuel generalizing o count dup d with
  | zero =>
    have := h.inside
    omega
  | succ fuel ih =>
    rw [loadAtsLoop_eq hlen h.empty_iff, verifyLoop]
    obtain ⟨hend, -⟩ | herror | ⟨i, size, hcheck, hnew, hentry⟩ := verifyAtsEntry_cases hlen dup o
    · rw [hend]
      exact ⟨_, _, _, _, _, rfl, rfl, h, rfl⟩
    · rw [herror]
      exact ⟨_, _, _, _, _, rfl, rfl, h, rfl⟩
    · rw [hcheck]
      obtain ⟨bytes, -, hmin, -, hsize⟩ := hentry.packet
      have hpositive : SC_ATS_HDR_WORDS ≤ size := hsize ▸ wordsOf_packet hmin
      have hwords : 0 < SC_ATS_HDR_WORDS := by decide
      exact ih (h.addEntry hnew hentry) (by omega)

theorem prefix_initAtsTables (words : List Word) (bufferWords : Nat) (d : AtsData) :
    Prefix words bufferWords 0 0 (fun _ => none) (initAtsTables d) where
  inside := Nat.zero_le _
  index := rfl
  status _ := rfl
  count := rfl
  used := by
    refine (Finset.card_eq_zero.mpr (Finset.eq_empty_of_forall_notMem fun i hi => ?_)).symm
    exact absurd (AtsData.mem_used.mp hi) nofun
  entries _ _ h := nomatch h

/-- What a load leaves of a verified table. -/
structure Loaded (table : AtsTable) (verified : VerifiedTable) (d : AtsData) : Prop where
  loadedPrefix : Prefix table.cells SC_ATS_BUFF_SIZE32 verified.words verified.commandCount
    verified.offsets d
  positive : 0 < verified.commandCount
  tbl : d.tbl = some table
  size : d.atsSize = verified.words
  indexed : d.timeIndex.length = d.numberOfCommands
  numbers : d.Numbers d.timeIndex

/-- Every command in use has a time tag inside the table. -/
theorem AtsData.timed_of_entries {table : AtsTable} {d : AtsData} {o : Nat}
    (htbl : d.tbl = some table) (hinside : o ≤ SC_ATS_BUFF_SIZE32)
    (hentries : ∀ i off, d.cmdIndex i = some off → ∃ size, EntryAt table.cells o i off size) :
    d.Timed := by
  intro i hi
  obtain ⟨off, hoff⟩ := Option.isSome_iff_exists.mp hi
  obtain ⟨size, hentry⟩ := hentries i off hoff
  have hlen : table.cells.length = SC_ATS_BUFF_SIZE32 := table.length_cells
  have hfits := hentry.header_fits.trans hinside
  have hwords : 1 < SC_ATS_HDR_WORDS := by decide
  obtain ⟨time, htime⟩ := getAtsEntryTime_isSome (show off + 1 < table.cells.length by omega)
  rw [AtsData.entryTime_eq htbl hoff, htime]
  rfl

/-- The load of a table and its verification, from any state of the ATS. -/
theorem loadAts_spec (table : AtsTable) (d : AtsData) :
    (validateAts table = some none ∧
      loadAts { d with tbl := some table } = some (initAtsTables { d with tbl := some table })) ∨
    ∃ verified loaded, validateAts table = some (some verified) ∧
      loadAts { d with tbl := some table } = some loaded ∧ Loaded table verified loaded := by
  obtain ⟨success, count, o, dup, d', hverify, hload, hreached, hinit⟩ :=
    verify_load_agree table.length_cells
      (prefix_initAtsTables table.cells SC_ATS_BUFF_SIZE32 { d with tbl := some table })
      (show SC_ATS_BUFF_SIZE32 < SC_ATS_BUFF_SIZE32 + 1 + 0 by omega)
  have htbl : d'.tbl = some table := congrArg AtsData.tbl hinit
  have hloadAts : loadAts { d with tbl := some table } =
      if success = true ∧ d'.numberOfCommands > 0 then buildTimeIndexTable { d' with atsSize := o }
      else some (initAtsTables d') := by
    simp only [loadAts, Option.bind_eq_bind, Option.bind_some, hload]
  rw [validateAts, verifyAtsTable, hverify, hloadAts]
  simp only [Option.bind_eq_bind, Option.bind_some]
  by_cases haccepted : success = true ∧ count ≠ 0
  · right
    rw [if_pos haccepted, if_pos ⟨haccepted.1, by rw [hreached.count]; omega⟩]
    obtain ⟨timeIndex, hbuild, hlength, hnumbers⟩ :=
      buildTimeIndexTable_spec (d := { d' with atsSize := o })
        (AtsData.timed_of_entries htbl hreached.inside (hreached.index ▸ hreached.entries))
    refine ⟨_, _, rfl, hbuild, ⟨⟨hreached.inside, hreached.index, hreached.status, hreached.count,
      hreached.used, hreached.entries⟩, ?_, htbl, rfl, ?_, hnumbers⟩⟩
    · exact Nat.pos_of_ne_zero haccepted.2
    · exact hlength.trans hreached.used.symm
  · left
    have hload : ¬ (success = true ∧ d'.numberOfCommands > 0) := by
      rw [hreached.count]
      exact fun h => haccepted ⟨h.1, by omega⟩
    rw [if_neg haccepted, if_neg hload, hinit]
    exact ⟨rfl, rfl⟩

/-- The entry a check of an append table finds is one the count takes. -/
theorem updateAppendLoop_entry {words : List Word} {i : CmdIndex} {o size : Nat}
    (h : EntryAt words SC_APPEND_BUFF_SIZE32 i o size) (fuel entryCount : Nat) :
    updateAppendLoop words (fuel + 1) o entryCount =
      updateAppendLoop words fuel (o + size) (entryCount + 1) := by
  have hheader := h.header_fits
  have hwords : 0 < SC_ATS_HDR_WORDS := by decide
  obtain ⟨bytes, hbytes, hmin, hmax, rfl⟩ := h.packet
  have hfits := h.fits
  have hi := i.isLt
  rw [updateAppendLoop, if_neg (by omega), h.number, Option.bind_eq_bind, Option.bind_some,
    if_neg (by omega), hbytes, Option.bind_some, if_neg (by omega), if_neg (by omega)]

/-- The count of an append table goes as far as its verification. -/
theorem updateAppendLoop_of_verified {words : List Word}
    (hlen : words.length = SC_APPEND_BUFF_SIZE32) {fuel o count count' o' : Nat}
    {dup dup' : CmdIndex → Option Nat}
    (h : verifyLoop words SC_APPEND_BUFF_SIZE32 fuel o count dup = some (true, count', o', dup')) :
    updateAppendLoop words fuel o count = some (count', o') := by
  induction fuel generalizing o count dup with
  | zero => cases h
  | succ fuel ih =>
    rw [verifyLoop] at h
    obtain ⟨hend, hreason⟩ | herror | ⟨i, size, hcheck, -, hentry⟩ := verifyAtsEntry_cases hlen dup o
    · rw [hend] at h
      cases h
      rw [updateAppendLoop]
      obtain hout | hzero := hreason
      · exact if_pos hout
      · split
        · rfl
        · rw [hzero]
          rfl
    · rw [herror] at h
      cases h
    · rw [hcheck] at h
      rw [updateAppendLoop_entry hentry]
      exact ih h

/-- The verification of a buffer reads nothing outside it. -/
theorem verifyLoop_total {words : List Word} {bufferWords : Nat}
    (hlen : words.length = bufferWords) {fuel o : Nat} (count : Nat)
    (dup : CmdIndex → Option Nat) (hinside : o ≤ bufferWords) (hfuel : bufferWords < fuel + o) :
    ∃ result, verifyLoop words bufferWords fuel o count dup = some result := by
  induction fuel generalizing o count dup with
  | zero => omega
  | succ fuel ih =>
    rw [verifyLoop]
    obtain ⟨hend, -⟩ | herror | ⟨i, size, hcheck, -, hentry⟩ := verifyAtsEntry_cases hlen dup o
    · rw [hend]
      exact ⟨_, rfl⟩
    · rw [herror]
      exact ⟨_, rfl⟩
    · rw [hcheck]
      obtain ⟨bytes, -, hmin, -, hsize⟩ := hentry.packet
      have hpositive : SC_ATS_HDR_WORDS ≤ size := hsize ▸ wordsOf_packet hmin
      have hwords : 0 < SC_ATS_HDR_WORDS := by decide
      exact ih _ _ hentry.fits (by omega)

theorem validateAppend_spec (table : AppendTable) :
    ∃ verified, validateAppend table = some verified ∧ ∀ v, verified = some v →
      updateAppend table = some (v.commandCount, v.words) := by
  obtain ⟨⟨success, count, o, dup⟩, hverify⟩ := verifyLoop_total table.length_cells
    0 (fun _ => none) (Nat.zero_le _)
    (show SC_APPEND_BUFF_SIZE32 < SC_APPEND_BUFF_SIZE32 + 1 + 0 by omega)
  rw [validateAppend, verifyAtsTable, hverify]
  simp only [Option.bind_eq_bind, Option.bind_some]
  split
  case isTrue haccepted =>
    refine ⟨_, rfl, fun v hv => ?_⟩
    cases hv
    rw [haccepted.1] at hverify
    exact updateAppendLoop_of_verified table.length_cells hverify
  case isFalse => exact ⟨_, rfl, nofun⟩

/-- Verification accepts an ATS table exactly when the load of it does not fall
back to an empty one, and then both find the same entries; for a verified append
table the update counts its entries and words. None of them reads outside the
buffer. -/
theorem ats_verification_agrees (table : AtsTable) (append : AppendTable) (d : AtsData) :
    (∃ verified loaded, validateAts table = some verified ∧
      loadAts { d with tbl := some table } = some loaded ∧
      (verified = none ↔ loaded = initAtsTables { d with tbl := some table }) ∧
      ∀ v, verified = some v → loaded.numberOfCommands = v.commandCount ∧
        loaded.atsSize = v.words ∧ loaded.cmdIndex = v.offsets) ∧
    ∃ verified, validateAppend append = some verified ∧ ∀ v, verified = some v →
      updateAppend append = some (v.commandCount, v.words) := by
  refine ⟨?_, validateAppend_spec append⟩
  obtain ⟨hreject, hload⟩ | ⟨v, loaded, haccept, hload, h⟩ := loadAts_spec table d
  · exact ⟨none, _, hreject, hload, ⟨fun _ => rfl, fun _ => rfl⟩, nofun⟩
  · refine ⟨some v, loaded, haccept, hload, ⟨nofun, fun hempty => ?_⟩, fun v' hv' => ?_⟩
    · have hzero : loaded.numberOfCommands = 0 := hempty ▸ rfl
      have hpositive := h.positive
      rw [← h.loadedPrefix.count, hzero] at hpositive
      cases hpositive
    · cases hv'
      exact ⟨h.loadedPrefix.count, h.size, h.loadedPrefix.index⟩

end Nos3.Sc
