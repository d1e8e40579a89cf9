import Nos3.Base.Program
import Nos3.Sdls.Source.SecurityAssociation

/-!
# What the anti-replay check accepts and stores

One lemma a function: a window hit is a short way ahead on the cycle of counter
values, a check that fails leaves the association alone, and one that succeeds
has had the counters it tested inside their windows.
-/
namespace Nos3.Sdls
open Nos3.Base.BigEndian (Octet)
open Nos3.Base.Counter
open Nos3.Base.FixedArray
open Nos3.Base.FileImage (window_full)
open Nos3.Base.Program (bind_eq_ok)

/-! ## The window -/

theorem windowSearch_iff (actual temp : List Octet) (count : Nat) :
    windowSearch actual temp count = true ↔ ∃ k < count, actual = increment^[k + 1] temp := by
  induction count generalizing temp with
  | zero => simp [windowSearch]
  | succ count ih =>
    simp only [windowSearch]
    split
    · rename_i hnext
      simp only [true_iff]
      exact ⟨0, by omega, hnext⟩
    · rename_i hother
      rw [ih]
      constructor
      · rintro ⟨k, hk, hactual⟩
        exact ⟨k + 1, by omega, hactual⟩
      · rintro ⟨k, hk, hactual⟩
        cases k with
        | zero => exact absurd hactual hother
        | succ k => exact ⟨k, by omega, hactual⟩

def AllZero (octets : List Octet) : Prop := ∀ octet ∈ octets, octet = 0

instance (octets : List Octet) : Decidable (AllZero octets) := List.decidableBAll _ _

/-- `actual` is one of the `count` values behind `stored`. -/
def WithinWindow (actual stored : List Octet) (count : Nat) : Prop :=
  0 < advance (256 ^ stored.length) (value stored) (value actual) ∧
    advance (256 ^ stored.length) (value stored) (value actual) ≤ count

theorem withinWindow_of_search {actual temp : List Octet} {count : Nat}
    (hcount : count < 256 ^ temp.length) (h : windowSearch actual temp count = true) :
    WithinWindow actual temp count := by
  obtain ⟨k, hk, rfl⟩ := (windowSearch_iff actual temp count).mp h
  have hahead : advance (256 ^ temp.length) (value temp) (value (increment^[k + 1] temp)) = k + 1 := by
    rw [value_iterate_increment]
    exact advance_add (by omega) (value_lt temp)
  rw [WithinWindow, hahead]
  omega

theorem window_cases {actual expected : List Octet} {length count : Nat} {inside : Bool}
    (h : window actual expected length count = .ok inside) :
    ∃ received stored, readAt actual 0 length = some received ∧
      readAt expected 0 length = some stored ∧
      (inside = true → (AllZero received ∧ AllZero stored) ∨
        windowSearch received stored count = true) := by
  obtain ⟨received, hactual, h⟩ := bind_eq_ok.mp h
  obtain ⟨stored, hexpected, h⟩ := bind_eq_ok.mp h
  refine ⟨received, stored, octetsAt_cases hactual, octetsAt_cases hexpected, ?_⟩
  split at h
  · rename_i hzero
    rw [Bool.and_eq_true, List.all_eq_true, List.all_eq_true] at hzero
    intro _
    exact .inl ⟨by simpa [AllZero] using hzero.1, by simpa [AllZero] using hzero.2⟩
  · cases h
    exact .inr

theorem window_take {actual expected : List Octet} {length count : Nat}
    (h : window actual expected length count = .ok true) :
    (actual.take length).length = length ∧ (expected.take length).length = length ∧
      ((AllZero (actual.take length) ∧ AllZero (expected.take length)) ∨
        windowSearch (actual.take length) (expected.take length) count = true) := by
  obtain ⟨received, stored, hactual, hexpected, hinside⟩ := window_cases h
  have hreceived := readAt_length hactual
  have hstored := readAt_length hexpected
  obtain ⟨-, rfl⟩ := readAt_cases hactual
  obtain ⟨-, rfl⟩ := readAt_cases hexpected
  exact ⟨hreceived, hstored, hinside rfl⟩

theorem octetsAt_start {cells : List Octet} {count : Nat} (h : count ≤ cells.length) :
    octetsAt cells 0 count = .ok (cells.take count) := by
  rw [octetsAt, readAt_eq_some (by omega)]
  rfl

/-- The window accepts what it should. -/
theorem window_hit {actual expected : List Octet} {length count : Nat}
    (hactual : length ≤ actual.length) (hexpected : length ≤ expected.length)
    (h : (AllZero (actual.take length) ∧ AllZero (expected.take length)) ∨
      ∃ k < count, actual.take length = increment^[k + 1] (expected.take length)) :
    window actual expected length count = .ok true := by
  rw [window, octetsAt_start hactual, octetsAt_start hexpected]
  dsimp only [bind, Except.bind]
  rcases h with ⟨hreceived, hstored⟩ | hsearch
  · apply if_pos
    rw [Bool.and_eq_true, List.all_eq_true, List.all_eq_true]
    exact ⟨by simpa [AllZero] using hreceived, by simpa [AllZero] using hstored⟩
  · rw [(windowSearch_iff _ _ _).mpr hsearch]
    exact ite_self _

/-! ## The stores -/

theorem storeIv_cases {sa sa' : SecurityAssociation} {iv : List Octet}
    (h : storeIv sa iv = .ok sa') :
    ∃ octets stored, readAt iv 0 sa.ivLen = some octets ∧ sa.iv.write 0 octets = some stored ∧
      sa' = { sa with iv := stored } := by
  obtain ⟨octets, hread, h⟩ := bind_eq_ok.mp h
  obtain ⟨stored, hwrite, h⟩ := bind_eq_ok.mp h
  cases h
  exact ⟨octets, stored, octetsAt_cases hread, copyInto_cases hwrite, rfl⟩

theorem storeArsn_cases {sa sa' : SecurityAssociation} {arsn : List Octet}
    (h : storeArsn sa arsn = .ok sa') :
    ∃ octets stored, readAt arsn 0 sa.arsnLen = some octets ∧
      sa.arsn.write 0 octets = some stored ∧ sa' = { sa with arsn := stored } := by
  obtain ⟨octets, hread, h⟩ := bind_eq_ok.mp h
  obtain ⟨stored, hwrite, h⟩ := bind_eq_ok.mp h
  cases h
  exact ⟨octets, stored, octetsAt_cases hread, copyInto_cases hwrite, rfl⟩

theorem storeCounters_nothing (sa : SecurityAssociation) (arsn iv : List Octet) {arsnValid : Bool}
    (h : sa.ecs.isGcm = false → arsnValid = false) :
    storeCounters sa arsn iv arsnValid false = .ok sa := by
  cases hgcm : sa.ecs.isGcm with
  | false => simp [storeCounters, hgcm, h hgcm]
  | true => simp [storeCounters, hgcm]

/-- Everything but the two counters stays. -/
def SameConfiguration (sa sa' : SecurityAssociation) : Prop :=
  ∃ iv arsn, sa' = { sa with iv := iv, arsn := arsn }

theorem storeCounters_same {sa sa' : SecurityAssociation} {arsn iv : List Octet}
    {arsnValid ivValid : Bool} (h : storeCounters sa arsn iv arsnValid ivValid = .ok sa') :
    SameConfiguration sa sa' := by
  rw [storeCounters] at h
  split at h
  · split at h
    · cases h
      exact ⟨_, _, rfl⟩
    · split at h
      · split at h
        · obtain ⟨mid, hiv, h⟩ := bind_eq_ok.mp h
          obtain ⟨_, _, _, _, rfl⟩ := storeIv_cases hiv
          obtain ⟨_, _, _, _, rfl⟩ := storeArsn_cases h
          exact ⟨_, _, rfl⟩
        · cases h
          exact ⟨_, _, rfl⟩
      · obtain ⟨_, _, _, _, rfl⟩ := storeIv_cases h
        exact ⟨_, _, rfl⟩
  · split at h
    · obtain ⟨_, _, _, _, rfl⟩ := storeArsn_cases h
      exact ⟨_, _, rfl⟩
    · cases h
      exact ⟨_, _, rfl⟩

/-- One store: the first octets of the field become those of the frame. -/
theorem write_start {n count : Nat} {buffer stored : Buffer Octet n} {source octets : List Octet}
    (hread : readAt source 0 count = some octets) (hwrite : buffer.write 0 octets = some stored) :
    stored.cells.take count = source.take count := by
  obtain ⟨hle, rfl⟩ := readAt_cases hread
  obtain ⟨hroom, hcells⟩ := buffer.write_cases hwrite
  have hlen := window_full hle
  have hsame : _ = Nos3.Base.FileImage.window source 0 count :=
    window_patch_same (by rw [buffer.length_cells]; exact hroom)
  rw [hlen] at hsame
  rw [hcells]
  simpa [Nos3.Base.FileImage.window] using hsame

theorem storeIv_succeeds {sa : SecurityAssociation} {iv : List Octet}
    (hlen : (sa.ivLen : Nat) ≤ IV_SIZE) (hiv : (sa.ivLen : Nat) ≤ iv.length) :
    ∃ sa', storeIv sa iv = .ok sa' := by
  have hroom : 0 + (iv.take sa.ivLen).length ≤ IV_SIZE := by
    rw [List.length_take]
    omega
  obtain ⟨stored, hwrite, -⟩ := sa.iv.exists_write hroom
  refine ⟨{ sa with iv := stored }, ?_⟩
  simp only [storeIv, octetsAt_start hiv, copyInto, hwrite, bind, Except.bind]

theorem storeArsn_succeeds {sa : SecurityAssociation} {arsn : List Octet}
    (hlen : (sa.arsnLen : Nat) ≤ ARSN_SIZE) (harsn : (sa.arsnLen : Nat) ≤ arsn.length) :
    ∃ sa', storeArsn sa arsn = .ok sa' := by
  have hroom : 0 + (arsn.take sa.arsnLen).length ≤ ARSN_SIZE := by
    rw [List.length_take]
    omega
  obtain ⟨stored, hwrite, -⟩ := sa.arsn.exists_write hroom
  refine ⟨{ sa with arsn := stored }, ?_⟩
  simp only [storeArsn, octetsAt_start harsn, copyInto, hwrite, bind, Except.bind]

theorem storeCounters_succeeds {sa : SecurityAssociation} {arsn iv : List Octet}
    (hivLen : (sa.ivLen : Nat) ≤ IV_SIZE) (hiv : (sa.ivLen : Nat) ≤ iv.length)
    (harsnLen : (sa.arsnLen : Nat) ≤ ARSN_SIZE) (harsn : (sa.arsnLen : Nat) ≤ arsn.length)
    (arsnValid ivValid : Bool) : ∃ sa', storeCounters sa arsn iv arsnValid ivValid = .ok sa' := by
  obtain ⟨mid, hmid⟩ := storeIv_succeeds hivLen hiv
  obtain ⟨last, hlast⟩ := storeArsn_succeeds harsnLen harsn
  obtain ⟨octets, stored, hread, hwrite, rfl⟩ := storeIv_cases hmid
  unfold storeCounters
  split_ifs
  · exact ⟨sa, rfl⟩
  · rw [hmid]
    exact storeArsn_succeeds harsnLen harsn
  · exact ⟨sa, rfl⟩
  · exact ⟨_, hmid⟩
  · exact ⟨last, hlast⟩
  · exact ⟨sa, rfl⟩

/-- An unchecked sequence number is not stored. -/
theorem storeCounters_arsn_kept {sa sa' : SecurityAssociation} {arsn iv : List Octet}
    {ivValid : Bool} (h : storeCounters sa arsn iv false ivValid = .ok sa') :
    sa'.arsn = sa.arsn := by
  unfold storeCounters at h
  simp only [Bool.false_eq_true, if_false] at h
  split_ifs at h
  · cases h
    rfl
  · cases h
    rfl
  · obtain ⟨_, _, _, _, rfl⟩ := storeIv_cases h
    rfl
  · cases h
    rfl

theorem storeCounters_iv {sa sa' : SecurityAssociation} {arsn iv : List Octet} {arsnValid : Bool}
    (hgcm : sa.ecs.isGcm = true) (harsn : (sa.arsnLen : Nat) = 0 ∨ arsnValid = true)
    (h : storeCounters sa arsn iv arsnValid true = .ok sa') :
    sa'.iv.cells.take sa.ivLen = iv.take sa.ivLen := by
  simp only [storeCounters, hgcm, Bool.not_true, Bool.false_eq_true, ↓reduceIte] at h
  split at h
  · rename_i hpos
    have hvalid : arsnValid = true := harsn.resolve_left (by omega)
    rw [if_pos hvalid] at h
    obtain ⟨mid, hiv, h⟩ := bind_eq_ok.mp h
    obtain ⟨_, _, hread, hwrite, rfl⟩ := storeIv_cases hiv
    obtain ⟨_, _, _, _, rfl⟩ := storeArsn_cases h
    exact write_start hread hwrite
  · obtain ⟨_, _, hread, hwrite, rfl⟩ := storeIv_cases h
    exact write_start hread hwrite

theorem storeCounters_arsn {sa sa' : SecurityAssociation} {arsn iv : List Octet} {ivValid : Bool}
    (hpos : 0 < (sa.arsnLen : Nat)) (hgcm : sa.ecs.isGcm = true → ivValid = true)
    (h : storeCounters sa arsn iv true ivValid = .ok sa') :
    sa'.arsn.cells.take sa.arsnLen = arsn.take sa.arsnLen := by
  cases hecs : sa.ecs.isGcm with
  | true =>
    simp only [storeCounters, hecs, hgcm hecs, hpos, Bool.not_true, Bool.false_eq_true,
      ↓reduceIte] at h
    obtain ⟨mid, hiv, h⟩ := bind_eq_ok.mp h
    obtain ⟨_, _, _, _, rfl⟩ := storeIv_cases hiv
    obtain ⟨_, _, hread, hwrite, rfl⟩ := storeArsn_cases h
    exact write_start hread hwrite
  | false =>
    simp only [storeCounters, hecs, Bool.false_eq_true, ↓reduceIte] at h
    obtain ⟨_, _, hread, hwrite, rfl⟩ := storeArsn_cases h
    exact write_start hread hwrite

/-! ## The check -/

theorem checkAntiReplayArsnw_valid {sa : SecurityAssociation} {arsn : List Octet} {status}
    (h : checkAntiReplayArsnw sa arsn = (status, true)) :
    status = .ok () ∧ 0 < (sa.shsnfLen : Nat) ∧
      window arsn sa.arsn.cells sa.arsnLen sa.arsnw = .ok true := by
  rw [checkAntiReplayArsnw] at h
  split at h
  · rename_i hpos
    split at h <;> cases h
    exact ⟨rfl, hpos, ‹_›⟩
  · cases h

theorem checkAntiReplayArsnw_tested {sa : SecurityAssociation} {arsn : List Octet} {valid : Bool}
    (h : checkAntiReplayArsnw sa arsn = (.ok (), valid)) (hpos : 0 < (sa.shsnfLen : Nat)) :
    valid = true := by
  rw [checkAntiReplayArsnw, if_pos hpos] at h
  split at h <;> cases h
  rfl

theorem checkAntiReplayArsnw_error {sa : SecurityAssociation} {arsn : List Octet} {code : Error}
    {valid : Bool} (h : checkAntiReplayArsnw sa arsn = (.error code, valid)) : valid = false := by
  rw [checkAntiReplayArsnw] at h
  split at h
  · split at h <;> cases h <;> rfl
  · cases h

/-- The part of the received IV that is compared, and what it is compared with. -/
def ivWindow (config : Config) (sa : SecurityAssociation) (iv : List Octet) : Except Error Bool :=
  if config.incrementNontransmittedIv then window iv sa.iv.cells sa.ivLen sa.arsnw
  else if (sa.ivLen : Nat) < sa.shivfLen then .error .memoryFault
  else window iv (sa.iv.cells.drop (sa.ivLen - sa.shivfLen)) sa.shivfLen sa.arsnw

theorem checkAntiReplayGcm_cases {config : Config} {sa : SecurityAssociation} {iv : List Octet}
    {status} {valid : Bool} (h : checkAntiReplayGcm config sa iv = (status, valid)) :
    (¬(0 < (sa.ivLen : Nat) ∧ sa.ecs = .aes256Gcm) ∧ status = .ok () ∧ valid = false) ∨
    (0 < (sa.ivLen : Nat) ∧ sa.ecs = .aes256Gcm ∧
      ((∃ code, status = .error code ∧ valid = false) ∨
        (status = .ok () ∧ valid = true ∧ ivWindow config sa iv = .ok true))) := by
  rw [checkAntiReplayGcm] at h
  split at h
  · rename_i hgcm
    refine .inr ⟨hgcm.1, hgcm.2, ?_⟩
    split at h
    · cases h
      exact .inl ⟨_, rfl, rfl⟩
    · dsimp only at h
      rw [← ivWindow] at h
      split at h <;> cases h
      · exact .inl ⟨_, rfl, rfl⟩
      · exact .inl ⟨_, rfl, rfl⟩
      · exact .inr ⟨rfl, rfl, ‹_›⟩
  · rename_i hother
    cases h
    exact .inl ⟨hother, rfl, rfl⟩

/-- What the check did: the results of the two tests, then the stores. -/
theorem checkAntiReplay_cases {config : Config} {sa sa' : SecurityAssociation}
    {arsn iv : List Octet} {result} (h : checkAntiReplay config sa arsn iv = (result, sa')) :
    (∃ code, result = .error code ∧ sa' = sa) ∨
    (result = .ok () ∧ ∃ arsnValid ivValid,
      checkAntiReplayArsnw sa arsn = (.ok (), arsnValid) ∧
      checkAntiReplayGcm config sa iv = (.ok (), ivValid) ∧
      storeCounters sa arsn iv arsnValid ivValid = .ok sa') := by
  rw [checkAntiReplay] at h
  rcases harsn : checkAntiReplayArsnw sa arsn with ⟨_ | _, arsnValid⟩
  · rename_i code
    have hinvalid := checkAntiReplayArsnw_error harsn
    have hkeep : storeCounters sa arsn iv false false = .ok sa :=
      storeCounters_nothing sa arsn iv fun _ => rfl
    simp only [harsn, hinvalid, hkeep] at h
    cases h
    exact .inl ⟨code, rfl, rfl⟩
  · rcases hgcm : checkAntiReplayGcm config sa iv with ⟨_ | _, ivValid⟩
    · rename_i code
      obtain ⟨_, hok, _⟩ | ⟨_, hecs, ⟨_, _, hinvalid⟩ | ⟨hok, _⟩⟩ := checkAntiReplayGcm_cases hgcm
      · cases hok
      · have hkeep : storeCounters sa arsn iv arsnValid false = .ok sa :=
          storeCounters_nothing sa arsn iv fun hnot => by simp [EncCipherSuite.isGcm, hecs] at hnot
        simp only [harsn, hgcm, hinvalid, hkeep] at h
        cases h
        exact .inl ⟨code, rfl, rfl⟩
      · cases hok
    · simp only [harsn, hgcm] at h
      split at h
      · rename_i stored hstore
        cases h
        exact .inr ⟨rfl, arsnValid, ivValid, rfl, rfl, hstore⟩
      · cases h
        exact .inl ⟨_, rfl, rfl⟩

theorem checkAntiReplay_error {config : Config} {sa sa' : SecurityAssociation}
    {arsn iv : List Octet} {code : Error}
    (h : checkAntiReplay config sa arsn iv = (.error code, sa')) : sa' = sa := by
  obtain ⟨_, _, hsame⟩ | ⟨hok, _⟩ := checkAntiReplay_cases h
  · exact hsame
  · cases hok

/-! ## The reconstruction -/

/-- The search finds the first value ahead that ends with the transmitted octets. -/
theorem matchTransmitted_found {transmitted temp : List Octet} {window gap : Nat} (hgap : gap < window)
    (hends : (increment^[gap + 1] temp).drop (temp.length - transmitted.length) = transmitted)
    (hfirst : ∀ k < gap,
      (increment^[k + 1] temp).drop (temp.length - transmitted.length) ≠ transmitted) :
    matchTransmitted transmitted temp window = some (increment^[gap + 1] temp) := by
  induction window generalizing temp gap with
  | zero => omega
  | succ window ih =>
    unfold matchTransmitted
    dsimp only
    cases gap with
    | zero => rw [if_pos (by rwa [increment_length])]; rfl
    | succ gap =>
      rw [if_neg (by rw [increment_length]; exact hfirst 0 (Nat.succ_pos gap))]
      refine ih (by omega) ?_ ?_
      · rwa [increment_length]
      · intro k hk
        rw [increment_length]
        exact hfirst (k + 1) (by omega)

/-- The kept octets in front, the received ones behind them. -/
theorem write_front {n len low : Nat} {dest dest' : Buffer Octet n} {counter : List Octet}
    (hcounter : counter.length = len) (hlow : low ≤ len)
    (hdest : Nos3.Base.FileImage.window dest.cells (len - low) low = counter.drop (len - low))
    (h : dest.write 0 (counter.take (len - low)) = some dest') :
    dest'.cells.take len = counter := by
  obtain ⟨-, hcells⟩ := dest.write_cases h
  have hfront : (counter.take (len - low)).length = len - low := by
    rw [List.length_take]
    omega
  rw [hcells, patch, List.take_zero, List.nil_append, List.take_append, Nat.zero_add, hfront,
    Nat.sub_sub_self hlow, List.take_of_length_le (by omega)]
  change counter.take (len - low) ++ Nos3.Base.FileImage.window dest.cells (len - low) low = counter
  rw [hdest, List.take_append_drop]

/-- With the transmitted octets of a value ahead in place the rest of it is filled in. -/
theorem handle_reconstructs {n len low window gap : Nat} {dest : Buffer Octet n}
    {src : List Octet} (hmax : len ≤ MAX_IV_LEN) (hn : len ≤ n) (hsrc : len ≤ src.length)
    (hlow : low ≤ len) (hpos : 0 < gap) (hgap : gap ≤ window) (hwindow : window ≤ 256 ^ low)
    (hdest : Nos3.Base.FileImage.window dest.cells (len - low) low =
      (increment^[gap] (src.take len)).drop (len - low)) :
    ∃ dest', handleIncrementingNontransmittedCounter dest src len low window = .ok dest' ∧
      dest'.cells.take len = increment^[gap] (src.take len) := by
  have htemp : (src.take len).length = len := List.length_take_of_le hsrc
  have hreceived : (Nos3.Base.FileImage.window dest.cells (len - low) low).length = low :=
    window_full (by rw [dest.length_cells]; omega)
  have hread : octetsAt dest.cells (len - low) low =
      .ok (Nos3.Base.FileImage.window dest.cells (len - low) low) := by
    rw [octetsAt, readAt_eq_some (by rw [dest.length_cells]; omega)]
  obtain ⟨gap, rfl⟩ : ∃ before, gap = before + 1 := ⟨gap - 1, by omega⟩
  have hearlier : ∀ k < gap, (increment^[k + 1] (src.take len)).drop (len - low) ≠
      Nos3.Base.FileImage.window dest.cells (len - low) low := by
    intro k hk hsame
    have hends : (increment^[k + 1] (src.take len)).drop ((src.take len).length - low) =
        (increment^[gap + 1] (src.take len)).drop ((src.take len).length - low) := by
      rw [htemp, hsame, hdest]
    have hequal := low_octets_injective (hlow.trans_eq htemp.symm) (Nat.succ_pos k) (by omega)
      hpos (by omega) hends
    omega
  have hfound : matchTransmitted (Nos3.Base.FileImage.window dest.cells (len - low) low)
      (src.take len) window = some (increment^[gap + 1] (src.take len)) := by
    apply matchTransmitted_found hgap
    · rw [hreceived, htemp, hdest]
    · rwa [hreceived, htemp]
  have hroom : 0 + ((increment^[gap + 1] (src.take len)).take (len - low)).length ≤ n := by
    rw [List.length_take]
    omega
  obtain ⟨dest', hwrite, -⟩ := dest.exists_write hroom
  refine ⟨dest', ?_, write_front ((iterate_increment_length _ _).trans htemp) hlow hdest hwrite⟩
  rw [handleIncrementingNontransmittedCounter, if_neg (Nat.not_lt.mpr hmax), octetsAt_start hsrc]
  apply (if_neg (Nat.ne_of_gt (Nat.lt_of_lt_of_le hpos hgap))).trans
  rw [hread]
  dsimp only [bind, Except.bind]
  rw [hfound]
  dsimp only
  rw [copyInto, hwrite]

end Nos3.Sdls
