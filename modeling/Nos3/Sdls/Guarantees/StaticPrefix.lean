import Nos3.Sdls.Source.CounterRules
import Nos3.Sdls.Source.TcState

/-!
# The IV window where only a part of the IV is transmitted

With a static prefix the check compares the front of the received IV with the
transmitted part of the stored one. Octets of the prefix take the place of
transmitted ones, and what they do is the same for every frame in the end: such a
check is right only where the window takes in every value or none.
-/
namespace Nos3.Sdls
open Nos3.Base.BigEndian (Octet)
open Nos3.Base.Counter
open Nos3.Base.FixedArray
open Nos3.Base.Program (bind_eq_ok)

/-- `actual` is one to `count` ahead of `stored`, or both are zero. -/
def Ahead (actual stored : List Octet) (count : Nat) : Prop :=
  (∃ k, 1 ≤ k ∧ k ≤ count ∧ value actual = (value stored + k) % 256 ^ stored.length) ∨
    (AllZero actual ∧ AllZero stored)

theorem ahead_iff_search {actual stored : List Octet} (hlen : actual.length = stored.length)
    (count : Nat) : Ahead actual stored count ↔
      (AllZero actual ∧ AllZero stored) ∨ windowSearch actual stored count = true := by
  rw [windowSearch_iff, Ahead, or_comm]
  refine or_congr_right ⟨?_, ?_⟩
  · rintro ⟨k, hone, hk, hvalue⟩
    refine ⟨k - 1, by omega, value_injective ?_ ?_⟩
    · rw [iterate_increment_length, hlen]
    · rw [Nat.sub_add_cancel hone, value_iterate_increment, hvalue]
  · rintro ⟨k, hk, rfl⟩
    exact ⟨k + 1, by omega, by omega, value_iterate_increment _ _⟩

theorem window_iff_ahead {actual expected : List Octet} {length count : Nat}
    (hactual : length ≤ actual.length) (hexpected : length ≤ expected.length) :
    window actual expected length count = .ok true ↔
      Ahead (actual.take length) (expected.take length) count := by
  have hlen : (actual.take length).length = (expected.take length).length := by
    rw [List.length_take_of_le hactual, List.length_take_of_le hexpected]
  rw [ahead_iff_search hlen]
  constructor
  · intro h
    exact (window_take h).2.2
  · rintro (hzero | hsearch)
    · exact window_hit hactual hexpected (.inl hzero)
    · exact window_hit hactual hexpected (.inr ((windowSearch_iff _ _ _).mp hsearch))

/-! ## Windows that take in everything or nothing -/

/-- Every value of the stored one's length is ahead. -/
def WindowFull (stored : List Octet) (count : Nat) : Prop :=
  256 ^ stored.length ≤ count ∨ (256 ^ stored.length ≤ count + 1 ∧ AllZero stored)

/-- None is. -/
def WindowEmpty (stored : List Octet) (count : Nat) : Prop := count = 0 ∧ ¬ AllZero stored

theorem allZero_iff (octets : List Octet) : AllZero octets ↔ value octets = 0 := by
  rw [value_eq_zero_iff, List.eq_replicate_iff, AllZero]
  simp

theorem ahead_of_full {actual stored : List Octet} {count : Nat}
    (hlen : actual.length = stored.length) (h : WindowFull stored count) :
    Ahead actual stored count := by
  have hactual := value_lt actual
  have hstored := value_lt stored
  rw [hlen] at hactual
  rcases h with hround | ⟨hround, hzero⟩
  · have hadd := add_advance hstored hactual
    by_cases hsame : advance (256 ^ stored.length) (value stored) (value actual) = 0
    · rw [hsame, Nat.add_zero] at hadd
      exact .inl ⟨256 ^ stored.length, by omega, hround, by rw [Nat.add_mod_right, hadd]⟩
    · have hlt := Nat.mod_lt (value actual + 256 ^ stored.length - value stored)
        (show 0 < 256 ^ stored.length by omega)
      exact .inl ⟨_, Nat.pos_of_ne_zero hsame, Nat.le_of_lt (Nat.lt_of_lt_of_le hlt hround),
        hadd.symm⟩
  · have hstoredZero := (allZero_iff stored).mp hzero
    by_cases hactualZero : value actual = 0
    · exact .inr ⟨(allZero_iff actual).mpr hactualZero, hzero⟩
    · refine .inl ⟨value actual, by omega, by omega, ?_⟩
      rw [hstoredZero, Nat.zero_add, Nat.mod_eq_of_lt hactual]

theorem full_of_ahead {stored : List Octet} {count : Nat} (hpos : 0 < stored.length)
    (h : ∀ actual : List Octet, actual.length = stored.length → Ahead actual stored count) :
    WindowFull stored count := by
  have hstored := value_lt stored
  rcases h stored rfl with ⟨k, hone, hk, hvalue⟩ | ⟨-, hzero⟩
  · -- the stored value itself is met again only after a whole round
    refine .inl (Nat.le_trans ?_ hk)
    by_contra hlt
    have hback := advance_add (n := 256 ^ stored.length) (k := k) (by omega) hstored
    rw [← hvalue, advance_self hstored] at hback
    omega
  · refine .inr ⟨?_, hzero⟩
    have hstoredZero := (allZero_iff stored).mp hzero
    have hround : 256 ≤ 256 ^ stored.length := Nat.le_self_pow (by omega) 256
    have hlast : value (increment^[256 ^ stored.length - 1] stored) = 256 ^ stored.length - 1 := by
      rw [value_iterate_increment, hstoredZero, Nat.zero_add, Nat.mod_eq_of_lt (by omega)]
    rcases h (increment^[256 ^ stored.length - 1] stored) (iterate_increment_length _ _) with
      ⟨k, -, hk, hvalue⟩ | ⟨hallZero, -⟩
    · rw [hlast, hstoredZero, Nat.zero_add] at hvalue
      have hle := Nat.mod_le k (256 ^ stored.length)
      omega
    · rw [allZero_iff, hlast] at hallZero
      omega

theorem not_ahead_iff {stored : List Octet} {count : Nat} :
    (∀ actual : List Octet, actual.length = stored.length → ¬ Ahead actual stored count) ↔
      WindowEmpty stored count := by
  constructor
  · intro h
    refine ⟨?_, fun hzero => h stored rfl (.inr ⟨hzero, hzero⟩)⟩
    by_contra hcount
    refine h (increment stored) (increment_length stored) (.inl ⟨1, by omega, by omega, ?_⟩)
    exact value_iterate_increment 1 stored
  · rintro ⟨rfl, hzero⟩ actual - (⟨k, hone, hk, -⟩ | ⟨-, hstored⟩)
    · omega
    · exact hzero hstored

/-! ## The octets that are compared -/

/-- What is compared when `transmitted` follows the prefix: as many octets from the
front. -/
def compared (fixed transmitted : List Octet) : List Octet :=
  (fixed ++ transmitted).take transmitted.length

@[simp] theorem compared_length (fixed transmitted : List Octet) :
    (compared fixed transmitted).length = transmitted.length := by
  simp [compared]

/-- Octets that agree up to some place are compared as octets that agree one further. -/
theorem compared_agree {fixed xs ys : List Octet} {n : Nat} (hfixed : fixed ≠ [])
    (hlen : xs.length = ys.length) (h : xs.take n = ys.take n) :
    (compared fixed xs).take (n + 1) = (compared fixed ys).take (n + 1) := by
  have hpos := List.length_pos_iff.mpr hfixed
  have hfront : (fixed ++ xs).take (n + 1) = (fixed ++ ys).take (n + 1) := by
    have hshort := congrArg (List.take (n + 1 - fixed.length)) h
    rw [List.take_take, List.take_take, Nat.min_eq_left (by omega)] at hshort
    rw [List.take_append, List.take_append, hshort]
  have hswap : ∀ zs : List Octet,
      (compared fixed zs).take (n + 1) = ((fixed ++ zs).take (n + 1)).take zs.length := by
    intro zs
    rw [compared, List.take_take, List.take_take, Nat.min_comm]
  rw [hswap, hswap, hfront, hlen]

theorem iterate_compared_length (fixed xs : List Octet) (n : Nat) :
    ((compared fixed)^[n] xs).length = xs.length := by
  induction n with
  | zero => rfl
  | succ n ih => rw [Function.iterate_succ_apply', compared_length, ih]

/-- After as many rounds as there are octets nothing of them is left. -/
theorem iterate_compared_eq {fixed xs ys : List Octet} (hfixed : fixed ≠ [])
    (hlen : xs.length = ys.length) :
    (compared fixed)^[xs.length] xs = (compared fixed)^[xs.length] ys := by
  have hagree : ∀ n, ((compared fixed)^[n] xs).take n = ((compared fixed)^[n] ys).take n := by
    intro n
    induction n with
    | zero => rfl
    | succ n ih =>
      rw [Function.iterate_succ_apply', Function.iterate_succ_apply']
      exact compared_agree hfixed
        (by rw [iterate_compared_length, iterate_compared_length, hlen]) ih
  have hfull := hagree xs.length
  rwa [List.take_of_length_le (by rw [iterate_compared_length]),
    List.take_of_length_le (by rw [iterate_compared_length, hlen])] at hfull

/-- A verdict that the compared octets get as well is the same for all octets. -/
theorem verdict_constant {fixed : List Octet} (hfixed : fixed ≠ []) (Verdict : List Octet → Prop)
    {n : Nat} (h : ∀ xs : List Octet, xs.length = n → (Verdict (compared fixed xs) ↔ Verdict xs))
    {xs ys : List Octet} (hxs : xs.length = n) (hys : ys.length = n) : Verdict xs ↔ Verdict ys := by
  have hiterate : ∀ (k : Nat) (zs : List Octet), zs.length = n →
      (Verdict ((compared fixed)^[k] zs) ↔ Verdict zs) := by
    intro k zs hzs
    induction k with
    | zero => rfl
    | succ k ih =>
      rw [Function.iterate_succ_apply', h _ (by rw [iterate_compared_length, hzs]), ih]
  rw [← hiterate n xs hxs, ← hiterate n ys hys, ← hxs,
    iterate_compared_eq hfixed (hxs.trans hys.symm)]

/-! ## The check -/

/-- The part of an IV that is not transmitted. -/
def untransmittedPart (sa : SecurityAssociation) (iv : List Octet) : List Octet :=
  iv.take (sa.ivLen - sa.shivfLen)

def transmittedPart (sa : SecurityAssociation) (iv : List Octet) : List Octet :=
  iv.drop (sa.ivLen - sa.shivfLen)

def storedIv (sa : SecurityAssociation) : List Octet := sa.iv.cells.take sa.ivLen

section Check
variable {config : Config} {sa : SecurityAssociation}
  (hconfig : config.incrementNontransmittedIv = false) (hgcm : sa.ecs = .aes256Gcm)
  (hpos : 0 < (sa.shivfLen : Nat)) (hle : (sa.shivfLen : Nat) ≤ sa.ivLen)
  (hsize : (sa.ivLen : Nat) ≤ IV_SIZE)
include hconfig hgcm hpos hle hsize

theorem checkAntiReplayGcm_iff {iv : List Octet} (hlen : iv.length = sa.ivLen) :
    (checkAntiReplayGcm config sa iv).1 = .ok () ↔
      Ahead (iv.take sa.shivfLen) (transmittedPart sa (storedIv sa)) sa.arsnw := by
  have hcells := sa.iv.length_cells
  have hstored : (sa.iv.cells.drop (sa.ivLen - sa.shivfLen)).take sa.shivfLen =
      transmittedPart sa (storedIv sa) := by
    rw [transmittedPart, storedIv, List.drop_take, Nat.sub_sub_self hle]
  have hwindow :
      window iv (sa.iv.cells.drop (sa.ivLen - sa.shivfLen)) sa.shivfLen sa.arsnw = .ok true ↔
        Ahead (iv.take sa.shivfLen)
          ((sa.iv.cells.drop (sa.ivLen - sa.shivfLen)).take sa.shivfLen) sa.arsnw :=
    window_iff_ahead (by omega) (by rw [List.length_drop]; omega)
  rw [hstored] at hwindow
  rw [← hwindow, checkAntiReplayGcm, if_pos ⟨by omega, hgcm⟩, if_neg (by omega), hconfig]
  dsimp only
  rw [if_neg (by simp), if_neg (by omega)]
  cases window iv (sa.iv.cells.drop (sa.ivLen - sa.shivfLen)) sa.shivfLen sa.arsnw with
  | error fault => simp
  | ok inside => cases inside <;> simp

/-- The check accepts exactly the transmitted parts inside the window, for every
received IV with the stored prefix, if and only if the whole IV is transmitted or the
window takes in every value or none. -/
theorem static_prefix_window_iff :
    (∀ iv : List Octet, iv.length = sa.ivLen →
      untransmittedPart sa iv = untransmittedPart sa (storedIv sa) →
      ((checkAntiReplayGcm config sa iv).1 = .ok () ↔
        Ahead (transmittedPart sa iv) (transmittedPart sa (storedIv sa)) sa.arsnw)) ↔
      (sa.shivfLen : Nat) = sa.ivLen ∨
        WindowFull (transmittedPart sa (storedIv sa)) sa.arsnw ∨
        WindowEmpty (transmittedPart sa (storedIv sa)) sa.arsnw := by
  have hcells := sa.iv.length_cells
  have hstored : (storedIv sa).length = sa.ivLen := List.length_take_of_le (by omega)
  have hpart : ∀ iv : List Octet, iv.length = sa.ivLen →
      (transmittedPart sa iv).length = sa.shivfLen := by
    intro iv hlen
    rw [transmittedPart, List.length_drop, hlen]
    omega
  have hlast := hpart _ hstored
  constructor
  · intro h
    by_cases hwhole : (sa.shivfLen : Nat) = sa.ivLen
    · exact .inl hwhole
    right
    have hfront : (untransmittedPart sa (storedIv sa)).length = sa.ivLen - sa.shivfLen :=
      List.length_take_of_le (by omega)
    have hfixed : untransmittedPart sa (storedIv sa) ≠ [] := by
      intro hnil
      rw [hnil, List.length_nil] at hfront
      omega
    have hsame : ∀ xs : List Octet, xs.length = sa.shivfLen →
        (Ahead (compared (untransmittedPart sa (storedIv sa)) xs)
            (transmittedPart sa (storedIv sa)) sa.arsnw ↔
          Ahead xs (transmittedPart sa (storedIv sa)) sa.arsnw) := by
      intro xs hxs
      have hlen : (untransmittedPart sa (storedIv sa) ++ xs).length = sa.ivLen := by
        rw [List.length_append, hfront, hxs]
        omega
      have hright := h _ hlen (List.take_left' hfront)
      rw [checkAntiReplayGcm_iff hconfig hgcm hpos hle hsize hlen] at hright
      have hback : transmittedPart sa (untransmittedPart sa (storedIv sa) ++ xs) = xs :=
        List.drop_left' hfront
      rw [hback] at hright
      rwa [compared, hxs]
    by_cases hsome : ∃ xs : List Octet, xs.length = sa.shivfLen ∧
        Ahead xs (transmittedPart sa (storedIv sa)) sa.arsnw
    · obtain ⟨xs, hxs, hahead⟩ := hsome
      refine .inl (full_of_ahead (by omega) fun ys hys => ?_)
      exact (verdict_constant hfixed (fun zs => Ahead zs _ _) hsame hxs
        (hys.trans hlast)).mp hahead
    · refine .inr (not_ahead_iff.mp fun ys hys hahead => hsome ⟨ys, hys.trans hlast, hahead⟩)
  · rintro (hwhole | hfull | hempty) iv hlen - <;>
      rw [checkAntiReplayGcm_iff hconfig hgcm hpos hle hsize hlen]
    · have hall : transmittedPart sa iv = iv := by
        rw [transmittedPart, hwhole, Nat.sub_self, List.drop_zero]
      rw [hall, List.take_of_length_le (by omega)]
    · refine iff_of_true (ahead_of_full ?_ hfull) (ahead_of_full ?_ hfull)
      · rw [List.length_take_of_le (by omega), hlast]
      · rw [hpart iv hlen, hlast]
    · have hnone := not_ahead_iff.mpr hempty
      refine iff_of_false (hnone _ ?_) (hnone _ ?_)
      · rw [List.length_take_of_le (by omega), hlast]
      · rw [hpart iv hlen, hlast]

end Check

/-- The next IV of an association that transmits the whole of it. -/
theorem static_prefix_window_whole :
    (checkAntiReplayGcm { scConfig with incrementNontransmittedIv := false }
      (encryptionSa .aes256Gcm 12 12) (List.replicate 11 0 ++ [1])).1 = .ok () := by
  have hright := (@static_prefix_window_iff { scConfig with incrementNontransmittedIv := false }
    (encryptionSa .aes256Gcm 12 12) rfl rfl (by decide) (by decide) (by decide)).mpr
    (.inl rfl) (List.replicate 11 0 ++ [1]) (by decide) (by decide)
  exact hright.mpr (.inl ⟨1, by decide, by decide, by decide +kernel⟩)

/-- Twelve octets with six of them transmitted; the stored part is nine, the next
frame's ten. -/
theorem next_iv_refused :
    ¬ ∀ (config : Config) (sa : SecurityAssociation) (iv : List Octet),
      config.incrementNontransmittedIv = false → sa.ecs = .aes256Gcm →
      0 < (sa.shivfLen : Nat) → (sa.shivfLen : Nat) ≤ sa.ivLen → (sa.ivLen : Nat) ≤ IV_SIZE →
      iv.length = sa.ivLen → untransmittedPart sa iv = untransmittedPart sa (storedIv sa) →
      ((checkAntiReplayGcm config sa iv).1 = .ok () ↔
        Ahead (transmittedPart sa iv) (transmittedPart sa (storedIv sa)) sa.arsnw) := by
  intro hclaim
  let stored : Buffer Octet IV_SIZE := ⟨List.replicate 11 0 ++ [9] ++ List.replicate 4 0, by decide⟩
  have hright := hclaim { scConfig with incrementNontransmittedIv := false }
    { encryptionSa .aes256Gcm 12 6 with iv := stored } (List.replicate 11 0 ++ [10]) rfl rfl
    (by decide) (by decide) (by decide) (by decide) (by decide)
  have haccepted := hright.mpr (.inl ⟨1, by decide, by decide, by decide +kernel⟩)
  revert haccepted
  decide +kernel

end Nos3.Sdls
