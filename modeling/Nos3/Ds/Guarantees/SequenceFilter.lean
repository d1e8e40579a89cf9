import Mathlib.Data.Nat.Periodic
import Mathlib.Tactic.Ring
import Nos3.Ds.Source.PacketFilter
import Nos3.Msg.Source.HeaderFields

/-!
# Filtering by sequence count

A filter by count looks at the sequence count of a packet alone. As the count wraps, so does
the place of a packet in its group, and a window across the wrap has N packets that pass only
where the groups fit.
-/
namespace Nos3.Ds
open Function (Periodic)
open Nos3.Msg (Message SysTime getSequenceCount word SEQUENCE)

/-! ## Windows of periodic predicates -/

section Windows
variable {p : ℕ → Prop}

theorem periodic_gcd {a b : ℕ} (ha : Periodic p a) (hb : Periodic p b) :
    Periodic p (Nat.gcd a b) := by
  induction a, b using Nat.gcd.induction with
  | H0 b => rwa [Nat.gcd_zero_left]
  | H1 a b _ ih =>
    rw [Nat.gcd_rec]
    refine ih (fun n => ?_) ha
    have hmultiple := (ha.nsmul (b / a)) (n + b % a)
    have hsplit : n + b % a + (b / a) • a = n + b := by
      rw [smul_eq_mul, Nat.add_assoc, Nat.mul_comm, Nat.mod_add_div]
    rw [hsplit] at hmultiple
    exact hmultiple.symm.trans (hb n)

theorem periodic_of_mod {x m n : ℕ} (hp : Periodic p x) (h : m % x = n % x) : p m = p n := by
  rw [← hp.map_mod_nat m, h, hp.map_mod_nat n]

variable [DecidablePred p]

theorem count_congr_lt {q : ℕ → Prop} [DecidablePred q] {m : ℕ} (h : ∀ c < m, (p c ↔ q c)) :
    Nat.count p m = Nat.count q m := by
  induction m with
  | zero => simp
  | succ m ih =>
    rw [Nat.count_succ, Nat.count_succ, ih fun c hc => h c (Nat.lt_succ_of_lt hc)]
    simp only [h m (Nat.lt_succ_self m)]

theorem count_window_succ (p : ℕ → Prop) [DecidablePred p] (k x : ℕ) :
    Nat.count (fun j => p (k + 1 + j)) x + (if p k then 1 else 0) =
      Nat.count (fun j => p (k + j)) x + if p (k + x) then 1 else 0 := by
  have hfront := Nat.count_succ' (fun j => p (k + j)) x
  have hback := Nat.count_succ (fun j => p (k + j)) x
  have hshift : Nat.count (fun j => p (k + (j + 1))) x = Nat.count (fun j => p (k + 1 + j)) x :=
    count_congr_lt fun j _ => by rw [Nat.add_right_comm, Nat.add_assoc]
  rw [hshift] at hfront
  exact hfront.symm.trans hback

theorem count_window {x : ℕ} (hp : Periodic p x) (k : ℕ) :
    Nat.count (fun j => p (k + j)) x = Nat.count p x := by
  induction k with
  | zero => simp only [Nat.zero_add]
  | succ k ih =>
    have hstep := count_window_succ p k x
    simp only [hp k] at hstep
    omega

theorem count_mul_period {x : ℕ} (hp : Periodic p x) (q : ℕ) :
    Nat.count p (q * x) = q * Nat.count p x := by
  induction q with
  | zero => simp
  | succ q ih => rw [Nat.succ_mul, Nat.count_add, ih, count_window hp, Nat.succ_mul]

/-- The members of an interval below `m`. -/
theorem count_interval (o n m : ℕ) :
    Nat.count (fun c => o ≤ c ∧ c < o + n) m = min (o + n) m - min o m := by
  induction m with
  | zero => simp
  | succ m ih =>
    rw [Nat.count_succ, ih]
    split <;> omega

end Windows

/-! ## The filter as a predicate on counts -/

section Counts
variable {m x n o : ℕ}

/-- The count `c` is passed. -/
def Passes (x n o c : ℕ) : Prop := o ≤ c ∧ (c - o) % x < n

instance (x n o c : ℕ) : Decidable (Passes x n o c) := inferInstanceAs (Decidable (_ ∧ _))

/-- The counts run through `m` values. -/
def PassesAt (m x n o k : ℕ) : Prop := Passes x n o (k % m)

instance (m x n o k : ℕ) : Decidable (PassesAt m x n o k) :=
  inferInstanceAs (Decidable (Passes _ _ _ _))

theorem passesAt_periodic (m x n o : ℕ) : Periodic (PassesAt m x n o) m := by
  intro k
  rw [PassesAt, PassesAt, Nat.add_mod_right]

theorem passesAt_of_lt {c : ℕ} (hc : c < m) : PassesAt m x n o c ↔ Passes x n o c := by
  rw [PassesAt, Nat.mod_eq_of_lt hc]

theorem count_mod_lt (hnx : n ≤ x) : Nat.count (fun c => c % x < n) x = n := by
  have hbelow := count_interval 0 n x
  rw [count_congr_lt (q := fun c => 0 ≤ c ∧ c < 0 + n) fun c hc => by
    rw [Nat.mod_eq_of_lt hc]
    omega, hbelow]
  omega

/-- A group from any count on that is not before the offset. -/
theorem count_passes (hnx : n ≤ x) {c : ℕ} (hc : o ≤ c) :
    Nat.count (fun j => Passes x n o (c + j)) x = n := by
  have hperiodic : Periodic (fun c => c % x < n) x := fun k => by
    simp only [Nat.add_mod_right]
  have hshift := count_window hperiodic (c - o)
  rw [count_mod_lt hnx] at hshift
  refine (count_congr_lt fun j _ => ?_).trans hshift
  have hplace : c + j - o = c - o + j := by omega
  rw [Passes, hplace]
  exact and_iff_right (Nat.le_add_right_of_le hc)

/-- The windows fit across the wrap. -/
def Fits (m x n o : ℕ) : Prop :=
  m ≤ o ∨ o = 0 ∧ n = x ∨ x ∣ m ∧ o + n ≤ x ∨ m ∣ x ∧ n = x / m * (m - o)

theorem passesAt_of_fits (hox : o < x) (hdvd : x ∣ m) (hfit : o + n ≤ x) (k : ℕ) :
    PassesAt m x n o k ↔ (k + (x - o)) % x < n := by
  have hmod : k % m % x = k % x := Nat.mod_mod_of_dvd k hdvd
  have hplace : (k + (x - o)) % x = (k % m % x + (x - o)) % x := by rw [hmod, Nat.mod_add_mod]
  rw [hplace, PassesAt, Passes]
  generalize k % m = c
  have hlt : c % x < x := Nat.mod_lt c (by omega)
  have hdiv : x * (c / x) + c % x = c := Nat.div_add_mod c x
  by_cases hbefore : c % x < o
  · -- the place is behind the passed ones of the group before
    rw [Nat.mod_eq_of_lt (by omega : c % x + (x - o) < x)]
    refine iff_of_false (fun ⟨hoc, hpass⟩ => ?_) (by omega)
    have hq : 1 ≤ c / x := by
      by_contra hzero
      rw [Nat.lt_one_iff.mp (not_le.mp hzero), Nat.mul_zero] at hdiv
      omega
    obtain ⟨q, hq⟩ := Nat.exists_eq_add_of_le hq
    have hsplit : c - o = c % x + (x - o) + x * q := by
      rw [hq, Nat.mul_add, Nat.mul_one] at hdiv
      omega
    rw [hsplit, Nat.add_mul_mod_self_left, Nat.mod_eq_of_lt (by omega)] at hpass
    omega
  · have hsplit : c - o = c % x - o + x * (c / x) := by omega
    have hwrap : c % x + (x - o) = c % x - o + x := by omega
    rw [hsplit, Nat.add_mul_mod_self_left, hwrap, Nat.add_mod_right]
    exact and_iff_right (by omega)

/-- Where no count is passed before the offset and the groups are whole, the filter goes on
over the wrap. -/
theorem count_of_dvd (hnx : n ≤ x) (hox : o < x) (hdvd : x ∣ m) (hfit : o + n ≤ x) (k : ℕ) :
    Nat.count (fun j => PassesAt m x n o (k + j)) x = n := by
  have hperiodic : Periodic (fun c => c % x < n) x := fun k => by
    simp only [Nat.add_mod_right]
  have hshift := count_window hperiodic (k + (x - o))
  rw [count_mod_lt hnx] at hshift
  refine (count_congr_lt fun j _ => ?_).trans hshift
  rw [passesAt_of_fits hox hdvd hfit, Nat.add_right_comm]

/-- The passed counts of one run through all of them, where that is no longer than a group. -/
theorem count_run (hmx : m ≤ x) :
    Nat.count (PassesAt m x n o) m = min (o + n) m - min o m := by
  rw [← count_interval]
  refine count_congr_lt fun c hc => ?_
  rw [passesAt_of_lt hc, Passes]
  constructor
  · rintro ⟨hoc, hpass⟩
    rw [Nat.mod_eq_of_lt (by omega)] at hpass
    omega
  · rintro ⟨hoc, hpass⟩
    rw [Nat.mod_eq_of_lt (by omega)]
    omega

theorem count_runs (hmx : m ≤ x) (hdvd : m ∣ x) :
    Nat.count (PassesAt m x n o) x = x / m * (min (o + n) m - min o m) := by
  rw [← count_run hmx, ← count_mul_period (passesAt_periodic m x n o), Nat.div_mul_cancel hdvd]

theorem count_of_fits (hm : 0 < m) (hnx : n ≤ x) (hox : o < x) (hn : 0 < n)
    (hfits : Fits m x n o) (hreached : o < m) (k : ℕ) :
    Nat.count (fun j => PassesAt m x n o (k + j)) x = n := by
  rcases hfits with hnever | ⟨rfl, rfl⟩ | ⟨hdvd, hfit⟩ | ⟨hdvd, heq⟩
  · omega
  · have hall : Nat.count (fun j => PassesAt m n n 0 (k + j)) n = Nat.count (fun _ => True) n :=
      count_congr_lt fun j _ => iff_of_true ⟨Nat.zero_le _, Nat.mod_lt _ hn⟩ trivial
    rw [hall, Nat.count_true]
  · exact count_of_dvd hnx hox hdvd hfit k
  · have hmx : m ≤ x := Nat.le_of_dvd (by omega) hdvd
    have hq : 1 ≤ x / m := Nat.div_pos hmx hm
    have hlong : m - o ≤ n := by
      rw [heq]
      exact Nat.le_mul_of_pos_left _ hq
    have hperiodic : Periodic (PassesAt m x n o) x := by
      have hmultiple := (passesAt_periodic m x n o).nsmul (x / m)
      rwa [smul_eq_mul, Nat.div_mul_cancel hdvd] at hmultiple
    have hwhole : min (o + n) m - min o m = m - o := by omega
    rw [count_window hperiodic, count_runs hmx hdvd, hwhole, ← heq]

theorem passesAt_offset (hn : 0 < n) (hreached : o < m) : PassesAt m x n o o := by
  rw [passesAt_of_lt hreached, Passes, Nat.sub_self, Nat.zero_mod]
  exact ⟨Nat.le_refl o, hn⟩

section Converse
variable (hn : 0 < n) (hox : o < x) (hreached : o < m) (hperiodic : Periodic (PassesAt m x n o) x)
include hn hox hreached hperiodic

/-- A period that is shorter than a group and than the run of counts makes all of them pass. -/
theorem all_pass_of_gcd (hx : ¬x ∣ m) (hm : ¬m ∣ x) (k : ℕ) : PassesAt m x n o k := by
  have hgcd := periodic_gcd hperiodic (passesAt_periodic m x n o)
  have hstart := passesAt_offset (x := x) hn hreached
  have hgx : Nat.gcd x m ∣ x := Nat.gcd_dvd_left x m
  have hgm : Nat.gcd x m ∣ m := Nat.gcd_dvd_right x m
  have hpos : 0 < Nat.gcd x m := Nat.gcd_pos_of_pos_left m (by omega)
  generalize Nat.gcd x m = g at *
  have hgx' : g < x := lt_of_le_of_ne (Nat.le_of_dvd (by omega) hgx) fun heq => hx (heq ▸ hgm)
  have hgm' : g < m := lt_of_le_of_ne (Nat.le_of_dvd (by omega) hgm) fun heq => hm (heq ▸ hgx)
  have htwice : 2 * g ≤ m := by
    obtain ⟨q, rfl⟩ := hgm
    rcases q with - | - | q
    · omega
    · omega
    · rw [Nat.mul_comm]
      exact Nat.mul_le_mul_left g (by omega)
  have hearly : o < g := by
    by_contra hlate
    have hback : o - g + g = o := by omega
    have hpass := hgcd (o - g)
    rw [hback] at hpass
    have hbefore : PassesAt m x n o (o - g) := hpass ▸ hstart
    rw [passesAt_of_lt (by omega)] at hbefore
    have := hbefore.1
    omega
  have hlong : g < n := by
    have hnext : PassesAt m x n o (o + g) := (hgcd o).symm ▸ hstart
    rw [passesAt_of_lt (by omega)] at hnext
    have hpass := hnext.2
    rwa [Nat.add_sub_cancel_left, Nat.mod_eq_of_lt hgx'] at hpass
  -- the place of the count in the first period from the offset on
  have hplace : (o + (k + (g - o)) % g) % g = k % g := by
    rw [Nat.add_mod_mod]
    have hsum : o + (k + (g - o)) = k + g := by omega
    rw [hsum, Nat.add_mod_right]
  have hlt : (k + (g - o)) % g < g := Nat.mod_lt _ hpos
  rw [← periodic_of_mod hgcd hplace]
  generalize (k + (g - o)) % g = r at hlt
  rw [passesAt_of_lt (by omega), Passes, Nat.add_sub_cancel_left, Nat.mod_eq_of_lt (by omega)]
  omega

theorem fits_of_count (hnx : n ≤ x) (hcount : Nat.count (PassesAt m x n o) x = n) :
    Fits m x n o := by
  by_cases hm : m ∣ x
  · have hmx : m ≤ x := Nat.le_of_dvd (by omega) hm
    rw [count_runs hmx hm] at hcount
    by_cases hfit : o + n ≤ m
    · have hwhole : min (o + n) m - min o m = n := by omega
      rw [hwhole] at hcount
      have hone : x / m = 1 := Nat.eq_of_mul_eq_mul_right hn (by rw [hcount, Nat.one_mul])
      have hsame : x = m := by rw [← Nat.div_mul_cancel hm, hone, Nat.one_mul]
      exact Or.inr (Or.inr (Or.inl ⟨hsame ▸ dvd_refl x, hsame ▸ hfit⟩))
    · have hwhole : min (o + n) m - min o m = m - o := by omega
      exact Or.inr (Or.inr (Or.inr ⟨hm, by rw [← hwhole, hcount]⟩))
  · by_cases hx : x ∣ m
    · refine Or.inr (Or.inr (Or.inl ⟨hx, ?_⟩))
      rcases Nat.eq_zero_or_pos o with rfl | hpos
      · omega
      · have hmx : x < m := lt_of_le_of_ne (Nat.le_of_dvd (by omega) hx) fun heq => hm (heq ▸ dvd_refl m)
        have hfirst : ¬PassesAt m x n o (0 + x) := by
          rw [hperiodic 0, passesAt_of_lt (by omega)]
          exact fun hpass => absurd hpass.1 (by omega)
        by_contra hlong
        rw [Nat.zero_add, passesAt_of_lt hmx, Passes, Nat.mod_eq_of_lt (by omega)] at hfirst
        omega
    · have hall := all_pass_of_gcd hn hox hreached hperiodic hx hm
      have hzero : o = 0 := by
        have hpass := (passesAt_of_lt (by omega)).mp (hall 0)
        exact Nat.le_zero.mp hpass.1
      have htrue : Nat.count (PassesAt m x n o) x = Nat.count (fun _ => True) x :=
        count_congr_lt fun j _ => iff_of_true (hall j) trivial
      rw [htrue, Nat.count_true] at hcount
      exact Or.inr (Or.inl ⟨hzero, hcount.symm⟩)

end Converse

/-- Every window of the counts from `s` on holds `n` that pass, once one was not before the
offset. -/
theorem windows_iff_fits (hm : 0 < m) (hn : 0 < n) (hnx : n ≤ x) (hox : o < x) (s : ℕ) :
    (∀ k₀ k, o ≤ (s + k₀) % m → k₀ ≤ k →
        Nat.count (fun j => PassesAt m x n o (s + (k + j))) x = n) ↔ Fits m x n o := by
  constructor
  · intro hall
    by_cases hreached : o < m
    · have hfirst : (s + (o + (m - s % m))) % m = o := by
        have hdiv := Nat.div_add_mod s m
        have hlt := Nat.mod_lt s hm
        have hsum : s + (o + (m - s % m)) = o + m * (s / m + 1) := by
          rw [Nat.mul_add, Nat.mul_one]
          omega
        rw [hsum, Nat.add_mul_mod_self_left, Nat.mod_eq_of_lt hreached]
      generalize o + (m - s % m) = k₀ at hfirst
      have hwindow (k : ℕ) (hk : k₀ ≤ k) := hall k₀ k (by omega) hk
      -- two windows one apart differ by the packet that enters and the one that leaves
      have hsame (k : ℕ) (hk : k₀ ≤ k) :
          PassesAt m x n o (s + (k + x)) = PassesAt m x n o (s + k) := by
        have hstep := count_window_succ (fun i => PassesAt m x n o (s + i)) k x
        rw [hwindow k hk, hwindow (k + 1) (by omega)] at hstep
        have hone := Nat.add_left_cancel hstep
        by_cases hout : PassesAt m x n o (s + k) <;>
          by_cases hin : PassesAt m x n o (s + (k + x)) <;> simp_all
      have hperiodic : Periodic (PassesAt m x n o) x := by
        intro i
        have hmultiple := (passesAt_periodic m x n o).nsmul (s + k₀)
        have hlarge : s + k₀ ≤ (s + k₀) • m := Nat.le_mul_of_pos_right _ hm
        have hlate := hsame (i + (s + k₀) • m - s) (by omega)
        have hplace : s + (i + (s + k₀) • m - s) = i + (s + k₀) • m := by omega
        have hnext : s + (i + (s + k₀) • m - s + x) = i + x + (s + k₀) • m := by omega
        rwa [hplace, hnext, hmultiple, hmultiple] at hlate
      refine fits_of_count hn hox hreached hperiodic hnx ?_
      have hcount := hwindow k₀ (Nat.le_refl k₀)
      simp only [← Nat.add_assoc] at hcount
      rwa [count_window hperiodic] at hcount
    · exact Or.inl (not_lt.mp hreached)
  · intro hfits k₀ k hreached _
    have hlt := Nat.mod_lt (s + k₀) hm
    have hwindow := count_of_fits hm hnx hox hn hfits (by omega) (s + k)
    simpa only [Nat.add_assoc] using hwindow

end Counts

/-! ## Filters of a verified entry -/

/-- The parameters stand in an entry that was verified. -/
def Accepted (f : FilterParms) : Prop :=
  ∃ packetEntry tableIndex errorCount i,
    (tableVerifyFilterEntry packetEntry tableIndex errorCount).1 = true ∧ packetEntry.filter i = f

def FilterParms.passes (getMsgTime : Message → SysTime) (f : FilterParms) (message : Message) :
    Prop :=
  isPacketFiltered getMsgTime message (f.filterType.setWidth 16) f.algorithmN f.algorithmX
    f.algorithmO = false

instance (getMsgTime : Message → SysTime) (f : FilterParms) (message : Message) :
    Decidable (f.passes getMsgTime message) := inferInstanceAs (Decidable (_ = _))

/-- A filter by count that passes packets at all. -/
structure ByCount (f : FilterParms) : Prop where
  accepted : Accepted f
  some : f.algorithmN ≠ 0
  type : f.filterType.setWidth 16 = DS_BY_COUNT

theorem verifyFilters_faults {packetEntry : PacketEntry} {tableIndex errorCount : Int}
    {l : List (Fin DS_FILTERS_PER_PACKET)}
    (h : (verifyFilters packetEntry tableIndex errorCount l).1 = true) :
    ∀ i ∈ l, filterFault (packetEntry.filter i) = none := by
  induction l with
  | nil => exact nofun
  | cons first rest ih =>
    rw [verifyFilters] at h
    cases hfault : filterFault (packetEntry.filter first) with
    | none =>
      rw [hfault] at h
      exact List.forall_mem_cons.mpr ⟨hfault, ih h⟩
    | some fault =>
      rw [hfault] at h
      cases h

theorem used_of_algorithmN {f : FilterParms} (hsome : f.algorithmN ≠ 0) :
    tableEntryUnused f.octets = false := by
  rw [Bool.eq_false_iff]
  intro hunused
  simp only [tableEntryUnused, FilterParms.octets, List.all_cons, Bool.and_eq_true,
    beq_iff_eq] at hunused
  obtain ⟨-, -, hlow, hhigh, -⟩ := hunused
  refine hsome (BitVec.eq_of_toNat_eq ?_)
  have hlow := congrArg BitVec.toNat hlow
  have hhigh := congrArg BitVec.toNat hhigh
  simp only [BitVec.toNat_setWidth, BitVec.toNat_ushiftRight, Nat.shiftRight_eq_div_pow,
    DS_UNUSED] at hlow hhigh
  have hlt := f.algorithmN.isLt
  change f.algorithmN.toNat = 0
  change f.algorithmN.toNat % 2 ^ 8 = 0 at hlow
  change f.algorithmN.toNat / 2 ^ 8 % 2 ^ 8 = 0 at hhigh
  omega

theorem verifyParms_bounds {n x o : BitVec 16} (hn : n ≠ 0)
    (h : tableVerifyParms n x o = true) : n.toNat ≤ x.toNat ∧ o.toNat < x.toNat := by
  rw [tableVerifyParms, if_pos (Or.inl hn)] at h
  split at h
  · cases h
  · rename_i hnx
    split at h
    · cases h
    · rename_i hox
      exact ⟨Nat.not_lt.mp hnx, Nat.not_le.mp hox⟩

theorem ByCount.parms {f : FilterParms} (h : ByCount f) :
    0 < f.algorithmN.toNat ∧ f.algorithmN.toNat ≤ f.algorithmX.toNat ∧
      f.algorithmO.toNat < f.algorithmX.toNat := by
  obtain ⟨packetEntry, tableIndex, errorCount, i, hverify, rfl⟩ := h.accepted
  have hfault := verifyFilters_faults hverify i (List.mem_finRange i)
  have hsome := h.some
  have hverified : tableVerifyParms (packetEntry.filter i).algorithmN
      (packetEntry.filter i).algorithmX (packetEntry.filter i).algorithmO = true := by
    by_contra hbad
    rw [Bool.not_eq_true] at hbad
    rw [filterFault, if_pos (used_of_algorithmN hsome), hbad] at hfault
    split at hfault
    · cases hfault
    · split at hfault <;> cases hfault
  exact ⟨Nat.pos_of_ne_zero fun hzero => hsome (BitVec.eq_of_toNat_eq hzero),
    verifyParms_bounds hsome hverified⟩

/-- The filter is `Passes` on the sequence count. -/
theorem ByCount.passes_iff {f : FilterParms} (h : ByCount f) (getMsgTime : Message → SysTime)
    (message : Message) :
    f.passes getMsgTime message ↔ Passes f.algorithmX.toNat f.algorithmN.toNat
      f.algorithmO.toNat (getSequenceCount message).toNat := by
  obtain ⟨hn, hnx, hox⟩ := h.parms
  have hx : f.algorithmX ≠ 0 := by
    intro hzero
    rw [hzero] at hox
    exact absurd hox (Nat.not_lt_zero _)
  have hlong : ¬f.algorithmN > f.algorithmX := Nat.not_lt.mpr hnx
  have hlate : ¬f.algorithmO ≥ f.algorithmX := Nat.not_le.mpr hox
  have htype : f.filterType.setWidth 16 = DS_PKT_SEQUENCE_BASED_FILTER_TYPE := h.type
  rw [FilterParms.passes, isPacketFiltered, if_neg hx, if_neg h.some, if_neg hlong, if_neg hlate,
    if_neg (fun hother => hother.2 htype), htype]
  simp only [if_true, Passes]
  by_cases hbefore : getSequenceCount message < f.algorithmO
  · rw [if_pos hbefore]
    exact iff_of_false (by decide) fun hpass => absurd hpass.1 (Nat.not_le.mpr hbefore)
  · rw [if_neg hbefore]
    have hoffset : f.algorithmO.toNat ≤ (getSequenceCount message).toNat := Nat.not_lt.mp hbefore
    split
    · rename_i hpass
      exact iff_of_true rfl ⟨hoffset, hpass⟩
    · rename_i hpass
      exact iff_of_false (by decide) fun hall => hpass hall.2

/-! ## Streams of packets -/

def SEQUENCE_COUNTS : ℕ := 2 ^ 14

/-- The packets of one message identifier, whose counts go up by one. -/
def Counting (stream : ℕ → Message) : Prop :=
  ∀ k, (getSequenceCount (stream (k + 1))).toNat =
    ((getSequenceCount (stream k)).toNat + 1) % SEQUENCE_COUNTS

theorem toNat_getSequenceCount (message : Message) :
    (getSequenceCount message).toNat = (word message SEQUENCE).toNat % SEQUENCE_COUNTS := by
  have hmask : Msg.MSG_SEQCNT_MASK.toNat = 2 ^ 14 - 1 := by decide
  rw [getSequenceCount, Msg.getHeaderField, BitVec.toNat_and, hmask, Nat.and_two_pow_sub_one_eq_mod]
  rfl

theorem Counting.count {stream : ℕ → Message} (h : Counting stream) (k : ℕ) :
    (getSequenceCount (stream k)).toNat =
      ((getSequenceCount (stream 0)).toNat + k) % SEQUENCE_COUNTS := by
  induction k with
  | zero =>
    rw [toNat_getSequenceCount, Nat.add_zero, Nat.mod_mod]
  | succ k ih => rw [h k, ih, Nat.mod_add_mod, Nat.add_assoc]

theorem Counting.passes_iff {f : FilterParms} {stream : ℕ → Message} (h : Counting stream)
    (hf : ByCount f) (getMsgTime : Message → SysTime) (k : ℕ) :
    f.passes getMsgTime (stream k) ↔ PassesAt SEQUENCE_COUNTS f.algorithmX.toNat
      f.algorithmN.toNat f.algorithmO.toNat ((getSequenceCount (stream 0)).toNat + k) := by
  rw [hf.passes_iff, PassesAt, h.count]

/-- The counts of a window that does not wrap. -/
theorem Counting.unwrapped {stream : ℕ → Message} (h : Counting stream) {k j : ℕ}
    (hj : (getSequenceCount (stream k)).toNat + j < SEQUENCE_COUNTS) :
    (getSequenceCount (stream (k + j))).toNat = (getSequenceCount (stream k)).toNat + j := by
  rw [h.count (k + j), ← Nat.add_assoc, ← Nat.mod_add_mod, ← h.count k, Nat.mod_eq_of_lt hj]

/-! ## The guarantee -/

/-- The packets that pass in the window of a group's length from the packet `k` on. -/
def inWindow (getMsgTime : Message → SysTime) (f : FilterParms) (stream : ℕ → Message) (k : ℕ) :
    ℕ :=
  Nat.count (fun j => f.passes getMsgTime (stream (k + j))) f.algorithmX.toNat

/-- Each window from the first count on that is not before the offset. -/
def PassesEveryWindow (getMsgTime : Message → SysTime) (f : FilterParms)
    (stream : ℕ → Message) : Prop :=
  ∀ k₀ k, f.algorithmO.toNat ≤ (getSequenceCount (stream k₀)).toNat → k₀ ≤ k →
    inWindow getMsgTime f stream k = f.algorithmN.toNat

/-- What a filter by count does. -/
structure PassesNOfX (getMsgTime : Message → SysTime) (f : FilterParms)
    (stream : ℕ → Message) : Prop where
  unwrapped : ∀ k, f.algorithmO.toNat ≤ (getSequenceCount (stream k)).toNat →
    (getSequenceCount (stream k)).toNat + f.algorithmX.toNat ≤ SEQUENCE_COUNTS →
      inWindow getMsgTime f stream k = f.algorithmN.toNat
  first : f.algorithmO = 0 → ∀ k, f.algorithmX.toNat ∣ (getSequenceCount (stream k)).toNat →
    ∀ j < f.algorithmX.toNat, (getSequenceCount (stream k)).toNat + j < SEQUENCE_COUNTS →
      (f.passes getMsgTime (stream (k + j)) ↔ j < f.algorithmN.toNat)
  every_iff : PassesEveryWindow getMsgTime f stream ↔ Fits SEQUENCE_COUNTS f.algorithmX.toNat
    f.algorithmN.toNat f.algorithmO.toNat

theorem sequenceFilter_passes (getMsgTime : Message → SysTime) {f : FilterParms} (hf : ByCount f)
    {stream : ℕ → Message} (hstream : Counting stream) : PassesNOfX getMsgTime f stream := by
  obtain ⟨hn, hnx, hox⟩ := hf.parms
  refine ⟨fun k hoffset hwrap => ?_, fun hzero k hgroup j hj hwrap => ?_, ?_⟩
  · refine Eq.trans (count_congr_lt fun j hj => ?_) (count_passes hnx hoffset)
    rw [hf.passes_iff, hstream.unwrapped (by omega)]
  · have hstart : f.algorithmO.toNat = 0 := by
      rw [hzero]
      rfl
    obtain ⟨q, hq⟩ := hgroup
    rw [hf.passes_iff, hstream.unwrapped hwrap, Passes, hstart, Nat.sub_zero, hq, Nat.mul_add_mod,
      Nat.mod_eq_of_lt hj]
    exact and_iff_right (Nat.zero_le _)
  · rw [← windows_iff_fits (by decide) hn hnx hox (getSequenceCount (stream 0)).toNat]
    refine forall_congr' fun k₀ => forall_congr' fun k => ?_
    rw [hstream.count k₀]
    have hcount : inWindow getMsgTime f stream k = Nat.count (fun j =>
        PassesAt SEQUENCE_COUNTS f.algorithmX.toNat f.algorithmN.toNat f.algorithmO.toNat
          ((getSequenceCount (stream 0)).toNat + (k + j))) f.algorithmX.toNat :=
      count_congr_lt fun j _ => hstream.passes_iff hf getMsgTime (k + j)
    rw [hcount]

/-- The first one of every three packets. -/
def oneOfThree : FilterParms := ⟨0, 1, 1, 3, 0⟩

theorem oneOfThree_byCount : ByCount oneOfThree :=
  ⟨⟨⟨0, fun _ => oneOfThree⟩, 0, 0, ⟨0, by decide⟩, by decide, rfl⟩, by decide, by decide⟩

/-- Packets with the counts 0, 1 and so on. -/
def countedPackets (k : ℕ) : Message := fun i =>
  if i = SEQUENCE then BitVec.ofNat 8 (k % SEQUENCE_COUNTS / 256)
  else if i = SEQUENCE + 1 then BitVec.ofNat 8 (k % 256) else 0

theorem countedPackets_count (k : ℕ) :
    (getSequenceCount (countedPackets k)).toNat = k % SEQUENCE_COUNTS := by
  have hhigh : (countedPackets k SEQUENCE).toNat = k % SEQUENCE_COUNTS / 256 := by
    simp only [countedPackets, if_true, BitVec.toNat_ofNat, SEQUENCE_COUNTS]
    omega
  have hlow : (countedPackets k (SEQUENCE + 1)).toNat = k % 256 := by
    have hother : SEQUENCE + 1 ≠ SEQUENCE := by decide
    simp only [countedPackets, hother, if_false, if_true, BitVec.toNat_ofNat]
    omega
  rw [toNat_getSequenceCount, Msg.toNat_word, hhigh, hlow, Nat.shiftLeft_eq, SEQUENCE_COUNTS]
  omega

theorem countedPackets_counting : Counting countedPackets := by
  intro k
  rw [countedPackets_count, countedPackets_count, Nat.mod_add_mod]

/-- Two of three packets pass where the counts wrap. -/
theorem sequenceFilter_wrap_not : ByCount oneOfThree ∧ Counting countedPackets ∧
    ¬PassesEveryWindow (fun _ => ⟨0, 0⟩) oneOfThree countedPackets := by
  refine ⟨oneOfThree_byCount, countedPackets_counting, fun hall => ?_⟩
  have hwindow := hall 0 16383 (Nat.zero_le _) (Nat.zero_le _)
  exact absurd hwindow (by decide)

theorem sequenceFilter_passes_oneOfThree :
    PassesNOfX (fun _ => ⟨0, 0⟩) oneOfThree countedPackets :=
  sequenceFilter_passes _ oneOfThree_byCount countedPackets_counting

end Nos3.Ds
