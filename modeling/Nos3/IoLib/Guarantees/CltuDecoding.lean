import Nos3.IoLib.Source.TcSync

/-!
# What a CLTU is decoded to

A CLTU is the start sequence, code blocks of eight octets and the tail sequence. The
loop takes in one block a round; the state in front of block `i` has the data of the
blocks before it. Sixteen bits hold the offsets of 8191 blocks: the loop goes wrong
where there are more, and where there is no room for the start sequence.
-/
namespace Nos3.IoLib
open Base.BigEndian (Octet)
open Base.FileImage (window window_full)
open Base.FixedArray
open Base.Rounds

/-! ## CLTUs -/

/-- Code block `i` is the tail sequence. -/
def TailAt (cltu : List Octet) (i : Nat) : Prop :=
  window cltu (tcSyncStartSeqSize + tcSyncCodeBlockSize * i) tcSyncCodeBlockSize = tailSeq

instance (cltu : List Octet) (i : Nat) : Decidable (TailAt cltu i) :=
  inferInstanceAs (Decidable (_ = _))

/-- The start sequence, `k` whole code blocks, and the first tail sequence. -/
structure IsCltu (cltu : List Octet) (k : Nat) : Prop where
  start : cltu.take tcSyncStartSeqSize = startSeq
  tail : TailAt cltu k
  first : ∀ i < k, ¬ TailAt cltu i

/-- The first seven octets of each of the first `k` blocks. -/
def blockData (cltu : List Octet) : Nat → List Octet
  | 0 => []
  | k + 1 => blockData cltu k ++
      window cltu (tcSyncStartSeqSize + tcSyncCodeBlockSize * k) tcSyncCodeBlockDataSize

/-- The transfer frame that `k` blocks carry. -/
def transferFrame (cltu : List Octet) (k : Nat) (derandomize : Bool) : List Octet :=
  if derandomize then deRandomizeFrame (blockData cltu k) else blockData cltu k

/-- Success for CLTUs whose frame fits, and then the frame at the front of the buffer. -/
structure FrameRight (cltu tfBuff : List Octet) (derandomize : Bool) (result : Int × List Octet) :
    Prop where
  succeeds : 0 ≤ result.1 ↔
    ∃ k, IsCltu cltu k ∧ tcSyncCodeBlockDataSize * k ≤ tfBuff.length
  frame : ∀ k, IsCltu cltu k → tcSyncCodeBlockDataSize * k ≤ tfBuff.length →
    result = (((tcSyncCodeBlockDataSize * k : Nat) : Int), transferFrame cltu k derandomize ++
      tfBuff.drop (tcSyncCodeBlockDataSize * k))

theorem tailAt_inside {cltu : List Octet} {i : Nat} (h : TailAt cltu i) :
    10 + 8 * i ≤ cltu.length := by
  have hlen := congrArg List.length h
  have htail : tailSeq.length = 8 := rfl
  rw [Base.FileImage.window_length, htail] at hlen
  unfold tcSyncStartSeqSize tcSyncCodeBlockSize at hlen
  omega

theorem tailAt_iff {cltu : List Octet} {i : Nat} :
    TailAt cltu i ↔ tailSeq <+: cltu.drop (2 + 8 * i) := by
  rw [List.prefix_iff_eq_take, TailAt, window, eq_comm]
  rfl

theorem blockData_length {cltu : List Octet} {k : Nat} (h : 2 + 8 * k ≤ cltu.length) :
    (blockData cltu k).length = 7 * k := by
  induction k with
  | zero => rfl
  | succ k ih =>
    unfold blockData tcSyncStartSeqSize tcSyncCodeBlockSize tcSyncCodeBlockDataSize
    rw [List.length_append, ih (by omega), window_full (by omega)]
    omega

/-! ## The comparison with the tail sequence -/

theorem matchTail_cons {cltu : List Octet} (expected : Octet) {octet : Octet} (tail : List Octet)
    {rest : List Octet} {cursor : Nat} (h : cltu.drop cursor = octet :: rest) :
    matchTail cltu (expected :: tail) cursor =
        (if octet = expected then matchTail cltu tail (cursor + 1) else some false) ∧
      cltu.drop (cursor + 1) = rest := by
  have hat : cltu[cursor]? = some octet := by
    rw [← List.head?_drop, h]
    rfl
  have hrest : cltu.drop (cursor + 1) = rest := by
    rw [← List.drop_drop, h]
    rfl
  refine ⟨?_, hrest⟩
  rw [matchTail, hat]
  by_cases hsame : octet = expected <;> simp [hsame]

theorem matchTail_nil_rest {cltu : List Octet} {expected : Octet} {tail : List Octet}
    {cursor : Nat} (h : cltu.drop cursor = []) : matchTail cltu (expected :: tail) cursor = none := by
  have hat : cltu[cursor]? = none := by
    rw [← List.head?_drop, h]
    rfl
  rw [matchTail, hat]
  rfl

theorem matchTail_true {cltu : List Octet} (tail : List Octet) (cursor : Nat) :
    matchTail cltu tail cursor = some true ↔ tail <+: cltu.drop cursor := by
  induction tail generalizing cursor with
  | nil => simp [matchTail]
  | cons expected tail ih =>
    cases h : cltu.drop cursor with
    | nil => simp [matchTail_nil_rest h]
    | cons octet rest =>
      obtain ⟨hmatch, hrest⟩ := matchTail_cons expected tail h
      rw [hmatch, List.cons_prefix_cons, ← hrest, ← ih]
      by_cases hsame : octet = expected
      · simp [hsame]
      · simp [hsame, Ne.symm hsame]

/-- The comparison runs out of the CLTU where the rest of it is a part of the tail
sequence. -/
theorem matchTail_none {cltu : List Octet} (tail : List Octet) (cursor : Nat) :
    matchTail cltu tail cursor = none ↔
      cltu.drop cursor <+: tail ∧ (cltu.drop cursor).length < tail.length := by
  induction tail generalizing cursor with
  | nil => simp [matchTail]
  | cons expected tail ih =>
    cases h : cltu.drop cursor with
    | nil => simp [matchTail_nil_rest h]
    | cons octet rest =>
      obtain ⟨hmatch, hrest⟩ := matchTail_cons expected tail h
      rw [hmatch, List.cons_prefix_cons, List.length_cons, List.length_cons,
        Nat.add_lt_add_iff_right, and_assoc, ← hrest, ← ih]
      by_cases hsame : octet = expected <;> simp [hsame]

/-! ## One round -/

section Rounds
variable {cltu tfBuff : List Octet} {i : Nat}

/-- The variables in front of block `i`. -/
def inFront (cltu tfBuff : List Octet) (i : Nat) (iStatus : Int) : Decoding where
  tfBuff := blockData cltu i ++ tfBuff.drop (7 * i)
  tfOffset := 7 * i
  cltuOffset := 2 + 8 * i
  iStatus := iStatus

theorem inFront_length (hin : 2 + 8 * i ≤ cltu.length) (hroom : 7 * i ≤ tfBuff.length)
    (iStatus : Int) : (inFront cltu tfBuff i iStatus).tfBuff.length = tfBuff.length := by
  unfold inFront
  dsimp only
  rw [List.length_append, List.length_drop, blockData_length hin]
  omega

/-- Block `i` would go beyond the CLTU. -/
theorem round_short (hi : i < 8191) (hshort : cltu.length < 10 + 8 * i) (iStatus : Int) :
    codeBlockRound cltu (inFront cltu tfBuff i iStatus) =
      some (inFront cltu tfBuff i tcSyncInvalidCltu, false) := by
  have hread : (2 + 8 * i + 8) % 2 ^ 16 = 10 + 8 * i := by omega
  have hget : getCodeBlockData cltu (inFront cltu tfBuff i iStatus) =
      some (inFront cltu tfBuff i tcSyncInvalidCltu) := by
    unfold getCodeBlockData inFront tcSyncCodeBlockSize
    dsimp only
    rw [hread, if_pos hshort]
  rw [codeBlockRound, hget]
  rfl

/-- Block `i` is the tail sequence. -/
theorem round_tail (hi : i < 8191) (htail : TailAt cltu i) (iStatus : Int) :
    codeBlockRound cltu (inFront cltu tfBuff i iStatus) =
      some (inFront cltu tfBuff i (7 * i : Nat), false) := by
  have hinside := tailAt_inside htail
  have hread : (2 + 8 * i + 8) % 2 ^ 16 = 10 + 8 * i := by omega
  have hget : getCodeBlockData cltu (inFront cltu tfBuff i iStatus) =
      some (inFront cltu tfBuff i tcSyncFoundTailSeq) := by
    unfold getCodeBlockData inFront tcSyncCodeBlockSize
    dsimp only
    rw [hread, if_neg (by omega), (matchTail_true _ _).mpr (tailAt_iff.mp htail)]
  rw [codeBlockRound, hget]
  rfl

theorem matchTail_other (htail : ¬ TailAt cltu i) (hinside : 10 + 8 * i ≤ cltu.length) :
    matchTail cltu tailSeq (2 + 8 * i) = some false := by
  cases hmatch : matchTail cltu tailSeq (2 + 8 * i) with
  | none =>
    have hlen := ((matchTail_none _ _).mp hmatch).2
    have hseq : tailSeq.length = 8 := rfl
    rw [List.length_drop, hseq] at hlen
    omega
  | some found =>
    cases found with
    | false => rfl
    | true => exact absurd (tailAt_iff.mpr ((matchTail_true _ _).mp hmatch)) htail

/-- Block `i` has no place in the buffer. -/
theorem round_full (hi : i < 8191) (hinside : 10 + 8 * i ≤ cltu.length) (htail : ¬ TailAt cltu i)
    (hroom : 7 * i ≤ tfBuff.length) (hfull : tfBuff.length < 7 * (i + 1)) (iStatus : Int) :
    codeBlockRound cltu (inFront cltu tfBuff i iStatus) =
      some (inFront cltu tfBuff i tcSyncInvalidLength, false) := by
  have hread : (2 + 8 * i + 8) % 2 ^ 16 = 10 + 8 * i := by omega
  have hcopied : (7 * i + 7) % 2 ^ 16 = 7 * (i + 1) := by omega
  have hsize := inFront_length (show 2 + 8 * i ≤ cltu.length by omega) hroom iStatus
  have hget : getCodeBlockData cltu (inFront cltu tfBuff i iStatus) =
      some (inFront cltu tfBuff i tcSyncInvalidLength) := by
    unfold getCodeBlockData tcSyncCodeBlockSize tcSyncCodeBlockDataSize
    rw [hsize]
    unfold inFront
    dsimp only
    rw [hread, hcopied, if_neg (by omega), matchTail_other htail hinside, if_pos hfull]
  rw [codeBlockRound, hget]
  rfl

/-- Block `i` is taken in. -/
theorem round_block (hi : i < 8191) (hinside : 10 + 8 * i ≤ cltu.length) (htail : ¬ TailAt cltu i)
    (hroom : 7 * (i + 1) ≤ tfBuff.length) (iStatus : Int) :
    codeBlockRound cltu (inFront cltu tfBuff i iStatus) =
      some (inFront cltu tfBuff (i + 1) tcSyncSuccess, true) := by
  have hread : (2 + 8 * i + 8) % 2 ^ 16 = 2 + 8 * (i + 1) := by omega
  have hcopied : (7 * i + 7) % 2 ^ 16 = 7 * (i + 1) := by omega
  have hsize := inFront_length (show 2 + 8 * i ≤ cltu.length by omega)
    (show 7 * i ≤ tfBuff.length by omega) iStatus
  have hlen := blockData_length (show 2 + 8 * i ≤ cltu.length by omega)
  have hblock : (window cltu (2 + 8 * i) 7).length = 7 := window_full (by omega)
  have hpatch : patch (blockData cltu i ++ tfBuff.drop (7 * i)) (7 * i)
      (window cltu (2 + 8 * i) 7) = blockData cltu (i + 1) ++ tfBuff.drop (7 * (i + 1)) := by
    have happend := patch_append (blockData cltu i) (tfBuff.drop (7 * i))
      (window cltu (2 + 8 * i) 7)
    rw [hlen, hblock, List.drop_drop] at happend
    exact happend
  have hget : getCodeBlockData cltu (inFront cltu tfBuff i iStatus) =
      some (inFront cltu tfBuff (i + 1) tcSyncSuccess) := by
    unfold getCodeBlockData tcSyncCodeBlockSize tcSyncCodeBlockDataSize
    rw [hsize]
    unfold inFront
    dsimp only
    rw [hread, hcopied, if_neg (by omega), matchTail_other htail hinside, if_neg (by omega),
      readAt_eq_some (by omega)]
    dsimp only
    rw [hblock, if_neg (by omega), hpatch]
  rw [codeBlockRound, hget]
  rfl

theorem matchTail_last (hcltu : cltu.length < 2 ^ 16) :
    matchTail cltu tailSeq 65530 = if cltu.drop 65530 <+: tailSeq then none else some false := by
  have hseq : tailSeq.length = 8 := rfl
  have hdrop : (cltu.drop 65530).length < tailSeq.length := by
    rw [List.length_drop, hseq]
    omega
  split
  · exact (matchTail_none _ _).mpr ⟨‹_›, hdrop⟩
  · cases hmatch : matchTail cltu tailSeq 65530 with
    | none => exact absurd ((matchTail_none _ _).mp hmatch).1 ‹_›
    | some found =>
      cases found with
      | false => rfl
      | true =>
        have hle := ((matchTail_true _ _).mp hmatch).length_le
        omega

/-- Behind 8191 blocks the next one's end is not seen to lie beyond the CLTU. -/
theorem round_last (hinside : 65530 ≤ cltu.length) (hcltu : cltu.length < 2 ^ 16)
    (hroom : 57337 ≤ tfBuff.length) (iStatus : Int) :
    codeBlockRound cltu (inFront cltu tfBuff 8191 iStatus) =
      if tfBuff.length < 57344 ∧ ¬ cltu.drop 65530 <+: tailSeq then
        some (inFront cltu tfBuff 8191 tcSyncInvalidLength, false)
      else none := by
  have hread : (2 + 8 * 8191 + 8) % 2 ^ 16 = 2 := rfl
  have hcopied : (7 * 8191 + 7) % 2 ^ 16 = 57344 := rfl
  have hcursor : 2 + 8 * 8191 = 65530 := rfl
  have hsize := inFront_length (show 2 + 8 * 8191 ≤ cltu.length by omega)
    (show 7 * 8191 ≤ tfBuff.length by omega)
    iStatus
  have hget : getCodeBlockData cltu (inFront cltu tfBuff 8191 iStatus) =
      if tfBuff.length < 57344 ∧ ¬ cltu.drop 65530 <+: tailSeq then
        some (inFront cltu tfBuff 8191 tcSyncInvalidLength)
      else none := by
    unfold getCodeBlockData tcSyncCodeBlockSize tcSyncCodeBlockDataSize
    rw [hsize]
    unfold inFront
    dsimp only
    rw [hread, hcopied, hcursor, if_neg (by omega), matchTail_last hcltu]
    by_cases hrest : cltu.drop 65530 <+: tailSeq
    · simp only [hrest, if_true, not_true_eq_false, and_false, if_false]
    · simp only [hrest, if_false, not_false_eq_true, and_true]
      by_cases hfull : tfBuff.length < 57344
      · rw [if_pos hfull, if_pos hfull]
      · rw [if_neg hfull, if_neg hfull, readAt, if_neg (by omega)]
  rw [codeBlockRound, hget]
  by_cases hstop : tfBuff.length < 57344 ∧ ¬ cltu.drop 65530 <+: tailSeq
  · rw [if_pos hstop, if_pos hstop]
    rfl
  · rw [if_neg hstop, if_neg hstop]

end Rounds

/-! ## Whole CLTUs -/

section Runs
variable {cltu tfBuff : List Octet} {derandomize : Bool}

theorem IsCltu.unique {k l : Nat} (h : IsCltu cltu k) (h' : IsCltu cltu l) : k = l := by
  rcases Nat.lt_trichotomy k l with hlt | rfl | hlt
  · exact absurd h.tail (h'.first k hlt)
  · rfl
  · exact absurd h'.tail (h.first l hlt)

/-- An error is right where no frame fits. -/
theorem frameRight_failed {result : Int × List Octet} (hstatus : result.1 < 0)
    (hnone : ∀ k, IsCltu cltu k → tfBuff.length < 7 * k) :
    FrameRight cltu tfBuff derandomize result := by
  have hno : ∀ k, IsCltu cltu k → ¬ tcSyncCodeBlockDataSize * k ≤ tfBuff.length := by
    intro k hk hfits
    have := hnone k hk
    unfold tcSyncCodeBlockDataSize at hfits
    omega
  refine ⟨iff_of_false (by omega) ?_, fun k hk hfits => absurd hfits (hno k hk)⟩
  rintro ⟨k, hk, hfits⟩
  exact hno k hk hfits

theorem finishFrame_eq {k : Nat} (hin : 2 + 8 * k ≤ cltu.length) :
    finishFrame derandomize (inFront cltu tfBuff k ((7 * k : Nat) : Int)) =
      (((7 * k : Nat) : Int), transferFrame cltu k derandomize ++ tfBuff.drop (7 * k)) := by
  have hlen := blockData_length hin
  have htake : (blockData cltu k ++ tfBuff.drop (7 * k)).take (7 * k) = blockData cltu k :=
    List.take_left' hlen
  have hrandom : (deRandomizeFrame (blockData cltu k)).length = 7 * k := by
    simpa [deRandomizeFrame] using hlen
  unfold finishFrame transferFrame inFront
  dsimp only
  by_cases hpatch : 0 < ((7 * k : Nat) : Int) ∧ derandomize = true
  · rw [if_pos hpatch, if_pos hpatch.2, htake, patch, hrandom, Nat.zero_add, List.drop_left' hlen]
    rfl
  · rw [if_neg hpatch]
    cases derandomize with
    | false => rfl
    | true =>
      obtain rfl : k = 0 := by
        by_contra hk
        exact hpatch ⟨by omega, rfl⟩
      rfl

theorem frameRight_found {k : Nat} (h : IsCltu cltu k) (hroom : 7 * k ≤ tfBuff.length) :
    FrameRight cltu tfBuff derandomize
      (finishFrame derandomize (inFront cltu tfBuff k ((7 * k : Nat) : Int))) := by
  have hinside := tailAt_inside h.tail
  rw [finishFrame_eq (by omega)]
  refine ⟨iff_of_true (Int.natCast_nonneg _) ⟨k, h, hroom⟩, fun l hl hfits => ?_⟩
  rw [h.unique hl]
  rfl

/-- The loop goes beyond the CLTU: its offset wraps behind 8191 blocks. -/
structure PastEnd (cltu : List Octet) (tfBuffSize : Nat) : Prop where
  long : 65530 ≤ cltu.length
  blocks : ∀ i < 8191, ¬ TailAt cltu i
  room : 57337 ≤ tfBuffSize
  beyond : 57344 ≤ tfBuffSize ∨ cltu.drop 65530 <+: tailSeq

theorem finishFrame_failed {d : Decoding} (h : d.iStatus < 0) :
    (finishFrame derandomize d).1 < 0 := by
  rw [finishFrame, if_neg (by omega)]
  exact h

/-- From block `i` on the loop ends with the right result unless it goes beyond the
CLTU. -/
theorem loop_right_iff (hcltu : cltu.length < 2 ^ 16)
    (hstart : cltu.take tcSyncStartSeqSize = startSeq) {i : Nat} (hi : i ≤ 8191)
    (hin : 2 + 8 * i ≤ cltu.length) (hroom : 7 * i ≤ tfBuff.length)
    (hbefore : ∀ j < i, ¬ TailAt cltu j) (iStatus : Int) :
    (∃ fuel final, loop (codeBlockRound cltu) fuel (inFront cltu tfBuff i iStatus) = some final ∧
      FrameRight cltu tfBuff derandomize (finishFrame derandomize final)) ↔
      ¬ PastEnd cltu tfBuff.length := by
  have hlater : ∀ k, IsCltu cltu k → i ≤ k := by
    intro k hk
    by_contra hlt
    exact hbefore k (by omega) hk.tail
  induction hn : 8191 - i generalizing i iStatus with
  | zero =>
    obtain rfl : i = 8191 := by omega
    have hlast := round_last (show 65530 ≤ cltu.length by omega) hcltu hroom iStatus
    by_cases hstop : tfBuff.length < 57344 ∧ ¬ cltu.drop 65530 <+: tailSeq
    · rw [if_pos hstop] at hlast
      rw [loop_exists_last_iff hlast]
      refine iff_of_true (frameRight_failed
        (finishFrame_failed (show tcSyncInvalidLength < 0 by decide)) fun k hk => ?_) ?_
      · have hinside := tailAt_inside hk.tail
        have := hlater k hk
        omega
      · intro hpast
        exact hpast.beyond.elim (by omega) hstop.2
    · rw [if_neg hstop] at hlast
      refine iff_of_false ?_ (not_not.mpr ⟨by omega, hbefore, hroom, ?_⟩)
      · rintro ⟨fuel, final, hloop, -⟩
        rw [loop_of_failed hlast] at hloop
        cases hloop
      · by_contra hneither
        rw [not_or] at hneither
        exact hstop ⟨by omega, hneither.2⟩
  | succ n ih =>
    have hlt : i < 8191 := by omega
    by_cases hshort : cltu.length < 10 + 8 * i
    · rw [loop_exists_last_iff (round_short hlt hshort iStatus)]
      refine iff_of_true (frameRight_failed
        (finishFrame_failed (show tcSyncInvalidCltu < 0 by decide)) fun k hk => ?_) ?_
      · have hinside := tailAt_inside hk.tail
        have := hlater k hk
        omega
      · intro hpast
        have := hpast.long
        omega
    by_cases htail : TailAt cltu i
    · rw [loop_exists_last_iff (round_tail hlt htail iStatus)]
      exact iff_of_true (frameRight_found ⟨hstart, htail, hbefore⟩ hroom)
        fun hpast => hpast.blocks i hlt htail
    have hnext : ∀ k, IsCltu cltu k → i + 1 ≤ k := by
      intro k hk
      have hle := hlater k hk
      have hne : k ≠ i := fun hsame => htail (hsame ▸ hk.tail)
      omega
    by_cases hfull : tfBuff.length < 7 * (i + 1)
    · rw [loop_exists_last_iff (round_full hlt (by omega) htail hroom hfull iStatus)]
      refine iff_of_true (frameRight_failed
        (finishFrame_failed (show tcSyncInvalidLength < 0 by decide)) fun k hk => ?_) ?_
      · have := hnext k hk
        omega
      · intro hpast
        have := hpast.room
        omega
    · rw [loop_exists_iff (round_block hlt (by omega) htail (by omega) iStatus)]
      refine ih (by omega) (by omega) (by omega) (fun j hj => ?_) _ hnext (by omega)
      rcases Nat.lt_succ_iff_lt_or_eq.mp hj with hj | rfl
      · exact hbefore j hj
      · exact htail

/-- The octets the start sequence is looked for in lie inside of the CLTU. -/
structure StartReadable (cltu : List Octet) : Prop where
  first : 0 < cltu.length
  second : cltu.head? = startSeq.head? → 2 ≤ cltu.length

instance (cltu : List Octet) : Decidable (StartReadable cltu) :=
  decidable_of_iff (0 < cltu.length ∧ (cltu.head? = startSeq.head? → 2 ≤ cltu.length))
    ⟨fun h => ⟨h.1, h.2⟩, fun h => ⟨h.1, h.2⟩⟩

theorem checkStartSeq_cases (cltu : List Octet) :
    (checkStartSeq cltu = none ∧ ¬ StartReadable cltu) ∨
      (checkStartSeq cltu = some (tcSyncInvalidCltu, 0) ∧ StartReadable cltu ∧
        cltu.take tcSyncStartSeqSize ≠ startSeq) ∨
      (checkStartSeq cltu = some (tcSyncSuccess, tcSyncStartSeqSize) ∧ StartReadable cltu ∧
        cltu.take tcSyncStartSeqSize = startSeq ∧ 2 ≤ cltu.length) := by
  match cltu with
  | [] => exact .inl ⟨rfl, fun h => absurd h.first (by simp)⟩
  | [first] =>
    by_cases hfirst : first = 0xEB#8
    · subst hfirst
      exact .inl ⟨rfl, fun h => absurd (h.second rfl) (by simp)⟩
    · refine .inr (.inl ⟨?_, ⟨by simp, fun h => absurd (Option.some.inj h) hfirst⟩, ?_⟩)
      · simp [checkStartSeq, startSeq, hfirst]
      · simp [tcSyncStartSeqSize, startSeq]
  | first :: second :: rest =>
    have hreadable : StartReadable (first :: second :: rest) := ⟨by simp, by simp⟩
    by_cases hfirst : first = 0xEB#8
    · by_cases hsecond : second = 0x90#8
      · subst hfirst hsecond
        exact .inr (.inr ⟨rfl, hreadable, rfl, by simp⟩)
      · refine .inr (.inl ⟨?_, hreadable, ?_⟩)
        · simp [checkStartSeq, startSeq, hfirst, hsecond]
        · simp [tcSyncStartSeqSize, startSeq, hsecond]
    · refine .inr (.inl ⟨?_, hreadable, ?_⟩)
      · simp [checkStartSeq, startSeq, hfirst]
      · simp [tcSyncStartSeqSize, startSeq, hfirst]

/-- The decoder ends, keeps to the two buffers and gives the right result exactly if it
can look for the start sequence and does not go beyond the CLTU. -/
theorem cltu_decoding_iff (hcltu : cltu.length < 2 ^ 16) :
    (∃ fuel result, getTransferFrame fuel cltu tfBuff derandomize = some result ∧
      FrameRight cltu tfBuff derandomize result) ↔
      StartReadable cltu ∧
        ¬ (cltu.take tcSyncStartSeqSize = startSeq ∧ PastEnd cltu tfBuff.length) := by
  obtain ⟨hcheck, hunreadable⟩ | ⟨hcheck, hreadable, hother⟩ | ⟨hcheck, hreadable, hstart, htwo⟩ :=
    checkStartSeq_cases cltu
  · simp [getTransferFrame, hcheck, hunreadable]
  · have hfailed : FrameRight cltu tfBuff derandomize (tcSyncInvalidCltu, tfBuff) :=
      frameRight_failed (show tcSyncInvalidCltu < 0 by decide) fun k hk => absurd hk.start hother
    refine iff_of_true ⟨0, (tcSyncInvalidCltu, tfBuff), ?_, hfailed⟩
      ⟨hreadable, fun hpast => hother hpast.1⟩
    rw [getTransferFrame, hcheck]
    rfl
  · have hloop := @loop_right_iff cltu tfBuff derandomize hcltu hstart 0
      (Nat.zero_le 8191) htwo (Nat.zero_le _) (fun j hj => absurd hj (Nat.not_lt_zero j))
      tcSyncSuccess
    have hrun : ∀ fuel, getTransferFrame fuel cltu tfBuff derandomize =
        (loop (codeBlockRound cltu) fuel (inFront cltu tfBuff 0 tcSyncSuccess)).map
          (finishFrame derandomize) := by
      intro fuel
      rw [getTransferFrame, hcheck]
      rfl
    simp only [hrun, Option.map_eq_some_iff, hreadable, hstart, true_and, ← hloop]
    constructor
    · rintro ⟨fuel, result, ⟨final, hfinal, rfl⟩, hright⟩
      exact ⟨fuel, final, hfinal, hright⟩
    · rintro ⟨fuel, final, hfinal, hright⟩
      exact ⟨fuel, _, ⟨final, hfinal, rfl⟩, hright⟩

end Runs

/-- One code block. -/
def smallCltu : List Octet := startSeq ++ [0, 1, 2, 3, 4, 5, 6, 0xFE] ++ tailSeq

theorem cltu_decoding_one_block : ∃ fuel result,
    getTransferFrame fuel smallCltu (List.replicate 9 0) true = some result ∧
      FrameRight smallCltu (List.replicate 9 0) true result :=
  (cltu_decoding_iff (by decide)).mpr
    ⟨by decide, fun hpast => absurd hpast.2.long (by decide)⟩

/-- Of a CLTU of one octet the second one is looked at. -/
theorem lone_start_octet_read_beyond :
    ¬ ∀ (cltu tfBuff : List Octet) (derandomize : Bool), cltu.length < 2 ^ 16 →
      tfBuff.length < 2 ^ 16 → ∃ fuel result,
        getTransferFrame fuel cltu tfBuff derandomize = some result ∧
          FrameRight cltu tfBuff derandomize result := by
  intro hclaim
  obtain ⟨fuel, result, hrun, -⟩ := hclaim [0xEB] [] false (by decide) (by decide)
  cases hrun

end Nos3.IoLib
