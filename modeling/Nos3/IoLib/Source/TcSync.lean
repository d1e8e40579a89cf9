import Nos3.Base.FixedArray
import Nos3.Base.BigEndian
import Nos3.Base.Rounds

/-!
# The TC synchronisation service

`tc_sync.c`: the transfer frame is taken out of a CLTU, eight octets a code block,
seven of them data. Offsets are `uint16`. An access outside of the two buffers is
`none`, so the model has no meaning where the code has none.
-/
namespace Nos3.IoLib
open Base.BigEndian (Octet)
open Base.FixedArray

def tcSyncFoundTailSeq : Int := 1
def tcSyncSuccess : Int := 0
def tcSyncInvalidLength : Int := -2
def tcSyncInvalidCltu : Int := -3
def tcSyncStartSeqSize : Nat := 2
def tcSyncCodeBlockSize : Nat := 8
def tcSyncCodeBlockDataSize : Nat := 7

def startSeq : List Octet := [0xEB, 0x90]
def tailSeq : List Octet := [0xC5, 0xC5, 0xC5, 0xC5, 0xC5, 0xC5, 0xC5, 0x79]

/-! ## The pseudo-random sequence -/

def revBitsTbl : List Octet :=
  [0x0, 0x8, 0x4, 0xC, 0x2, 0xA, 0x6, 0xE, 0x1, 0x9, 0x5, 0xD, 0x3, 0xB, 0x7, 0xF]

def reverseBits (byte : Octet) : Octet :=
  (revBitsTbl.getD (byte &&& 0xF).toNat 0 <<< 4) ||| revBitsTbl.getD (byte >>> 4).toNat 0

/-- The bit shifted into the register: the parity of the taps. -/
def lfsrBit (poly lfsr : Octet) : Octet :=
  (List.range 8).foldl (fun bit i => bit ^^^ (((lfsr >>> i) &&& (poly >>> i)) &&& 1)) 0

/-- `IO_LIB_UTIL_GenPseudoRandomSeq`: every eighth register, bits reversed. -/
def genPseudoRandomSeq (poly seed : Octet) : List Octet :=
  ((List.range 249).foldl (fun (lfsr, seq) period =>
    let seq := if period % 8 = 0 then seq ++ [reverseBits lfsr] else seq
    ((lfsr >>> 1) ||| (lfsrBit poly lfsr <<< 7), seq)) (seed, [])).2

/-- `prSeq` after `TC_SYNC_LibInit`. -/
def tcPrSeq : List Octet := genPseudoRandomSeq 0x5F 0xFF

/-- What `IO_LIB_UTIL_PseudoRandomize` combines octet `byte` with. -/
def pseudoRandomOctet (prSeq : List Octet) (byte : Nat) : Octet :=
  let bit := byte * 8 % 255
  let bitOffset := bit % 8
  (prSeq.getD (bit / 8) 0 <<< bitOffset) ||| (prSeq.getD ((bit / 8 + 1) % 32) 0 >>> (8 - bitOffset))

/-- `TC_SYNC_DeRandomizeFrame` on the octets of a frame. -/
def deRandomizeFrame (frame : List Octet) : List Octet :=
  frame.mapIdx fun byte octet => octet ^^^ pseudoRandomOctet tcPrSeq byte

/-! ## Code blocks -/

/-- `TC_SYNC_CheckStartSeq`: the status and the offset. -/
def checkStartSeq (cltu : List Octet) : Option (Int × Nat) := do
  let first ← cltu[0]?
  if first ≠ startSeq.getD 0 0 then return (tcSyncInvalidCltu, 0)
  let second ← cltu[1]?
  if second ≠ startSeq.getD 1 0 then return (tcSyncInvalidCltu, 0)
  return (tcSyncSuccess, tcSyncStartSeqSize)

/-- The comparison with the tail sequence stops at the first octet that differs. -/
def matchTail (cltu : List Octet) : List Octet → Nat → Option Bool
  | [], _ => some true
  | expected :: tail, cursor => do
    let octet ← cltu[cursor]?
    if octet ≠ expected then return false
    matchTail cltu tail (cursor + 1)

/-- The loop's variables. -/
structure Decoding where
  tfBuff : List Octet
  tfOffset : Nat
  cltuOffset : Nat
  iStatus : Int
  deriving DecidableEq

/-- `TC_SYNC_GetCodeBlockData`; the code block starts at `cltuOffset`. -/
def getCodeBlockData (cltu : List Octet) (d : Decoding) : Option Decoding :=
  let lengthRead := (d.cltuOffset + tcSyncCodeBlockSize) % 2 ^ 16
  if cltu.length < lengthRead then some { d with iStatus := tcSyncInvalidCltu }
  else
    match matchTail cltu tailSeq d.cltuOffset with
    | none => none
    | some true => some { d with iStatus := tcSyncFoundTailSeq }
    | some false =>
      let lengthCopied := (d.tfOffset + tcSyncCodeBlockDataSize) % 2 ^ 16
      if d.tfBuff.length < lengthCopied then some { d with iStatus := tcSyncInvalidLength }
      else
        match readAt cltu d.cltuOffset tcSyncCodeBlockDataSize with
        | none => none
        | some data =>
          if d.tfBuff.length < d.tfOffset + data.length then none
          else some ⟨patch d.tfBuff d.tfOffset data, lengthCopied, lengthRead, tcSyncSuccess⟩

/-- One round of the loop of `TC_SYNC_GetTransferFrame`. -/
def codeBlockRound (cltu : List Octet) (d : Decoding) : Option (Decoding × Bool) :=
  match getCodeBlockData cltu d with
  | none => none
  | some d =>
    if d.iStatus < 0 then some (d, false)
    else if d.iStatus = tcSyncFoundTailSeq then some ({ d with iStatus := d.tfOffset }, false)
    else some (d, true)

/-- What follows the loop. -/
def finishFrame (derandomize : Bool) (d : Decoding) : Int × List Octet :=
  if 0 < d.iStatus ∧ derandomize = true then
    (d.iStatus, patch d.tfBuff 0 (deRandomizeFrame (d.tfBuff.take d.tfOffset)))
  else (d.iStatus, d.tfBuff)

/-- `TC_SYNC_GetTransferFrame`, when the loop ends within `fuel` rounds: the status and
the buffer. `cltuLength` and `tfBuffSize` are the lengths of the two lists. -/
def getTransferFrame (fuel : Nat) (cltu tfBuff : List Octet) (derandomize : Bool) :
    Option (Int × List Octet) :=
  match checkStartSeq cltu with
  | none => none
  | some (iStatus, cltuOffset) =>
    if iStatus < 0 then some (iStatus, tfBuff)
    else
      (Base.Rounds.loop (codeBlockRound cltu) fuel ⟨tfBuff, 0, cltuOffset, iStatus⟩).map
        (finishFrame derandomize)

end Nos3.IoLib
