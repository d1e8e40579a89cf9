import Mathlib.Data.List.Basic
import Nos3.Novatel.Guarantees.ReceiveBuffer

/-!
# The fields of the logs

`strtok_r` skips empty fields, so that the field behind one takes its place. The local record
of the `$GPGGA` parser is not initialized.
-/
namespace Nos3.Novatel
open Nos3.Base.BigEndian
open Base.Strtok

/-! ## The logs -/

/-- The fields of a `$GPGGA` sentence with their delimiters. -/
def gpggaFields (texts : List (List Octet)) : List (Octet × List Octet) :=
  texts.map fun text => (0x2C, text)

/-- The fields of a `#BESTXYZA` log, where the data start behind a semicolon. -/
def bestXyzaFields (texts : List (List Octet)) : List (Octet × List Octet) :=
  texts.mapIdx fun i text => (if i = 9 then 0x3B else 0x2C, text)

/-- The reader takes the name of the log, the parser the rest. -/
def parseLog (parser : Parser) (log : List Octet) (data : DeviceData) : Option DeviceData :=
  (strtokR 0 comma log).bind fun call => parser call.2 data

def valueOf : Option (Token Octet) → Value
  | some token => .of token
  | none => .zero

/-- What is expected of the `n`-th field: zero if it is missing or empty. -/
def fieldValue (fields : List (Octet × List Octet)) (tail : List Octet) (n : Nat) : Value :=
  valueOf ((pointers tail fields)[n - 1]?.filter Token.nonEmpty)

structure GpggaPositional (texts : List (List Octet)) (tail : List Octet) (data : DeviceData) :
    Prop where
  lat : data.lat = ⟨fieldValue (gpggaFields texts) tail 2, fieldValue (gpggaFields texts) tail 3⟩
  lon : data.lon = ⟨fieldValue (gpggaFields texts) tail 4, fieldValue (gpggaFields texts) tail 5⟩
  alt : data.alt = fieldValue (gpggaFields texts) tail 9

structure BestXyzaPositional (texts : List (List Octet)) (tail : List Octet) (data : DeviceData) :
    Prop where
  weeks : data.weeks = fieldValue (bestXyzaFields texts) tail 5
  seconds : data.secondsIntoWeek = fieldValue (bestXyzaFields texts) tail 6
  fractions : data.fractions = fieldValue (bestXyzaFields texts) tail 6
  ecefX : data.ecefX = fieldValue (bestXyzaFields texts) tail 12
  ecefY : data.ecefY = fieldValue (bestXyzaFields texts) tail 13
  ecefZ : data.ecefZ = fieldValue (bestXyzaFields texts) tail 14
  velX : data.velX = fieldValue (bestXyzaFields texts) tail 20
  velY : data.velY = fieldValue (bestXyzaFields texts) tail 21
  velZ : data.velZ = fieldValue (bestXyzaFields texts) tail 22

/-- The first `n` fields are there and none of them is empty; or the `n`-th has no value, and
there are too few for another one to take its place. -/
def Aligned (texts : List (List Octet)) (n : Nat) : Prop :=
  (n ≤ texts.length ∧ ∀ text ∈ texts.take n, text ≠ []) ∨
    ((∀ text ∈ texts[n - 1]?, text = []) ∧ (texts.filter (!·.isEmpty)).length < n)

/-! ## Tokens and fields -/

/-- The tokens behind the name of a log. -/
def tokens (fields : List (Octet × List Octet)) (tail : List Octet) : List (Token Octet) :=
  (pointers tail fields).filter Token.nonEmpty

theorem valueOf_injective : Function.Injective valueOf := by
  rintro (_ | token) (_ | token') h
  · rfl
  · cases h
  · cases h
  · cases h
    rfl

/-- No field up to the `n`-th is missing or empty. -/
theorem full_iff (fields : List (Octet × List Octet)) (tail : List Octet) {n : Nat} (hn : 0 < n) :
    (n - 1 < (pointers tail fields).length ∧
        ∀ token ∈ (pointers tail fields).take (n - 1 + 1), token.nonEmpty) ↔
      n ≤ (fields.map Prod.snd).length ∧ ∀ text ∈ (fields.map Prod.snd).take n, text ≠ [] := by
  have hsucc : n - 1 + 1 = n := by omega
  rw [← map_text_pointers tail fields, hsucc]
  refine and_congr ?_ ?_
  · rw [List.length_map]
    omega
  · rw [← List.map_take, List.forall_mem_map]
    exact forall₂_congr fun token _ => by simp [Token.nonEmpty]

/-- A token is the field of its number exactly when the fields are aligned there. -/
theorem token_eq_field_iff (fields : List (Octet × List Octet)) (tail : List Octet) {n : Nat}
    (hn : 0 < n) :
    (tokens fields tail)[n - 1]? = (pointers tail fields)[n - 1]?.filter Token.nonEmpty ↔
      Aligned (fields.map Prod.snd) n := by
  rw [tokens, getElem?_filter_eq_iff (pointers_nodup tail fields), full_iff fields tail hn, Aligned]
  refine or_congr Iff.rfl (and_congr ?_ ?_)
  · rw [← map_text_pointers tail fields, List.getElem?_map]
    cases (pointers tail fields)[n - 1]? with
    | none => simp
    | some token => simp [Token.nonEmpty, Option.filter]
  · have hsame : (fun text : List Octet => !text.isEmpty) ∘ Token.text = Token.nonEmpty := rfl
    rw [← map_text_pointers tail fields, List.filter_map, List.length_map, hsame]
    omega

/-- There is such a token exactly when no field up to it is missing or empty. -/
theorem token_eq_some_field_iff (fields : List (Octet × List Octet)) (tail : List Octet) {n : Nat}
    (hn : 0 < n) :
    (∃ token, (tokens fields tail)[n - 1]? = some token ∧
        (pointers tail fields)[n - 1]?.filter Token.nonEmpty = some token) ↔
      n ≤ (fields.map Prod.snd).length ∧ ∀ text ∈ (fields.map Prod.snd).take n, text ≠ [] := by
  rw [← full_iff fields tail hn, tokens]
  have hplace := getElem?_filter_eq_iff (pointers_nodup tail fields) Token.nonEmpty (n - 1)
  constructor
  · rintro ⟨token, htoken, hfield⟩
    refine (hplace.mp (htoken.trans hfield.symm)).resolve_right fun h => ?_
    rw [h.1] at hfield
    cases hfield
  · intro hfull
    have hmem : (pointers tail fields)[n - 1] ∈ (pointers tail fields).take (n - 1 + 1) :=
      List.mem_take_iff_getElem.mpr ⟨n - 1, by omega, rfl⟩
    have hfield : (pointers tail fields)[n - 1]?.filter Token.nonEmpty =
        some (pointers tail fields)[n - 1] := by
      rw [List.getElem?_eq_getElem hfull.1, Option.filter_some, if_pos (hfull.2 _ hmem)]
    exact ⟨_, (hplace.mpr (Or.inl hfull)).trans hfield, hfield⟩

/-! ## What the parsers take -/

/-- Where the reader leaves the saved pointer. -/
theorem strtokR_log {name : List Octet} (hname : name ≠ [] ∧ ∀ c ∈ name, isText 0 comma c)
    {fields : List (Octet × List Octet)} (hfirst : ∀ f ∈ fields.head?, f.1 = 0x2C)
    (junk : List Octet) :
    ∃ token, strtokR 0 comma (name ++ (delimited fields ++ 0 :: junk)) =
      some (some token, behindDelim fields ++ 0 :: junk) := by
  cases fields with
  | nil =>
    have hend : isText 0 comma (0 : Octet) = false := by decide
    exact ⟨_, strtokR_text hname.1 hname.2 hend junk⟩
  | cons f more =>
    have hf : f.1 = 0x2C := hfirst f rfl
    have hstop : isText 0 comma f.1 = false := by
      rw [hf]
      decide
    have hnul : f.1 ≠ 0 := by
      rw [hf]
      decide
    refine ⟨⟨name ++ (delimited (f :: more) ++ 0 :: junk), name⟩, ?_⟩
    have hcall := strtokR_text hname.1 hname.2 hstop (f.2 ++ (delimited more ++ 0 :: junk))
    rw [if_neg hnul] at hcall
    simpa [delimited, behindDelim] using hcall

theorem assigned_range (tokens : List (Token Octet)) {n : Nat} (hn : 0 < n) (hle : n ≤ 22) :
    assigned ((List.range 22).map (tokens[·]?)) n = valueOf tokens[n - 1]? := by
  have hlt : n - 1 < 22 := by omega
  rw [assigned, List.getElem?_map, List.getElem?_range hlt, Option.map_some]
  cases tokens[n - 1]? <;> rfl

/-- The `#BESTXYZA` parser takes its values from the tokens. -/
theorem parseBestXYZA_eq {fields : List (Octet × List Octet)}
    (hfields : ∀ f ∈ fields, f.1 ∈ bestXyzaDelim ∧ ∀ c ∈ f.2, isText 0 bestXyzaDelim c)
    (junk : List Octet) (data : DeviceData) :
    parseBestXYZA (behindDelim fields ++ 0 :: junk) data = some
      { data with
        weeks := valueOf (tokens fields (0 :: junk))[4]?
        secondsIntoWeek := valueOf (tokens fields (0 :: junk))[5]?
        fractions := valueOf (tokens fields (0 :: junk))[5]?
        ecefX := valueOf (tokens fields (0 :: junk))[11]?
        ecefY := valueOf (tokens fields (0 :: junk))[12]?
        ecefZ := valueOf (tokens fields (0 :: junk))[13]?
        velX := valueOf (tokens fields (0 :: junk))[19]?
        velY := valueOf (tokens fields (0 :: junk))[20]?
        velZ := valueOf (tokens fields (0 :: junk))[21]? } := by
  have hcalls := strtokCalls_of_yields (by decide) 22
    (yields_behindDelim (by decide) hfields junk)
  rw [parseBestXYZA, hcalls, Option.map_some]
  simp only [assigned_range _ (by decide : 0 < 5) (by decide),
    assigned_range _ (by decide : 0 < 6) (by decide),
    assigned_range _ (by decide : 0 < 12) (by decide),
    assigned_range _ (by decide : 0 < 13) (by decide),
    assigned_range _ (by decide : 0 < 14) (by decide),
    assigned_range _ (by decide : 0 < 20) (by decide),
    assigned_range _ (by decide : 0 < 21) (by decide),
    assigned_range _ (by decide : 0 < 22) (by decide)]
  rfl

/-- A field of the record that the case `n` of the loop assigns and no other. -/
structure AssignedBy (field : GpggaData → Value) (n : Nat) : Prop where
  this : ∀ data token, field (GpggaData.assign data n token) = .of token
  other : ∀ data token, ∀ i ≠ n, field (GpggaData.assign data i token) = field data

/-- The loop leaves the `n`-th token there, if there is one. -/
theorem AssignedBy.loop {field : GpggaData → Value} {n : Nat} (h : AssignedBy field n)
    (tokens : List (Token Octet)) (i : Nat) (data : GpggaData) :
    field (tokens.foldl gpggaRound (i, data)).2 =
      if i < n then (tokens[n - i - 1]?.map Value.of).getD (field data) else field data := by
  induction tokens generalizing i data with
  | nil => simp
  | cons token more ih =>
    rw [List.foldl_cons, gpggaRound, ih]
    by_cases hlt : i + 1 < n
    · have hindex : n - i - 1 = n - (i + 1) - 1 + 1 := by omega
      rw [if_pos hlt, if_pos (by omega), h.other _ _ _ (by omega), hindex,
        List.getElem?_cons_succ]
    · by_cases heq : i + 1 = n
      · have hindex : n - i - 1 = 0 := by omega
        rw [if_neg hlt, if_pos (by omega), hindex, heq, h.this]
        rfl
      · rw [if_neg hlt, if_neg (by omega), h.other _ _ _ heq]

/-- A value of the local record. -/
def orUndefined : Option (Token Octet) → Value
  | some token => .of token
  | none => .undefined

theorem AssignedBy.fromStart {field : GpggaData → Value} {n : Nat} (h : AssignedBy field n)
    (hn : 0 < n) (hinit : field {} = .undefined) (tokens : List (Token Octet)) :
    field (tokens.foldl gpggaRound (0, {})).2 = orUndefined tokens[n - 1]? := by
  rw [h.loop, if_pos hn, hinit, Nat.sub_zero]
  cases tokens[n - 1]? <;> rfl

theorem assignedBy_fields : AssignedBy GpggaData.latitude 2 ∧
    AssignedBy GpggaData.latDirection 3 ∧ AssignedBy GpggaData.longitude 4 ∧
    AssignedBy GpggaData.lonDirection 5 ∧ AssignedBy GpggaData.altitude 9 := by
  refine ⟨⟨fun _ _ => rfl, ?_⟩, ⟨fun _ _ => rfl, ?_⟩, ⟨fun _ _ => rfl, ?_⟩,
    ⟨fun _ _ => rfl, ?_⟩, ⟨fun _ _ => rfl, ?_⟩⟩
  all_goals
    intro data token i hi
    unfold GpggaData.assign
    split <;> trivial

/-- The `$GPGGA` parser takes its values from the tokens. -/
theorem parseBestGPGGA_eq {fields : List (Octet × List Octet)}
    (hfields : ∀ f ∈ fields, f.1 ∈ comma ∧ ∀ c ∈ f.2, isText 0 comma c) (junk : List Octet)
    (data : DeviceData) :
    parseBestGPGGA (behindDelim fields ++ 0 :: junk) data = some
      { data with
        lat := ⟨orUndefined (tokens fields (0 :: junk))[1]?,
          orUndefined (tokens fields (0 :: junk))[2]?⟩
        lon := ⟨orUndefined (tokens fields (0 :: junk))[3]?,
          orUndefined (tokens fields (0 :: junk))[4]?⟩
        alt := orUndefined (tokens fields (0 :: junk))[8]? } := by
  obtain ⟨hlat, hlatDir, hlon, hlonDir, halt⟩ := assignedBy_fields
  have hloop := foldTokens_of_yields gpggaRound (0, {})
    (yields_behindDelim (by decide) hfields junk)
  rw [parseBestGPGGA, hloop, Option.map_some, hlat.fromStart (by decide) rfl,
    hlatDir.fromStart (by decide) rfl, hlon.fromStart (by decide) rfl,
    hlonDir.fromStart (by decide) rfl, halt.fromStart (by decide) rfl]
  rfl

/-! ## Positions -/

theorem fieldValue_eq_iff (fields : List (Octet × List Octet)) (tail : List Octet) {n : Nat}
    (hn : 0 < n) :
    valueOf (tokens fields tail)[n - 1]? = fieldValue fields tail n ↔
      Aligned (fields.map Prod.snd) n :=
  valueOf_injective.eq_iff.trans (token_eq_field_iff fields tail hn)

theorem map_snd_gpggaFields (texts : List (List Octet)) :
    (gpggaFields texts).map Prod.snd = texts := by
  simp [gpggaFields, Function.comp_def]

theorem map_snd_bestXyzaFields (texts : List (List Octet)) :
    (bestXyzaFields texts).map Prod.snd = texts := by
  refine List.ext_getElem? fun i => ?_
  rw [bestXyzaFields, List.getElem?_map, List.getElem?_mapIdx]
  cases texts[i]? <;> rfl

/-- A `#BESTXYZA` log with these fields in the buffer, up to the end of the string. -/
def bestXyzaLog (texts : List (List Octet)) (junk : List Octet) : List Octet :=
  bestXyza ++ (delimited (bestXyzaFields texts) ++ 0 :: junk)

def gpggaLog (texts : List (List Octet)) (junk : List Octet) : List Octet :=
  gpgga ++ (delimited (gpggaFields texts) ++ 0 :: junk)

/-- The positions of the fields that the `#BESTXYZA` parser uses. -/
def bestXyzaPositions : List Nat := [5, 6, 12, 13, 14, 20, 21, 22]

theorem bestXyza_positional_iff {texts : List (List Octet)}
    (htexts : ∀ text ∈ texts, ∀ c ∈ text, isText 0 bestXyzaDelim c) (junk : List Octet)
    (data : DeviceData) :
    (∃ parsed, parseLog parseBestXYZA (bestXyzaLog texts junk) data = some parsed ∧
        BestXyzaPositional texts (0 :: junk) parsed) ↔
      ∀ n ∈ bestXyzaPositions, Aligned texts n := by
  have hfields : ∀ f ∈ bestXyzaFields texts,
      f.1 ∈ bestXyzaDelim ∧ ∀ c ∈ f.2, isText 0 bestXyzaDelim c := by
    intro f hf
    obtain ⟨i, hi, rfl⟩ := List.mem_mapIdx.mp hf
    refine ⟨?_, htexts _ (List.getElem_mem hi)⟩
    dsimp only
    split <;> decide
  have hfirst : ∀ f ∈ (bestXyzaFields texts).head?, f.1 = 0x2C := by
    cases texts with
    | nil => simp [bestXyzaFields]
    | cons text more => simp [bestXyzaFields, List.mapIdx_cons]
  obtain ⟨token, hcall⟩ := strtokR_log (log_isText bestXyza (by simp)) hfirst junk
  have hvalue {n : Nat} (hn : 0 < n) := fieldValue_eq_iff (bestXyzaFields texts) (0 :: junk) hn
  rw [map_snd_bestXyzaFields] at hvalue
  rw [parseLog, bestXyzaLog, hcall, Option.bind_some, parseBestXYZA_eq hfields]
  simp only [Option.some.injEq, exists_eq_left']
  constructor
  · intro h
    simp only [bestXyzaPositions, List.forall_mem_cons, List.not_mem_nil, IsEmpty.forall_iff,
      implies_true, and_true]
    exact ⟨(hvalue (by decide)).mp h.weeks, (hvalue (by decide)).mp h.seconds,
      (hvalue (by decide)).mp h.ecefX, (hvalue (by decide)).mp h.ecefY,
      (hvalue (by decide)).mp h.ecefZ, (hvalue (by decide)).mp h.velX,
      (hvalue (by decide)).mp h.velY, (hvalue (by decide)).mp h.velZ⟩
  · intro h
    have hat {n : Nat} (hn : n ∈ bestXyzaPositions) (hpos : 0 < n) :=
      (hvalue hpos).mpr (h n hn)
    exact ⟨hat (n := 5) (by decide) (by decide), hat (n := 6) (by decide) (by decide),
      hat (n := 6) (by decide) (by decide), hat (n := 12) (by decide) (by decide),
      hat (n := 13) (by decide) (by decide), hat (n := 14) (by decide) (by decide),
      hat (n := 20) (by decide) (by decide), hat (n := 21) (by decide) (by decide),
      hat (n := 22) (by decide) (by decide)⟩

/-- The altitude is in the ninth field, and there is none without a ninth token. -/
theorem gpgga_positional_iff {texts : List (List Octet)}
    (htexts : ∀ text ∈ texts, ∀ c ∈ text, isText 0 comma c) (junk : List Octet)
    (data : DeviceData) :
    (∃ parsed, parseLog parseBestGPGGA (gpggaLog texts junk) data = some parsed ∧
        GpggaPositional texts (0 :: junk) parsed) ↔
      9 ≤ texts.length ∧ ∀ text ∈ texts.take 9, text ≠ [] := by
  have hfields : ∀ f ∈ gpggaFields texts, f.1 ∈ comma ∧ ∀ c ∈ f.2, isText 0 comma c := by
    intro f hf
    obtain ⟨text, htext, rfl⟩ := List.mem_map.mp hf
    exact ⟨show (0x2C : Octet) ∈ comma by decide, htexts text htext⟩
  have hfirst : ∀ f ∈ (gpggaFields texts).head?, f.1 = 0x2C := by
    cases texts <;> simp [gpggaFields]
  obtain ⟨token, hcall⟩ := strtokR_log (log_isText gpgga (by simp)) hfirst junk
  have hsome {n : Nat} (hn : 0 < n) := token_eq_some_field_iff (gpggaFields texts) (0 :: junk) hn
  rw [map_snd_gpggaFields] at hsome
  rw [parseLog, gpggaLog, hcall, Option.bind_some, parseBestGPGGA_eq hfields]
  simp only [Option.some.injEq, exists_eq_left']
  constructor
  · intro h
    have halt : orUndefined (tokens (gpggaFields texts) (0 :: junk))[9 - 1]? =
        valueOf ((pointers (0 :: junk) (gpggaFields texts))[9 - 1]?.filter Token.nonEmpty) := h.alt
    refine (hsome (by decide)).mp ?_
    cases htoken : (tokens (gpggaFields texts) (0 :: junk))[9 - 1]? with
    | none =>
      rw [htoken] at halt
      cases hfield : (pointers (0 :: junk) (gpggaFields texts))[9 - 1]?.filter Token.nonEmpty
        <;> rw [hfield] at halt <;> cases halt
    | some ninth =>
      rw [htoken] at halt
      exact ⟨ninth, rfl, valueOf_injective (halt.symm : _ = valueOf (some ninth))⟩
  · rintro ⟨hlen, hfull⟩
    have hat {n : Nat} (hn : 0 < n) (hle : n ≤ 9) :
        orUndefined (tokens (gpggaFields texts) (0 :: junk))[n - 1]? =
          fieldValue (gpggaFields texts) (0 :: junk) n := by
      obtain ⟨nth, htoken, hfield⟩ := (hsome hn).mpr ⟨by omega, fun text htext =>
        hfull text (List.take_subset_take_left texts hle htext)⟩
      rw [fieldValue, htoken, hfield]
      rfl
    exact ⟨congrArg₂ Angle.mk (hat (n := 2) (by decide) (by decide))
        (hat (n := 3) (by decide) (by decide)),
      congrArg₂ Angle.mk (hat (n := 4) (by decide) (by decide))
        (hat (n := 5) (by decide) (by decide)),
      hat (n := 9) (by decide) (by decide)⟩

/-- The parsers take every value from its field exactly when the first nine fields of the
sentence are there and not empty, and the fields of the log are aligned at every position that
is used. -/
theorem fields_positional_iff (junk : List Octet) (data : DeviceData) :
    (∀ texts : List (List Octet), (∀ text ∈ texts, ∀ c ∈ text, isText 0 comma c) →
      ((∃ parsed, parseLog parseBestGPGGA (gpggaLog texts junk) data = some parsed ∧
          GpggaPositional texts (0 :: junk) parsed) ↔
        9 ≤ texts.length ∧ ∀ text ∈ texts.take 9, text ≠ [])) ∧
      ∀ texts : List (List Octet), (∀ text ∈ texts, ∀ c ∈ text, isText 0 bestXyzaDelim c) →
        ((∃ parsed, parseLog parseBestXYZA (bestXyzaLog texts junk) data = some parsed ∧
            BestXyzaPositional texts (0 :: junk) parsed) ↔
          ∀ n ∈ bestXyzaPositions, Aligned texts n) :=
  ⟨fun _ htexts => gpgga_positional_iff htexts junk data,
    fun _ htexts => bestXyza_positional_iff htexts junk data⟩

/-- A position fix with a given dilution of precision. -/
def fixTexts (hdop : List Octet) : List (List Octet) :=
  [ascii ['1', '2', '3', '5', '1', '9'], ascii ['4', '8', '0', '7', '.', '0', '3', '8'],
    ascii ['N'], ascii ['0', '1', '1', '3', '1', '.', '0', '0', '0'], ascii ['E'], ascii ['1'],
    ascii ['0', '8'], hdop, ascii ['5', '4', '5', '.', '4'], ascii ['M']]

theorem fields_positional_iff_fix :
    ∃ parsed, parseLog parseBestGPGGA (gpggaLog (fixTexts (ascii ['0', '.', '9'])) []) noData =
        some parsed ∧ GpggaPositional (fixTexts (ascii ['0', '.', '9'])) [0] parsed :=
  ((fields_positional_iff [] noData).1 _ (by decide)).mpr (by decide)

/-- Without the dilution of precision the altitude is taken from the unit. -/
theorem fields_positional_not : ¬∀ (junk : List Octet) (data : DeviceData),
    (∀ texts : List (List Octet), (∀ text ∈ texts, ∀ c ∈ text, isText 0 comma c) →
      ∃ parsed, parseLog parseBestGPGGA (gpggaLog texts junk) data = some parsed ∧
        GpggaPositional texts (0 :: junk) parsed) ∧
      ∀ texts : List (List Octet), (∀ text ∈ texts, ∀ c ∈ text, isText 0 bestXyzaDelim c) →
        ∃ parsed, parseLog parseBestXYZA (bestXyzaLog texts junk) data = some parsed ∧
          BestXyzaPositional texts (0 :: junk) parsed := by
  intro h
  have htexts : ∀ text ∈ fixTexts [], ∀ c ∈ text, isText 0 comma c := by decide
  have hfix := (h [] noData).1 (fixTexts []) htexts
  exact absurd ((gpgga_positional_iff htexts [] noData).mp hfix) (by decide)

end Nos3.Novatel
