import Mathlib.Data.List.Basic
import Mathlib.Data.List.TakeWhile
import Mathlib.Order.Fin.Basic

/-!
# The tokens of a C string

A pointer into a buffer is the list of the characters from it to the end of the buffer, and a
read behind the end has no result. Runs of delimiters are one to `strtok_r`, so that the calls
give the fields of a string that are not empty.
-/
namespace Nos3.Base.Strtok

universe u

variable {α : Type u}

/-- The pointer that is returned and the string it points at. -/
structure Token (α : Type u) where
  ptr : List α
  text : List α
  deriving DecidableEq, Repr

/-! ## Fields -/

/-- Fields, each behind its delimiter. -/
def delimited (fields : List (α × List α)) : List α := fields.flatMap fun f => f.1 :: f.2

/-- What is left when the first delimiter is read. -/
def behindDelim : List (α × List α) → List α
  | [] => []
  | f :: more => f.2 ++ delimited more

/-- The fields with the pointers to them, in a buffer that goes on with `tail`. -/
def pointers (tail : List α) : List (α × List α) → List (Token α)
  | [] => []
  | f :: more => ⟨f.2 ++ (delimited more ++ tail), f.2⟩ :: pointers tail more

def Token.nonEmpty (token : Token α) : Bool := !token.text.isEmpty

theorem length_ptr_lt {tail : List α} {fields : List (α × List α)} {token : Token α}
    (h : token ∈ pointers tail fields) :
    token.ptr.length < (delimited fields ++ tail).length := by
  induction fields with
  | nil => cases h
  | cons f more ih =>
    have hlen : (delimited (f :: more) ++ tail).length =
        f.2.length + 1 + (delimited more ++ tail).length := by
      simp [delimited]
      omega
    rcases List.mem_cons.mp h with rfl | hmore
    · simp only [hlen, List.length_append]
      omega
    · have hlt := ih hmore
      omega

theorem map_text_pointers (tail : List α) (fields : List (α × List α)) :
    (pointers tail fields).map Token.text = fields.map Prod.snd := by
  induction fields with
  | nil => rfl
  | cons f more ih => simp [pointers, ih]

/-- No two fields have the same pointer. -/
theorem pointers_nodup (tail : List α) (fields : List (α × List α)) :
    (pointers tail fields).Nodup := by
  induction fields with
  | nil => exact List.nodup_nil
  | cons f more ih =>
    refine List.nodup_cons.mpr ⟨fun hmem => ?_, ih⟩
    have hlt := length_ptr_lt hmem
    simp only [List.length_append] at hlt
    omega

/-- What the text of a token starts with is what the buffer has there. -/
theorem prefix_takeWhile_iff {p : α → Bool} {start l : List α} (hstart : ∀ c ∈ start, p c) :
    start <+: l.takeWhile p ↔ start <+: l := by
  induction start generalizing l with
  | nil => simp
  | cons c more ih =>
    cases l with
    | nil => simp
    | cons d rest =>
      have hc := hstart c (by simp)
      have hmore := ih (l := rest) fun e he => hstart e (by simp [he])
      by_cases hd : p d
      · rw [List.takeWhile_cons_of_pos hd, List.cons_prefix_cons, List.cons_prefix_cons, hmore]
      · have hcd : c ≠ d := fun h => hd (h ▸ hc)
        simp [List.takeWhile_cons_of_neg hd, List.cons_prefix_cons, hcd]

/-! ## The calls -/

variable [DecidableEq α] (nul : α) (delim : List α)

/-- Whether a character belongs to a token. -/
def isText (c : α) : Bool := c ≠ nul ∧ c ∉ delim

/-- Where the next token starts. -/
def skipDelim (save : List α) : List α := save.dropWhile (· ∈ delim)

/-- The token, if there is one left, and the saved pointer. -/
def strtokR (save : List α) : Option (Option (Token α) × List α) :=
  match save.dropWhile (· ∈ delim) with
  | [] => none
  | c :: more =>
    if c = nul then some (none, c :: more)
    else
      match (c :: more).dropWhile (isText nul delim) with
      | [] => none
      | stop :: after =>
        some (some ⟨c :: more, (c :: more).takeWhile (isText nul delim)⟩,
          if stop = nul then stop :: after else after)

/-- What `n` calls return, one after the other. -/
def strtokCalls : ℕ → List α → Option (List (Option (Token α)))
  | 0, _ => some []
  | n + 1, save =>
    (strtokR nul delim save).bind fun call => (strtokCalls n call.2).map (call.1 :: ·)

variable {nul delim}

theorem isText_iff {c : α} : isText nul delim c = true ↔ c ≠ nul ∧ c ∉ delim := by
  simp [isText]

/-! ## One call -/

theorem strtokR_delim {d : α} (hd : d ∈ delim) (save : List α) :
    strtokR nul delim (d :: save) = strtokR nul delim save := by
  simp [strtokR, List.dropWhile_cons, hd]

theorem strtokR_nul (hnul : nul ∉ delim) (after : List α) :
    strtokR nul delim (nul :: after) = some (none, nul :: after) := by
  simp [strtokR, hnul]

/-- A text and the character that ends it. -/
theorem strtokR_text {text : List α} (hne : text ≠ []) (htext : ∀ c ∈ text, isText nul delim c)
    {stop : α} (hstop : isText nul delim stop = false) (after : List α) :
    strtokR nul delim (text ++ stop :: after) =
      some (some ⟨text ++ stop :: after, text⟩, if stop = nul then stop :: after else after) := by
  obtain ⟨c, more, rfl⟩ := List.exists_cons_of_ne_nil hne
  obtain ⟨hc, hcd⟩ := isText_iff.mp (htext c (by simp))
  have hend : (stop :: after).dropWhile (isText nul delim) = stop :: after := by
    simp [hstop]
  have hnone : (stop :: after).takeWhile (isText nul delim) = [] := by
    simp [hstop]
  have hdrop : ((c :: more) ++ stop :: after).dropWhile (isText nul delim) = stop :: after := by
    rw [List.dropWhile_append_of_pos htext, hend]
  have htake : ((c :: more) ++ stop :: after).takeWhile (isText nul delim) = c :: more := by
    rw [List.takeWhile_append_of_pos htext, hnone, List.append_nil]
  rw [List.cons_append] at hdrop htake ⊢
  rw [strtokR, List.dropWhile_cons_of_neg (by simpa using hcd)]
  simp only [hc, if_false, hdrop, htake]

/-- A call reads behind the end exactly when nothing ends the token, or what precedes it. -/
theorem strtokR_eq_none_iff (save : List α) :
    strtokR nul delim save = none ↔
      ∀ c ∈ save.dropWhile (· ∈ delim), isText nul delim c = true := by
  rw [strtokR]
  cases hs : save.dropWhile (· ∈ delim) with
  | nil => simp
  | cons c more =>
    dsimp only
    by_cases hc : c = nul
    · rw [if_pos hc]
      refine iff_of_false (by simp) fun h => ?_
      exact (isText_iff.mp (h c (by simp))).1 hc
    · rw [if_neg hc]
      cases hd : (c :: more).dropWhile (isText nul delim) with
      | nil => exact iff_of_true rfl (List.dropWhile_eq_nil_iff.mp hd)
      | cons stop after =>
        refine iff_of_false (by simp) fun h => ?_
        rw [List.dropWhile_eq_nil_iff.mpr h] at hd
        cases hd

/-- The token starts behind the delimiters. -/
theorem ptr_of_strtokR {save after : List α} {token : Token α}
    (h : strtokR nul delim save = some (some token, after)) :
    token.ptr = skipDelim delim save ∧
      token.text = token.ptr.takeWhile (isText nul delim) := by
  rw [strtokR] at h
  split at h
  · cases h
  · split at h
    · cases h
    · split at h
      · cases h
      · cases h
        exact ⟨(by assumption : _ = _).symm, rfl⟩

/-- There is no token where the string ends. -/
theorem head_of_strtokR_none {save after : List α}
    (h : strtokR nul delim save = some (none, after)) :
    (save.dropWhile (· ∈ delim)).head? = some nul := by
  rw [strtokR] at h
  split at h
  · cases h
  · rename_i c more hs
    split at h
    · rename_i hc
      rw [hs, hc]
      rfl
    · split at h <;> cases h

theorem length_of_strtokR {save after : List α} {token : Token α}
    (h : strtokR nul delim save = some (some token, after)) : after.length < save.length := by
  have hskip := (List.dropWhile_suffix (l := save) (· ∈ delim)).length_le
  rw [strtokR] at h
  split at h
  · cases h
  · rename_i c more hs
    rw [hs] at hskip
    split at h
    · cases h
    · rename_i hc
      split at h
      · cases h
      · rename_i stop rest hd
        have hpart := List.dropWhile_suffix (l := c :: more) (isText nul delim)
        rw [hd] at hpart
        cases h
        split
        · rename_i hstop
          -- the first character of the token is not the one that ends it
          refine lt_of_not_ge fun hge => hc ?_
          have heq := hpart.eq_of_length_le (hskip.trans hge)
          rw [← (List.cons.inj heq).1, hstop]
        · exact lt_of_lt_of_le (Nat.lt_succ_self _) (hpart.length_le.trans hskip)

/-! ## Until there is none -/

variable (nul delim)

/-- The loop that takes tokens until there is none. -/
def foldTokens {β : Type*} (f : β → Token α → β) (b : β) (save : List α) : Option β :=
  match _h : strtokR nul delim save with
  | none => none
  | some (none, _) => some b
  | some (some token, after) => foldTokens f (f b token) after
termination_by save.length
decreasing_by exact length_of_strtokR _h

/-- The calls return these tokens and then none. -/
def Yields : List α → List (Token α) → Prop
  | save, [] => ∃ after, strtokR nul delim save = some (none, nul :: after)
  | save, token :: tokens =>
    ∃ after, strtokR nul delim save = some (some token, after) ∧ Yields after tokens

variable {nul delim}

theorem yields_delim_iff {d : α} (hd : d ∈ delim) (save : List α) (tokens : List (Token α)) :
    Yields nul delim (d :: save) tokens ↔ Yields nul delim save tokens := by
  cases tokens <;> simp only [Yields, strtokR_delim hd]

theorem strtokCalls_of_yields (hnul : nul ∉ delim) (n : ℕ) {save : List α}
    {tokens : List (Token α)} (h : Yields nul delim save tokens) :
    strtokCalls nul delim n save = some ((List.range n).map (tokens[·]?)) := by
  induction n generalizing save tokens with
  | zero => rfl
  | succ n ih =>
    rw [List.range_succ_eq_map, List.map_cons, List.map_map]
    cases tokens with
    | nil =>
      obtain ⟨after, hcall⟩ := h
      have hagain : Yields nul delim (nul :: after) [] := ⟨after, strtokR_nul hnul after⟩
      simp [strtokCalls, hcall, ih hagain, Function.comp_def]
    | cons token tokens =>
      obtain ⟨after, hcall, hmore⟩ := h
      simp [strtokCalls, hcall, ih hmore, Function.comp_def]

theorem foldTokens_of_yields {β : Type*} (f : β → Token α → β) (b : β) {save : List α}
    {tokens : List (Token α)} (h : Yields nul delim save tokens) :
    foldTokens nul delim f b save = some (tokens.foldl f b) := by
  induction tokens generalizing save b with
  | nil =>
    obtain ⟨after, hcall⟩ := h
    rw [foldTokens]
    split <;> simp_all
  | cons token tokens ih =>
    obtain ⟨after, hcall, hmore⟩ := h
    rw [foldTokens, List.foldl_cons, ← ih (f b token) hmore]
    split <;> simp_all

/-! ## The fields as tokens -/

/-- The tokens of a string are its fields that are not empty. -/
theorem yields_delimited (hnul : nul ∉ delim) {fields : List (α × List α)}
    (hfields : ∀ f ∈ fields, f.1 ∈ delim ∧ ∀ c ∈ f.2, isText nul delim c) (junk : List α) :
    Yields nul delim (delimited fields ++ nul :: junk)
      ((pointers (nul :: junk) fields).filter Token.nonEmpty) := by
  induction fields with
  | nil => exact ⟨junk, strtokR_nul hnul junk⟩
  | cons f more ih =>
    obtain ⟨hd, htext⟩ := hfields f (by simp)
    have hmore := ih fun g hg => hfields g (by simp [hg])
    have hsplit : delimited (f :: more) ++ nul :: junk =
        f.1 :: (f.2 ++ (delimited more ++ nul :: junk)) := by
      simp [delimited]
    rw [hsplit, yields_delim_iff hd]
    by_cases hempty : f.2 = []
    · simpa [pointers, Token.nonEmpty, hempty] using hmore
    · have hfilter : (pointers (nul :: junk) (f :: more)).filter Token.nonEmpty =
          ⟨f.2 ++ (delimited more ++ nul :: junk), f.2⟩ ::
            (pointers (nul :: junk) more).filter Token.nonEmpty := by
        rw [pointers, List.filter_cons_of_pos (by simp [Token.nonEmpty, hempty])]
      rw [hfilter]
      cases more with
      | nil =>
        refine ⟨nul :: junk, ?_, hmore⟩
        simpa [delimited, isText] using
          strtokR_text hempty htext (show isText nul delim nul = false by simp [isText]) junk
      | cons g rest =>
        obtain ⟨hg, -⟩ := hfields g (by simp)
        have hgnul : g.1 ≠ nul := fun h => hnul (h ▸ hg)
        refine ⟨g.2 ++ (delimited rest ++ nul :: junk), ?_, ?_⟩
        · have hstop : isText nul delim g.1 = false := by simp [isText, hg]
          simpa [delimited, hgnul] using
            strtokR_text hempty htext hstop (g.2 ++ (delimited rest ++ nul :: junk))
        · refine (yields_delim_iff hg _ _).mp ?_
          simpa [delimited] using hmore

/-- The same behind the first delimiter. -/
theorem yields_behindDelim (hnul : nul ∉ delim) {fields : List (α × List α)}
    (hfields : ∀ f ∈ fields, f.1 ∈ delim ∧ ∀ c ∈ f.2, isText nul delim c) (junk : List α) :
    Yields nul delim (behindDelim fields ++ nul :: junk)
      ((pointers (nul :: junk) fields).filter Token.nonEmpty) := by
  have h := yields_delimited hnul hfields junk
  cases fields with
  | nil => exact h
  | cons f more =>
    rw [← yields_delim_iff (hfields f (by simp)).1]
    simpa [delimited, behindDelim] using h

/-! ## Positions -/

/-- An element moves to the front only. -/
theorem le_of_getElem?_filter {β : Type*} {l : List β} (hl : l.Nodup) {p : β → Bool} {i j : ℕ}
    {b : β} (hi : (l.filter p)[i]? = some b) (hj : l[j]? = some b) : i ≤ j := by
  induction l generalizing i j with
  | nil => simp at hj
  | cons c more ih =>
    obtain ⟨hc, hmore⟩ := List.nodup_cons.mp hl
    have hbehind {k : ℕ} (hk : (more.filter p)[k]? = some b) :
        ∃ j', j = j' + 1 ∧ more[j']? = some b := by
      cases j with
      | zero =>
        have hcb : c = b := by simpa using hj
        exact absurd (List.mem_filter.mp (List.mem_of_getElem? hk)).1 (hcb ▸ hc)
      | succ j' => exact ⟨j', rfl, by simpa using hj⟩
    by_cases hp : p c
    · rw [List.filter_cons_of_pos hp] at hi
      cases i with
      | zero => exact Nat.zero_le j
      | succ i =>
        obtain ⟨j', rfl, hj'⟩ := hbehind (k := i) (by simpa using hi)
        exact Nat.succ_le_succ (ih hmore (by simpa using hi) hj')
    · rw [List.filter_cons_of_neg hp] at hi
      obtain ⟨j', rfl, hj'⟩ := hbehind hi
      exact (ih hmore hi hj').trans (Nat.le_succ j')

/-- Without the elements that do not pass, an element keeps its place exactly when all in front
of it pass; where none is to be there, too few may be left. -/
theorem getElem?_filter_eq_iff {β : Type*} {l : List β} (hl : l.Nodup) (p : β → Bool) (i : ℕ) :
    (l.filter p)[i]? = l[i]?.filter p ↔
      (i < l.length ∧ ∀ b ∈ l.take (i + 1), p b) ∨
        (l[i]?.filter p = none ∧ (l.filter p).length ≤ i) := by
  induction l generalizing i with
  | nil => simp
  | cons b more ih =>
    obtain ⟨hb, hmore⟩ := List.nodup_cons.mp hl
    by_cases hp : p b
    · rw [List.filter_cons_of_pos hp]
      cases i with
      | zero => simp [hp, Option.filter]
      | succ i => simpa [hp] using ih hmore i
    · rw [List.filter_cons_of_neg hp]
      have hfirst : ¬(i < (b :: more).length ∧ ∀ c ∈ (b :: more).take (i + 1), p c) :=
        fun h => hp (h.2 b (by simp))
      rw [or_iff_right hfirst]
      constructor
      · intro h
        cases hplace : (b :: more)[i]?.filter p with
        | none => exact ⟨rfl, List.getElem?_eq_none_iff.mp (h.trans hplace)⟩
        | some c =>
          obtain ⟨hc, hpc⟩ := Option.filter_eq_some_iff.mp hplace
          cases i with
          | zero =>
            have hbc : b = c := by simpa using hc
            exact absurd hpc (hbc ▸ hp)
          | succ i =>
            have hle := le_of_getElem?_filter hmore (h.trans hplace) (by simpa using hc)
            omega
      · rintro ⟨hplace, hlen⟩
        rw [hplace]
        exact List.getElem?_eq_none_iff.mpr hlen

end Nos3.Base.Strtok
