import Nos3.Fs.Source.BackgroundDump
import Mathlib.Data.List.Nodup
import Mathlib.Data.List.Basic

/-!
# Background dumps are whole and in order

However a dump is cut into slices, the file operations and the events of the accepted requests
follow each other in the order of the requests, each as if it had been dumped at once.
-/
namespace Nos3.Fs
open Nos3.Base.Transition (Machine)
open Function (update update_self update_of_ne)

/-! ## A dump at once -/

/-- The records from a number on, where the file has a size so far. An error at the last record
is followed by the completion all the same. -/
inductive Records (job : Job) : Nat → Nat → List Output → Prop
  | last {n size : Nat} : job.getData n = (true, []) →
    Records job n size [.close, .event .complete (n + 1) size]
  | lastRecord {n size : Nat} {data : List (BitVec 8)} : job.getData n = (true, data) →
    0 < data.length → job.writeOk n = true →
    Records job n size
      [.write n data true, .close, .event .complete (n + 1) (size + data.length)]
  | lastError {n size : Nat} {data : List (BitVec 8)} : job.getData n = (true, data) →
    0 < data.length → job.writeOk n = false →
    Records job n size
      [.write n data false, .close, .event .recordWriteError n size, .close,
        .event .complete n size]
  | error {n size : Nat} {data : List (BitVec 8)} : job.getData n = (false, data) →
    0 < data.length → job.writeOk n = false →
    Records job n size [.write n data false, .close, .event .recordWriteError n size]
  | hole {n size : Nat} {rest : List Output} : job.getData n = (false, []) →
    Records job (n + 1) size rest → Records job n size rest
  | record {n size : Nat} {data : List (BitVec 8)} {rest : List Output} :
    job.getData n = (false, data) → 0 < data.length → job.writeOk n = true →
    Records job (n + 1) (size + data.length) rest →
    Records job n size (.write n data true :: rest)

/-- A header that cannot be written is reported with the numbers of the file before. -/
inductive Dumped (job : Job) : List Output → Prop
  | createError : job.createOk = false → Dumped job [.create false, .event .createError 0 0]
  | headerError {n size : Nat} : job.createOk = true → job.headerOk = false →
    Dumped job [.create true, .writeHeader false, .close, .event .headerWriteError n size]
  | records {rest : List Output} : job.createOk = true → job.headerOk = true →
    Records job 0 sizeofHeader rest → Dumped job (.create true :: .writeHeader true :: rest)

/-- What is written of an open file, behind the outputs of the files before it. -/
def Underway (job : Job) (before : List Output) (f : CurrentFile) : Prop :=
  ∃ done, f.trace = before ++ done ∧
    ∀ rest, Records job f.recordNum f.fileSize rest → Dumped job (done ++ rest)

/-- The file is open and under way, or it is closed and dumped. -/
def Sliced (job : Job) (before : List Output) (f : CurrentFile) : Prop :=
  f.fd = true ∧ Underway job before f ∨
    f.fd = false ∧ ∃ outputs, Dumped job outputs ∧ f.trace = before ++ outputs

section Slices
variable {job : Job} {before : List Output} {f : CurrentFile}

theorem Underway.closed {f' : CurrentFile} {rest : List Output} (h : Underway job before f)
    (hrest : Records job f.recordNum f.fileSize rest) (hfd : f'.fd = false)
    (htrace : f'.trace = f.trace ++ rest) : Sliced job before f' := by
  obtain ⟨done, hdone, hall⟩ := h
  refine .inr ⟨hfd, done ++ rest, hall rest hrest, ?_⟩
  rw [htrace, hdone, List.append_assoc]

theorem sliced_openFile (hfd : f.trace = before) :
    Sliced job before (openFile job f) := by
  unfold openFile
  cases hcreate : job.createOk with
  | false => exact .inr ⟨rfl, _, .createError hcreate, by rw [← hfd]; rfl⟩
  | true =>
    cases hheader : job.headerOk with
    | false => exact .inr ⟨rfl, _, .headerError hcreate hheader, by rw [← hfd]; rfl⟩
    | true =>
      refine .inl ⟨rfl, [.create true, .writeHeader true], by rw [← hfd]; rfl, fun rest hrest => ?_⟩
      exact .records hcreate hheader hrest

/-- A slice that ends within a file leaves it under way, and one that ends it has dumped it. -/
theorem sliced_writeRecords {fuel : Nat} {isEOF : Bool} {f' : CurrentFile}
    (h : Sliced job before f) (hwrite : writeRecords job fuel false f = some (isEOF, f')) :
    Sliced job before (closeFile isEOF f') := by
  induction fuel generalizing f with
  | zero =>
    unfold writeRecords at hwrite
    split at hwrite
    · cases hwrite
    · cases hwrite
      exact h
  | succ fuel ih =>
    unfold writeRecords at hwrite
    split at hwrite
    case isFalse =>
      cases hwrite
      exact h
    case isTrue hopen =>
      have hway : Underway job before f := by
        rcases h with ⟨-, hway⟩ | ⟨hclosed, -⟩
        · exact hway
        · rw [hopen.1] at hclosed
          cases hclosed
      cases hdata : job.getData f.recordNum with
      | mk last data =>
        rw [hdata] at hwrite
        dsimp only at hwrite
        by_cases hlength : 0 < data.length
        · rw [if_pos hlength] at hwrite
          cases hok : job.writeOk f.recordNum with
          | true =>
            rw [hok, if_pos rfl] at hwrite
            cases last with
            | true =>
              unfold writeRecords at hwrite
              rw [if_neg (by simp)] at hwrite
              cases hwrite
              exact hway.closed (.lastRecord hdata hlength hok) rfl (by simp [closeFile])
            | false =>
              refine ih ?_ hwrite
              obtain ⟨done, hdone, hall⟩ := hway
              refine .inl ⟨hopen.1, done ++ [.write f.recordNum data true], ?_,
                fun rest hrest => ?_⟩
              · show f.trace ++ _ = _
                rw [hdone, List.append_assoc]
              · have hwhole := hall _ (.record hdata hlength hok hrest)
                simpa using hwhole
          | false =>
            rw [hok, if_neg (by decide)] at hwrite
            cases hwrite
            cases isEOF with
            | true => exact hway.closed (.lastError hdata hlength hok) rfl (by simp [closeFile])
            | false => exact hway.closed (.error hdata hlength hok) rfl rfl
        · rw [if_neg hlength] at hwrite
          have hnone : data = [] := List.eq_nil_of_length_eq_zero (by omega)
          subst hnone
          cases last with
          | true =>
            unfold writeRecords at hwrite
            rw [if_neg (by simp)] at hwrite
            cases hwrite
            exact hway.closed (.last hdata) rfl rfl
          | false =>
            refine ih ?_ hwrite
            obtain ⟨done, hdone, hall⟩ := hway
            exact .inl ⟨hopen.1, done, hdone, fun rest hrest => hall rest (.hole hdata hrest)⟩

/-- A slice ends when the records do, however many of them are empty. -/
theorem writeRecords_isSome {n : Nat} (hlast : (job.getData n).1 = true) (fuel : Nat)
    (hfrom : f.fd = true → f.recordNum ≤ n ∧ n < f.recordNum + fuel) :
    (writeRecords job fuel false f).isSome = true := by
  induction fuel generalizing f with
  | zero =>
    unfold writeRecords
    split
    case isTrue hopen =>
      have hbounds := hfrom hopen.1
      omega
    case isFalse => rfl
  | succ fuel ih =>
    unfold writeRecords
    split
    case isFalse => rfl
    case isTrue hopen =>
      obtain ⟨hle, hlt⟩ := hfrom hopen.1
      have hstop : ∀ g, (writeRecords job fuel true g).isSome = true := by
        intro g
        unfold writeRecords
        rw [if_neg (by simp)]
        rfl
      have hmore : (job.getData f.recordNum).1 = false → f.recordNum + 1 ≤ n := by
        intro hnot
        refine Nat.lt_of_le_of_ne hle fun heq => ?_
        rw [heq, hlast] at hnot
        cases hnot
      cases hdata : job.getData f.recordNum with
      | mk last data =>
        rw [hdata] at hmore
        dsimp only at hmore ⊢
        split
        · split
          · cases last with
            | true => exact hstop _
            | false => exact ih fun _ => ⟨hmore rfl, by dsimp only; omega⟩
          · rfl
        · cases last with
          | true => exact hstop _
          | false => exact ih fun _ => ⟨hmore rfl, by dsimp only; omega⟩

theorem openFile_recordNum (h : (openFile job f).fd = true) : (openFile job f).recordNum = 0 := by
  unfold openFile at h ⊢
  split at h
  · rename_i hcreate
    rw [if_pos hcreate]
    split at h
    · rename_i hheader
      rw [if_pos hheader]
    · cases h
  · cases h

end Slices

/-! ## The queue of requests -/

/-- The requests that are not complete are queued in their order, none of them twice. -/
structure Queued {ι : Type} (s : FileDump ι) : Prop where
  requestCount : s.requestCount = BitVec.ofNat 32 s.accepted.length
  completeCount : s.completeCount = BitVec.ofNat 32 s.completed
  completed_le : s.completed ≤ s.accepted.length
  room : s.accepted.length ≤ s.completed + 3
  entries : ∀ k requestor, s.completed ≤ k → s.accepted[k]? = some requestor →
    s.entries (entryIndex (BitVec.ofNat 32 k)) = some requestor
  pending : ∀ requestor,
    s.isPending requestor = true ↔ requestor ∈ s.accepted.drop s.completed
  nodup : (s.accepted.drop s.completed).Nodup

theorem entryIndex_ofNat (k : Nat) : (entryIndex (BitVec.ofNat 32 k)).val = k % 4 := by
  have hmask : (3 : BitVec 32).toNat = 2 ^ 2 - 1 := rfl
  simp only [entryIndex, BitVec.toNat_and, BitVec.toNat_ofNat, hmask,
    Nat.and_two_pow_sub_one_eq_mod]
  omega

theorem entryIndex_ne {i j : Nat} (hij : i < j) (hnear : j < i + 4) :
    entryIndex (BitVec.ofNat 32 i) ≠ entryIndex (BitVec.ofNat 32 j) := by
  intro heq
  have hval := congrArg Fin.val heq
  rw [entryIndex_ofNat, entryIndex_ofNat] at hval
  omega

section Queue
variable {ι : Type} {s s' : FileDump ι} {data : ι → MetaData} {jobs : Nat → Job} {requestor : ι}

/-- The request that is being served. -/
theorem Queued.head (h : Queued s) (hmore : s.completeCount ≠ s.requestCount) :
    ∃ requestor, s.accepted.drop s.completed = requestor :: s.accepted.drop (s.completed + 1) ∧
      s.entries (entryIndex s.completeCount) = some requestor := by
  have hlt : s.completed < s.accepted.length := by
    refine Nat.lt_of_le_of_ne h.completed_le fun heq => hmore ?_
    rw [h.completeCount, h.requestCount, heq]
  refine ⟨s.accepted[s.completed], List.drop_eq_getElem_cons hlt, ?_⟩
  rw [h.completeCount]
  exact h.entries s.completed _ (Nat.le_refl _) (List.getElem?_eq_getElem hlt)

variable [DecidableEq ι]

/-- A request is turned down, or it goes behind the others. -/
theorem request_cases (data : ι → MetaData) (requestor : ι) (s : FileDump ι) :
    (backgroundFileDumpRequest data requestor s).2 = s ∨
    s.isPending requestor = false ∧ s.requestCount + 1 ≠ s.completeCount + 4 ∧
      (backgroundFileDumpRequest data requestor s).2 =
        { s with
          entries := update s.entries (entryIndex s.requestCount) (some requestor)
          isPending := update s.isPending requestor true
          requestCount := s.requestCount + 1
          accepted := s.accepted ++ [requestor] } := by
  unfold backgroundFileDumpRequest
  split
  · exact .inl rfl
  split
  · exact .inl rfl
  split
  · exact .inl rfl
  split
  · exact .inl rfl
  rename_i hfree
  dsimp only
  split
  · exact .inl rfl
  rename_i hroom
  exact .inr ⟨by simpa using hfree, hroom, rfl⟩

theorem Queued.push (h : Queued s) (hfree : s.isPending requestor = false)
    (hroom : s.requestCount + 1 ≠ s.completeCount + 4) :
    Queued
      { s with
        entries := update s.entries (entryIndex s.requestCount) (some requestor)
        isPending := update s.isPending requestor true
        requestCount := s.requestCount + 1
        accepted := s.accepted ++ [requestor] } := by
  have hlength : (s.accepted ++ [requestor]).length = s.accepted.length + 1 := by simp
  have hdrop : (s.accepted ++ [requestor]).drop s.completed =
      s.accepted.drop s.completed ++ [requestor] :=
    List.drop_append_of_le_length h.completed_le
  have hnew : requestor ∉ s.accepted.drop s.completed := by
    rw [← h.pending, hfree]
    decide
  have hfew : s.accepted.length ≤ s.completed + 2 := by
    by_contra hmany
    have hfull : s.accepted.length = s.completed + 3 := by
      have hle := h.room
      omega
    refine hroom ?_
    rw [h.requestCount, h.completeCount, hfull, BitVec.ofNat_add s.completed 3, BitVec.add_assoc]
    rfl
  refine
    { requestCount := ?_
      completeCount := h.completeCount
      completed_le := by rw [hlength]; exact Nat.le_succ_of_le h.completed_le
      room := by
        show (s.accepted ++ [requestor]).length ≤ s.completed + 3
        omega
      entries := fun k other hk hother => ?_
      pending := fun other => ?_
      nodup := ?_ }
  · show s.requestCount + 1 = BitVec.ofNat 32 (s.accepted ++ [requestor]).length
    rw [hlength, BitVec.ofNat_add, ← h.requestCount]
    rfl
  · have hk : s.completed ≤ k := hk
    dsimp only at hother ⊢
    rcases Nat.lt_trichotomy k s.accepted.length with hlt | rfl | hgt
    · rw [List.getElem?_append_left hlt] at hother
      rw [h.requestCount, update_of_ne (entryIndex_ne hlt (by omega))]
      exact h.entries k other hk hother
    · rw [List.getElem?_concat_length] at hother
      rw [h.requestCount, update_self]
      exact hother
    · rw [List.getElem?_eq_none (by rw [hlength]; omega)] at hother
      cases hother
  · dsimp only
    rw [hdrop, List.mem_append, List.mem_singleton]
    by_cases heq : other = requestor
    · subst heq
      simp
    · rw [update_of_ne heq, h.pending]
      simp [heq]
  · rw [hdrop, List.nodup_append]
    refine ⟨h.nodup, List.nodup_singleton _, fun x hx y hy heq => hnew ?_⟩
    rw [List.mem_singleton] at hy
    rwa [← hy, ← heq]

theorem Queued.pop (h : Queued s)
    (hhead : s.accepted.drop s.completed = requestor :: s.accepted.drop (s.completed + 1))
    (f : CurrentFile) :
    Queued
      { s with
        current := f
        entries := update s.entries (entryIndex s.completeCount) none
        completeCount := s.completeCount + 1
        isPending := update s.isPending requestor false
        completed := s.completed + 1 } := by
  have hlt : s.completed < s.accepted.length := by
    by_contra hnone
    rw [List.drop_eq_nil_of_le (by omega)] at hhead
    cases hhead
  have hnodup := h.nodup
  rw [hhead, List.nodup_cons] at hnodup
  refine
    { requestCount := h.requestCount
      completeCount := ?_
      completed_le := hlt
      room := ?_
      entries := fun k other hk hother => ?_
      pending := fun other => ?_
      nodup := hnodup.2 }
  · show s.completeCount + 1 = BitVec.ofNat 32 (s.completed + 1)
    rw [BitVec.ofNat_add, ← h.completeCount]
    rfl
  · show s.accepted.length ≤ s.completed + 1 + 3
    have hroom := h.room
    omega
  · have hk : s.completed < k := hk
    have hother : s.accepted[k]? = some other := hother
    have hbound : k < s.accepted.length := by
      by_contra hge
      rw [List.getElem?_eq_none (by omega)] at hother
      cases hother
    have hroom := h.room
    dsimp only
    rw [h.completeCount, update_of_ne (Ne.symm (entryIndex_ne hk (by omega)))]
    exact h.entries k other (by omega) hother
  · dsimp only
    by_cases heq : other = requestor
    · subst heq
      rw [update_self]
      exact iff_of_false (by decide) hnodup.1
    · rw [update_of_ne heq, h.pending, hhead, List.mem_cons]
      simp [heq]

/-! ## Runs -/

/-- The outputs are those of the completed requests, and of the one that is being served. -/
structure DumpOk (jobs : Nat → Job) (s : FileDump ι) : Prop where
  queued : Queued s
  outputs : ∃ dumps : List (List Output), dumps.length = s.completed ∧
    (∀ k outputs, dumps[k]? = some outputs → Dumped (jobs k) outputs) ∧
    (s.current.fd = false → s.current.trace = dumps.flatten) ∧
    (s.current.fd = true → s.completed < s.accepted.length ∧
      Underway (jobs s.completed) dumps.flatten s.current)

theorem dumpOk_run (h : DumpOk jobs s) {elapsedTime : BitVec 32} {fuel : Nat}
    (hnext : runBackgroundFileDump jobs elapsedTime fuel s = some s') : DumpOk jobs s' := by
  obtain ⟨dumps, hlength, hdumps, hclosed, hopen⟩ := h.outputs
  unfold runBackgroundFileDump at hnext
  dsimp only at hnext
  split at hnext
  case isTrue =>
    cases hnext
    exact ⟨{ h.queued with }, dumps, hlength, hdumps, hclosed, hopen⟩
  case isFalse hmore =>
    obtain ⟨requestor, hhead, hentry⟩ := h.queued.head hmore
    have hlt : s.completed < s.accepted.length := by
      by_contra hnone
      rw [List.drop_eq_nil_of_le (by omega)] at hhead
      cases hhead
    have hpending : s.isPending requestor = true := by
      rw [h.queued.pending, hhead]
      exact List.mem_cons_self
    rw [hentry] at hnext
    dsimp only at hnext
    have hslice : Sliced (jobs s.completed) dumps.flatten
        (if s.current.fd = false ∧ s.isPending requestor = true then
          openFile (jobs s.completed)
            { s.current with credit := addCredit elapsedTime s.current.credit }
        else { s.current with credit := addCredit elapsedTime s.current.credit }) := by
      cases hfd : s.current.fd with
      | false =>
        rw [if_pos ⟨rfl, hpending⟩]
        exact sliced_openFile (hclosed hfd)
      | true =>
        rw [if_neg (by simp)]
        exact .inl ⟨hfd, (hopen hfd).2⟩
    generalize (if s.current.fd = false ∧ s.isPending requestor = true then
      openFile (jobs s.completed)
        { s.current with credit := addCredit elapsedTime s.current.credit }
      else { s.current with credit := addCredit elapsedTime s.current.credit }) = f
      at hslice hnext
    cases hwrite : writeRecords (jobs s.completed) fuel false f with
    | none =>
      rw [hwrite] at hnext
      cases hnext
    | some result =>
      obtain ⟨isEOF, f'⟩ := result
      rw [hwrite] at hnext
      dsimp only at hnext
      have hend := sliced_writeRecords hslice hwrite
      generalize closeFile isEOF f' = g at hend hnext
      rcases hend with ⟨hfd, hway⟩ | ⟨hfd, outputs, hdumped, htrace⟩
      · rw [hfd, if_neg (by decide)] at hnext
        cases hnext
        refine ⟨{ h.queued with }, dumps, hlength, hdumps, fun hclosed => ?_, fun _ => ⟨hlt, hway⟩⟩
        have hclosed : g.fd = false := hclosed
        rw [hfd] at hclosed
        cases hclosed
      · rw [if_pos hfd] at hnext
        cases hnext
        refine ⟨h.queued.pop hhead g, dumps ++ [outputs], ?_, fun k later hk => ?_, fun _ => ?_,
          fun hopened => ?_⟩
        · show (dumps ++ [outputs]).length = s.completed + 1
          rw [List.length_append, hlength, List.length_singleton]
        · rcases Nat.lt_trichotomy k dumps.length with hk' | rfl | hk'
          · rw [List.getElem?_append_left hk'] at hk
            exact hdumps k later hk
          · rw [List.getElem?_concat_length] at hk
            cases hk
            rw [hlength]
            exact hdumped
          · rw [List.getElem?_eq_none (by rw [List.length_append, List.length_singleton]; omega)]
              at hk
            cases hk
        · show g.trace = _
          rw [htrace, List.flatten_append, List.flatten_singleton]
        · have hopened : g.fd = true := hopened
          rw [hfd] at hopened
          cases hopened

theorem dumpOk_step (h : DumpOk jobs s) {call : DumpCall ι}
    (hnext : (dumpMachine ι data jobs).next s call = some s') : DumpOk jobs s' := by
  cases call with
  | run elapsedTime fuel => exact dumpOk_run h hnext
  | request requestor =>
    have hrequest : (backgroundFileDumpRequest data requestor s).2 = s' := Option.some.inj hnext
    rcases request_cases data requestor s with hsame | ⟨hfree, hroom, hnew⟩
    · rw [← hrequest, hsame]
      exact h
    · rw [← hrequest, hnew]
      obtain ⟨dumps, hlength, hdumps, hclosed, hopen⟩ := h.outputs
      refine ⟨h.queued.push hfree hroom, dumps, hlength, hdumps, hclosed, fun hfd => ?_⟩
      obtain ⟨hlt, hway⟩ := hopen hfd
      refine ⟨?_, hway⟩
      show s.completed < (s.accepted ++ [requestor]).length
      rw [List.length_append]
      omega

theorem reachable_dumpOk (h : (dumpMachine ι data jobs).Reachable s) : DumpOk jobs s := by
  refine h.invariant ?_ fun _ _ _ hinv hnext => dumpOk_step hinv hnext
  rintro s rfl
  refine ⟨?_, [], rfl, fun k outputs hk => (by cases hk), fun _ => rfl,
    fun hfd => (by cases hfd)⟩
  exact
    { requestCount := rfl
      completeCount := rfl
      completed_le := Nat.le_refl 0
      room := Nat.zero_le 3
      entries := fun k requestor _ hk => by cases hk
      pending := fun requestor => iff_of_false Bool.false_ne_true List.not_mem_nil
      nodup := List.nodup_nil }

theorem run_isSome (h : DumpOk jobs s) {n : Nat}
    (hlast : ((jobs s.completed).getData n).1 = true)
    (hfrom : s.current.fd = true → s.current.recordNum ≤ n) (elapsedTime : BitVec 32)
    {fuel : Nat} (hfuel : n < fuel) :
    (runBackgroundFileDump jobs elapsedTime fuel s).isSome = true := by
  unfold runBackgroundFileDump
  dsimp only
  split
  case isTrue => rfl
  case isFalse hmore =>
    obtain ⟨requestor, hhead, hentry⟩ := h.queued.head hmore
    rw [hentry]
    dsimp only
    have hsome : (writeRecords (jobs s.completed) fuel false
        (if s.current.fd = false ∧ s.isPending requestor = true then
          openFile (jobs s.completed)
            { s.current with credit := addCredit elapsedTime s.current.credit }
        else { s.current with credit := addCredit elapsedTime s.current.credit })).isSome =
          true := by
      refine writeRecords_isSome hlast fuel fun hopened => ?_
      split at hopened
      case isTrue hnew =>
        rw [if_pos hnew, openFile_recordNum hopened]
        omega
      case isFalse hnew =>
        rw [if_neg hnew]
        have hle := hfrom hopened
        dsimp only
        omega
    obtain ⟨result, hresult⟩ := Option.isSome_iff_exists.mp hsome
    rw [hresult]
    dsimp only
    split <;> rfl

/-- The outputs of the requests follow each other as if each had been dumped at once, in the
order in which they were accepted, and a requestor is free again when its dump is complete. A
slice ends when the records do. -/
theorem dumps_whole_and_in_order (h : (dumpMachine ι data jobs).Reachable s) :
    (∃ dumps : List (List Output), dumps.length = s.completed ∧
      (∀ k outputs, dumps[k]? = some outputs → Dumped (jobs k) outputs) ∧
      ∃ done, s.current.trace = dumps.flatten ++ done ∧
        ((s.current.fd = false ∧ done = []) ∨ s.current.fd = true ∧
          ∀ rest, Records (jobs s.completed) s.current.recordNum s.current.fileSize rest →
            Dumped (jobs s.completed) (done ++ rest))) ∧
    (s.accepted.drop s.completed).Nodup ∧
    s.completed ≤ s.accepted.length ∧ s.accepted.length < s.completed + 4 ∧
    (∀ requestor, s.isPending requestor = true ↔ requestor ∈ s.accepted.drop s.completed) ∧
    ∀ n elapsedTime fuel, ((jobs s.completed).getData n).1 = true →
      (s.current.fd = true → s.current.recordNum ≤ n) → n < fuel →
      (runBackgroundFileDump jobs elapsedTime fuel s).isSome = true := by
  have hok := reachable_dumpOk h
  have hqueued := hok.queued
  obtain ⟨dumps, hlength, hdumps, hclosed, hopen⟩ := hok.outputs
  refine ⟨⟨dumps, hlength, hdumps, ?_⟩, hqueued.nodup, hqueued.completed_le,
    Nat.lt_succ_of_le hqueued.room, hqueued.pending,
    fun n elapsedTime fuel hlast hfrom hfuel => run_isSome hok hlast hfrom elapsedTime hfuel⟩
  cases hfd : s.current.fd with
  | false => exact ⟨[], by rw [hclosed hfd, List.append_nil], .inl ⟨rfl, rfl⟩⟩
  | true =>
    obtain ⟨-, done, hdone, hall⟩ := hopen hfd
    exact ⟨done, hdone, .inr ⟨rfl, hall⟩⟩

end Queue

/-- Two records of one octet each, dumped in two slices. -/
def twoRecords (_ : Nat) : Job :=
  ⟨true, true, fun n => (n == 1, [BitVec.ofNat 8 n]), fun _ => true⟩

def firstDone (s : FileDump Unit) : Bool := s.completed == 1

theorem dumps_whole_and_in_order_two :
    ∃ s, (dumpMachine Unit (fun _ => ⟨false, true, true, false⟩) twoRecords).Reachable s ∧
      ∃ dumps : List (List Output), dumps.length = 1 ∧
        ∀ k outputs, dumps[k]? = some outputs → Dumped (twoRecords k) outputs := by
  obtain ⟨s, hs, hdone⟩ := Machine.exists_reaches
    (M := dumpMachine Unit (fun _ => ⟨false, true, true, false⟩) twoRecords) (fun _ _ => True)
    firstDone (s := FileDump.initial Unit) rfl [.request (), .run 65 3, .run 10 3] (by decide)
  obtain ⟨dumps, hlength, hdumps, -⟩ := (dumps_whole_and_in_order hs).1
  refine ⟨s, hs, dumps, ?_, hdumps⟩
  rw [hlength]
  exact eq_of_beq hdone

end Nos3.Fs
