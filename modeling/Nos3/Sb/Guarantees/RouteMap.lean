import Nos3.Sb.Source.Routing
import Nos3.Base.LinearProbing
import Mathlib.Data.List.Nodup

/-!
# The map from message ids to routes

Routes are added for ids that have none. What the tables hold is then the list of the
ids in the order in which they were added, and either map finds the place of an id in
that list.
-/
namespace Nos3.Sb.Sbr
open Function (update update_self update_of_ne)
open Nos3.Base.LinearProbing

variable {impl impl' : MsgMap} {added : List MsgId} {msgId : MsgId} {i : Nat}

/-! ## Route ids -/

theorem toNat_valueToRouteId (hi : i < CFE_PLATFORM_SB_MAX_MSG_IDS) :
    (valueToRouteId i).toNat = i + 1 := by
  unfold CFE_PLATFORM_SB_MAX_MSG_IDS at hi
  rw [valueToRouteId, BitVec.toNat_ofNat]
  omega

theorem isValid_valueToRouteId (hi : i < CFE_PLATFORM_SB_MAX_MSG_IDS) :
    isValidRouteId (valueToRouteId i) = true := by
  have hnat := toNat_valueToRouteId hi
  have hne : valueToRouteId i ≠ 0 := by
    intro hzero
    rw [hzero] at hnat
    exact absurd hnat (Nat.succ_ne_zero i).symm
  rw [isValidRouteId, hnat, Bool.and_eq_true]
  exact ⟨decide_eq_true hne, decide_eq_true (Nat.succ_le_of_lt hi)⟩

theorem value_valueToRouteId (hi : i < CFE_PLATFORM_SB_MAX_MSG_IDS) :
    (routeIdToValue (valueToRouteId i)).toNat = i := by
  have hnat := toNat_valueToRouteId hi
  unfold CFE_PLATFORM_SB_MAX_MSG_IDS at hi
  have hone : (1 : RouteId).toNat = 1 := rfl
  rw [routeIdToValue, BitVec.toNat_sub, hnat, hone]
  omega

theorem routeIndex_valueToRouteId (hi : i < CFE_PLATFORM_SB_MAX_MSG_IDS) :
    routeIndex (valueToRouteId i) = ⟨i, hi⟩ := by
  refine Fin.ext ?_
  rw [routeIndex, Fin.val_ofNat, value_valueToRouteId hi, Nat.mod_eq_of_lt hi]

/-! ## The list behind the tables -/

/-- The route of an id is its place in the list. -/
def routeOf (added : List MsgId) (msgId : MsgId) : RouteId :=
  if msgId ∈ added then valueToRouteId (added.idxOf msgId) else CFE_SBR_INVALID_ROUTE_ID

/-- The ids that have a route. -/
structure Listed (added : List MsgId) (getMsgId : RouteId → MsgId) : Prop where
  bound : added.length ≤ CFE_PLATFORM_SB_MAX_MSG_IDS
  nodup : added.Nodup
  valid : ∀ msgId ∈ added, isValidMsgId msgId = true
  entries : ∀ i msgId, added[i]? = some msgId → getMsgId (valueToRouteId i) = msgId

/-- A map that keeps the places of the ids. -/
structure Represents (impl : MsgMap) where
  Holds : List MsgId → impl.Map → Prop
  init : Holds [] impl.initMap
  get : ∀ {added map getMsgId}, Holds added map → Listed added getMsgId → ∀ msgId,
    impl.getRouteId getMsgId msgId map = some (routeOf added msgId)
  set : ∀ {added map getMsgId}, Holds added map → Listed added getMsgId →
    added.length < CFE_PLATFORM_SB_MAX_MSG_IDS → ∀ msgId, isValidMsgId msgId = true →
    msgId ∉ added →
    ∃ collisions map',
      impl.setRouteId msgId (valueToRouteId added.length) map = some (collisions, map') ∧
      Holds (added ++ [msgId]) map'

theorem routeOf_of_mem (hbound : added.length ≤ CFE_PLATFORM_SB_MAX_MSG_IDS) (h : msgId ∈ added) :
    isValidRouteId (routeOf added msgId) = true := by
  rw [routeOf, if_pos h]
  exact isValid_valueToRouteId ((List.idxOf_lt_length_of_mem h).trans_le hbound)

theorem isValid_routeOf (hbound : added.length ≤ CFE_PLATFORM_SB_MAX_MSG_IDS) :
    isValidRouteId (routeOf added msgId) = true ↔ msgId ∈ added := by
  refine ⟨fun hvalid => ?_, routeOf_of_mem hbound⟩
  by_contra hno
  rw [routeOf, if_neg hno] at hvalid
  exact absurd hvalid (by decide)

theorem routeOf_append (habsent : msgId ∉ added) (other : MsgId) :
    routeOf (added ++ [msgId]) other =
      if other = msgId then valueToRouteId added.length else routeOf added other := by
  by_cases heq : other = msgId
  · subst heq
    rw [if_pos rfl, routeOf, if_pos (by simp), List.idxOf_append_of_notMem habsent]
    simp
  · rw [if_neg heq, routeOf, routeOf]
    by_cases hmem : other ∈ added
    · rw [if_pos hmem, if_pos (List.mem_append_left _ hmem), List.idxOf_append_of_mem hmem]
    · rw [if_neg hmem, if_neg (by simp [hmem, heq])]

/-- The route of an id leads back to it. -/
theorem Listed.getMsgId_routeOf {getMsgId : RouteId → MsgId} (h : Listed added getMsgId)
    (hmem : msgId ∈ added) : getMsgId (routeOf added msgId) = msgId := by
  rw [routeOf, if_pos hmem]
  refine h.entries _ _ ?_
  rw [List.getElem?_eq_getElem (List.idxOf_lt_length_of_mem hmem), List.getElem_idxOf]

theorem Listed.append {getMsgId getMsgId' : RouteId → MsgId} (h : Listed added getMsgId)
    (hlt : added.length < CFE_PLATFORM_SB_MAX_MSG_IDS) (hvalid : isValidMsgId msgId = true)
    (habsent : msgId ∉ added)
    (henter : ∀ i < CFE_PLATFORM_SB_MAX_MSG_IDS, getMsgId' (valueToRouteId i) =
      if i = added.length then msgId else getMsgId (valueToRouteId i)) :
    Listed (added ++ [msgId]) getMsgId' where
  bound := by
    rw [List.length_append]
    exact hlt
  nodup := by
    refine List.nodup_append.mpr ⟨h.nodup, List.nodup_singleton _, ?_⟩
    rintro x hx y hy rfl
    exact habsent (List.mem_singleton.mp hy ▸ hx)
  valid := by
    intro x hx
    rcases List.mem_append.mp hx with hold | hnew
    · exact h.valid x hold
    · exact List.mem_singleton.mp hnew ▸ hvalid
  entries := by
    intro i x hx
    have hi : i < added.length + 1 := by
      have hlen := List.length_append ▸ (List.getElem?_eq_some_iff.mp hx).1
      exact hlen
    rw [henter i (hi.trans_le hlt)]
    rcases Nat.lt_succ_iff_lt_or_eq.mp hi with hold | rfl
    · rw [if_neg hold.ne]
      rw [List.getElem?_append_left hold] at hx
      exact h.entries i x hx
    · rw [if_pos rfl]
      simpa using hx

/-! ## Adding routes, with any map -/

/-- The tables hold a list of ids. -/
structure Holding (rep : Represents impl) (s : Routes impl) (added : List MsgId) : Prop where
  top : s.routeIdxTop = added.length
  listed : Listed added s.getMsgId
  rest : ∀ i, added.length ≤ i → i < CFE_PLATFORM_SB_MAX_MSG_IDS →
    s.getMsgId (valueToRouteId i) = CFE_SB_INVALID_MSG_ID
  map : rep.Holds added s.map

/-- The calls of `CFE_SBR_AddRoute` since `CFE_SBR_Init`, with what they returned. -/
inductive Reached (impl : MsgMap) : List (MsgId × RouteId) → Routes impl → Prop
  | init : Reached impl [] (Routes.init impl)
  | add {calls : List (MsgId × RouteId)} {s s' : Routes impl} {msgId : MsgId}
      {found routeId : RouteId} {collisions : Nat} (before : Reached impl calls s)
      (lookup : s.getRouteId msgId = some found) (absent : isValidRouteId found = false)
      (call : s.addRoute msgId = some (routeId, collisions, s')) :
      Reached impl (calls ++ [(msgId, routeId)]) s'

/-- The ids of the calls that returned a valid route. -/
def addedBy (calls : List (MsgId × RouteId)) : List MsgId :=
  (calls.filter fun call => isValidRouteId call.2).map Prod.fst

theorem getMsgId_init (routeId : RouteId) :
    (Routes.init impl).getMsgId routeId = CFE_SB_INVALID_MSG_ID := by
  rw [RouteData.getMsgId]
  split
  · rfl
  · rfl

theorem holding_init (rep : Represents impl) : Holding rep (Routes.init impl) [] where
  top := rfl
  listed := ⟨Nat.zero_le _, List.nodup_nil, fun _ h => absurd h List.not_mem_nil,
    fun _ _ h => nomatch h⟩
  rest := fun _ _ _ => getMsgId_init _
  map := rep.init

section Add
variable {rep : Represents impl} {s : Routes impl}

theorem Holding.getRouteId (h : Holding rep s added) (msgId : MsgId) :
    s.getRouteId msgId = some (routeOf added msgId) := rep.get h.map h.listed msgId

/-- What is in the routing table once an id is written behind the others. -/
theorem getMsgId_enter {data : RouteData} (htop : data.routeIdxTop = added.length)
    (hlt : added.length < CFE_PLATFORM_SB_MAX_MSG_IDS) (msgId : MsgId)
    (hi : i < CFE_PLATFORM_SB_MAX_MSG_IDS) :
    (data.enter msgId).getMsgId (valueToRouteId i) =
      if i = added.length then msgId else data.getMsgId (valueToRouteId i) := by
  have hplace : Fin.ofNat CFE_PLATFORM_SB_MAX_MSG_IDS data.routeIdxTop = ⟨added.length, hlt⟩ := by
    refine Fin.ext ?_
    rw [Fin.val_ofNat, htop, Nat.mod_eq_of_lt hlt]
  rw [RouteData.getMsgId, RouteData.getMsgId, if_pos (isValid_valueToRouteId hi),
    if_pos (isValid_valueToRouteId hi), routeIndex_valueToRouteId hi, RouteData.enter, hplace]
  dsimp only
  by_cases heq : i = added.length
  · subst heq
    rw [if_pos rfl, update_self]
  · have hne : (⟨i, hi⟩ : Fin CFE_PLATFORM_SB_MAX_MSG_IDS) ≠ ⟨added.length, hlt⟩ :=
      fun hfin => heq (congrArg Fin.val hfin)
    rw [if_neg heq, update_of_ne hne]

/-- A route is added behind the others, as long as there is room. -/
theorem Holding.addRoute (h : Holding rep s added) (hvalid : isValidMsgId msgId = true)
    (habsent : msgId ∉ added) (hlt : added.length < CFE_PLATFORM_SB_MAX_MSG_IDS) :
    ∃ collisions s', s.addRoute msgId = some (valueToRouteId added.length, collisions, s') ∧
      impl.setRouteId msgId (valueToRouteId added.length) s.map = some (collisions, s'.map) ∧
      Holding rep s' (added ++ [msgId]) := by
  obtain ⟨collisions, map', hset, hmap⟩ := rep.set h.map h.listed hlt msgId hvalid habsent
  have htop : s.routeIdxTop < CFE_PLATFORM_SB_MAX_MSG_IDS := h.top ▸ hlt
  refine ⟨collisions, { s.enter msgId with map := map' }, ?_, hset, ?_⟩
  · rw [Routes.addRoute, if_pos ⟨hvalid, htop⟩, h.top]
    dsimp only
    rw [hset]
    rfl
  · have henter : ∀ i < CFE_PLATFORM_SB_MAX_MSG_IDS, (s.enter msgId).getMsgId (valueToRouteId i) =
        if i = added.length then msgId else s.getMsgId (valueToRouteId i) :=
      fun i hi => getMsgId_enter h.top hlt msgId hi
    refine ⟨?_, h.listed.append hlt hvalid habsent henter, fun i hge hi => ?_, hmap⟩
    · rw [List.length_append, ← h.top]
      rfl
    · rw [List.length_append] at hge
      have hne : i ≠ added.length := by
        rintro rfl
        exact absurd hge (Nat.not_succ_le_self _)
      exact (henter i hi).trans ((if_neg hne).trans (h.rest i (Nat.le_of_succ_le hge) hi))

/-- Without room, or for an id that is not valid, nothing changes. -/
theorem Holding.addRoute_refused (h : Holding rep s added)
    (hno : ¬(isValidMsgId msgId = true ∧ added.length < CFE_PLATFORM_SB_MAX_MSG_IDS)) :
    s.addRoute msgId = some (CFE_SBR_INVALID_ROUTE_ID, 0, s) := by
  rw [Routes.addRoute, h.top, if_neg hno]

/-- An id for which no valid route is found has not been added. -/
theorem Holding.absent (h : Holding rep s added) {found : RouteId}
    (hlookup : s.getRouteId msgId = some found) (hinvalid : isValidRouteId found = false) :
    msgId ∉ added := by
  intro hmem
  rw [h.getRouteId] at hlookup
  obtain rfl := Option.some.inj hlookup
  exact Bool.false_ne_true (hinvalid.symm.trans (routeOf_of_mem h.listed.bound hmem))

/-- What a call of `CFE_SBR_AddRoute` has done. -/
theorem Holding.addRoute_cases (h : Holding rep s added) (habsent : msgId ∉ added)
    {routeId : RouteId} {collisions : Nat} {s' : Routes impl}
    (hcall : s.addRoute msgId = some (routeId, collisions, s')) :
    ((isValidMsgId msgId = true ∧ added.length < CFE_PLATFORM_SB_MAX_MSG_IDS) ∧
      routeId = valueToRouteId added.length ∧
      impl.setRouteId msgId (valueToRouteId added.length) s.map = some (collisions, s'.map) ∧
      Holding rep s' (added ++ [msgId])) ∨
    (¬(isValidMsgId msgId = true ∧ added.length < CFE_PLATFORM_SB_MAX_MSG_IDS) ∧
      routeId = CFE_SBR_INVALID_ROUTE_ID ∧ s' = s) := by
  by_cases hok : isValidMsgId msgId = true ∧ added.length < CFE_PLATFORM_SB_MAX_MSG_IDS
  · obtain ⟨collisions', s'', hadd, hset, hholding⟩ := h.addRoute hok.1 habsent hok.2
    rw [hadd] at hcall
    obtain ⟨rfl, rfl, rfl⟩ : valueToRouteId added.length = routeId ∧
        collisions' = collisions ∧ s'' = s' := by simpa using hcall
    exact .inl ⟨hok, rfl, hset, hholding⟩
  · rw [h.addRoute_refused hok] at hcall
    obtain ⟨rfl, -, rfl⟩ : CFE_SBR_INVALID_ROUTE_ID = routeId ∧
        0 = collisions ∧ s = s' := by simpa using hcall
    exact .inr ⟨hok, rfl, rfl⟩

theorem addedBy_append (calls : List (MsgId × RouteId)) (msgId : MsgId) (routeId : RouteId) :
    addedBy (calls ++ [(msgId, routeId)]) =
      addedBy calls ++ if isValidRouteId routeId = true then [msgId] else [] := by
  rw [addedBy, addedBy, List.filter_append, List.map_append]
  congr 1
  by_cases hvalid : isValidRouteId routeId = true
  · simp [hvalid]
  · simp [hvalid]

/-- The tables hold the ids of the calls that returned a route. -/
theorem Reached.holding (rep : Represents impl) {calls : List (MsgId × RouteId)}
    {s : Routes impl} (h : Reached impl calls s) : Holding rep s (addedBy calls) := by
  induction h with
  | init => exact holding_init rep
  | add _ hlookup hinvalid hcall ih =>
    rw [addedBy_append]
    rcases ih.addRoute_cases (ih.absent hlookup hinvalid) hcall with
      ⟨hok, rfl, -, hholding⟩ | ⟨-, rfl, rfl⟩
    · rw [if_pos (isValid_valueToRouteId hok.2)]
      exact hholding
    · rw [if_neg (by decide), List.append_nil]
      exact ih

/-- A route that was returned stays the route of its id. -/
theorem Reached.routeOf_call (rep : Represents impl) {calls : List (MsgId × RouteId)}
    {s : Routes impl} (h : Reached impl calls s) {routeId : RouteId}
    (hmem : (msgId, routeId) ∈ calls) (hvalid : isValidRouteId routeId = true) :
    msgId ∈ addedBy calls ∧ routeId = routeOf (addedBy calls) msgId := by
  induction h with
  | init => exact absurd hmem List.not_mem_nil
  | @add calls s s' newId found newRoute collisions before hlookup hinvalid hcall ih =>
    have hholding := before.holding rep
    have habsent := hholding.absent hlookup hinvalid
    rw [addedBy_append]
    rcases hholding.addRoute_cases habsent hcall with ⟨hok, rfl, -, -⟩ | ⟨-, rfl, rfl⟩
    · rw [if_pos (isValid_valueToRouteId hok.2), routeOf_append habsent]
      rcases List.mem_append.mp hmem with hold | hnew
      · obtain ⟨hin, heq⟩ := ih hold
        have hne : msgId ≠ newId := fun h => habsent (h ▸ hin)
        exact ⟨List.mem_append_left _ hin, (if_neg hne).symm ▸ heq⟩
      · obtain ⟨rfl, rfl⟩ := Prod.mk.injEq .. ▸ List.mem_singleton.mp hnew
        exact ⟨by simp, (if_pos rfl).symm⟩
    · rw [if_neg (by decide), List.append_nil]
      rcases List.mem_append.mp hmem with hold | hnew
      · exact ih hold
      · obtain ⟨rfl, rfl⟩ := Prod.mk.injEq .. ▸ List.mem_singleton.mp hnew
        exact absurd hvalid (by decide)

end Add

/-- Two maps that keep the places of the ids agree on every sequence of calls. -/
theorem Reached.simulate (rep : Represents impl) (rep' : Represents impl')
    {calls : List (MsgId × RouteId)} {s : Routes impl} (h : Reached impl calls s) :
    ∃ s', Reached impl' calls s' ∧ ∀ msgId, s'.getRouteId msgId = s.getRouteId msgId := by
  have hsame : ∀ {calls s s'}, Reached impl calls s → Reached impl' calls s' →
      ∀ msgId, s'.getRouteId msgId = s.getRouteId msgId := by
    intro calls s s' hs hs' msgId
    rw [(hs.holding rep).getRouteId, (hs'.holding rep').getRouteId]
  suffices hrun : ∃ s', Reached impl' calls s' from
    hrun.imp fun s' hs' => ⟨hs', hsame h hs'⟩
  induction h with
  | init => exact ⟨_, .init⟩
  | @add calls s s' msgId found routeId collisions before hlookup hinvalid hcall ih =>
    obtain ⟨t, ht⟩ := ih
    have habsent := (before.holding rep).absent hlookup hinvalid
    have hlookup' := (hsame before ht msgId).trans hlookup
    rcases (before.holding rep).addRoute_cases habsent hcall with ⟨hok, rfl, -⟩ | ⟨hno, rfl, -⟩
    · obtain ⟨_, u, hadd, -⟩ := (ht.holding rep').addRoute hok.1 habsent hok.2
      exact ⟨u, ht.add hlookup' hinvalid hadd⟩
    · exact ⟨t, ht.add hlookup' hinvalid ((ht.holding rep').addRoute_refused hno)⟩

/-! ## The map by hash -/

theorem reduce_eq (hash : BitVec 32) : reduce hash = Fin.ofNat HASH_MAP_SIZE hash.toNat := by
  have hmask : (BitVec.ofNat 32 (HASH_MAP_SIZE - 1)).toNat = 2 ^ 10 - 1 := rfl
  refine Fin.ext ?_
  rw [reduce, Fin.val_ofNat, Fin.val_ofNat, BitVec.toNat_and, hmask, Nat.and_two_pow_sub_one_eq_mod]
  exact Nat.mod_mod _ _

theorem nextHash_eq (hash : HashSlot) : nextHash hash = ahead hash 1 := by
  have hlt : hash.val < 1024 := hash.isLt
  have hone : (1 : BitVec 32).toNat = 1 := rfl
  rw [nextHash, reduce_eq, ahead, BitVec.toNat_add, BitVec.toNat_ofNat, hone,
    Nat.mod_eq_of_lt (hlt.trans (by decide)), Nat.mod_eq_of_lt (by omega)]

section Loops
variable {map : HashSlot → RouteId} {getMsgId : RouteId → MsgId}

theorem setRouteLoop_eq (map : HashSlot → RouteId) (fuel : Nat) (hash : HashSlot)
    (collisions : Nat) :
    setRouteLoop map fuel hash collisions =
      (probe (fun slot => !isValidRouteId (map slot)) fuel hash).map fun (passed, slot) =>
        (collisions + passed, slot) := by
  induction fuel generalizing hash collisions with
  | zero => rfl
  | succ fuel ih =>
    rw [setRouteLoop, probe]
    cases hvalid : isValidRouteId (map hash) with
    | true =>
      rw [if_pos rfl, if_neg (by decide), ih, nextHash_eq, Option.map_map]
      congr 1
      funext found
      exact congrArg (·, found.2) (by omega)
    | false => rfl

theorem getRouteLoop_eq (getMsgId : RouteId → MsgId) (msgId : MsgId) (map : HashSlot → RouteId)
    (fuel : Nat) (hash : HashSlot) :
    getRouteLoop getMsgId msgId map fuel hash =
      (probe (fun slot => !decide (isValidRouteId (map slot) = true ∧
        getMsgId (map slot) ≠ msgId)) fuel hash).map fun found => map found.2 := by
  induction fuel generalizing hash with
  | zero => rfl
  | succ fuel ih =>
    rw [getRouteLoop, probe]
    by_cases hgo : isValidRouteId (map hash) = true ∧ getMsgId (map hash) ≠ msgId
    · rw [if_pos hgo, if_neg (by simp [hgo]), ih, nextHash_eq, Option.map_map]
      rfl
    · rw [if_neg hgo, if_pos (by rw [decide_eq_false hgo]; rfl)]
      rfl

/-- The ids in the slots. -/
def keys (added : List MsgId) (map : HashSlot → RouteId) : HashSlot → Option MsgId := fun slot =>
  if isValidRouteId (map slot) = true then added[(routeIdToValue (map slot)).toNat]? else none

/-- The map holds routes of the list and nothing else. -/
def Routed (added : List MsgId) (map : HashSlot → RouteId) : Prop :=
  ∀ slot, map slot = CFE_SBR_INVALID_ROUTE_ID ∨
    ∃ i < added.length, map slot = valueToRouteId i

theorem keys_of_invalid {slot : HashSlot} (h : map slot = CFE_SBR_INVALID_ROUTE_ID) :
    keys added map slot = none := by
  rw [keys, h]
  rfl

theorem keys_of_route {slot : HashSlot} (hbound : added.length ≤ CFE_PLATFORM_SB_MAX_MSG_IDS)
    (hi : i < added.length) (h : map slot = valueToRouteId i) :
    keys added map slot = some added[i] := by
  rw [keys, h, if_pos (isValid_valueToRouteId (hi.trans_le hbound)),
    value_valueToRouteId (hi.trans_le hbound), List.getElem?_eq_getElem hi]

theorem Routed.keys_eq_none (h : Routed added map)
    (hbound : added.length ≤ CFE_PLATFORM_SB_MAX_MSG_IDS) (slot : HashSlot) :
    keys added map slot = none ↔ map slot = CFE_SBR_INVALID_ROUTE_ID := by
  refine ⟨fun hnone => ?_, keys_of_invalid⟩
  rcases h slot with hzero | ⟨i, hi, hroute⟩
  · exact hzero
  · exact nomatch (keys_of_route hbound hi hroute).symm.trans hnone

theorem Routed.invalid_iff (h : Routed added map)
    (hbound : added.length ≤ CFE_PLATFORM_SB_MAX_MSG_IDS) (slot : HashSlot) :
    isValidRouteId (map slot) = false ↔ keys added map slot = none := by
  rw [h.keys_eq_none hbound]
  refine ⟨fun hinvalid => ?_, fun hzero => by rw [hzero]; rfl⟩
  rcases h slot with hzero | ⟨i, hi, hroute⟩
  · exact hzero
  · rw [hroute, isValid_valueToRouteId (hi.trans_le hbound)] at hinvalid
    exact nomatch hinvalid

/-- Where the search for an id stops. -/
theorem Routed.stop_iff (h : Routed added map)
    (hbound : added.length ≤ CFE_PLATFORM_SB_MAX_MSG_IDS)
    (hentries : ∀ i msgId, added[i]? = some msgId → getMsgId (valueToRouteId i) = msgId)
    (msgId : MsgId) (slot : HashSlot) :
    (!decide (isValidRouteId (map slot) = true ∧ getMsgId (map slot) ≠ msgId)) = true ↔
      keys added map slot = none ∨ keys added map slot = some msgId := by
  rcases h slot with hzero | ⟨i, hi, hroute⟩
  · have hinvalid : isValidRouteId (map slot) = false := by
      rw [hzero]
      rfl
    simp [keys_of_invalid hzero, hinvalid]
  · have hkey := hentries i added[i] (List.getElem?_eq_getElem hi)
    rw [keys_of_route hbound hi hroute, hroute, hkey]
    simp [isValid_valueToRouteId (hi.trans_le hbound)]

/-- The search for an id of the list. -/
theorem Routed.get_found (h : Routed added map)
    (hbound : added.length ≤ CFE_PLATFORM_SB_MAX_MSG_IDS)
    (hentries : ∀ i msgId, added[i]? = some msgId → getMsgId (valueToRouteId i) = msgId)
    (hvalid : isValidMsgId msgId = true) {k : Nat}
    (hfound : Found (keys added map) msgId (msgIdHash msgId) k) :
    hashMap.getRouteId getMsgId msgId map = some (map (ahead (msgIdHash msgId) k)) := by
  have hget : hashMap.getRouteId getMsgId msgId map =
      getRouteLoop getMsgId msgId map HASH_MAP_SIZE (msgIdHash msgId) := if_pos hvalid
  rw [hget, getRouteLoop_eq, probe_found (h.stop_iff hbound hentries msgId) hfound]
  rfl

theorem Routed.get_absent (h : Routed added map)
    (hbound : added.length ≤ CFE_PLATFORM_SB_MAX_MSG_IDS)
    (hentries : ∀ i msgId, added[i]? = some msgId → getMsgId (valueToRouteId i) = msgId)
    (habsent : ∀ slot, keys added map slot ≠ some msgId)
    (hroom : ∃ slot, keys added map slot = none) :
    hashMap.getRouteId getMsgId msgId map = some CFE_SBR_INVALID_ROUTE_ID := by
  by_cases hvalid : isValidMsgId msgId = true
  · have hget : hashMap.getRouteId getMsgId msgId map =
        getRouteLoop getMsgId msgId map HASH_MAP_SIZE (msgIdHash msgId) := if_pos hvalid
    obtain ⟨k, slot, hprobe, hempty⟩ := probe_absent (h.stop_iff hbound hentries msgId) habsent
      hroom (msgIdHash msgId)
    rw [hget, getRouteLoop_eq, hprobe, Option.map_some, (h.keys_eq_none hbound slot).mp hempty]
  · exact if_neg hvalid

end Loops

/-- The hash table holds every route of the list once, where a search for its id comes to. -/
structure HashHolds (added : List MsgId) (map : HashSlot → RouteId) : Prop where
  routed : Routed added map
  present : ∀ i < added.length, ∃ slot, map slot = valueToRouteId i
  chained : Chained msgIdHash (keys added map)

section HashTable
variable {map : HashSlot → RouteId} {getMsgId : RouteId → MsgId}

theorem hashHolds_init : HashHolds [] hashMap.initMap where
  routed := fun _ => .inl rfl
  present := fun _ hi => absurd hi (Nat.not_lt_zero _)
  chained := by
    have hempty : keys [] hashMap.initMap = fun _ => none := funext fun _ => keys_of_invalid rfl
    rw [hempty]
    exact chained_empty msgIdHash

theorem keys_mem {slot : HashSlot} (h : keys added map slot = some msgId) : msgId ∈ added := by
  rw [keys] at h
  split at h
  · exact List.mem_of_getElem? h
  · cases h

/-- Every id of the list is in some slot. -/
theorem HashHolds.exists_slot (h : HashHolds added map)
    (hbound : added.length ≤ CFE_PLATFORM_SB_MAX_MSG_IDS) (hmem : msgId ∈ added) :
    ∃ slot, map slot = routeOf added msgId ∧ keys added map slot = some msgId := by
  have hi := List.idxOf_lt_length_of_mem hmem
  obtain ⟨slot, hslot⟩ := h.present _ hi
  refine ⟨slot, hslot.trans (if_pos hmem).symm, ?_⟩
  rw [keys_of_route hbound hi hslot, List.getElem_idxOf]

theorem HashHolds.exists_empty (h : HashHolds added map)
    (hbound : added.length ≤ CFE_PLATFORM_SB_MAX_MSG_IDS) :
    ∃ slot, map slot = CFE_SBR_INVALID_ROUTE_ID := by
  have hlt : added.length < HASH_MAP_SIZE := hbound.trans_lt (by decide)
  obtain ⟨slot, hslot⟩ := h.chained.exists_empty (fun _ _ hx => keys_mem hx) hlt
  exact ⟨slot, (h.routed.keys_eq_none hbound slot).mp hslot⟩

theorem HashHolds.get (h : HashHolds added map) (hlisted : Listed added getMsgId)
    (msgId : MsgId) :
    hashMap.getRouteId getMsgId msgId map = some (routeOf added msgId) := by
  by_cases hmem : msgId ∈ added
  · obtain ⟨slot, hroute, hkey⟩ := h.exists_slot hlisted.bound hmem
    obtain ⟨k, hfound, hat⟩ := h.chained slot msgId hkey
    rw [h.routed.get_found hlisted.bound hlisted.entries (hlisted.valid msgId hmem) hfound, hat,
      hroute]
  · obtain ⟨slot, hempty⟩ := h.exists_empty hlisted.bound
    rw [h.routed.get_absent hlisted.bound hlisted.entries (fun _ hkey => hmem (keys_mem hkey))
      ⟨slot, keys_of_invalid hempty⟩, routeOf, if_neg hmem]

/-- A route id is entered at the first free slot from the hash on. -/
theorem HashHolds.set (h : HashHolds added map)
    (hbound : added.length ≤ CFE_PLATFORM_SB_MAX_MSG_IDS) (hvalid : isValidMsgId msgId = true)
    (routeId : RouteId) :
    ∃ k < HASH_MAP_SIZE, hashMap.setRouteId msgId routeId map =
        some (k, update map (ahead (msgIdHash msgId) k) routeId) ∧
      map (ahead (msgIdHash msgId) k) = CFE_SBR_INVALID_ROUTE_ID ∧
      ∀ l < k, keys added map (ahead (msgIdHash msgId) l) ≠ none := by
  have hstop : ∀ slot, (!isValidRouteId (map slot)) = true ↔ keys added map slot = none := by
    intro slot
    rw [Bool.not_eq_true', h.routed.invalid_iff hbound]
  obtain ⟨empty, hempty⟩ := h.exists_empty hbound
  have hroom : ∃ slot, (fun slot => !isValidRouteId (map slot)) slot = true :=
    ⟨empty, (hstop empty).mpr (keys_of_invalid hempty)⟩
  obtain ⟨k, hk, hprobe, hhere, hpass⟩ := exists_probe hroom (msgIdHash msgId)
  refine ⟨k, hk, ?_, (h.routed.keys_eq_none hbound _).mp ((hstop _).mp hhere),
    fun l hl hnone => ?_⟩
  · have hset : hashMap.setRouteId msgId routeId map =
        (setRouteLoop map HASH_MAP_SIZE (msgIdHash msgId) 0).map fun found =>
          (found.1, update map found.2 routeId) := if_pos hvalid
    rw [hset, setRouteLoop_eq, hprobe]
    exact congrArg some (congrArg (·, _) (Nat.zero_add k))
  · exact Bool.false_ne_true ((hpass l hl).symm.trans ((hstop _).mpr hnone))

/-- The ids in the slots, once the route behind the last one has been entered. -/
theorem keys_enter (h : Routed added map) (hlt : added.length < CFE_PLATFORM_SB_MAX_MSG_IDS)
    {empty : HashSlot} (hempty : map empty = CFE_SBR_INVALID_ROUTE_ID) (msgId : MsgId) :
    keys (added ++ [msgId]) (update map empty (valueToRouteId added.length)) =
      update (keys added map) empty (some msgId) := by
  funext slot
  by_cases heq : slot = empty
  · subst heq
    rw [update_self, keys, update_self, if_pos (isValid_valueToRouteId hlt),
      value_valueToRouteId hlt]
    simp
  · rw [update_of_ne heq, keys, keys, update_of_ne heq]
    rcases h slot with hzero | ⟨i, hi, hroute⟩
    · rw [hzero]
      rfl
    · rw [hroute, value_valueToRouteId (hi.trans hlt), List.getElem?_append_left hi]

theorem Routed.enter (h : Routed added map) (empty : HashSlot) (msgId : MsgId) :
    Routed (added ++ [msgId]) (update map empty (valueToRouteId added.length)) := by
  intro slot
  by_cases heq : slot = empty
  · subst heq
    exact .inr ⟨added.length, by simp, update_self ..⟩
  · rw [update_of_ne heq]
    rcases h slot with hzero | ⟨i, hi, hroute⟩
    · exact .inl hzero
    · exact .inr ⟨i, by rw [List.length_append]; exact hi.trans (Nat.lt_succ_self _), hroute⟩

theorem HashHolds.enter (h : HashHolds added map)
    (hlt : added.length < CFE_PLATFORM_SB_MAX_MSG_IDS) (habsent : msgId ∉ added) {k : Nat}
    (hk : k < HASH_MAP_SIZE)
    (hempty : map (ahead (msgIdHash msgId) k) = CFE_SBR_INVALID_ROUTE_ID)
    (hpass : ∀ l < k, keys added map (ahead (msgIdHash msgId) l) ≠ none) :
    HashHolds (added ++ [msgId])
      (update map (ahead (msgIdHash msgId) k) (valueToRouteId added.length)) where
  routed := h.routed.enter _ msgId
  present := by
    intro i hi
    rw [List.length_append] at hi
    rcases Nat.lt_succ_iff_lt_or_eq.mp hi with hold | rfl
    · obtain ⟨slot, hslot⟩ := h.present i hold
      have hne : slot ≠ ahead (msgIdHash msgId) k := by
        rintro rfl
        have hvalid := isValid_valueToRouteId (hold.trans hlt)
        rw [← hslot, hempty] at hvalid
        exact absurd hvalid (by decide)
      exact ⟨slot, (update_of_ne hne ..).trans hslot⟩
    · exact ⟨_, update_self ..⟩
  chained := by
    rw [keys_enter h.routed hlt hempty]
    exact h.chained.insert (fun _ hkey => habsent (keys_mem hkey)) hk (keys_of_invalid hempty) hpass

/-- Between the two writes of `CFE_SBR_AddRoute` the entry of the new route has no id yet, and
every search ends as before. -/
theorem HashHolds.get_entered (h : HashHolds added map) (hlisted : Listed added getMsgId)
    (hlt : added.length < CFE_PLATFORM_SB_MAX_MSG_IDS)
    (hnone : getMsgId (valueToRouteId added.length) = CFE_SB_INVALID_MSG_ID) {empty : HashSlot}
    (hempty : map empty = CFE_SBR_INVALID_ROUTE_ID)
    (hroom : ∃ slot, update map empty (valueToRouteId added.length) slot =
      CFE_SBR_INVALID_ROUTE_ID) (msgId : MsgId) :
    hashMap.getRouteId getMsgId msgId (update map empty (valueToRouteId added.length)) =
      hashMap.getRouteId getMsgId msgId map := by
  by_cases hvalid : isValidMsgId msgId = true
  case neg => exact (if_neg hvalid).trans (if_neg hvalid).symm
  have hrouted := h.routed.enter empty CFE_SB_INVALID_MSG_ID
  have hbound : (added ++ [CFE_SB_INVALID_MSG_ID]).length ≤ CFE_PLATFORM_SB_MAX_MSG_IDS := by
    rw [List.length_append]
    exact hlt
  have hentries : ∀ i x, (added ++ [CFE_SB_INVALID_MSG_ID])[i]? = some x →
      getMsgId (valueToRouteId i) = x := by
    intro i x hx
    have hi := (List.getElem?_eq_some_iff.mp hx).1
    rw [List.length_append] at hi
    rcases Nat.lt_succ_iff_lt_or_eq.mp hi with hold | rfl
    · rw [List.getElem?_append_left hold] at hx
      exact hlisted.entries i x hx
    · rw [hnone]
      simpa using hx
  have hkeys := keys_enter h.routed hlt hempty CFE_SB_INVALID_MSG_ID
  rw [h.get hlisted msgId]
  by_cases hmem : msgId ∈ added
  · obtain ⟨slot, hroute, hkey⟩ := h.exists_slot hlisted.bound hmem
    obtain ⟨k, hfound, hat⟩ := h.chained slot msgId hkey
    have hne : slot ≠ empty := ne_of_some hkey (keys_of_invalid hempty)
    rw [hrouted.get_found hbound hentries hvalid
        (hkeys ▸ hfound.update (keys_of_invalid hempty) CFE_SB_INVALID_MSG_ID),
      hat, update_of_ne hne, hroute]
  · obtain ⟨slot, hslot⟩ := hroom
    have hother : ∀ slot, keys (added ++ [CFE_SB_INVALID_MSG_ID])
        (update map empty (valueToRouteId added.length)) slot ≠ some msgId := by
      intro slot hkey
      rcases List.mem_append.mp (keys_mem hkey) with hold | hnew
      · exact hmem hold
      · rw [List.mem_singleton.mp hnew] at hvalid
        exact absurd hvalid (by decide)
    rw [hrouted.get_absent hbound hentries hother ⟨slot, keys_of_invalid hslot⟩, routeOf,
      if_neg hmem]

end HashTable

/-- `cfe_sbr_map_hash.c` keeps the places of the ids. -/
def hashRepresents : Represents hashMap where
  Holds := HashHolds
  init := hashHolds_init
  get := fun h hlisted msgId => h.get hlisted msgId
  set := by
    intro added map getMsgId h hlisted hlt msgId hvalid habsent
    obtain ⟨k, hk, hset, hempty, hpass⟩ := h.set hlisted.bound hvalid (valueToRouteId added.length)
    exact ⟨_, _, hset, h.enter hlt habsent hk hempty hpass⟩

/-! ## The direct map -/

theorem directIndex_inj {msgId msgId' : MsgId} (h : isValidMsgId msgId = true)
    (h' : isValidMsgId msgId' = true)
    (heq : Fin.ofNat DIRECT_MAP_SIZE msgId.toNat = Fin.ofNat DIRECT_MAP_SIZE msgId'.toNat) :
    msgId = msgId' := by
  have hlt : ∀ msgId : MsgId, isValidMsgId msgId = true → msgId.toNat < DIRECT_MAP_SIZE := by
    intro msgId h
    rw [isValidMsgId, Bool.and_eq_true] at h
    have hle : msgId.toNat ≤ CFE_PLATFORM_SB_HIGHEST_VALID_MSGID.toNat := of_decide_eq_true h.2
    exact Nat.lt_succ_of_le hle
  have hval := congrArg Fin.val heq
  rw [Fin.val_ofNat, Fin.val_ofNat, Nat.mod_eq_of_lt (hlt _ h), Nat.mod_eq_of_lt (hlt _ h')] at hval
  exact BitVec.eq_of_toNat_eq hval

/-- `cfe_sbr_map_direct.c` keeps the places of the ids. -/
def directRepresents : Represents directMap where
  Holds added map := ∀ msgId, isValidMsgId msgId = true →
    map (Fin.ofNat DIRECT_MAP_SIZE msgId.toNat) = routeOf added msgId
  init := fun msgId _ => (if_neg List.not_mem_nil).symm
  get := by
    intro added map getMsgId h hlisted msgId
    by_cases hvalid : isValidMsgId msgId = true
    · exact (if_pos hvalid).trans (congrArg some (h msgId hvalid))
    · have habsent : msgId ∉ added := fun hmem => hvalid (hlisted.valid msgId hmem)
      rw [routeOf, if_neg habsent]
      exact if_neg hvalid
  set := by
    intro added map getMsgId h _ _ msgId hvalid habsent
    refine ⟨0, _, if_pos hvalid, fun other hother => ?_⟩
    rw [routeOf_append habsent]
    by_cases heq : other = msgId
    · subst heq
      rw [if_pos rfl]
      exact update_self ..
    · rw [if_neg heq]
      exact (update_of_ne (fun hindex => heq (directIndex_inj hother hvalid hindex)) ..).trans
        (h other hother)

/-! ## Lookups -/

theorem mem_addedBy {calls : List (MsgId × RouteId)} :
    msgId ∈ addedBy calls ↔ ∃ routeId, (msgId, routeId) ∈ calls ∧ isValidRouteId routeId = true := by
  rw [addedBy, List.mem_map]
  constructor
  · rintro ⟨⟨_, routeId⟩, hmem, rfl⟩
    exact ⟨routeId, List.mem_filter.mp hmem⟩
  · rintro ⟨routeId, hmem, hvalid⟩
    exact ⟨(msgId, routeId), List.mem_filter.mpr ⟨hmem, hvalid⟩, rfl⟩

/-- The map from ids to routes after some calls of `CFE_SBR_AddRoute`. -/
structure PartialInjection (calls : List (MsgId × RouteId)) (s : Routes hashMap) : Prop where
  lookup : ∀ msgId, ∃ routeId, s.getRouteId msgId = some routeId ∧
    (∀ added, (msgId, added) ∈ calls → isValidRouteId added = true → routeId = added) ∧
    (isValidRouteId routeId = true → (msgId, routeId) ∈ calls)
  back : ∀ msgId routeId, s.getRouteId msgId = some routeId → isValidRouteId routeId = true →
    s.getMsgId routeId = msgId
  injective : ∀ msgId msgId' routeId, s.getRouteId msgId = some routeId →
    s.getRouteId msgId' = some routeId → isValidRouteId routeId = true → msgId = msgId'
  room : ∀ msgId found, s.getRouteId msgId = some found → isValidRouteId found = false →
    ∃ routeId collisions s', s.addRoute msgId = some (routeId, collisions, s') ∧
      (isValidRouteId routeId = true ↔ isValidMsgId msgId = true ∧
        (addedBy calls).length < CFE_PLATFORM_SB_MAX_MSG_IDS)
  slot : ∀ msgId routeId, isValidMsgId msgId = true → ∃ collisions slot,
    hashMap.setRouteId msgId routeId s.map = some (collisions, update s.map slot routeId) ∧
      isValidRouteId (s.map slot) = false
  undisturbed : ∀ msgId found routeId collisions s', s.getRouteId msgId = some found →
    isValidRouteId found = false → s.addRoute msgId = some (routeId, collisions, s') →
    (∀ other, hashMap.getRouteId s.getMsgId other s'.map = s.getRouteId other) ∧
      ∀ other, other ≠ msgId → s'.getRouteId other = s.getRouteId other

theorem Reached.partialInjection {calls : List (MsgId × RouteId)} {s : Routes hashMap}
    (h : Reached hashMap calls s) : PartialInjection calls s := by
  have hholding := h.holding hashRepresents
  have hmap : HashHolds (addedBy calls) s.map := hholding.map
  have hbound := hholding.listed.bound
  have hback : ∀ msgId routeId, s.getRouteId msgId = some routeId → isValidRouteId routeId = true →
      s.getMsgId routeId = msgId := by
    intro msgId routeId hlookup hvalid
    rw [hholding.getRouteId] at hlookup
    obtain rfl := Option.some.inj hlookup
    exact hholding.listed.getMsgId_routeOf ((isValid_routeOf hbound).mp hvalid)
  refine ⟨fun msgId => ⟨_, hholding.getRouteId msgId, fun added hmem hvalid => ?_, fun hvalid => ?_⟩,
    hback,
    fun msgId msgId' routeId hlookup hlookup' hvalid =>
      (hback msgId routeId hlookup hvalid).symm.trans (hback msgId' routeId hlookup' hvalid),
    fun msgId found hlookup hinvalid => ?_, fun msgId routeId hvalid => ?_,
    fun msgId found routeId collisions s' hlookup hinvalid hcall => ?_⟩
  · exact (h.routeOf_call hashRepresents hmem hvalid).2.symm
  · obtain ⟨routeId, hmem, hroute⟩ := mem_addedBy.mp ((isValid_routeOf hbound).mp hvalid)
    exact (h.routeOf_call hashRepresents hmem hroute).2 ▸ hmem
  · have habsent := hholding.absent hlookup hinvalid
    by_cases hok : isValidMsgId msgId = true ∧
        (addedBy calls).length < CFE_PLATFORM_SB_MAX_MSG_IDS
    · obtain ⟨collisions, s', hadd, -⟩ := hholding.addRoute hok.1 habsent hok.2
      exact ⟨_, _, _, hadd, fun _ => hok, fun _ => isValid_valueToRouteId hok.2⟩
    · exact ⟨_, _, _, hholding.addRoute_refused hok, fun hvalid => absurd hvalid (by decide),
        fun h => absurd h hok⟩
  · obtain ⟨k, -, hset, hempty, -⟩ := hmap.set hbound hvalid routeId
    exact ⟨k, _, hset, by rw [hempty]; rfl⟩
  · have habsent := hholding.absent hlookup hinvalid
    rcases hholding.addRoute_cases habsent hcall with ⟨hok, rfl, hset, hholding'⟩ | ⟨-, -, rfl⟩
    · obtain ⟨k, -, hset', hempty, -⟩ := hmap.set hbound hok.1
        (valueToRouteId (addedBy calls).length)
      have hmap' : HashHolds (addedBy calls ++ [msgId]) s'.map := hholding'.map
      obtain ⟨-, hmapeq⟩ := Prod.mk.injEq .. ▸ Option.some.inj (hset'.symm.trans hset)
      refine ⟨fun other => ?_, fun other hne => ?_⟩
      · have hroom := hmap'.exists_empty hholding'.listed.bound
        rw [← hmapeq] at hroom ⊢
        exact hmap.get_entered hholding.listed hok.2
          (hholding.rest _ (Nat.le_refl _) hok.2) hempty hroom other
      · rw [hholding'.getRouteId, hholding.getRouteId, routeOf_append habsent, if_neg hne]
    · exact ⟨fun _ => rfl, fun _ _ => rfl⟩

/-- From `CFE_SBR_Init` on, routes being added for ids without one, the hash table is a partial
injection from ids to routes, and it agrees with the direct map. -/
theorem hash_map_partial_injection {calls : List (MsgId × RouteId)} {s : Routes hashMap}
    (h : Reached hashMap calls s) :
    PartialInjection calls s ∧
      ∃ direct, Reached directMap calls direct ∧
        ∀ msgId, direct.getRouteId msgId = s.getRouteId msgId :=
  ⟨h.partialInjection, h.simulate hashRepresents directRepresents⟩

theorem hash_map_partial_injection_one :
    ∃ s : Routes hashMap, Reached hashMap [(0x1800, valueToRouteId 0)] s ∧
      PartialInjection [(0x1800, valueToRouteId 0)] s ∧
        ∃ direct, Reached directMap [(0x1800, valueToRouteId 0)] direct ∧
          ∀ msgId, direct.getRouteId msgId = s.getRouteId msgId := by
  obtain ⟨_, s, hadd, -⟩ := (holding_init hashRepresents).addRoute (by decide : isValidMsgId 0x1800 = true)
    List.not_mem_nil (by decide)
  have hreached := Reached.init.add ((holding_init hashRepresents).getRouteId 0x1800) rfl hadd
  exact ⟨s, hreached, hash_map_partial_injection hreached⟩

end Nos3.Sb.Sbr
