import Nos3.Sb.Guarantees.RouteMap
import Nos3.Sb.Source.Routing

/-!
# Subscriptions that fail

A route is added before the limit of its destinations and the pool are looked at, and no
route is ever removed. A new route has no destinations, so the limit is not met on it; a
pool without a destination block leaves it in the tables. Every other failure leaves all
but an error counter as it was.
-/
namespace Nos3.Sb
open Function (update update_self update_of_ne)
open Sbr

variable {impl : MsgMap} {rep : Represents impl} {added : List MsgId} {msgId : MsgId}

/-! ## The tables -/

/-- The tables hold a list of ids, and the entries behind it have no destinations. -/
structure Tabled (rep : Represents impl) (s : Routes impl) (added : List MsgId) : Prop where
  holding : Holding rep s added
  unused : ∀ i : Fin CFE_PLATFORM_SB_MAX_MSG_IDS, added.length ≤ i.val → (s.routingTbl i).dests = []

theorem tabled_init (rep : Represents impl) : Tabled rep (Routes.init impl) [] where
  holding := holding_init rep
  unused := fun _ _ => rfl

section Tables
variable {s s' : Routes impl} {routeId : RouteId}

theorem isAdded_index (h : Tabled rep s added) (hadded : s.isAdded routeId = true) :
    isValidRouteId routeId = true ∧ (routeIndex routeId).val < added.length := by
  rw [RouteData.isAdded, Bool.and_eq_true, decide_eq_true_iff, h.holding.top] at hadded
  refine ⟨hadded.1, ?_⟩
  rw [routeIndex, Fin.val_ofNat, Nat.mod_eq_of_lt (hadded.2.trans_le h.holding.listed.bound)]
  exact hadded.2

/-- An entry that keeps its id may change otherwise, if it is in use. -/
theorem Tabled.set_entry (h : Tabled rep s added) (hadded : s.isAdded routeId = true)
    (entry : RouteEntry) (hid : entry.msgId = (s.routingTbl (routeIndex routeId)).msgId) :
    Tabled rep { s with routingTbl := update s.routingTbl (routeIndex routeId) entry } added := by
  have hindex := isAdded_index h hadded
  have hids (i : Fin CFE_PLATFORM_SB_MAX_MSG_IDS) :
      (update s.routingTbl (routeIndex routeId) entry i).msgId = (s.routingTbl i).msgId := by
    by_cases heq : i = routeIndex routeId
    · subst heq
      rw [update_self, hid]
    · rw [update_of_ne heq]
  have hsame : ({ s with routingTbl := update s.routingTbl (routeIndex routeId) entry } :
      Routes impl).getMsgId = s.getMsgId := by
    funext r
    simp only [RouteData.getMsgId, hids]
  refine ⟨⟨h.holding.top, ?_, ?_, h.holding.map⟩, ?_⟩
  · rw [hsame]
    exact h.holding.listed
  · intro i hge hi
    rw [hsame]
    exact h.holding.rest i hge hi
  · intro i hge
    have hne : i ≠ routeIndex routeId := by
      rintro rfl
      exact absurd hindex.2 (Nat.not_lt.mpr hge)
    exact (congrArg RouteEntry.dests (update_of_ne hne ..)).trans (h.unused i hge)

theorem Tabled.setDestListHead (h : Tabled rep s added) (hadded : s.isAdded routeId = true)
    (dests : List Dest) :
    Tabled rep { s with toRouteData := s.setDestListHead routeId dests } added := by
  rw [RouteData.setDestListHead, if_pos (isAdded_index h hadded).1]
  exact h.set_entry hadded _ rfl

theorem Tabled.setSequenceCount (h : Tabled rep s added) (hadded : s.isAdded routeId = true)
    (seqCnt : BitVec 14) :
    Tabled rep { s with toRouteData := s.setSequenceCount routeId seqCnt } added :=
  h.set_entry hadded _ rfl

theorem Tabled.isAdded_routeOf (h : Tabled rep s added) (hmem : msgId ∈ added) :
    s.isAdded (routeOf added msgId) = true := by
  have hlt := List.idxOf_lt_length_of_mem hmem
  have hbound := h.holding.listed.bound
  rw [RouteData.isAdded, Bool.and_eq_true, decide_eq_true_iff, h.holding.top]
  refine ⟨routeOf_of_mem hbound hmem, ?_⟩
  rw [routeOf, if_pos hmem, value_valueToRouteId (hlt.trans_le hbound)]
  exact hlt

/-- A route that is added takes its entry as it is, and no list of destinations changes. -/
theorem dests_addRoute {collisions : Nat} (h : s.addRoute msgId = some (routeId, collisions, s'))
    (i : Fin CFE_PLATFORM_SB_MAX_MSG_IDS) : (s'.routingTbl i).dests = (s.routingTbl i).dests := by
  rw [Routes.addRoute] at h
  split at h
  · obtain ⟨⟨collisions', map⟩, -, h⟩ := Option.bind_eq_some_iff.mp h
    obtain ⟨-, -, rfl⟩ : valueToRouteId s.routeIdxTop = routeId ∧ collisions' = collisions ∧
        { s.enter msgId with map := map } = s' := by simpa using h
    dsimp only [RouteData.enter]
    by_cases heq : i = Fin.ofNat CFE_PLATFORM_SB_MAX_MSG_IDS s.routeIdxTop
    · rw [heq, update_self]
    · rw [update_of_ne heq]
  · obtain ⟨-, -, rfl⟩ : CFE_SBR_INVALID_ROUTE_ID = routeId ∧ 0 = collisions ∧ s = s' := by
      simpa using h
    rfl

/-- What a failed subscription may leave behind: one more route, without destinations. -/
structure AddsEmptyRoute (msgId : MsgId) (s s' : Routes impl) : Prop where
  route : ∃ routeId, s'.getRouteId msgId = some routeId ∧ isValidRouteId routeId = true ∧
    s'.getDestListHead routeId = []
  others : ∀ other, other ≠ msgId → s'.getRouteId other = s.getRouteId other
  dests : ∀ routeId, s'.getDestListHead routeId = s.getDestListHead routeId
  top : s'.routeIdxTop = s.routeIdxTop + 1

/-- A route is added for an id that has none, as long as there is room. -/
theorem Tabled.addRoute_cases (h : Tabled rep s added) (habsent : msgId ∉ added)
    {collisions : Nat} (hcall : s.addRoute msgId = some (routeId, collisions, s')) :
    (routeId = routeOf (added ++ [msgId]) msgId ∧ Tabled rep s' (added ++ [msgId]) ∧
      AddsEmptyRoute msgId s s' ∧ s'.getDestListHead routeId = []) ∨
      (routeId = CFE_SBR_INVALID_ROUTE_ID ∧ s' = s) := by
  have hdests := dests_addRoute hcall
  rcases h.holding.addRoute_cases habsent hcall with ⟨hok, rfl, -, hholding⟩ | ⟨-, rfl, rfl⟩
  · have hroute : routeOf (added ++ [msgId]) msgId = valueToRouteId added.length := by
      rw [routeOf_append habsent, if_pos rfl]
    have hvalid := isValid_valueToRouteId hok.2
    have hempty : s'.getDestListHead (valueToRouteId added.length) = [] := by
      rw [RouteData.getDestListHead, if_pos hvalid, hdests, routeIndex_valueToRouteId hok.2]
      exact h.unused _ (Nat.le_refl _)
    refine .inl ⟨hroute.symm, ⟨hholding, ?_⟩, ⟨⟨_, ?_, hvalid, hempty⟩, ?_, ?_, ?_⟩, hempty⟩
    · intro i hge
      rw [hdests i]
      exact h.unused i (by rw [List.length_append] at hge; exact Nat.le_of_succ_le hge)
    · rw [hholding.getRouteId, hroute]
    · intro other hne
      rw [hholding.getRouteId, h.holding.getRouteId, routeOf_append habsent, if_neg hne]
    · intro r
      simp only [RouteData.getDestListHead, hdests]
    · rw [hholding.top, h.holding.top, List.length_append]
      rfl
  · exact .inr ⟨rfl, rfl⟩

end Tables

/-! ## One subscription -/

section Subscription
variable {g g' : SbGlobal impl} {routeId : RouteId} {app : AppId} {sub : Bus.Subscription}

/-- The route that is found or added. -/
theorem findRoute_cases (h : Tabled rep g.routes added)
    (hcall : g.findRoute msgId = some (routeId, g')) :
    (msgId ∈ added ∧ routeId = routeOf added msgId ∧ g' = g) ∨
    (msgId ∉ added ∧ routeId = routeOf (added ++ [msgId]) msgId ∧
      Tabled rep g'.routes (added ++ [msgId]) ∧ AddsEmptyRoute msgId g.routes g'.routes ∧
      g'.routes.getDestListHead routeId = [] ∧
      g' = { g with routes := g'.routes, statTlm := g.statTlm.countMsgId }) ∨
    (msgId ∉ added ∧ isValidRouteId routeId = false ∧ g' = g) := by
  rw [SbGlobal.findRoute, Option.bind_eq_bind, h.holding.getRouteId, Option.bind_some] at hcall
  have hbound := h.holding.listed.bound
  by_cases hmem : msgId ∈ added
  · rw [if_pos (routeOf_of_mem hbound hmem)] at hcall
    obtain ⟨rfl, rfl⟩ : routeOf added msgId = routeId ∧ g = g' := by simpa using hcall
    exact .inl ⟨hmem, rfl, rfl⟩
  · rw [if_neg (fun hvalid => hmem ((isValid_routeOf hbound).mp hvalid))] at hcall
    obtain ⟨⟨newRoute, collisions, routes⟩, hadd, hcall⟩ := Option.bind_eq_some_iff.mp hcall
    dsimp only at hcall
    rcases h.addRoute_cases hmem hadd with ⟨hroute, htabled, hadds, hempty⟩ | ⟨rfl, rfl⟩
    · have hvalid : isValidRouteId newRoute = true := by
        rw [hroute]
        exact routeOf_of_mem htabled.holding.listed.bound (by simp)
      rw [if_pos hvalid] at hcall
      obtain ⟨rfl, rfl⟩ := Prod.mk.injEq .. ▸ Option.some.inj hcall
      exact .inr (.inl ⟨hmem, hroute, htabled, hadds, hempty, rfl⟩)
    · rw [if_neg (by decide)] at hcall
      obtain ⟨rfl, rfl⟩ := Prod.mk.injEq .. ▸ Option.some.inj hcall
      exact .inr (.inr ⟨hmem, rfl, rfl⟩)

/-- What is done about the destinations of a route: an error changes nothing, and without
destinations it is one of the pool. -/
theorem addDestination_cases {status : SubscribeStatus} {event : Option PendingEvent}
    (h : g.addDestination sub routeId = (status, event, g')) :
    (status = .success ∧ (g' = g ∨ ∃ g₁, g.getDestinationBlk = some g₁ ∧
      g' = { g₁.addDestNode routeId sub.dest with
        statTlm := (g₁.addDestNode routeId sub.dest).statTlm.countSubscription })) ∨
    (g' = g ∧ event ≠ none ∧ event ≠ some .dupSubscrip ∧
      ((status = .maxDestsMet ∧ g.routes.getDestListHead routeId ≠ []) ∨
        status = .bufAlocErr)) := by
  rw [SbGlobal.addDestination] at h
  split at h
  case h_1 =>
    obtain ⟨rfl, -, rfl⟩ := Prod.mk.injEq .. ▸ Prod.mk.injEq .. ▸ h
    exact .inl ⟨rfl, .inl rfl⟩
  case h_2 hscan =>
    obtain ⟨rfl, rfl, rfl⟩ := Prod.mk.injEq .. ▸ Prod.mk.injEq .. ▸ h
    refine .inr ⟨rfl, by decide, by decide, .inl ⟨rfl, ?_⟩⟩
    intro hempty
    rw [hempty] at hscan
    exact absurd hscan (by simp [SbGlobal.scanDestinations])
  case h_3 =>
    split at h
    case h_1 =>
      obtain ⟨rfl, rfl, rfl⟩ := Prod.mk.injEq .. ▸ Prod.mk.injEq .. ▸ h
      exact .inr ⟨rfl, by decide, by decide, .inr rfl⟩
    case h_2 g₁ hblock =>
      obtain ⟨rfl, -, rfl⟩ := Prod.mk.injEq .. ▸ Prod.mk.injEq .. ▸ h
      exact .inl ⟨rfl, .inr ⟨g₁, hblock, rfl⟩⟩

/-- A subscription is refused by a check that changes nothing, or goes on with a route. -/
theorem trySubscribe_cases {status : SubscribeStatus} {event : Option PendingEvent}
    (h : Tabled rep g.routes added) (hcall : g.trySubscribe app sub = some (status, event, g')) :
    (g' = g ∧ (status = .badArgument ∨ status = .maxMsgsMet) ∧ event ≠ none ∧
      event ≠ some .dupSubscrip) ∨
    ∃ routeId g₁, g.findRoute sub.msgId = some (routeId, g₁) ∧ isValidRouteId routeId = true ∧
      g₁.addDestination sub routeId = (status, event, g') := by
  rw [SbGlobal.trySubscribe] at hcall
  split at hcall
  case h_1 =>
    obtain ⟨rfl, rfl, rfl⟩ := Prod.mk.injEq .. ▸ Prod.mk.injEq .. ▸ Option.some.inj hcall
    exact .inl ⟨rfl, .inl rfl, by decide, by decide⟩
  case h_2 =>
    split at hcall
    · obtain ⟨rfl, rfl, rfl⟩ := Prod.mk.injEq .. ▸ Prod.mk.injEq .. ▸ Option.some.inj hcall
      exact .inl ⟨rfl, .inl rfl, by decide, by decide⟩
    split at hcall
    · obtain ⟨rfl, rfl, rfl⟩ := Prod.mk.injEq .. ▸ Prod.mk.injEq .. ▸ Option.some.inj hcall
      exact .inl ⟨rfl, .inl rfl, by decide, by decide⟩
    obtain ⟨⟨routeId, g₁⟩, hfind, hcall⟩ := Option.bind_eq_some_iff.mp hcall
    dsimp only at hcall
    by_cases hvalid : isValidRouteId routeId = true
    · rw [if_pos hvalid] at hcall
      exact .inr ⟨routeId, g₁, hfind, hvalid, Option.some.inj hcall⟩
    · rw [if_neg hvalid] at hcall
      obtain ⟨rfl, rfl, rfl⟩ := Prod.mk.injEq .. ▸ Prod.mk.injEq .. ▸ Option.some.inj hcall
      rcases findRoute_cases h hfind with ⟨hmem, rfl, rfl⟩ | ⟨-, rfl, htabled, -⟩ | ⟨-, -, rfl⟩
      · exact absurd (routeOf_of_mem h.holding.listed.bound hmem) hvalid
      · exact absurd (routeOf_of_mem htabled.holding.listed.bound (by simp)) hvalid
      · exact .inl ⟨rfl, .inr rfl, by decide, by decide⟩

/-- Behind a valid route id that was found or added the tables hold its id. -/
theorem findRoute_tabled (h : Tabled rep g.routes added)
    (hcall : g.findRoute msgId = some (routeId, g')) (hvalid : isValidRouteId routeId = true) :
    ∃ added', Tabled rep g'.routes added' ∧ g'.routes.isAdded routeId = true := by
  rcases findRoute_cases h hcall with ⟨hmem, rfl, rfl⟩ | ⟨-, rfl, htabled, -⟩ | ⟨-, hno, -⟩
  · exact ⟨added, h, h.isAdded_routeOf hmem⟩
  · exact ⟨_, htabled, htabled.isAdded_routeOf (by simp)⟩
  · exact absurd hvalid (Bool.eq_false_iff.mp hno)

theorem getDestinationBlk_routes {g₁ : SbGlobal impl} (h : g.getDestinationBlk = some g₁) :
    g₁.routes = g.routes := by
  obtain ⟨⟨offset, pool⟩, -, rfl⟩ := Option.map_eq_some_iff.mp h
  rfl

theorem subscribeFull_tabled {status : SubscribeStatus} (h : Tabled rep g.routes added)
    (hcall : g.subscribeFull app sub = some (status, g')) :
    ∃ added', Tabled rep g'.routes added' := by
  obtain ⟨⟨status', event, g₂⟩, htry, heq⟩ := Option.map_eq_some_iff.mp hcall
  obtain ⟨rfl, rfl⟩ := Prod.mk.injEq .. ▸ heq
  rcases trySubscribe_cases h htry with ⟨rfl, -⟩ | ⟨routeId, g₁, hfind, hvalid, hdest⟩
  · exact ⟨added, h⟩
  obtain ⟨added', htabled, hadded⟩ := findRoute_tabled h hfind hvalid
  rcases addDestination_cases hdest with ⟨-, rfl | ⟨g₃, hblock, rfl⟩⟩ | ⟨rfl, -⟩
  · exact ⟨added', htabled⟩
  · refine ⟨added', ?_⟩
    dsimp only [SbGlobal.addDestNode]
    rw [getDestinationBlk_routes hblock]
    exact htabled.setDestListHead hadded _
  · exact ⟨added', htabled⟩

end Subscription

/-! ## Runs -/

theorem tabled_call {g g' : SbGlobal impl} {call : SbCall} (h : Tabled rep g.routes added)
    (hcall : g.call call = some g') : ∃ added', Tabled rep g'.routes added' := by
  cases call with
  | subscribe app sub =>
    obtain ⟨⟨status, g₁⟩, hsub, rfl⟩ := Option.map_eq_some_iff.mp hcall
    exact subscribeFull_tabled h hsub
  | destinations routeId dests =>
    obtain ⟨hadded, heq⟩ := Option.ite_none_right_eq_some.mp hcall
    rw [← Option.some.inj heq]
    exact ⟨added, h.setDestListHead hadded dests⟩
  | sequenceCount routeId seqCnt =>
    obtain ⟨hadded, heq⟩ := Option.ite_none_right_eq_some.mp hcall
    rw [← Option.some.inj heq]
    exact ⟨added, h.setSequenceCount hadded seqCnt⟩
  | others pipes pool statTlm hkTlm =>
    rw [← Option.some.inj hcall]
    exact ⟨added, h⟩

theorem tabled_reachable (rep : Represents impl) {g : SbGlobal impl}
    (h : (subscribing impl).Reachable g) : ∃ added, Tabled rep g.routes added := by
  apply h.invariant
  · intro g hstart
    rw [show g.routes = Routes.init impl from hstart]
    exact ⟨[], tabled_init rep⟩
  · intro g call g' hg hcall
    obtain ⟨added, htabled⟩ := hg
    exact tabled_call htabled hcall

/-! ## A failing subscription -/

/-- A valid route id is found for a message id. -/
def HasRoute (msgId : MsgId) (s : Routes impl) : Prop :=
  ∃ routeId, s.getRouteId msgId = some routeId ∧ isValidRouteId routeId = true

theorem Tabled.hasRoute_iff {s : Routes impl} (h : Tabled rep s added) :
    HasRoute msgId s ↔ msgId ∈ added := by
  constructor
  · rintro ⟨routeId, hroute, hvalid⟩
    rw [h.holding.getRouteId] at hroute
    rw [← Option.some.inj hroute] at hvalid
    exact (isValid_routeOf h.holding.listed.bound).mp hvalid
  · intro hmem
    exact ⟨_, h.holding.getRouteId msgId, routeOf_of_mem h.holding.listed.bound hmem⟩

theorem count_error {hk : HKTlm} {event : Option PendingEvent} (hnone : event ≠ none)
    (hdup : event ≠ some .dupSubscrip) :
    hk.count event = { hk with subscribeErrorCounter := hk.subscribeErrorCounter + 1 } := by
  cases event with
  | none => exact absurd rfl hnone
  | some event => cases event <;> first | rfl | exact absurd rfl hdup

/-- A subscription that fails counts an error and changes nothing else, unless the pool has
no destination block for an id without a route: then an empty route for it stays, and is
counted. -/
theorem failed_subscription (rep : Represents impl) {g g' : SbGlobal impl}
    (hreach : (subscribing impl).Reachable g) {app : AppId} {sub : Bus.Subscription}
    {status : SubscribeStatus} (hcall : g.subscribeFull app sub = some (status, g'))
    (hfail : status ≠ .success) :
    let failed := { g with hkTlm :=
      { g.hkTlm with subscribeErrorCounter := g.hkTlm.subscribeErrorCounter + 1 } }
    (status ≠ .bufAlocErr ∨ HasRoute sub.msgId g.routes → g' = failed) ∧
      (status = .bufAlocErr ∧ ¬HasRoute sub.msgId g.routes →
        AddsEmptyRoute sub.msgId g.routes g'.routes ∧
          g' = { failed with routes := g'.routes, statTlm := g.statTlm.countMsgId }) := by
  intro failed
  obtain ⟨added, h⟩ := tabled_reachable rep hreach
  obtain ⟨⟨status', event, g₂⟩, htry, heq⟩ := Option.map_eq_some_iff.mp hcall
  obtain ⟨rfl, rfl⟩ := Prod.mk.injEq .. ▸ heq
  rw [h.hasRoute_iff]
  rcases trySubscribe_cases h htry with ⟨rfl, hstatus, hnone, hdup⟩ | ⟨routeId, g₁, hfind, hvalid,
    hdest⟩
  · rw [count_error hnone hdup]
    refine ⟨fun _ => rfl, fun hpool => ?_⟩
    rcases hstatus with rfl | rfl <;> exact absurd hpool.1 (by decide)
  · rcases addDestination_cases hdest with ⟨hsuccess, -⟩ | ⟨rfl, hnone, hdup, hcause⟩
    · exact absurd hsuccess hfail
    rw [count_error hnone hdup]
    rcases findRoute_cases h hfind with ⟨hmem, -, rfl⟩ | ⟨habsent, -, -, hadds, hempty, heq⟩ |
      ⟨-, hno, -⟩
    · exact ⟨fun _ => rfl, fun hpool => absurd hmem hpool.2⟩
    · have hpool : status' = .bufAlocErr := by
        rcases hcause with ⟨-, hdests⟩ | hpool
        · exact absurd hempty hdests
        · exact hpool
      refine ⟨fun hkept => ?_, fun _ => ⟨hadds, ?_⟩⟩
      · rcases hkept with hother | hmem
        · exact absurd hpool hother
        · exact absurd hmem habsent
      · have hhk : g₂.hkTlm = g.hkTlm := by rw [heq]
        rw [hhk]
        exact congrArg (fun s : SbGlobal impl => { s with hkTlm :=
          { g.hkTlm with subscribeErrorCounter := g.hkTlm.subscribeErrorCounter + 1 } }) heq
    · exact absurd hvalid (Bool.eq_false_iff.mp hno)

/-! ## The pool is exhausted -/

/-- A pool whose one block is given out. -/
def exhaustedPool : Es.Pool where
  record :=
    { poolTotalSize := 88, poolMaxOffset := 88, alignMask := 7, tailPosition := 88
      allocationCount := 1, validationErrorCount := 0, numBuckets := 1
      buckets := fun _ => ⟨64, 0, 1, 0, 0⟩, numBuckets_le := by decide }
  memory := fun _ => 0

/-- An application with one pipe and no subscription. -/
def onePipe : SbGlobal hashMap where
  pipes := update (fun _ => {}) 0 { pipeId := CFE_SB_PIPEID_BASE + 64, appId := 1 }
  routes := Routes.init hashMap
  pool := some exhaustedPool

def firstSubscription : Bus.Subscription := ⟨0x1880, CFE_SB_PIPEID_BASE + 64, 4, 0⟩

theorem onePipe_fails : ∃ g', onePipe.subscribeFull 1 firstSubscription = some (.bufAlocErr, g') ∧
    g'.routes.getRouteId 0x1880 = some (valueToRouteId 0) ∧ g'.statTlm.msgIdsInUse = 1 := by
  have hrun : (onePipe.subscribeFull 1 firstSubscription).any (fun (status, g') =>
      status = .bufAlocErr ∧ g'.routes.getRouteId 0x1880 = some (valueToRouteId 0) ∧
        g'.statTlm.msgIdsInUse = 1) = true := by decide +kernel
  obtain ⟨⟨status, g'⟩, hcall, hchecks⟩ := (Option.any_eq_true _ _).mp hrun
  obtain ⟨hstatus, hroute, hcount⟩ := of_decide_eq_true hchecks
  exact ⟨g', hcall.trans (congrArg some (Prod.ext hstatus rfl)), hroute, hcount⟩

theorem failed_subscription_first : ∃ g',
    onePipe.subscribeFull 1 firstSubscription = some (.bufAlocErr, g') ∧
      AddsEmptyRoute 0x1880 onePipe.routes g'.routes := by
  obtain ⟨g', hcall, -⟩ := onePipe_fails
  have hstart : (subscribing hashMap).Reachable onePipe := .start rfl
  have hnone : onePipe.routes.getRouteId firstSubscription.msgId
      = some CFE_SBR_INVALID_ROUTE_ID := by decide +kernel
  have hroute : ¬HasRoute firstSubscription.msgId onePipe.routes := by
    rintro ⟨routeId, hfound, hvalid⟩
    rw [← Option.some.inj (hnone.symm.trans hfound)] at hvalid
    exact absurd hvalid (by decide)
  have hfailed := failed_subscription hashRepresents hstart hcall (by decide)
  exact ⟨g', hcall, (hfailed.2 ⟨rfl, hroute⟩).1⟩

/-- A failing subscription has changed the route map and the number of message ids in use. -/
theorem failed_subscription_keeps_route : ∃ (g g' : SbGlobal hashMap) (app : AppId)
    (sub : Bus.Subscription) (status : SubscribeStatus), (subscribing hashMap).Reachable g ∧
      g.subscribeFull app sub = some (status, g') ∧ status ≠ .success ∧
      g'.routes.getRouteId sub.msgId ≠ g.routes.getRouteId sub.msgId ∧
      g'.statTlm.msgIdsInUse ≠ g.statTlm.msgIdsInUse := by
  obtain ⟨g', hcall, hroute, hcount⟩ := onePipe_fails
  refine ⟨onePipe, g', 1, firstSubscription, .bufAlocErr, .start rfl, hcall, by decide, ?_, ?_⟩
  · rw [show firstSubscription.msgId = 0x1880 from rfl, hroute]
    decide +kernel
  · rw [hcount]
    decide

end Nos3.Sb
