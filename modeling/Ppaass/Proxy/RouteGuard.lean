import Mathlib.Data.List.AList
import Ppaass.Lib.Machine
import Ppaass.Lib.Table

/-!
# Temporary host routes for egress connections (Apple platforms)

`TargetRouteGuard::install` makes a connection bound to an interface leave
through it. When the best route to the target does not use the interface, it
adds a host route (`/32` or `/128`) through the interface's most specific
route and counts in `ROUTE_REFS` the guards that use it; the drop of the last
guard deletes it. The routing table is a list of routes that only `install`
and `drop` change, on top of whatever routes were there before.

`install` lists the routes before it locks `ROUTE_REFS`, so a run interleaves
the two halves of many installs and the drops of guards (`RouteStep`). Over
every run the count of a key is the number of live guards with that key, and
the host route of a counted key is in the table (`RouteState.Inv`). A
connection that `install` let through because the best route already used its
interface holds no guard, though: when that route is another connection's host
route, the drop of that connection's guard deletes it from under it.
-/

namespace Ppaass.Proxy

/-- `std::net::IpAddr`. -/
inductive IpAddr
  | v4 (bits : BitVec 32)
  | v6 (bits : BitVec 128)
  deriving DecidableEq, Repr

def IpAddr.isIpv4 : IpAddr → Bool
  | .v4 _ => true
  | .v6 _ => false

/-- The address as a number. -/
def IpAddr.bits : IpAddr → Nat
  | .v4 a => a.toNat
  | .v6 a => a.toNat

def IpAddr.width : IpAddr → Nat
  | .v4 _ => 32
  | .v6 _ => 128

/-- A `route_manager::Route`, with the fields `install` reads or sets
(`prefixLen` is its `prefix()`). -/
structure Route where
  destination : IpAddr
  prefixLen : Nat
  gateway : Option IpAddr
  ifIndex : Option Nat
  ifName : Option String
  deriving DecidableEq, Repr

def Route.new (destination : IpAddr) (prefixLen : Nat) : Route :=
  ⟨destination, prefixLen, none, none, none⟩

def Route.withIfIndex (route : Route) (ifIndex : Nat) : Route :=
  { route with ifIndex := some ifIndex }

def Route.withGateway (route : Route) (gateway : IpAddr) : Route :=
  { route with gateway := some gateway }

/-- `Route::contains`: `dst` is of the destination's family and agrees with it
on the first `prefix()` bits. -/
def Route.contains (route : Route) (dst : IpAddr) : Bool :=
  route.destination.isIpv4 == dst.isIpv4 &&
    route.destination.bits / 2 ^ (dst.width - route.prefixLen) ==
      dst.bits / 2 ^ (dst.width - route.prefixLen)

/-- `Iterator::max_by_key`: of several maximal elements, the last. -/
def maxByKey {α : Type} (f : α → Nat) : List α → Option α
  | [] => none
  | a :: l => some (l.foldl (fun m x => if f m ≤ f x then x else m) a)

def bestRoute (routes : List Route) (dst : IpAddr) : Option Route :=
  maxByKey (·.prefixLen)
    (routes.filter fun route => route.destination.isIpv4 == dst.isIpv4 && route.contains dst)

def routeMatchesInterface (route : Route) (interface : String) (interfaceIndex : Nat) : Bool :=
  route.ifIndex == some interfaceIndex || route.ifName.any (· == interface)

def bestInterfaceRoute (routes : List Route) (interface : String) (interfaceIndex : Nat)
    (dst : IpAddr) : Option Route :=
  maxByKey (·.prefixLen) (routes.filter fun route =>
    route.destination.isIpv4 == dst.isIpv4 && route.contains dst &&
      routeMatchesInterface route interface interfaceIndex)

def hostPrefix (ip : IpAddr) : Nat :=
  if ip.isIpv4 then 32 else 128

structure RouteKey where
  destination : IpAddr
  prefixLen : Nat
  gateway : Option IpAddr
  ifIndex : Nat
  deriving DecidableEq, Repr

structure TargetRouteGuard where
  key : RouteKey
  route : Route
  deriving DecidableEq, Repr

/-- The errors of `install`; the texts are the source's. -/
inductive InstallError
  /-- `网络设备 {interface} 没有有效 if_index` -/
  | noIfIndex (interface : String)
  /-- `RouteManager::new()` or `list()` failed. -/
  | manager
  /-- `网络设备 {interface} 没有到 {dst_ip} 的可用路由` -/
  | noRoute (interface : String) (dst : IpAddr)
  /-- `为目标 {dst_ip} 安装出站旁路路由失败` -/
  | add (dst : IpAddr)
  deriving DecidableEq, Repr

/-- What `install` decided from the routes it listed, before it locks
`ROUTE_REFS`: return `Ok(None)`, or install a host route. -/
inductive InstallPlan
  | shortcut
  | host (key : RouteKey) (route : Route)
  deriving DecidableEq, Repr

/-- `install` up to the lock of `ROUTE_REFS`. -/
def installPlan (interface : String) (interfaceIndex : Option Nat) (dst : IpAddr)
    (routes : List Route) : Except InstallError InstallPlan :=
  match interfaceIndex with
  | none => .error (.noIfIndex interface)
  | some interfaceIndex =>
    if (bestRoute routes dst).any (routeMatchesInterface · interface interfaceIndex) then
      .ok .shortcut
    else
      match bestInterfaceRoute routes interface interfaceIndex dst with
      | none => .error (.noRoute interface dst)
      | some baseRoute =>
        let prefixLen := hostPrefix dst
        let route := (Route.new dst prefixLen).withIfIndex interfaceIndex
        let route := match baseRoute.gateway with
          | some gateway => route.withGateway gateway
          | none => route
        .ok (.host ⟨dst, prefixLen, baseRoute.gateway, interfaceIndex⟩ route)

inductive AddError
  | alreadyExists
  | other
  deriving DecidableEq, Repr

/-- `RouteManager::add` on the table, when no other error stops it: a route
already there is refused. -/
def addRoute (routes : List Route) (route : Route) : Except AddError (List Route) :=
  if route ∈ routes then .error .alreadyExists else .ok (routes ++ [route])

def deleteRoute (routes : List Route) (route : Route) : List Route :=
  routes.filter (· ≠ route)

/-- Where a connection of `connect_tcp_addr` is: between the two halves of
`install`, holding what `install` returned in its `EgressTcpStream`, failed,
or dropped. -/
inductive StreamPc
  | installing (key : RouteKey) (route : Route)
  | connected (guard : Option TargetRouteGuard)
  | failed
  | dropped
  deriving DecidableEq, Repr

structure EgressStream where
  interface : String
  interfaceIndex : Option Nat
  dst : IpAddr
  pc : StreamPc
  deriving DecidableEq, Repr

def StreamPc.ofPlan : Except InstallError InstallPlan → StreamPc
  | .error _ => .failed
  | .ok .shortcut => .connected none
  | .ok (.host key route) => .installing key route

def StreamPc.ofLocked : Except InstallError (Option TargetRouteGuard) → StreamPc
  | .error _ => .failed
  | .ok guard => .connected guard

/-- The routing table, `ROUTE_REFS`, and the connections. -/
structure RouteState where
  routes : List Route
  refs : AList (fun _ : RouteKey => Nat)
  streams : List EgressStream

def RouteState.init (routes : List Route) : RouteState :=
  ⟨routes, ∅, []⟩

def RouteState.addStream (s : RouteState) (st : EgressStream) : RouteState :=
  { s with streams := s.streams ++ [st] }

def RouteState.setStream (s : RouteState) (i : Nat) (st : EgressStream) : RouteState :=
  { s with streams := s.streams.set i st }

/-- `install` under the lock of `ROUTE_REFS`; `add` is what
`RouteManager::add` returns if it is called. -/
def installLocked (s : RouteState) (key : RouteKey) (route : Route)
    (add : Except AddError (List Route)) :
    Except InstallError (Option TargetRouteGuard) × RouteState :=
  match s.refs.lookup key with
  | some count => (.ok (some ⟨key, route⟩), { s with refs := s.refs.replace key (count + 1) })
  | none =>
    match add with
    | .ok routes =>
      (.ok (some ⟨key, route⟩), { s with routes := routes, refs := s.refs.insert key 1 })
    | .error .alreadyExists => (.ok none, s)
    | .error .other => (.error (.add key.destination), s)

/-- `Drop for TargetRouteGuard`; `deleted` is whether `RouteManager::new()` and
`delete` succeed, whose errors the drop ignores. -/
def dropGuard (s : RouteState) (guard : TargetRouteGuard) (deleted : Bool) : RouteState :=
  match s.refs.lookup guard.key with
  | none => s
  | some count =>
    if count > 1 then { s with refs := s.refs.replace guard.key (count - 1) }
    else
      { s with
        refs := s.refs.erase guard.key
        routes := if deleted then deleteRoute s.routes guard.route else s.routes }

/-- One step of any interleaving of connections. -/
inductive RouteStep : RouteState → RouteState → Prop
  /-- A connection calls `install`, which lists the routes and decides. -/
  | begin (s : RouteState) (interface : String) (interfaceIndex : Option Nat) (dst : IpAddr) :
      RouteStep s (s.addStream
        ⟨interface, interfaceIndex, dst,
          .ofPlan (installPlan interface interfaceIndex dst s.routes)⟩)
  | managerFails (s : RouteState) (interface : String) (interfaceIndex : Option Nat)
      (dst : IpAddr) : RouteStep s (s.addStream ⟨interface, interfaceIndex, dst, .failed⟩)
  /-- The second half of an `install`; `add` fails with `AlreadyExists` when
  the route is there, and may fail with any other error. -/
  | lock (s : RouteState) (i : Nat) (st : EgressStream) (key : RouteKey) (route : Route)
      (add : Except AddError (List Route)) (hi : s.streams[i]? = some st)
      (hpc : st.pc = .installing key route)
      (hadd : add = addRoute s.routes route ∨ add = .error .other) :
      RouteStep s ((installLocked s key route add).2.setStream i
        { st with pc := .ofLocked (installLocked s key route add).1 })
  /-- A connection ends and drops its guard. -/
  | drop (s : RouteState) (i : Nat) (st : EgressStream) (guard : TargetRouteGuard)
      (deleted : Bool) (hi : s.streams[i]? = some st) (hpc : st.pc = .connected (some guard)) :
      RouteStep s ((dropGuard s guard deleted).setStream i { st with pc := .dropped })
  | close (s : RouteState) (i : Nat) (st : EgressStream) (hi : s.streams[i]? = some st)
      (hpc : st.pc = .connected none) :
      RouteStep s (s.setStream i { st with pc := .dropped })

@[simp] theorem RouteState.addStream_routes (s : RouteState) (st : EgressStream) :
    (s.addStream st).routes = s.routes := rfl

@[simp] theorem RouteState.addStream_refs (s : RouteState) (st : EgressStream) :
    (s.addStream st).refs = s.refs := rfl

@[simp] theorem RouteState.addStream_streams (s : RouteState) (st : EgressStream) :
    (s.addStream st).streams = s.streams ++ [st] := rfl

@[simp] theorem RouteState.setStream_routes (s : RouteState) (i : Nat) (st : EgressStream) :
    (s.setStream i st).routes = s.routes := rfl

@[simp] theorem RouteState.setStream_refs (s : RouteState) (i : Nat) (st : EgressStream) :
    (s.setStream i st).refs = s.refs := rfl

@[simp] theorem RouteState.setStream_streams (s : RouteState) (i : Nat) (st : EgressStream) :
    (s.setStream i st).streams = s.streams.set i st := rfl

-- ---------------------------------------------------------------------------
-- What each half of `install` and the drop do
-- ---------------------------------------------------------------------------

/-- The host route a key stands for: `Route::new(dst, prefix)` with the
interface's index and the base route's gateway. -/
def RouteKey.route (key : RouteKey) : Route :=
  ⟨key.destination, key.prefixLen, key.gateway, some key.ifIndex, none⟩

theorem RouteKey.route_inj {key key' : RouteKey} (h : key.route = key'.route) : key = key' := by
  obtain ⟨d, p, g, i⟩ := key
  obtain ⟨d', p', g', i'⟩ := key'
  simp only [RouteKey.route, Route.mk.injEq, Option.some.injEq] at h
  obtain ⟨rfl, rfl, rfl, rfl, -⟩ := h
  rfl

/-- The route `install` plans to add is its key's. -/
theorem installPlan_route {interface : String} {interfaceIndex : Option Nat} {dst : IpAddr}
    {routes : List Route} {key : RouteKey} {route : Route}
    (h : installPlan interface interfaceIndex dst routes = .ok (.host key route)) :
    route = key.route := by
  rcases interfaceIndex with _ | interfaceIndex
  · cases h
  · simp only [installPlan] at h
    split_ifs at h with hshort
    · cases h
    split at h
    · cases h
    · rename_i baseRoute _
      cases hg : baseRoute.gateway <;>
        simp only [hg, Except.ok.injEq, InstallPlan.host.injEq] at h <;>
        obtain ⟨rfl, rfl⟩ := h <;> rfl

theorem addRoute_eq_ok {routes routes' : List Route} {route : Route}
    (h : addRoute routes route = .ok routes') : routes' = routes ++ [route] := by
  unfold addRoute at h
  split_ifs at h
  cases h
  rfl

/-- The key of the guard a connection holds. -/
def StreamPc.guardKey : StreamPc → Option RouteKey
  | .connected (some guard) => some guard.key
  | _ => none

/-- The guards with key `key` that connections hold. -/
def liveGuards (streams : List EgressStream) (key : RouteKey) : Nat :=
  streams.countP fun st => st.pc.guardKey = some key

/-- The three ways the locked half of `install` can go: a counted key is
counted once more, an uncounted one's route is added, or nothing changes and
no guard is returned. -/
theorem installLocked_cases (s : RouteState) (key : RouteKey) (route : Route)
    (add : Except AddError (List Route)) :
    (∃ count, s.refs.lookup key = some count ∧ installLocked s key route add =
      (.ok (some ⟨key, route⟩), { s with refs := s.refs.replace key (count + 1) })) ∨
    (s.refs.lookup key = none ∧ ∃ routes, add = .ok routes ∧ installLocked s key route add =
      (.ok (some ⟨key, route⟩), { s with routes := routes, refs := s.refs.insert key 1 })) ∨
    (∃ result, installLocked s key route add = (result, s) ∧
      (StreamPc.ofLocked result).guardKey = none) := by
  unfold installLocked
  split
  · rename_i count hcount
    exact .inl ⟨count, hcount, rfl⟩
  · rename_i hnone
    split
    · exact .inr (.inl ⟨hnone, _, rfl, rfl⟩)
    · exact .inr (.inr ⟨_, rfl, rfl⟩)
    · exact .inr (.inr ⟨_, rfl, rfl⟩)

/-- The three ways a drop can go: an uncounted key changes nothing, a key
counted more than once is counted once less, and the last guard's key is
forgotten and its route deleted, if the deletion succeeds. -/
theorem dropGuard_cases (s : RouteState) (guard : TargetRouteGuard) (deleted : Bool) :
    (s.refs.lookup guard.key = none ∧ dropGuard s guard deleted = s) ∨
    (∃ count, s.refs.lookup guard.key = some count ∧ 1 < count ∧
      dropGuard s guard deleted = { s with refs := s.refs.replace guard.key (count - 1) }) ∨
    (∃ count, s.refs.lookup guard.key = some count ∧ count ≤ 1 ∧
      dropGuard s guard deleted = { s with
        refs := s.refs.erase guard.key
        routes := if deleted then deleteRoute s.routes guard.route else s.routes }) := by
  unfold dropGuard
  split
  · rename_i hnone
    exact .inl ⟨hnone, rfl⟩
  · rename_i count hcount
    by_cases hgt : count > 1
    · rw [if_pos hgt]
      exact .inr (.inl ⟨count, hcount, hgt, rfl⟩)
    · rw [if_neg hgt]
      exact .inr (.inr ⟨count, hcount, Nat.le_of_not_lt hgt, rfl⟩)

-- ---------------------------------------------------------------------------
-- The counts and the routes over every run
-- ---------------------------------------------------------------------------

/-- The guard a connection holds, or is about to take, carries its key's
route. -/
def StreamPc.RouteOk : StreamPc → Prop
  | .installing key route => route = key.route
  | .connected (some guard) => guard.route = guard.key.route
  | .connected none | .failed | .dropped => True

theorem StreamPc.guardKey_ofPlan (plan : Except InstallError InstallPlan) :
    (StreamPc.ofPlan plan).guardKey = none := by
  rcases plan with _ | _ | _ <;> rfl

/-- Which connections hold a guard, how many of each key, and which host
routes are in the table. -/
structure RouteState.Inv (s : RouteState) : Prop where
  count_eq : ∀ key, (s.refs.lookup key).getD 0 = liveGuards s.streams key
  count_pos : ∀ key count, s.refs.lookup key = some count → 0 < count
  route_mem : ∀ key ∈ s.refs, key.route ∈ s.routes
  route_ok : ∀ st ∈ s.streams, st.pc.RouteOk

section Counts

variable {l : List EgressStream} {i : Nat} {st : EgressStream}

/-- Replacing a connection trades the guard it held for the one it holds now. -/
theorem liveGuards_set (hi : l[i]? = some st) (st' : EgressStream) (key : RouteKey) :
    liveGuards (l.set i st') key + (if st.pc.guardKey = some key then 1 else 0) =
      liveGuards l key + (if st'.pc.guardKey = some key then 1 else 0) := by
  obtain ⟨hlt, rfl⟩ := List.getElem?_eq_some_iff.mp hi
  have := Ppaass.Table.countP_set (fun st => decide (st.pc.guardKey = some key)) l hlt st'
  simpa [liveGuards] using this

theorem liveGuards_append (hst : st.pc.guardKey = none) (key : RouteKey) :
    liveGuards (l ++ [st]) key = liveGuards l key := by
  simp [liveGuards, List.countP_append, hst]

/-- The counts stay those of the live guards when only `key`'s count and
guards change, and they change alike. -/
theorem count_eq_update {refs refs' : AList (fun _ : RouteKey => Nat)} {l' : List EgressStream}
    {key : RouteKey} (hcount : ∀ k, (refs.lookup k).getD 0 = liveGuards l k)
    (hkey : (refs'.lookup key).getD 0 = liveGuards l' key)
    (hrefs : ∀ k, k ≠ key → refs'.lookup k = refs.lookup k)
    (hlive : ∀ k, k ≠ key → liveGuards l' k = liveGuards l k) :
    ∀ k, (refs'.lookup k).getD 0 = liveGuards l' k := by
  intro k
  by_cases hk : k = key
  · subst hk
    exact hkey
  · rw [hrefs k hk, hlive k hk]
    exact hcount k

end Counts

section Inv

variable {s : RouteState} {i : Nat} {st : EgressStream}

theorem RouteState.Inv.routeOk_of_mem (hinv : s.Inv) (hi : s.streams[i]? = some st) :
    st.pc.RouteOk :=
  hinv.route_ok st (List.mem_of_getElem? hi)

/-- A new connection that holds no guard. -/
theorem RouteState.Inv.addStream (hinv : s.Inv) (hst : st.pc.guardKey = none)
    (hok : st.pc.RouteOk) : (s.addStream st).Inv where
  count_eq key := by
    rw [RouteState.addStream_streams, liveGuards_append hst]
    exact hinv.count_eq key
  count_pos := hinv.count_pos
  route_mem := hinv.route_mem
  route_ok st' hst' := by
    rcases List.mem_append.mp hst' with hst' | hst'
    · exact hinv.route_ok st' hst'
    · rw [List.mem_singleton.mp hst']
      exact hok

/-- A connection that holds no guard, replaced by one that holds none. -/
theorem RouteState.Inv.setStream (hinv : s.Inv) (hi : s.streams[i]? = some st)
    (hst : st.pc.guardKey = none) {st' : EgressStream} (hst' : st'.pc.guardKey = none)
    (hok : st'.pc.RouteOk) : (s.setStream i st').Inv where
  count_eq key := by
    have hlive := liveGuards_set hi st' key
    simp only [hst, hst', reduceCtorEq, if_false, Nat.add_zero] at hlive
    rw [RouteState.setStream_streams, RouteState.setStream_refs, hlive]
    exact hinv.count_eq key
  count_pos := hinv.count_pos
  route_mem := hinv.route_mem
  route_ok st'' hst'' := by
    rcases List.mem_or_eq_of_mem_set hst'' with hst'' | rfl
    · exact hinv.route_ok st'' hst''
    · exact hok

/-- The locked half of `install`. -/
theorem RouteState.Inv.lock (hinv : s.Inv) {key : RouteKey} {route : Route}
    {add : Except AddError (List Route)} (hi : s.streams[i]? = some st)
    (hpc : st.pc = .installing key route)
    (hadd : add = addRoute s.routes route ∨ add = .error .other) :
    ((installLocked s key route add).2.setStream i
      { st with pc := .ofLocked (installLocked s key route add).1 }).Inv := by
  have hroute : route = key.route := by
    have := hinv.routeOk_of_mem hi
    rwa [hpc] at this
  have hst : st.pc.guardKey = none := by rw [hpc]; rfl
  -- a guard with `key` is one more live guard with `key` and no other
  have hgain : ∀ k,
      liveGuards (s.streams.set i { st with pc := .connected (some ⟨key, route⟩) }) k =
        liveGuards s.streams k + if key = k then 1 else 0 := by
    intro k
    have := liveGuards_set hi { st with pc := .connected (some ⟨key, route⟩) } k
    rw [hst] at this
    simpa only [reduceCtorEq, if_false, Nat.add_zero, StreamPc.guardKey, Option.some.injEq]
      using this
  have hok : ∀ st' ∈ s.streams.set i { st with pc := .connected (some ⟨key, route⟩) },
      st'.pc.RouteOk := by
    intro st' hst'
    rcases List.mem_or_eq_of_mem_set hst' with hst' | rfl
    · exact hinv.route_ok st' hst'
    · exact hroute
  have hlive : ∀ k, k ≠ key →
      liveGuards (s.streams.set i { st with pc := .connected (some ⟨key, route⟩) }) k =
        liveGuards s.streams k := by
    intro k hk
    rw [hgain k, if_neg (Ne.symm hk), Nat.add_zero]
  rcases installLocked_cases s key route add with
    ⟨count, hcount, hres⟩ | ⟨hnone, routes, hroutes, hres⟩ | ⟨result, hres, hkey⟩
  · -- the key is counted once more
    have hmem : key ∈ s.refs := AList.lookup_isSome.mp (by rw [hcount]; rfl)
    have hold : count = liveGuards s.streams key := by
      have := hinv.count_eq key
      rwa [hcount, Option.getD_some] at this
    rw [hres]
    dsimp only [StreamPc.ofLocked]
    refine ⟨count_eq_update hinv.count_eq ?_ ?_ hlive, ?_, ?_, hok⟩
    · rw [RouteState.setStream_refs, RouteState.setStream_streams,
        Ppaass.Table.lookup_replace_of_mem hmem, hgain, if_pos rfl]
      simp [hold]
    · intro k hk
      rw [RouteState.setStream_refs, Ppaass.Table.lookup_replace, if_neg (fun h => hk h.1)]
    · intro k c hc
      rw [RouteState.setStream_refs, Ppaass.Table.lookup_replace] at hc
      split_ifs at hc
      · cases hc
        exact Nat.succ_pos count
      · exact hinv.count_pos k c hc
    · intro k hk
      exact hinv.route_mem k (AList.mem_replace.mp hk)
  · -- the route is added and the key counted once
    have hroutes' : routes = s.routes ++ [route] := by
      rcases hadd with hadd | hadd
      · rw [hadd] at hroutes
        exact addRoute_eq_ok hroutes
      · rw [hadd] at hroutes
        cases hroutes
    have hzero : liveGuards s.streams key = 0 := by
      have := hinv.count_eq key
      rwa [hnone, Option.getD_none, eq_comm] at this
    rw [hres]
    dsimp only [StreamPc.ofLocked]
    refine ⟨count_eq_update hinv.count_eq ?_ ?_ hlive, ?_, ?_, hok⟩
    · simp [AList.lookup_insert, hgain, hzero]
    · intro k hk
      exact AList.lookup_insert_ne hk
    · intro k c hc
      by_cases hk : k = key
      · subst hk
        rw [RouteState.setStream_refs, AList.lookup_insert] at hc
        cases hc
        exact Nat.one_pos
      · rw [RouteState.setStream_refs, AList.lookup_insert_ne hk] at hc
        exact hinv.count_pos k c hc
    · intro k hk
      rw [RouteState.setStream_routes, hroutes', List.mem_append]
      rcases (AList.mem_insert _).mp hk with rfl | hk
      · exact .inr (List.mem_singleton.mpr hroute.symm)
      · exact .inl (hinv.route_mem k hk)
  · -- nothing changes and no guard is taken
    rw [hres]
    refine hinv.setStream hi hst hkey ?_
    rcases result with _ | _ | guard
    · trivial
    · trivial
    · cases hkey

/-- The drop of a guard. -/
theorem RouteState.Inv.drop (hinv : s.Inv) {guard : TargetRouteGuard}
    (hi : s.streams[i]? = some st) (hpc : st.pc = .connected (some guard)) (deleted : Bool) :
    ((dropGuard s guard deleted).setStream i { st with pc := .dropped }).Inv := by
  have hroute : guard.route = guard.key.route := by
    have := hinv.routeOk_of_mem hi
    rwa [hpc] at this
  -- the guard was one of the live guards with its key, and is no longer
  have hlose : ∀ k, liveGuards (s.streams.set i { st with pc := .dropped }) k +
      (if guard.key = k then 1 else 0) = liveGuards s.streams k := by
    intro k
    have := liveGuards_set hi { st with pc := .dropped } k
    simpa only [hpc, StreamPc.guardKey, Option.some.injEq, reduceCtorEq, if_false,
      Nat.add_zero] using this
  have hlive : ∀ k, k ≠ guard.key →
      liveGuards (s.streams.set i { st with pc := .dropped }) k = liveGuards s.streams k := by
    intro k hk
    have := hlose k
    rwa [if_neg (Ne.symm hk), Nat.add_zero] at this
  have hcount : (s.refs.lookup guard.key).getD 0 =
      liveGuards (s.streams.set i { st with pc := .dropped }) guard.key + 1 := by
    have := hlose guard.key
    rw [if_pos rfl] at this
    rw [hinv.count_eq, this]
  have hok : ∀ st' ∈ s.streams.set i { st with pc := .dropped }, st'.pc.RouteOk := by
    intro st' hst'
    rcases List.mem_or_eq_of_mem_set hst' with hst' | rfl
    · exact hinv.route_ok st' hst'
    · trivial
  rcases dropGuard_cases s guard deleted with
    ⟨hnone, -⟩ | ⟨count, hc, hgt, hres⟩ | ⟨count, hc, hle, hres⟩
  · -- a live guard's key is counted
    rw [hnone, Option.getD_none] at hcount
    omega
  · -- the key is counted once less
    have hmem : guard.key ∈ s.refs := AList.lookup_isSome.mp (by rw [hc]; rfl)
    rw [hc, Option.getD_some] at hcount
    rw [hres]
    refine ⟨count_eq_update hinv.count_eq ?_ ?_ hlive, ?_, ?_, hok⟩
    · simp only [RouteState.setStream_refs, RouteState.setStream_streams]
      rw [Ppaass.Table.lookup_replace_of_mem hmem, if_pos rfl, Option.getD_some]
      omega
    · intro k hk
      rw [RouteState.setStream_refs, Ppaass.Table.lookup_replace, if_neg (fun h => hk h.1)]
    · intro k c hc'
      rw [RouteState.setStream_refs, Ppaass.Table.lookup_replace] at hc'
      split_ifs at hc' with hk
      · cases hc'
        omega
      · exact hinv.count_pos k c hc'
    · intro k hk
      exact hinv.route_mem k (AList.mem_replace.mp hk)
  · -- the last guard: the key is forgotten and its route deleted
    rw [hc, Option.getD_some] at hcount
    have hpos := hinv.count_pos _ _ hc
    rw [hres]
    refine ⟨count_eq_update hinv.count_eq ?_ ?_ hlive, ?_, ?_, hok⟩
    · simp only [RouteState.setStream_refs, RouteState.setStream_streams]
      rw [AList.lookup_erase, Option.getD_none]
      omega
    · intro k hk
      exact AList.lookup_erase_ne hk
    · intro k c hc'
      rw [RouteState.setStream_refs] at hc'
      exact hinv.count_pos k c (Ppaass.Table.lookup_of_lookup_erase hc')
    · intro k hk
      obtain ⟨hne, hk⟩ := AList.mem_erase.mp hk
      have hin := hinv.route_mem k hk
      rw [RouteState.setStream_routes]
      split_ifs
      · -- another key's route is not the one deleted
        refine List.mem_filter.mpr ⟨hin, ?_⟩
        rw [hroute]
        exact decide_eq_true fun h => hne (RouteKey.route_inj h)
      · exact hin

theorem RouteState.Inv.step {s' : RouteState} (hinv : s.Inv) (h : RouteStep s s') : s'.Inv := by
  cases h with
  | begin interface interfaceIndex dst =>
    refine hinv.addStream (StreamPc.guardKey_ofPlan _) ?_
    rcases hplan : installPlan interface interfaceIndex dst s.routes with _ | _ | ⟨key, route⟩
    · trivial
    · trivial
    · exact installPlan_route hplan
  | managerFails => exact hinv.addStream rfl trivial
  | lock i st key route add hi hpc hadd => exact hinv.lock hi hpc hadd
  | drop i st guard deleted hi hpc => exact hinv.drop hi hpc deleted
  | close i st hi hpc => exact hinv.setStream hi (by rw [hpc]; rfl) rfl trivial

/-- A connection that holds a guard has its host route in the table. -/
theorem RouteState.Inv.route_mem_of_guard (hinv : s.Inv) (hst : st ∈ s.streams)
    {guard : TargetRouteGuard} (hpc : st.pc = .connected (some guard)) :
    guard.route ∈ s.routes := by
  have hlive : 0 < liveGuards s.streams guard.key :=
    List.countP_pos_iff.mpr ⟨st, hst, by simp [hpc, StreamPc.guardKey]⟩
  have hmem : guard.key ∈ s.refs := by
    rw [← AList.lookup_isSome]
    cases h : s.refs.lookup guard.key with
    | none =>
      have := hinv.count_eq guard.key
      rw [h, Option.getD_none] at this
      omega
    | some _ => rfl
  have hroute : guard.route = guard.key.route := by
    have := hinv.route_ok st hst
    rwa [hpc] at this
  rw [hroute]
  exact hinv.route_mem _ hmem

end Inv

-- ---------------------------------------------------------------------------
-- A connection let through without a guard
-- ---------------------------------------------------------------------------

/-- The best route to the connection's target goes out of its interface. -/
def EgressStream.routedOut (st : EgressStream) (routes : List Route) : Bool :=
  match st.interfaceIndex with
  | some interfaceIndex =>
    (bestRoute routes st.dst).any (routeMatchesInterface · st.interface interfaceIndex)
  | none => false

def StreamPc.isConnected : StreamPc → Bool
  | .connected _ => true
  | _ => false

/-- Every connection whose `install` returned `Ok` still leaves through its
interface. -/
def KeepsRoutes (s : RouteState) : Prop :=
  ∀ st ∈ s.streams, st.pc.isConnected = true → st.routedOut s.routes = true

instance (s : RouteState) : Decidable (KeepsRoutes s) :=
  inferInstanceAs (Decidable (∀ st ∈ s.streams, _))

/-- A TUN that captures `0.0.0.0/1`, and the default route through `en0`. -/
def tunRoute : Route := ⟨.v4 0, 1, none, some 9, some "utun3"⟩

def defaultRoute : Route := ⟨.v4 0, 0, some (.v4 0xC0A80101), some 4, some "en0"⟩

def sampleTarget : IpAddr := .v4 0x01020304

/-- The host route to `sampleTarget` through `en0`. -/
def sampleKey : RouteKey := ⟨sampleTarget, 32, some (.v4 0xC0A80101), 4⟩

/-- Two connections to one target through `en0`: the first installs the host
route, the second sees it as the best route and takes no guard, and the drop
of the first deletes the route the second leaves by. -/
theorem shortcut_stream_loses_route :
    ∃ s s', Machine.Reachable (RouteState.init [tunRoute, defaultRoute]) RouteStep s ∧
      KeepsRoutes s ∧ RouteStep s s' ∧ ¬ KeepsRoutes s' := by
  have h0 : Machine.Reachable (RouteState.init [tunRoute, defaultRoute]) RouteStep
      (RouteState.init [tunRoute, defaultRoute]) := Machine.Reachable.init
  -- the first connection plans the host route, then adds it and counts it
  have h1 := h0.tail (RouteStep.begin _ "en0" (some 4) sampleTarget)
  have h2 := h1.tail (RouteStep.lock _ 0 ⟨"en0", some 4, sampleTarget,
    .installing sampleKey sampleKey.route⟩ sampleKey sampleKey.route _ (by decide) rfl (.inl rfl))
  -- the second finds the host route best and returns `Ok(None)`
  have h3 := h2.tail (RouteStep.begin _ "en0" (some 4) sampleTarget)
  refine ⟨_, _, h3, by decide, RouteStep.drop _ 0 ⟨"en0", some 4, sampleTarget,
    .connected (some ⟨sampleKey, sampleKey.route⟩)⟩ ⟨sampleKey, sampleKey.route⟩ true
    (by decide) rfl, by decide⟩

end Ppaass.Proxy
