import NetfabricBgp.KeyedLog
import NetfabricBgp.RibInvariants

/-!
The shared RIB against a store in which every router has a set of its own. The RIB
keeps one tuple for a route and marks its holders by bits; read by prefix and router it
is the reference store, for every interleaving of calls. A router's own set is in turn
the live part of that router's own log, which decides when a peer has one route only.
-/
namespace NetfabricBgp.ReferenceStores

open Addresses Routes RouterMasks Ribs RibInvariants KeyedLog

/-- Each router's own set of routes. -/
abbrev ReferenceStore := Uuid → Set Route

namespace ReferenceStore

def empty : ReferenceStore := fun _ => ∅

def insertRoute (store : ReferenceStore) (route : Route) (router : Uuid) : ReferenceStore :=
  Function.update store router (insert route (store router))

def removeRoute (store : ReferenceStore) (route : Route) (router : Uuid) : ReferenceStore :=
  Function.update store router
    {x ∈ store router | ¬ (x.peer = route.peer ∧ x.pfx = route.pfx)}

def next (store : ReferenceStore) : BgpRib.Op → ReferenceStore
  | .registerRouter _ => store
  | .insertRoute route router => store.insertRoute route router
  | .removeRoute route router => store.removeRoute route router

def run (ops : List BgpRib.Op) : ReferenceStore := ops.foldl next empty

end ReferenceStore

/-- The insertions and removals of one router, as entries of a log. -/
def ownLog (router : Uuid) (ops : List BgpRib.Op) : List (Entry Route) :=
  ops.filterMap (fun op => match op with
    | .registerRouter _ => none
    | .insertRoute route id => if id = router then some (.add route) else none
    | .removeRoute route id => if id = router then some (.retract route) else none)

section Reference

theorem mem_removeRoute_self {store : ReferenceStore} {route x : Route} {router : Uuid} :
    x ∈ store.removeRoute route router router ↔ x ∈ store router ∧ route.key ≠ x.key := by
  simp only [ReferenceStore.removeRoute, Function.update_self, Set.mem_ofPred_eq, Route.key, ne_eq,
    Prod.mk.injEq, eq_comm]

theorem ownLog_append (router : Uuid) (ops : List BgpRib.Op) (op : BgpRib.Op) :
    ownLog router (ops ++ [op]) = ownLog router ops ++ ownLog router [op] := by
  simp [ownLog]

/-- A router's set consists of its own live insertions. -/
theorem mem_run_iff_live (ops : List BgpRib.Op) (router : Uuid) (x : Route) :
    x ∈ ReferenceStore.run ops router ↔ Live Route.key (ownLog router ops) x := by
  unfold ReferenceStore.run
  induction ops using List.reverseRecOn with
  | nil =>
    simp only [List.foldl_nil, ReferenceStore.empty, Set.mem_empty_iff_false, false_iff]
    exact live_nil Route.key x
  | append_singleton ops op ih =>
    rw [List.foldl_append, ownLog_append]
    cases op with
    | registerRouter id => simpa [ReferenceStore.next, ownLog] using ih
    | insertRoute route id =>
      by_cases hid : id = router
      · subst hid
        have hlog : ownLog id [.insertRoute route id] = [.add route] := by simp [ownLog]
        rw [hlog, live_append_add, ← ih]
        simp [ReferenceStore.next, ReferenceStore.insertRoute, or_comm]
      · have hlog : ownLog router [.insertRoute route id] = [] := by simp [ownLog, hid]
        rw [hlog, List.append_nil, ← ih]
        simp [ReferenceStore.next, ReferenceStore.insertRoute, Function.update_of_ne (Ne.symm hid)]
    | removeRoute route id =>
      by_cases hid : id = router
      · subst hid
        have hlog : ownLog id [.removeRoute route id] = [.retract route] := by simp [ownLog]
        rw [hlog, live_append_retract, ← ih]
        exact mem_removeRoute_self
      · have hlog : ownLog router [.removeRoute route id] = [] := by simp [ownLog, hid]
        rw [hlog, List.append_nil, ← ih]
        simp [ReferenceStore.next, ReferenceStore.removeRoute, Function.update_of_ne (Ne.symm hid)]

end Reference

section Simulation

/-- Read by router and prefix, the RIB is the reference store. -/
structure Simulates (rib : BgpRib) (store : ReferenceStore) : Prop where
  wellFormed : WellFormed rib
  held_iff : ∀ router network x,
    x ∈ rib.held router network ↔ x ∈ store router ∧ x.pfx = network

theorem simulates_new : Simulates BgpRib.new ReferenceStore.empty where
  wellFormed := wellFormed_new
  held_iff := by
    intro router network x
    simp [BgpRib.held_eq_entryAt, BgpRib.new, BgpRib.entryAt,
      NetworkTables.IpNetworkTable.exactMatch, RibEntries.BgpRibEntry.new,
      RibEntries.BgpRibEntry.getWithMask_nil, ReferenceStore.empty]

variable {rib rib' : BgpRib} {store : ReferenceStore} {route : Route} {id : Uuid}
  {report : Option BestRoute}

theorem simulates_insertRoute (hs : Simulates rib store)
    (h : rib.insertRoute route id = .ok (rib', report)) :
    Simulates rib' (store.insertRoute route id) := by
  refine ⟨wellFormed_insertRoute hs.wellFormed h, ?_⟩
  intro router network x
  by_cases hr : router = id
  · subst hr
    simp only [ReferenceStore.insertRoute, Function.update_self, Set.mem_insert_iff]
    by_cases hn : network = route.pfx
    · subst hn
      rw [mem_held_insertRoute hs.wellFormed h, hs.held_iff]
      constructor
      · intro hx
        rcases hx with ⟨hx, hpfx⟩ | rfl
        · exact ⟨Or.inr hx, hpfx⟩
        · exact ⟨Or.inl rfl, rfl⟩
      · intro hx
        obtain ⟨rfl | hx, hpfx⟩ := hx
        · exact Or.inr rfl
        · exact Or.inl ⟨hx, hpfx⟩
    · rw [held_insertRoute_of_ne hs.wellFormed h (Or.inr hn), hs.held_iff]
      constructor
      · intro hx
        exact ⟨Or.inr hx.1, hx.2⟩
      · intro hx
        obtain ⟨rfl | hx, hpfx⟩ := hx
        · exact absurd hpfx.symm hn
        · exact ⟨hx, hpfx⟩
  · rw [held_insertRoute_of_ne hs.wellFormed h (Or.inl hr), hs.held_iff]
    simp only [ReferenceStore.insertRoute, Function.update_of_ne hr]

theorem simulates_removeRoute (hs : Simulates rib store)
    (h : rib.removeRoute route id = .ok (rib', report)) :
    Simulates rib' (store.removeRoute route id) := by
  refine ⟨wellFormed_removeRoute hs.wellFormed h, ?_⟩
  intro router network x
  by_cases hr : router = id
  · subst hr
    rw [mem_removeRoute_self]
    by_cases hn : network = route.pfx
    · subst hn
      rw [held_removeRoute hs.wellFormed h, List.mem_filter, hs.held_iff]
      simp only [ne_eq, decide_eq_true_eq]
      tauto
    · rw [held_removeRoute_of_ne hs.wellFormed h (Or.inr hn), hs.held_iff]
      constructor
      · intro hx
        refine ⟨⟨hx.1, ?_⟩, hx.2⟩
        intro hkey
        exact hn (hx.2.symm.trans (congrArg Prod.snd hkey).symm)
      · intro hx
        exact ⟨hx.1.1, hx.2⟩
  · rw [held_removeRoute_of_ne hs.wellFormed h (Or.inl hr), hs.held_iff]
    simp only [ReferenceStore.removeRoute, Function.update_of_ne hr]

theorem simulates_step {op : BgpRib.Op} (hs : Simulates rib store) (h : rib.step op = .ok rib') :
    Simulates rib' (store.next op) := by
  cases op with
  | registerRouter id =>
    refine ⟨wellFormed_step hs.wellFormed h, ?_⟩
    obtain ⟨masks, mask, hget, rfl⟩ := BgpRib.step_registerRouter_ok.mp h
    intro router network x
    have hview := held_get hs.wellFormed hget router network
    rw [BgpRib.held_eq_entryAt]
    exact (iff_of_eq (congrArg (x ∈ ·) hview)).trans (hs.held_iff router network x)
  | insertRoute route id =>
    obtain ⟨report, hinsert⟩ := BgpRib.step_insertRoute_ok.mp h
    exact simulates_insertRoute hs hinsert
  | removeRoute route id =>
    obtain ⟨report, hremove⟩ := BgpRib.step_removeRoute_ok.mp h
    exact simulates_removeRoute hs hremove

theorem simulates_run {ops : List BgpRib.Op} (h : BgpRib.new.run ops = .ok rib) :
    Simulates rib (ReferenceStore.run ops) :=
  Runs.run_simulates Simulates ReferenceStore.next (fun _ _ _ _ => simulates_step)
    simulates_new h

/-- What a router holds at a prefix is the live part of its own log there. -/
theorem mem_held_iff_live {ops : List BgpRib.Op} (h : BgpRib.new.run ops = .ok rib)
    {router : Uuid} {network : IpNetwork} {x : Route} :
    x ∈ rib.held router network ↔ Live Route.key (ownLog router ops) x ∧ x.pfx = network := by
  rw [(simulates_run h).held_iff, mem_run_iff_live]

end Simulation

section Contents

/-- For every interleaving of the calls of at most 64 routers, each router reads its own
reference set, and so what its own calls alone determine. -/
theorem held_refines_reference (ops : List BgpRib.Op)
    (hids : (ops.map BgpRib.Op.router).toFinset.card ≤ 64) :
    ∃ rib, BgpRib.new.run ops = .ok rib ∧
      (∀ router network, {x | x ∈ rib.held router network} =
        {x | x ∈ ReferenceStore.run ops router ∧ x.pfx = network}) ∧
      ∀ ops' rib' router, BgpRib.new.run ops' = .ok rib' →
        ownLog router ops' = ownLog router ops → ∀ network,
          {x | x ∈ rib'.held router network} = {x | x ∈ rib.held router network} := by
  have hempty : BgpRib.new.routerMaskMap.map.keys = ∅ := Finmap.keys_empty
  obtain ⟨rib, hrun⟩ := run_total wellFormed_new (by simpa [hempty] using hids)
  refine ⟨rib, hrun, ?_, ?_⟩
  · intro router network
    exact Set.ext (fun x => (simulates_run hrun).held_iff router network x)
  · intro ops' rib' router hrun' hlog network
    apply Set.ext
    intro x
    change x ∈ rib'.held router network ↔ x ∈ rib.held router network
    rw [mem_held_iff_live hrun', mem_held_iff_live hrun, hlog]

/-- Two routers share one route and the first withdraws it. -/
def sharedOps : List BgpRib.Op :=
  [.insertRoute (.sample 1 8 "10.0.0.1" [65001]) 1, .registerRouter 3,
    .insertRoute (.sample 1 8 "10.0.0.1" [65001]) 2,
    .removeRoute (.sample 1 8 "" []) 1]

theorem held_refines_reference_shared :
    ∃ rib, BgpRib.new.run sharedOps = .ok rib ∧
      ∀ router network, {x | x ∈ rib.held router network} =
        {x | x ∈ ReferenceStore.run sharedOps router ∧ x.pfx = network} := by
  obtain ⟨rib, hrun, hheld, -⟩ := held_refines_reference sharedOps (by decide)
  exact ⟨rib, hrun, hheld⟩

end Contents

section Replacement

/-- A router holds at most one route of the peer at the prefix: the one it inserted most
recently and has not withdrawn since. No older route of the peer is its best route. -/
structure HoldsOnlyLatest (rib : BgpRib) (ops : List BgpRib.Op) (router : Uuid)
    (network : IpNetwork) (peer : IpAddr) : Prop where
  unique : ∀ x ∈ rib.held router network, ∀ y ∈ rib.held router network,
    x.peer = peer → y.peer = peer → x = y
  latest : ∀ x, (x ∈ rib.held router network ∧ x.peer = peer) ↔
    x.key = (peer, network) ∧ Latest Route.key (ownLog router ops) x
  best : ∀ best, rib.best router network = some best → best.route.peer = peer →
    Latest Route.key (ownLog router ops) best.route

/-- The newer announcement of a peer replaces the older one exactly where the router never
inserts two different routes of the peer without a withdrawal behind the first. -/
theorem holdsOnlyLatest_iff_consistent {ops : List BgpRib.Op} {rib : BgpRib}
    (h : BgpRib.new.run ops = .ok rib) (router : Uuid) (network : IpNetwork) (peer : IpAddr) :
    HoldsOnlyLatest rib ops router network peer ↔
      Consistent Route.key (ownLog router ops) (peer, network) := by
  have hheld : ∀ x, (x ∈ rib.held router network ∧ x.peer = peer) ↔
      x.key = (peer, network) ∧ Live Route.key (ownLog router ops) x := by
    intro x
    rw [mem_held_iff_live h]
    simp only [Route.key, Prod.mk.injEq]
    tauto
  constructor
  · intro hlatest
    refine (consistent_iff Route.key).mpr ?_
    intro x hx
    constructor
    · intro hlive
      exact ((hlatest.latest x).mp ((hheld x).mpr ⟨hx, hlive⟩)).2
    · exact live_of_latest Route.key
  · intro hconsistent
    have hlatest : ∀ x, (x ∈ rib.held router network ∧ x.peer = peer) ↔
        x.key = (peer, network) ∧ Latest Route.key (ownLog router ops) x := by
      intro x
      rw [hheld]
      refine and_congr_right (fun hx => ?_)
      exact (consistent_iff Route.key).mp hconsistent x hx
    refine ⟨?_, hlatest, ?_⟩
    · intro x hx y hy hxp hyp
      obtain ⟨hxk, hxl⟩ := (hlatest x).mp ⟨hx, hxp⟩
      obtain ⟨hyk, hyl⟩ := (hlatest y).mp ⟨hy, hyp⟩
      exact latest_unique Route.key hxl hyl (hxk.trans hyk.symm)
    · intro best hbest hpeer
      exact ((hlatest best.route).mp ⟨BestRoute.calculate_mem hbest, hpeer⟩).2

/-- A peer replaces its path of length one by a path of length two. -/
def replacementOps : List BgpRib.Op :=
  [.insertRoute (.sample 1 8 "10.0.0.1" [65001]) 1,
    .insertRoute (.sample 1 8 "10.0.0.1" [65002, 65001]) 1]

theorem holdsOnlyLatest_iff_consistent_shared :
    ∃ rib, BgpRib.new.run sharedOps = .ok rib ∧
      (HoldsOnlyLatest rib sharedOps 2 (.V4 (.around 0x0A010203#32 8)) (.V4 1) ↔
        Consistent Route.key (ownLog 2 sharedOps)
          (.V4 1, .V4 (.around 0x0A010203#32 8))) :=
  ⟨_, rfl, holdsOnlyLatest_iff_consistent rfl 2 _ _⟩

/-- After the replacement both paths are held and the old, shorter one is the best route. -/
theorem not_holdsOnlyLatest_replacement :
    ∃ rib, BgpRib.new.run replacementOps = .ok rib ∧
      rib.best 1 (.V4 (.around 0x0A010203#32 8)) =
        some ⟨.sample 1 8 "10.0.0.1" [65001]⟩ ∧
      ¬ HoldsOnlyLatest rib replacementOps 1 (.V4 (.around 0x0A010203#32 8)) (.V4 1) := by
  refine ⟨_, rfl, by decide, ?_⟩
  intro h
  have heq := h.unique (.sample 1 8 "10.0.0.1" [65001]) (by decide)
    (.sample 1 8 "10.0.0.1" [65002, 65001]) (by decide) rfl rfl
  exact absurd heq (by decide)

end Replacement

end NetfabricBgp.ReferenceStores
