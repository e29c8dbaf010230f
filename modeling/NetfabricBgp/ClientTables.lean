import Mathlib.Data.List.TakeWhile
import NetfabricBgp.ReferenceStores
import NetfabricBgp.RibInterfaces

/-!
A RIB that one client has to itself. It represents the table of the client: an ordered
list of routes, computed from the client's log alone. On such a RIB every call succeeds,
and what it reports is a function of the table and of the entry that is processed.
-/
namespace NetfabricBgp.ClientTables

open Addresses Routes RouterMasks RibEntries Ribs RibInvariants KeyedLog Advertisements Channels
  RibInterfaces

/-- The routes a log leaves, in the order in which they came. -/
def tableOf (log : List (Entry Route)) : List Route := log.foldl (next Route.key) []

def routesAt (table : List Route) (network : IpNetwork) : List Route :=
  table.filter (fun x => x.pfx = network)

/-- No route of the table at the same prefix is better. -/
def Unbeaten (table : List Route) (route : Route) : Prop :=
  ∀ x ∈ routesAt table route.pfx, (x.cmp route).isLE

/-- The best route of the table at this prefix is this one, in all its fields. -/
def IsBest (table : List Route) (route : Route) : Prop :=
  BestRoute.calculate (routesAt table route.pfx) = some (.ofRoute route)

instance (table : List Route) (route : Route) : Decidable (Unbeaten table route) :=
  inferInstanceAs (Decidable (∀ x ∈ routesAt table route.pfx, (x.cmp route).isLE))

instance (table : List Route) (route : Route) : Decidable (IsBest table route) :=
  inferInstanceAs (Decidable (BestRoute.calculate (routesAt table route.pfx) = some _))

/-- What a client is told about one entry. -/
def report (table : List Route) : Entry Route → Option (Entry BestRoute)
  | .add route => if Unbeaten table route then some (.add (.ofRoute route)) else none
  | .retract route => if IsBest table route then some (.retract (.ofRoute route)) else none

section Tables
variable {table : List Route} {route x : Route} {network : IpNetwork}

theorem mem_routesAt : x ∈ routesAt table network ↔ x ∈ table ∧ x.pfx = network := by
  simp [routesAt]

theorem mem_tableOf {log : List (Entry Route)} : x ∈ tableOf log ↔ Live Route.key log x :=
  mem_contents_iff_live Route.key

theorem routesAt_add_self :
    routesAt (next Route.key table (.add route)) route.pfx =
      if route ∈ routesAt table route.pfx then routesAt table route.pfx
      else routesAt table route.pfx ++ [route] := by
  by_cases hmem : route ∈ table
  · have hat : route ∈ routesAt table route.pfx := mem_routesAt.mpr ⟨hmem, rfl⟩
    rw [if_pos hat, next, if_pos hmem]
  · have hat : route ∉ routesAt table route.pfx := fun h => hmem (mem_routesAt.mp h).1
    rw [if_neg hat, next, if_neg hmem]
    simp [routesAt]

theorem routesAt_add_of_ne (hne : network ≠ route.pfx) :
    routesAt (next Route.key table (.add route)) network = routesAt table network := by
  by_cases hmem : route ∈ table
  · rw [next, if_pos hmem]
  · rw [next, if_neg hmem]
    simp [routesAt, Ne.symm hne]

theorem routesAt_retract_self :
    routesAt (next Route.key table (.retract route)) route.pfx =
      (routesAt table route.pfx).filter (fun x => x.key ≠ route.key) := by
  unfold routesAt next
  exact List.filter_comm _ _ table

theorem routesAt_retract_of_ne (hne : network ≠ route.pfx) :
    routesAt (next Route.key table (.retract route)) network = routesAt table network := by
  unfold routesAt next
  rw [List.filter_filter]
  apply List.filter_congr
  intro x _
  by_cases hx : x.pfx = network
  · have hkey : x.key ≠ route.key := by
      intro hkey
      exact hne (hx.symm.trans (congrArg Prod.snd hkey))
    simp [hx, hkey]
  · simp [hx]

end Tables

/-- The client reads exactly its table, and no other router reads anything. -/
structure Represents (rib : BgpRib) (id : Uuid) (table : List Route) : Prop where
  wellFormed : WellFormed rib
  room : id ∈ rib.routerMaskMap.map ∨ rib.routerMaskMap.map.keys.card < 64
  own : ∀ network, rib.held id network = routesAt table network
  alone : ∀ router, router ≠ id → ∀ network, rib.held router network = []

section Steps
variable {rib rib' : BgpRib} {id : Uuid} {table : List Route} {route : Route}

/-- Where nobody else holds a route, everything stored is the client's. -/
theorem Represents.stored (h : Represents rib id table) (network : IpNetwork) :
    rib.stored network = routesAt table network := by
  rw [← h.own, BgpRib.stored_eq_entryAt, BgpRib.held_eq_entryAt]
  unfold BgpRibEntry.getAll BgpRibEntry.getWithMask
  congr 1
  refine (List.filter_eq_self.mpr ?_).symm
  intro tuple htuple
  have hentry := h.wellFormed.entries network
  obtain ⟨i, hi, hset⟩ := RouterMask.exists_has (hentry.held tuple htuple)
  obtain ⟨owner, howner⟩ :=
    (h.wellFormed.masks.union i hi).mp (hentry.registered tuple htuple i hset)
  have hreads : tuple.1.contains (rib.routerMaskMap.tryGet owner) = true := by
    rw [RouterMaskMap.tryGet_of_lookup howner, RouterMask.contains_ofBit _ hi]
    exact hset
  by_cases hid : owner = id
  · rwa [hid] at hreads
  · have hnil := h.alone owner hid network
    rw [BgpRib.held_eq_entryAt, BgpRibEntry.getWithMask, List.map_eq_nil_iff,
      List.filter_eq_nil_iff] at hnil
    exact absurd hreads (hnil tuple htuple)

theorem Represents.best (h : Represents rib id table) (network : IpNetwork) :
    rib.best id network = BestRoute.calculate (routesAt table network) :=
  congrArg BestRoute.calculate (h.own network)

/-- An insertion reports its route exactly when no route of the table beats it. -/
theorem Represents.insertRoute_report (h : Represents rib id table)
    {bestroute : Option BestRoute} (hstep : rib.insertRoute route id = .ok (rib', bestroute)) :
    bestroute = if Unbeaten table route then some (.ofRoute route) else none := by
  obtain ⟨-, -, -, -, hreport⟩ := BgpRib.insertRoute_ok hstep
  rw [h.stored] at hreport
  exact hreport

theorem Represents.removeRoute_report (h : Represents rib id table)
    {bestroute : Option BestRoute} (hstep : rib.removeRoute route id = .ok (rib', bestroute)) :
    bestroute = if IsBest table route then some (.ofRoute route) else none := by
  obtain ⟨-, -, -, -, -, -, hreport⟩ := BgpRib.removeRoute_ok hstep
  rw [h.stored] at hreport
  exact hreport

theorem Represents.exists_step (h : Represents rib id table) {op : BgpRib.Op}
    (hop : op.router = id) : ∃ rib', rib.step op = .ok rib' ∧ id ∈ rib'.routerMaskMap.map := by
  obtain ⟨⟨masks, mask⟩, hget⟩ := RouterMaskMap.get_total h.wellFormed.masks h.room
  rw [← hop] at hget
  obtain ⟨rib', hstep, rfl⟩ := step_of_get hget
  refine ⟨rib', hstep, ?_⟩
  rw [← hop]
  exact Finmap.mem_of_lookup_eq_some (RouterMaskMap.lookup_get hget)

/-- An insertion keeps its place in the table, or comes last. -/
theorem Represents.held_insertRoute (h : Represents rib id table) {bestroute : Option BestRoute}
    (hstep : rib.insertRoute route id = .ok (rib', bestroute)) :
    rib'.held id route.pfx = routesAt (next Route.key table (.add route)) route.pfx := by
  rw [routesAt_add_self, ← h.own]
  by_cases hmem : route ∈ rib.held id route.pfx
  · rw [if_pos hmem]
    exact held_insertRoute_of_mem h.wellFormed hstep hmem
  · rw [if_neg hmem]
    obtain ⟨before, after, hold, hnew, hafter⟩ := held_insertRoute_split h.wellFormed hstep hmem
    have hdrop : (rib.stored route.pfx).dropWhile (· ≠ route) = [] := by
      rw [List.dropWhile_eq_nil_iff, h.stored, ← h.own]
      intro y hy
      refine decide_eq_true ?_
      intro hyr
      exact hmem (hyr ▸ hy)
    have hnil : after = [] := by
      apply List.eq_nil_iff_forall_not_mem.mpr
      intro y hy
      have hin := (hafter y (List.mem_append_right _ hy)).mp hy
      rw [hdrop] at hin
      exact List.not_mem_nil hin
    rw [hnew, hold, hnil, List.append_nil]

theorem Represents.insertRoute (h : Represents rib id table) :
    ∃ rib', handle id rib (.add route) = .ok (rib', report table (.add route)) ∧
      Represents rib' id (next Route.key table (.add route)) := by
  have hrouter : (BgpRib.Op.insertRoute route id).router = id := rfl
  obtain ⟨rib', hop, hmem⟩ := h.exists_step hrouter
  obtain ⟨bestroute, hstep⟩ := BgpRib.step_insertRoute_ok.mp hop
  refine ⟨rib', ?_, wellFormed_insertRoute h.wellFormed hstep, Or.inl hmem, ?_, ?_⟩
  · rw [handle, hstep, h.insertRoute_report hstep]
    by_cases hbest : Unbeaten table route <;> simp [Except.map, report, hbest]
  · intro network
    by_cases hn : network = route.pfx
    · subst hn
      exact h.held_insertRoute hstep
    · rw [routesAt_add_of_ne hn, ← h.own]
      exact held_insertRoute_of_ne h.wellFormed hstep (Or.inr hn)
  · intro router hne network
    rw [held_insertRoute_of_ne h.wellFormed hstep (Or.inl hne)]
    exact h.alone router hne network

theorem Represents.removeRoute (h : Represents rib id table) :
    ∃ rib', handle id rib (.retract route) = .ok (rib', report table (.retract route)) ∧
      Represents rib' id (next Route.key table (.retract route)) := by
  have hrouter : (BgpRib.Op.removeRoute route id).router = id := rfl
  obtain ⟨rib', hop, hmem⟩ := h.exists_step hrouter
  obtain ⟨bestroute, hstep⟩ := BgpRib.step_removeRoute_ok.mp hop
  refine ⟨rib', ?_, wellFormed_removeRoute h.wellFormed hstep, Or.inl hmem, ?_, ?_⟩
  · rw [handle, hstep, h.removeRoute_report hstep]
    by_cases hbest : IsBest table route <;> simp [Except.map, report, hbest]
  · intro network
    by_cases hn : network = route.pfx
    · subst hn
      rw [routesAt_retract_self, ← h.own]
      exact held_removeRoute h.wellFormed hstep
    · rw [routesAt_retract_of_ne hn, ← h.own]
      exact held_removeRoute_of_ne h.wellFormed hstep (Or.inr hn)
  · intro router hne network
    rw [held_removeRoute_of_ne h.wellFormed hstep (Or.inl hne)]
    exact h.alone router hne network

/-- One entry: no panic, the report of the table, and the next table. -/
theorem Represents.step (h : Represents rib id table) (e : Entry Route) :
    ∃ rib', handle id rib e = .ok (rib', report table e) ∧
      Represents rib' id (next Route.key table e) := by
  cases e with
  | add route => exact h.insertRoute
  | retract route => exact h.removeRoute

/-- Any number of entries. -/
theorem Represents.run (h : Represents rib id table) (log : List (Entry Route)) :
    ∃ rib', Runs.collect (handle id) rib log =
        .ok (rib', Runs.outputs (next Route.key) report table log) ∧
      Represents rib' id (log.foldl (next Route.key) table) :=
  Runs.collect_simulates (fun rib table => Represents rib id table) (next Route.key) report
    (fun _ _ e hrel => hrel.step e) log h

/-- A removal reports the best route exactly when that is the given one. -/
theorem Represents.removeRoute_eq_some_iff (h : Represents rib id table)
    {removed : Option BestRoute} (hremove : rib.removeRoute route id = .ok (rib', removed))
    {best : BestRoute} :
    removed = some best ↔ IsBest table route ∧ best = .ofRoute route := by
  have hreport := h.removeRoute_report hremove
  by_cases hbest : IsBest table route
  · simp [hreport, hbest, eq_comm]
  · simp [hreport, hbest]

end Steps

section Start

/-- Routers may be registered, but no route was inserted, and the client finds a free mask. -/
def StartsEmpty (rib : BgpRib) (id : Uuid) : Prop :=
  ∃ ids : List Uuid, BgpRib.new.run (ids.map .registerRouter) = .ok rib ∧
    (id :: ids).toFinset.card ≤ 64

theorem ownLog_registrations (router : Uuid) (ids : List Uuid) :
    ReferenceStores.ownLog router (ids.map .registerRouter) = [] := by
  simp [ReferenceStores.ownLog]

theorem represents_of_startsEmpty {rib : BgpRib} {id : Uuid} (h : StartsEmpty rib id) :
    Represents rib id [] := by
  obtain ⟨ids, hrun, hcard⟩ := h
  have hheld : ∀ router network, rib.held router network = [] := by
    intro router network
    apply List.eq_nil_iff_forall_not_mem.mpr
    intro x hx
    obtain ⟨hlive, -⟩ := (ReferenceStores.mem_held_iff_live hrun).mp hx
    rw [ownLog_registrations] at hlive
    exact live_nil Route.key x hlive
  refine ⟨wellFormed_run wellFormed_new hrun, ?_, ?_, ?_⟩
  · have hkeys : rib.routerMaskMap.map.keys = ids.toFinset := by
      have hrouter : BgpRib.Op.router ∘ BgpRib.Op.registerRouter = fun x => x := rfl
      have hempty : BgpRib.new.routerMaskMap.map.keys = ∅ := Finmap.keys_empty
      rw [keys_run hrun, List.map_map, hrouter, List.map_id', hempty, Finset.empty_union]
    by_cases hmem : id ∈ ids.toFinset
    · left
      rwa [← Finmap.mem_keys, hkeys]
    · right
      rw [List.toFinset_cons, Finset.card_insert_of_notMem hmem] at hcard
      rw [hkeys]
      omega
  · intro network
    rw [hheld]
    rfl
  · intro router _ network
    exact hheld router network

end Start

section Updates
variable {rib : BgpRib}

/-- An update of a client alone on its RIB, and what it adds to the collected changes. -/
theorem Represents.update (self : BgpRibInterface) {table : List Route}
    (h : Represents rib self.clientId table) (forms : TextForms)
    (attempts : List (LockAttempt × Advertisement)) :
    ∃ rib', Runs.collect (handle self.clientId) rib (entriesOf forms attempts) =
        .ok (rib', Runs.outputs (next Route.key) report table (entriesOf forms attempts)) ∧
      self.update forms rib attempts = .ok (rib', self.record
        (Runs.outputs (next Route.key) report table (entriesOf forms attempts))) ∧
      Represents rib' self.clientId ((entriesOf forms attempts).foldl (next Route.key) table) := by
  obtain ⟨rib', hrun, hrep⟩ := h.run (entriesOf forms attempts)
  exact ⟨rib', hrun, update_of_collect hrun, hrep⟩

/-- Where any number of updates by the client takes its RIB and its collected changes. -/
theorem updateAll_represents (forms : TextForms) {self : BgpRibInterface}
    (h : StartsEmpty rib self.clientId)
    (calls : List (List (LockAttempt × Advertisement))) :
    ∃ rib', BgpRibInterface.updateAll forms (rib, self) calls =
        .ok (rib', self.record (Runs.outputs (next Route.key) report []
          (calls.flatMap (entriesOf forms)))) ∧
      Represents rib' self.clientId (tableOf (calls.flatMap (entriesOf forms))) := by
  obtain ⟨rib', hrun, hrep⟩ := (represents_of_startsEmpty h).run (calls.flatMap (entriesOf forms))
  refine ⟨rib', ?_, hrep⟩
  rw [updateAll_eq, hrun]
  rfl

end Updates

end NetfabricBgp.ClientTables
