import NetfabricBgp.DoubleCounts
import NetfabricBgp.RibLifecycles

/-!
The statistics of the routers on a RIB against those of the RIB as a whole. Every bit of a
stored mask is the mask of one registered router, so the routes counted for the routers are
the bits of the stored masks, and no stored route or prefix is counted for nobody.
-/
namespace NetfabricBgp.RouterStatistics

open Addresses NetworkTables Routes RouterMasks RibEntries Ribs RibInvariants RibLifecycles
  DoubleCounts

/-- All stored pairs of a mask and a route. -/
def storedPairs {table : IpNetworkTable BgpRibEntry} (iteration : table.Iteration) :
    List (RouterMask × Route) :=
  iteration.list.entries.flatMap (fun entry => entry.2.routes)

/-- The registered routers that read what is stored with a mask. -/
def readers (rib : BgpRib) (mask : RouterMask) : Finset Uuid :=
  rib.getRouterIds.filter (fun id => mask.contains (rib.routerMaskMap.tryGet id) = true)

/-- The stored prefixes at which a router holds a route. -/
def heldPrefixes (rib : BgpRib) (id : Uuid) : Finset IpNetwork :=
  rib.treebitmap.keys.filter (fun network => rib.held id network ≠ [])

/-- No stored route is held by two routers. -/
def HeldOnce (rib : BgpRib) : Prop :=
  ∀ network, ∀ route ∈ rib.stored network, ∀ id id', route ∈ rib.held id network →
    route ∈ rib.held id' network → id = id'

section Readers
variable {rib : BgpRib} {mask : RouterMask} {id : Uuid}

theorem mem_readers (hw : WellFormed rib) :
    id ∈ readers rib mask ↔ mask.contains (rib.routerMaskMap.tryGet id) = true := by
  rw [readers, Finset.mem_filter, and_iff_right_iff_imp]
  intro hcontains
  by_contra hnot
  have hnone := Finmap.lookup_eq_none.mpr (fun hmem => hnot (Finmap.mem_keys.mpr hmem))
  rw [RouterMaskMap.tryGet_of_none hw.masks hnone, RouterMask.contains_default] at hcontains
  cases hcontains

/-- A mask whose bits are all in use has as many readers as bits: each bit is the mask of one
router. -/
theorem card_readers (hw : WellFormed rib)
    (hused : ∀ i, mask.has i = true → rib.routerMaskMap.mask.has i = true) :
    (readers rib mask).card = mask.len := by
  have howner : ∀ i ∈ (Finset.range 64).filter (fun i => mask.has i = true),
      ∃ id, rib.routerMaskMap.map.lookup id = some (.ofBit i) := by
    intro i hi
    obtain ⟨hlt, hhas⟩ := Finset.mem_filter.mp hi
    exact (hw.masks.union i (Finset.mem_range.mp hlt)).mp (hused i hhas)
  choose owner howner using howner
  rw [RouterMask.len_eq_card]
  symm
  refine Finset.card_bij owner ?_ ?_ ?_
  · intro i hi
    obtain ⟨hlt, hhas⟩ := Finset.mem_filter.mp hi
    rw [mem_readers hw, RouterMaskMap.tryGet_of_lookup (howner i hi),
      RouterMask.contains_ofBit _ (Finset.mem_range.mp hlt)]
    exact hhas
  · intro i hi j hj heq
    have hsame := howner i hi
    rw [heq, howner j hj, Option.some.injEq] at hsame
    have hlt := Finset.mem_range.mp (Finset.mem_filter.mp hj).1
    exact (RouterMask.ofBit_injective hlt hsame).symm
  · intro id hid
    rw [mem_readers hw] at hid
    cases hlookup : rib.routerMaskMap.map.lookup id with
    | none =>
      rw [RouterMaskMap.tryGet_of_none hw.masks hlookup, RouterMask.contains_default] at hid
      cases hid
    | some known =>
      obtain ⟨i, hlt, rfl, -⟩ := RouterMaskMap.lookup_bit hw.masks hlookup
      rw [RouterMaskMap.tryGet_of_lookup hlookup, RouterMask.contains_ofBit _ hlt] at hid
      have hi : i ∈ (Finset.range 64).filter (fun i => mask.has i = true) :=
        Finset.mem_filter.mpr ⟨Finset.mem_range.mpr hlt, hid⟩
      exact ⟨i, hi, hw.masks.disjoint _ _ _ (howner i hi) hlookup⟩

end Readers

section Counters
variable {rib : BgpRib} (iteration : rib.treebitmap.Iteration)

theorem length_getWithMask (entry : BgpRibEntry) (mask : RouterMask) :
    (entry.getWithMask mask).length =
      (entry.routes.filter (fun tuple => tuple.1.contains mask)).length :=
  List.length_map ..

/-- The loop over the entries, from any counters on. -/
theorem foldl_countEntry (mask : RouterMask)
    (entries : List (Sigma fun _ : IpNetwork => BgpRibEntry)) (routes ipv4 ipv6 : ℕ) :
    entries.foldl (BgpRib.countEntry mask) (routes, ipv4, ipv6) =
      (routes + ((entries.flatMap (fun entry => entry.2.routes)).filter
          (fun tuple => tuple.1.contains mask)).length,
        ipv4 + entries.countP (fun entry => entry.2.getWithMask mask ≠ [] ∧ entry.1.isIpv4),
        ipv6 + entries.countP (fun entry => entry.2.getWithMask mask ≠ [] ∧ entry.1.isIpv6)) := by
  induction entries generalizing routes ipv4 ipv6 with
  | nil => rfl
  | cons entry rest ih =>
    have hread : (entry.2.getWithMask mask).length > 0 ↔ entry.2.getWithMask mask ≠ [] :=
      List.length_pos_iff
    rw [List.foldl_cons, BgpRib.countEntry]
    simp only [hread]
    rw [ih, List.flatMap_cons, List.filter_append, List.length_append, length_getWithMask,
      List.countP_cons, List.countP_cons]
    simp only [decide_eq_true_eq]
    refine Prod.ext (Nat.add_assoc ..) (Prod.ext ?_ ?_)
    · by_cases h : entry.2.getWithMask mask ≠ [] ∧ entry.1.isIpv4 = true
      · simp only [if_pos h]
        omega
      · simp only [if_neg h]
        omega
    · by_cases h : entry.2.getWithMask mask ≠ [] ∧ entry.1.isIpv6 = true
      · simp only [if_pos h]
        omega
      · simp only [if_neg h]
        omega

/-- The entries that satisfy a condition on their networks are the stored networks that do. -/
theorem countP_entries {table : IpNetworkTable BgpRibEntry} (iteration : table.Iteration)
    (p : IpNetwork → Bool) :
    iteration.list.entries.countP (fun entry => p entry.1) =
      (table.keys.filter (fun network => p network = true)).card := by
  obtain ⟨list, rfl⟩ := iteration
  have hkeys : (Finmap.keys list.toFinmap).val = list.keys := Finmap.keys_val list
  rw [Finset.card_def, Finset.filter_val, hkeys, Multiset.filter_coe, Multiset.coe_card,
    ← List.countP_eq_length_filter, AList.keys, List.keys, List.countP_map]
  simp [Function.comp_def]

theorem held_of_mem {entry : Sigma fun _ : IpNetwork => BgpRibEntry}
    (h : entry ∈ iteration.list.entries) (id : Uuid) :
    rib.held id entry.1 = entry.2.getWithMask (rib.routerMaskMap.tryGet id) := by
  rw [BgpRib.held, iteration.mem_iff.mp h]

/-- The prefixes of one family that a router's counter counts are those at which it holds a
route. -/
theorem countP_held (id : Uuid) (family : IpNetwork → Bool) :
    iteration.list.entries.countP (fun entry =>
        entry.2.getWithMask (rib.routerMaskMap.tryGet id) ≠ [] ∧ family entry.1) =
      ((heldPrefixes rib id).filter (fun network => family network = true)).card := by
  have hsame := countP_entries iteration
    (fun network => decide (rib.held id network ≠ [] ∧ family network = true))
  rw [heldPrefixes, Finset.filter_filter]
  simp only [decide_eq_true_eq] at hsame
  rw [← hsame]
  apply List.countP_congr
  intro entry hentry
  rw [held_of_mem iteration hentry]

theorem getRoutesCountWithMask_eq (id : Uuid) :
    rib.getRoutesCountWithMask iteration id =
      (((storedPairs iteration).filter
          (fun pair => pair.1.contains (rib.routerMaskMap.tryGet id))).length,
        ((heldPrefixes rib id).filter (fun network => network.isIpv4 = true)).card,
        ((heldPrefixes rib id).filter (fun network => network.isIpv6 = true)).card) := by
  rw [BgpRib.getRoutesCountWithMask, foldl_countEntry, countP_held, countP_held]
  simp only [Nat.zero_add, storedPairs]

theorem getTotalRouteCount_eq :
    rib.getTotalRouteCount iteration = (storedPairs iteration).length := by
  rw [storedPairs, List.length_flatMap]
  rfl

end Counters

/-- How the statistics of the routers and those of the whole RIB fit together. -/
structure AddUp (rib : BgpRib) (iteration : rib.treebitmap.Iteration) : Prop where
  sum_eq : ∑ id ∈ rib.getRouterIds, (rib.getRoutesCountWithMask iteration id).1 =
    ((storedPairs iteration).map (fun pair => pair.1.len)).sum
  total_le : rib.getTotalRouteCount iteration ≤
    ∑ id ∈ rib.getRouterIds, (rib.getRoutesCountWithMask iteration id).1
  total_eq_iff : ∑ id ∈ rib.getRouterIds, (rib.getRoutesCountWithMask iteration id).1 =
    rib.getTotalRouteCount iteration ↔ HeldOnce rib
  ipv4 : ∀ id, (rib.getRoutesCountWithMask iteration id).2.1 =
    ((heldPrefixes rib id).filter (fun network => network.isIpv4 = true)).card
  ipv6 : ∀ id, (rib.getRoutesCountWithMask iteration id).2.2 =
    ((heldPrefixes rib id).filter (fun network => network.isIpv6 = true)).card
  counted : ∀ network ∈ rib.treebitmap.keys, ∃ id ∈ rib.getRouterIds,
    network ∈ heldPrefixes rib id
  le_prefixes : ∀ id, (rib.getRoutesCountWithMask iteration id).2.1 ≤ rib.getPrefixCount.1 ∧
    (rib.getRoutesCountWithMask iteration id).2.2 ≤ rib.getPrefixCount.2

section Statistics
variable {rib : BgpRib} (hw : WellFormed rib) (iteration : rib.treebitmap.Iteration)

theorem mem_storedPairs {pair : RouterMask × Route} :
    pair ∈ storedPairs iteration ↔
      ∃ network entry, rib.treebitmap.exactMatch network = some entry ∧ pair ∈ entry.routes := by
  rw [storedPairs, List.mem_flatMap]
  constructor
  · intro h
    obtain ⟨⟨network, entry⟩, hentry, hpair⟩ := h
    exact ⟨network, entry, iteration.mem_iff.mp hentry, hpair⟩
  · intro h
    obtain ⟨network, entry, hentry, hpair⟩ := h
    exact ⟨⟨network, entry⟩, iteration.mem_iff.mpr hentry, hpair⟩

include hw

theorem card_readers_of_stored {network : IpNetwork} {entry : BgpRibEntry}
    (h : rib.treebitmap.exactMatch network = some entry) {pair : RouterMask × Route}
    (hpair : pair ∈ entry.routes) : (readers rib pair.1).card = pair.1.len :=
  card_readers hw (fun i hi => (entry_wellFormed hw h).registered pair hpair i hi)

/-- No stored mask is empty. -/
theorem one_le_len {pair : RouterMask × Route} (h : pair ∈ storedPairs iteration) :
    1 ≤ pair.1.len := by
  obtain ⟨network, entry, hentry, hpair⟩ := (mem_storedPairs iteration).mp h
  obtain ⟨i, hi, hhas⟩ := RouterMask.exists_has ((entry_wellFormed hw hentry).held pair hpair)
  rw [RouterMask.len_eq_card, Nat.succ_le_iff, Finset.card_pos]
  exact ⟨i, Finset.mem_filter.mpr ⟨Finset.mem_range.mpr hi, hhas⟩⟩

/-- The routers that hold a stored route are the readers of its mask. -/
theorem mem_held_iff_reader {network : IpNetwork} {entry : BgpRibEntry}
    (h : rib.treebitmap.exactMatch network = some entry) {pair : RouterMask × Route}
    (hpair : pair ∈ entry.routes) (id : Uuid) :
    pair.2 ∈ rib.held id network ↔ id ∈ readers rib pair.1 := by
  rw [mem_readers hw, BgpRib.held, h]
  constructor
  · intro hheld
    obtain ⟨other, hother, heq⟩ := List.mem_map.mp hheld
    obtain ⟨hmem, hcontains⟩ := List.mem_filter.mp hother
    have hsame : other = pair :=
      List.inj_on_of_nodup_map (entry_wellFormed hw h).distinct hmem hpair heq
    rwa [hsame] at hcontains
  · intro hcontains
    exact List.mem_map_of_mem (List.mem_filter.mpr ⟨hpair, hcontains⟩)

theorem heldOnce_iff : HeldOnce rib ↔ ∀ pair ∈ storedPairs iteration, pair.1.len = 1 := by
  constructor
  · intro honce pair hmem
    obtain ⟨network, entry, hentry, hpair⟩ := (mem_storedPairs iteration).mp hmem
    have hpos := one_le_len hw iteration hmem
    rw [← card_readers_of_stored hw hentry hpair] at hpos ⊢
    refine Nat.le_antisymm (Finset.card_le_one.mpr ?_) hpos
    intro id hid id' hid'
    have hstored : pair.2 ∈ rib.stored network := by
      rw [BgpRib.stored, hentry]
      exact List.mem_map_of_mem hpair
    exact honce network pair.2 hstored id id'
      ((mem_held_iff_reader hw hentry hpair id).mpr hid)
      ((mem_held_iff_reader hw hentry hpair id').mpr hid')
  · intro hone network route hroute id id' hid hid'
    cases hentry : rib.treebitmap.exactMatch network with
    | none =>
      rw [BgpRib.stored, hentry] at hroute
      cases hroute
    | some entry =>
      rw [BgpRib.stored, hentry] at hroute
      obtain ⟨pair, hpair, rfl⟩ := List.mem_map.mp hroute
      have hcard := card_readers_of_stored hw hentry hpair
      rw [hone pair ((mem_storedPairs iteration).mpr ⟨network, entry, hentry, hpair⟩)] at hcard
      exact Finset.card_le_one.mp (Nat.le_of_eq hcard) id
        ((mem_held_iff_reader hw hentry hpair id).mp hid) id'
        ((mem_held_iff_reader hw hentry hpair id').mp hid')

/-- The routes counted for the routers are the bits of the stored masks. -/
theorem sum_routes_eq : ∑ id ∈ rib.getRouterIds, (rib.getRoutesCountWithMask iteration id).1 =
    ((storedPairs iteration).map (fun pair => pair.1.len)).sum := by
  have hpairs : ∀ pair ∈ storedPairs iteration, (readers rib pair.1).card = pair.1.len := by
    intro pair hmem
    obtain ⟨network, entry, hentry, hpair⟩ := (mem_storedPairs iteration).mp hmem
    exact card_readers_of_stored hw hentry hpair
  calc
    ∑ id ∈ rib.getRouterIds, (rib.getRoutesCountWithMask iteration id).1 =
        ∑ id ∈ rib.getRouterIds, ((storedPairs iteration).filter
          (fun pair => pair.1.contains (rib.routerMaskMap.tryGet id))).length :=
      Finset.sum_congr rfl (fun id _ => by rw [getRoutesCountWithMask_eq])
    _ = ((storedPairs iteration).map (fun pair => (readers rib pair.1).card)).sum :=
      sum_length_filter rib.getRouterIds
        (fun id (pair : RouterMask × Route) => pair.1.contains (rib.routerMaskMap.tryGet id)) _
    _ = ((storedPairs iteration).map (fun pair => pair.1.len)).sum :=
      congrArg List.sum (List.map_congr_left hpairs)

/-- A stored prefix has a route that some registered router holds. -/
theorem exists_holder {network : IpNetwork} (h : network ∈ rib.treebitmap.keys) :
    ∃ id ∈ rib.getRouterIds, network ∈ heldPrefixes rib id := by
  obtain ⟨entry, hentry⟩ := Finmap.mem_iff.mp (Finmap.mem_keys.mp h)
  obtain ⟨pair, hpair⟩ := List.exists_mem_of_ne_nil _ (hw.nonempty network entry hentry)
  obtain ⟨i, hi, hhas⟩ := RouterMask.exists_has ((entry_wellFormed hw hentry).held pair hpair)
  obtain ⟨id, howner⟩ := exists_owner hw hentry hpair hi hhas
  have hheld := mem_held_of_owner hentry hpair hi hhas howner
  refine ⟨id, Finmap.mem_keys.mpr (Finmap.mem_of_lookup_eq_some howner), ?_⟩
  exact Finset.mem_filter.mpr ⟨h, List.ne_nil_of_mem hheld⟩

theorem addUp : AddUp rib iteration where
  sum_eq := sum_routes_eq hw iteration
  total_le := by
    rw [sum_routes_eq hw, getTotalRouteCount_eq]
    exact length_le_sum (fun pair hmem => one_le_len hw iteration hmem)
  total_eq_iff := by
    rw [sum_routes_eq hw, getTotalRouteCount_eq, heldOnce_iff hw iteration]
    exact sum_eq_length_iff (fun pair hmem => one_le_len hw iteration hmem)
  ipv4 := fun id => by rw [getRoutesCountWithMask_eq]
  ipv6 := fun id => by rw [getRoutesCountWithMask_eq]
  counted := fun _ hmem => exists_holder hw hmem
  le_prefixes := by
    intro id
    have hsub := Finset.filter_subset (fun network => rib.held id network ≠ [])
      rib.treebitmap.keys
    rw [getRoutesCountWithMask_eq]
    exact ⟨Finset.card_le_card (Finset.filter_subset_filter _ hsub),
      Finset.card_le_card (Finset.filter_subset_filter _ hsub)⟩

end Statistics

/-- Every life of a new RIB with few routers between resets succeeds, and the statistics of the
RIB add up, in whatever order its table is iterated. -/
theorem addUp_live (operations : List Operation) (hfew : FewRouters operations) :
    ∃ rib, live BgpRib.new operations = .ok rib ∧ ∀ iteration, AddUp rib iteration := by
  obtain ⟨rib, hlive⟩ := live_total wellFormed_new (hasRoom_new hfew) hfew
  exact ⟨rib, hlive, addUp (wellFormed_live wellFormed_new hlive)⟩

/-- Two routers come to share a route after a reset. -/
def sharedLife : List Operation :=
  [.call (.registerRouter 1), .call (.insertRoute (.sample 1 8 "10.0.0.1" [65001]) 1), .clear,
    .call (.insertRoute (.sample 1 8 "10.0.0.1" [65001]) 2),
    .call (.insertRoute (.sample 1 8 "10.0.0.1" [65001]) 3),
    .call (.removeRoute (.sample 2 8 "" []) 3)]

theorem addUp_live_shared :
    ∃ rib, live BgpRib.new sharedLife = .ok rib ∧ ∃ iteration, AddUp rib iteration := by
  obtain ⟨rib, hlive, hall⟩ := addUp_live sharedLife (fewRouters_of_length (by decide))
  obtain ⟨iteration⟩ := IpNetworkTable.exists_iteration rib.treebitmap
  exact ⟨rib, hlive, iteration, hall iteration⟩

end NetfabricBgp.RouterStatistics
