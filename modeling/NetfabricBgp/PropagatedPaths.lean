import NetfabricBgp.Filters
import NetfabricBgp.Processes

/-!
The path of a route on its way from router to router. A generated advertisement has no
path, so a neighbour decodes every announcement with the empty path, whatever the best
routes of the sender carried, and the number of hops cannot be read from a path.
-/
namespace NetfabricBgp.PropagatedPaths

open Routes RouterMasks Ribs Advertisements Interfaces Filters Processes

/-- The texts of the sender and of the prefix parse at the neighbour. -/
def Decodes (forms : TextForms) (process : BgpProcess) (best : BestRoute) : Bool :=
  (forms.parse (forms.addrToString process.config.ip)).isSome &&
    (forms.fromStrTruncate (forms.networkToString best.route.pfx)).isSome

/-- The path of a best route with the sender's number in front. -/
def prepended (process : BgpProcess) (best : BestRoute) : Path :=
  .ASN process.config.asNumber :: best.route.asPath

/-- Each best route that the neighbour can decode arrives with the prepended path. -/
def CarriesPaths (forms : TextForms) (process : BgpProcess) (timestamp : UInt64) : Prop :=
  ((process.nextAdvertisement forms timestamp).getAnnouncements forms).map Route.asPath =
    (process.bestrouteUpdates.1.filter (Decodes forms process)).map (prepended process)

/-- What a neighbour decodes from the announcement that one best route became. -/
def decodedFrom (forms : TextForms) (process : BgpProcess) (timestamp : UInt64)
    (best : BestRoute) : Option Route :=
  (process.nextAdvertisement forms timestamp).route forms
    (forms.networkToString best.route.pfx) best.route.nextHop

/-- A route on its way over one hop: a router inserts it and reports it as a best route,
and a neighbour decodes the announcement made from the report. -/
inductive Hop (forms : TextForms) : Route → Route → Prop
  | mk {rib rib' : BgpRib} {id : Uuid} {received decoded : Route} {best : BestRoute}
      {process : BgpProcess} {timestamp : UInt64}
      (inserted : rib.insertRoute received id = .ok (rib', some best))
      (reported : best ∈ process.bestrouteUpdates.1)
      (decodes : decodedFrom forms process timestamp best = some decoded) :
      Hop forms received decoded

/-- A chain of routers, with the number of its hops. -/
inductive Chain (forms : TextForms) : ℕ → Route → Route → Prop
  | start (route : Route) : Chain forms 0 route route
  | hop {n : ℕ} {first last next : Route} :
      Chain forms n first last → Hop forms last next → Chain forms (n + 1) first next

section Decoding
variable (forms : TextForms) (process : BgpProcess) (timestamp : UInt64)

theorem isSome_decodedFrom (best : BestRoute) :
    (decodedFrom forms process timestamp best).isSome = Decodes forms process best := by
  unfold decodedFrom Advertisement.route Decodes
  cases hpeer : forms.parse (forms.addrToString process.config.ip) with
  | none => simp [BgpProcess.nextAdvertisement, hpeer]
  | some peer =>
    cases hnetwork : forms.fromStrTruncate (forms.networkToString best.route.pfx) <;>
      simp [BgpProcess.nextAdvertisement, hpeer]

/-- The announcements are decoded one by one, in the order of the best routes. -/
theorem getAnnouncements_nextAdvertisement :
    (process.nextAdvertisement forms timestamp).getAnnouncements forms =
      process.bestrouteUpdates.1.filterMap (decodedFrom forms process timestamp) := by
  have hlist : (process.nextAdvertisement forms timestamp).announcements =
      some (process.bestrouteUpdates.1.map (fun best =>
        ⟨best.route.nextHop, [forms.networkToString best.route.pfx]⟩)) := rfl
  rw [Advertisement.getAnnouncements, hlist, Option.getD_some, List.flatMap_map]
  induction process.bestrouteUpdates.1 with
  | nil => rfl
  | cons best rest ih =>
    rw [List.flatMap_cons, ih]
    unfold decodedFrom
    cases hroute : (process.nextAdvertisement forms timestamp).route forms
        (forms.networkToString best.route.pfx) best.route.nextHop <;> simp [hroute]

theorem asPath_decodedFrom {best : BestRoute} {route : Route}
    (h : decodedFrom forms process timestamp best = some route) : route.asPath = [] :=
  (Advertisement.route_eq_some forms h).2

theorem asPath_getAnnouncements :
    ((process.nextAdvertisement forms timestamp).getAnnouncements forms).map Route.asPath =
      (process.bestrouteUpdates.1.filter (Decodes forms process)).map (fun _ => []) := by
  rw [getAnnouncements_nextAdvertisement]
  induction process.bestrouteUpdates.1 with
  | nil => rfl
  | cons best rest ih =>
    have hsome := isSome_decodedFrom forms process timestamp best
    cases hdecoded : decodedFrom forms process timestamp best with
    | none =>
      rw [hdecoded] at hsome
      rw [List.filterMap_cons_none hdecoded, List.filter_cons_of_neg (by simp [← hsome]), ih]
    | some route =>
      rw [hdecoded] at hsome
      rw [List.filterMap_cons_some hdecoded, List.filter_cons_of_pos hsome.symm, List.map_cons,
        List.map_cons, ih, asPath_decodedFrom forms process timestamp hdecoded]

/-- The loop check of the neighbour accepts every generated advertisement. -/
theorem ownASFilter_nextAdvertisement (asn : UInt64) :
    (OwnASFilter.new asn).filter (process.nextAdvertisement forms timestamp) =
      (true, process.nextAdvertisement forms timestamp) :=
  OwnASFilter.filter_of_path_none _ rfl

end Decoding

section Chains
variable {forms : TextForms} {received decoded first last : Route}

theorem asPath_hop (h : Hop forms received decoded) : decoded.asPath = [] := by
  cases h with
  | mk inserted reported decodes => exact asPath_decodedFrom forms _ _ decodes

theorem asPath_chain {n : ℕ} (h : Chain forms n first last) (hn : 0 < n) : last.asPath = [] := by
  cases h with
  | start => omega
  | hop _ hhop => exact asPath_hop hhop

theorem length_chain_iff {n : ℕ} (h : Chain forms n first last) :
    last.asPath.length = first.asPath.length + n ↔ n = 0 := by
  constructor
  · intro hlength
    by_contra hn
    have hlast := asPath_chain h (by omega)
    rw [hlast, List.length_nil] at hlength
    omega
  · intro hn
    subst hn
    cases h
    rfl

end Chains

/-- The paths of the best routes survive propagation exactly when the neighbour decodes no
announcement, and a path grows by one per hop only along a chain without hops. -/
theorem carriesPaths_iff (forms : TextForms) :
    (∀ process timestamp, CarriesPaths forms process timestamp ↔
      ∀ best ∈ process.bestrouteUpdates.1, Decodes forms process best = false) ∧
    ∀ n first last, Chain forms n first last →
      (last.asPath.length = first.asPath.length + n ↔ n = 0) := by
  refine ⟨?_, fun n first last h => length_chain_iff h⟩
  intro process timestamp
  rw [CarriesPaths, asPath_getAnnouncements]
  constructor
  · intro h best hbest
    by_contra hdecodes
    have hmem : best ∈ process.bestrouteUpdates.1.filter (Decodes forms process) :=
      List.mem_filter.mpr ⟨hbest, by simpa using hdecodes⟩
    have hpath := List.map_inj_left.mp h best hmem
    exact List.cons_ne_nil _ _ hpath.symm
  · intro h
    have hnil : process.bestrouteUpdates.1.filter (Decodes forms process) = [] := by
      rw [List.filter_eq_nil_iff]
      intro best hbest
      simp [h best hbest]
    rw [hnil, List.map_nil, List.map_nil]

/-- A route that another system announced. -/
def learned : Route :=
  ⟨.V4 0x0A000002#32, .V4 (.around 0x0A000000#32 8), "10.0.0.2", [.ASN 65001]⟩

/-- A process that has the learned route to report. -/
def reporting : BgpProcess :=
  { BgpProcess.new 5 ⟨5, [], []⟩ with
    config := ⟨.V4 0x0A000001#32, 65000⟩
    bestrouteUpdates := ([.ofRoute learned], []) }

theorem chain_learned :
    Chain .sample 1 learned ⟨.V4 0x0A000001#32, learned.pfx, learned.nextHop, []⟩ := by
  refine .hop (.start learned) ?_
  refine @Hop.mk .sample BgpRib.new _ 5 learned _ (.ofRoute learned) reporting 0 rfl ?_ ?_
  · exact List.mem_singleton.mpr rfl
  · decide

theorem carriesPaths_iff_reporting :
    (CarriesPaths .sample reporting 0 ↔
      ∀ best ∈ reporting.bestrouteUpdates.1, Decodes .sample reporting best = false) ∧
    (([] : Path).length = learned.asPath.length + 1 ↔ 1 = 0) :=
  ⟨(carriesPaths_iff .sample).1 reporting 0, (carriesPaths_iff .sample).2 1 _ _ chain_learned⟩

/-- The neighbour decodes the learned route without any path. -/
theorem not_carriesPaths_reporting :
    (reporting.nextAdvertisement .sample 0).getAnnouncements .sample =
      [⟨.V4 0x0A000001#32, learned.pfx, learned.nextHop, []⟩] ∧
    ¬ CarriesPaths .sample reporting 0 := by
  unfold CarriesPaths
  decide

end NetfabricBgp.PropagatedPaths
