import NetfabricBgp.ClientTables
import NetfabricBgp.RouterLookups

/-!
The forwarding answer of a client, from the history of its updates. The answer is taken
from the live announcements: the longest live prefix around the address, and there a
route with a shortest path.
-/
namespace NetfabricBgp.ForwardingAnswers

open Addresses NetworkTables Routes Ribs KeyedLog Advertisements Channels RibInterfaces ClientTables
  RouterLookups

/-- The answer for an address that a log of announcements and withdrawals calls for. -/
structure AnswersLive (log : List (Entry Route)) (address : IpAddr) (answer : Option BestRoute) :
    Prop where
  none_iff : answer = none ↔
    ∀ route, Live Route.key log route → route.pfx.contains address = false
  live : ∀ best, answer = some best →
    Live Route.key log best.route ∧ best.route.pfx.contains address = true
  longest : ∀ best, answer = some best → ∀ route, Live Route.key log route →
    route.pfx.contains address = true → route.pfx.netmask ≤ best.route.pfx.netmask
  shortest : ∀ best, answer = some best → ∀ route, Live Route.key log route →
    route.pfx = best.route.pfx → best.route.asPath.length ≤ route.asPath.length

/-- The entries of one update without lock trouble. -/
theorem entriesOf_acquired (forms : TextForms) (ads : List Advertisement) :
    entriesOf forms (ads.map (fun ad => (.acquired, ad))) = ads.flatMap (·.entries forms) := by
  unfold entriesOf
  rw [List.flatMap_map]

section Answers
variable {rib : BgpRib} {id : RouterMasks.Uuid} {log : List (Entry Route)} {address : IpAddr}

theorem mem_held_iff_live (h : Represents rib id (tableOf log)) {network : IpNetwork}
    {route : Route} :
    route ∈ rib.held id network ↔ Live Route.key log route ∧ route.pfx = network := by
  rw [h.own, mem_routesAt, mem_tableOf]

theorem answersLive_of_no_match (h : Represents rib id (tableOf log))
    (hmatch : rib.treebitmap.longestMatch address = none) :
    AnswersLive log address (rib.getBestrouteForRouter address id) := by
  obtain ⟨hroutes, hheld⟩ := getRoutesForRouter_none id hmatch
  have hnone : rib.getBestrouteForRouter address id = none := by
    unfold BgpRib.getBestrouteForRouter
    rw [hroutes, BestRoute.calculate_eq_none_iff]
  refine ⟨?_, ?_, ?_, ?_⟩
  · refine iff_of_true hnone ?_
    intro route hlive
    by_contra hcontains
    have hin := (mem_held_iff_live h).mpr ⟨hlive, rfl⟩
    rw [hheld id route.pfx (by simpa using hcontains)] at hin
    exact List.not_mem_nil hin
  all_goals
    intro best hbest
    rw [hnone] at hbest
    cases hbest

theorem answersLive_of_match (h : Represents rib id (tableOf log)) {network : IpNetwork}
    {entry : RibEntries.BgpRibEntry}
    (hmatch : rib.treebitmap.longestMatch address = some (network, entry)) :
    AnswersLive log address (rib.getBestrouteForRouter address id) := by
  obtain ⟨hroutes, hcontains, hstored, hmax⟩ := getRoutesForRouter_some id hmatch
  obtain ⟨other, hother⟩ := exists_holder h.wellFormed hstored
  -- Only the client holds anything, so the longest stored prefix is its own.
  have hheld : rib.held id network ≠ [] := by
    by_cases hid : other = id
    · rwa [hid] at hother
    · exact absurd (h.alone other hid network) hother
  obtain ⟨best, hbest⟩ := BestRoute.exists_calculate hheld
  have hsome : rib.getBestrouteForRouter address id = some best := by
    unfold BgpRib.getBestrouteForRouter
    rw [hroutes]
    exact hbest
  obtain ⟨hlive, hpfx⟩ := (mem_held_iff_live h).mp (BestRoute.calculate_mem hbest)
  have hanswer : ∀ b, rib.getBestrouteForRouter address id = some b → b = best := by
    intro b hb
    rw [hsome] at hb
    exact (Option.some.inj hb).symm
  refine ⟨?_, ?_, ?_, ?_⟩
  · rw [hsome]
    refine iff_of_false (Option.some_ne_none best) ?_
    intro hnone
    have hfalse := hnone best.route hlive
    rw [hpfx, hcontains] at hfalse
    exact Bool.noConfusion hfalse
  · intro b hb
    rw [hanswer b hb, hpfx]
    exact ⟨hlive, hcontains⟩
  · intro b hb route hroute hcovers
    rw [hanswer b hb, hpfx]
    refine hmax id route.pfx hcovers ?_
    exact List.ne_nil_of_mem ((mem_held_iff_live h).mpr ⟨hroute, rfl⟩)
  · intro b hb route hroute hsame
    rw [hanswer b hb] at hsame ⊢
    have hin := (mem_held_iff_live h).mpr ⟨hroute, hsame.trans hpfx⟩
    exact Route.length_le_of_isLE (BestRoute.calculate_isLE hbest hin)

end Answers

/-- After any sequence of updates by one client alone, every address is answered from the
live announcements. -/
theorem getBestroute_answersLive (forms : TextForms) {rib : BgpRib} {self : BgpRibInterface}
    (h : StartsEmpty rib self.clientId) (calls : List (List Advertisement)) :
    ∃ rib' self', BgpRibInterface.updateAll forms (rib, self)
        (calls.map (fun ads => ads.map (fun ad => (.acquired, ad)))) = .ok (rib', self') ∧
      ∀ address, AnswersLive (calls.flatMap (fun ads => ads.flatMap (·.entries forms))) address
        (self'.getBestroute rib' address) := by
  obtain ⟨rib', hrun, hrep⟩ := updateAll_represents forms h
    (calls.map (fun ads => ads.map (fun ad => (.acquired, ad))))
  refine ⟨rib', _, hrun, ?_⟩
  intro address
  rw [List.flatMap_map] at hrep
  simp only [entriesOf_acquired] at hrep
  change AnswersLive _ address (rib'.getBestrouteForRouter address self.clientId)
  cases hmatch : rib'.treebitmap.longestMatch address with
  | none => exact answersLive_of_no_match hrep hmatch
  | some hit => exact answersLive_of_match hrep hmatch

/-- Two peers announce the same block in two updates, and the second withdraws it. -/
theorem getBestroute_answersLive_two_peers :
    ∃ rib' self', BgpRibInterface.updateAll .sample (BgpRib.new, ⟨1, [], []⟩)
        ([[.sample "10.0.0.1" "10.0.0.1" [65001, 65002] true false],
          [.sample "10.0.0.2" "10.0.0.2" [65003] true false,
            .sample "10.0.0.2" "" [65003] false true]].map
          (fun ads => ads.map (fun ad => (.acquired, ad)))) = .ok (rib', self') ∧
      ∀ address, AnswersLive
        ([[.sample "10.0.0.1" "10.0.0.1" [65001, 65002] true false],
          [.sample "10.0.0.2" "10.0.0.2" [65003] true false,
            .sample "10.0.0.2" "" [65003] false true]].flatMap
          (fun ads => ads.flatMap (fun ad : Advertisement => ad.entries .sample))) address
        (self'.getBestroute rib' address) :=
  getBestroute_answersLive .sample ⟨[], rfl, by decide⟩ _

end NetfabricBgp.ForwardingAnswers
