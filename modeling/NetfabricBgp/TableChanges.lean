import NetfabricBgp.NeighbourReplays

/-!
The changes reported while a batch of entries is processed on a client's table, told from
the batch itself: which announcements are reported, at which prefixes a withdrawal is,
and at which prefixes the last report is an announcement.
-/
namespace NetfabricBgp.TableChanges

open Addresses Routes RouterMasks Ribs KeyedLog Advertisements Channels RibInterfaces ClientTables
  NeighbourReplays

/-- The table after a batch. -/
def tableAfter (table : List Route) (batch : List (Entry Route)) : List Route :=
  batch.foldl (next Route.key) table

/-- The reports of a batch, in order. -/
def changesOf (table : List Route) (batch : List (Entry Route)) : List (Entry BestRoute) :=
  Runs.outputs (next Route.key) report table batch

/-- The route is announced at a moment when no better one is held. -/
def AnnouncesUnbeaten (table : List Route) (batch : List (Entry Route)) (route : Route) : Prop :=
  ∃ before after, batch = before ++ .add route :: after ∧
    Unbeaten (tableAfter table before) route

/-- At the prefix, a withdrawal equals the best route of its moment in all fields. -/
def WithdrawsBest (table : List Route) (batch : List (Entry Route)) (network : IpNetwork) : Prop :=
  ∃ before route after, batch = before ++ .retract route :: after ∧ route.pfx = network ∧
    IsBest (tableAfter table before) route

/-- At the prefix, some route is announced unbeaten, and no later withdrawal equals the best
route of its moment. -/
def EndsAnnounced (table : List Route) (batch : List (Entry Route)) (network : IpNetwork) : Prop :=
  ∃ before route after, batch = before ++ .add route :: after ∧ route.pfx = network ∧
    Unbeaten (tableAfter table before) route ∧
    ¬ WithdrawsBest (tableAfter table (before ++ [.add route])) after network

section Reports
variable {table : List Route} {batch : List (Entry Route)} {network : IpNetwork}

theorem report_eq_add {e : Entry Route} {best : BestRoute} :
    report table e = some (.add best) ↔ e = .add best.route ∧ Unbeaten table best.route := by
  cases e with
  | add route =>
    by_cases h : Unbeaten table route
    · simp only [report, if_pos h, Option.some.injEq, Entry.add.injEq]
      constructor
      · intro hbest
        subst hbest
        exact ⟨rfl, h⟩
      · intro hbest
        rw [hbest.1]
        rfl
    · simp only [report, if_neg h, reduceCtorEq, Entry.add.injEq, false_iff, not_and]
      rintro rfl
      exact h
  | retract route => by_cases h : IsBest table route <;> simp [report, h]

theorem report_eq_retract {e : Entry Route} {best : BestRoute} :
    report table e = some (.retract best) ↔ e = .retract best.route ∧ IsBest table best.route := by
  cases e with
  | add route => by_cases h : Unbeaten table route <;> simp [report, h]
  | retract route =>
    by_cases h : IsBest table route
    · simp only [report, if_pos h, Option.some.injEq, Entry.retract.injEq]
      constructor
      · intro hbest
        subst hbest
        exact ⟨rfl, h⟩
      · intro hbest
        rw [hbest.1]
        rfl
    · simp only [report, if_neg h, reduceCtorEq, Entry.retract.injEq, false_iff, not_and]
      rintro rfl
      exact h

/-- The reported announcements. -/
theorem add_mem_changesOf {best : BestRoute} :
    Entry.add best ∈ changesOf table batch ↔ AnnouncesUnbeaten table batch best.route := by
  unfold changesOf AnnouncesUnbeaten
  rw [Runs.mem_outputs_iff]
  constructor
  · intro h
    obtain ⟨before, e, after, hbatch, hreport⟩ := h
    obtain ⟨rfl, hunbeaten⟩ := report_eq_add.mp hreport
    exact ⟨before, after, hbatch, hunbeaten⟩
  · intro h
    obtain ⟨before, after, hbatch, hunbeaten⟩ := h
    exact ⟨before, _, after, hbatch, report_eq_add.mpr ⟨rfl, hunbeaten⟩⟩

/-- The prefixes of the reported withdrawals. -/
theorem retract_mem_changesOf :
    (∃ best, Entry.retract best ∈ changesOf table batch ∧ prefixOf best = network) ↔
      WithdrawsBest table batch network := by
  unfold changesOf WithdrawsBest
  constructor
  · intro h
    obtain ⟨best, hbest, rfl⟩ := h
    obtain ⟨before, e, after, hbatch, hreport⟩ := Runs.mem_outputs_iff.mp hbest
    obtain ⟨rfl, his⟩ := report_eq_retract.mp hreport
    exact ⟨before, best.route, after, hbatch, rfl, his⟩
  · intro h
    obtain ⟨before, route, after, hbatch, rfl, his⟩ := h
    exact ⟨.ofRoute route, Runs.mem_outputs_iff.mpr
      ⟨before, _, after, hbatch, report_eq_retract.mpr ⟨rfl, his⟩⟩, rfl⟩

theorem not_retract_mem_changesOf :
    (∀ best, Entry.retract best ∈ changesOf table batch → prefixOf best ≠ network) ↔
      ¬ WithdrawsBest table batch network := by
  rw [← retract_mem_changesOf]
  simp only [not_exists, not_and, ne_eq]

/-- The prefixes at which the last report is an announcement. -/
theorem exists_live_changesOf :
    (∃ best, Live prefixOf (changesOf table batch) best ∧ prefixOf best = network) ↔
      EndsAnnounced table batch network := by
  constructor
  · intro h
    obtain ⟨best, ⟨pre, post, hsplit, hpost⟩, rfl⟩ := h
    obtain ⟨before, e, after, hbatch, -, hreport, rfl⟩ := Runs.outputs_eq_append_cons.mp hsplit
    obtain ⟨rfl, hunbeaten⟩ := report_eq_add.mp hreport
    refine ⟨before, best.route, after, hbatch, rfl, hunbeaten, ?_⟩
    rw [← not_retract_mem_changesOf, tableAfter, List.foldl_append]
    exact hpost
  · intro h
    obtain ⟨before, route, after, hbatch, rfl, hunbeaten, hafter⟩ := h
    rw [← not_retract_mem_changesOf, tableAfter, List.foldl_append] at hafter
    refine ⟨.ofRoute route, ⟨_, _, Runs.outputs_eq_append_cons.mpr
      ⟨before, _, after, hbatch, rfl, report_eq_add.mpr ⟨rfl, hunbeaten⟩, rfl⟩, ?_⟩, rfl⟩
    exact hafter

theorem changesOf_append (table : List Route) (batch more : List (Entry Route)) :
    changesOf table (batch ++ more) =
      changesOf table batch ++ changesOf (tableAfter table batch) more :=
  Runs.outputs_append table batch more

theorem withdrawsBest_append {more : List (Entry Route)} :
    WithdrawsBest table (batch ++ more) network ↔
      WithdrawsBest table batch network ∨ WithdrawsBest (tableAfter table batch) more network := by
  simp only [← retract_mem_changesOf, changesOf_append, List.mem_append, or_and_right, exists_or]

theorem endsAnnounced_append {more : List (Entry Route)} :
    EndsAnnounced table (batch ++ more) network ↔
      EndsAnnounced (tableAfter table batch) more network ∨
        (EndsAnnounced table batch network ∧
          ¬ WithdrawsBest (tableAfter table batch) more network) := by
  simp only [← exists_live_changesOf, ← not_retract_mem_changesOf, changesOf_append, live_append,
    or_and_right, exists_or]
  refine or_congr_right ?_
  constructor
  · intro h
    obtain ⟨best, ⟨hlive, hkept⟩, rfl⟩ := h
    exact ⟨⟨best, hlive, rfl⟩, hkept⟩
  · intro h
    obtain ⟨⟨best, hlive, rfl⟩, hkept⟩ := h
    exact ⟨best, ⟨hlive, hkept⟩, rfl⟩

theorem not_withdrawsBest_nil : ¬ WithdrawsBest table [] network := by
  intro h
  obtain ⟨before, route, after, hbatch, -⟩ := h
  simp at hbatch

/-- A prefix that is held and was never reported withdrawn was reported announced. -/
theorem endsAnnounced_of_held (log : List (Entry Route))
    (hheld : routesAt (tableOf log) network ≠ [])
    (hnever : ¬ WithdrawsBest [] log network) : EndsAnnounced [] log network := by
  induction log using List.reverseRecOn with
  | nil => exact absurd rfl hheld
  | append_singleton log e ih =>
    rw [withdrawsBest_append, not_or] at hnever
    rw [endsAnnounced_append]
    have htable : tableOf (log ++ [e]) = next Route.key (tableAfter [] log) e := by
      unfold tableOf tableAfter
      rw [List.foldl_append]
      rfl
    rw [htable] at hheld
    have hbefore : routesAt (tableOf log) network ≠ [] → EndsAnnounced [] log network ∧
        ¬ WithdrawsBest (tableAfter [] log) [e] network :=
      fun h => ⟨ih h hnever.1, hnever.2⟩
    cases e with
    | add route =>
      by_cases hpfx : route.pfx = network
      · subst hpfx
        by_cases hbest : Unbeaten (tableAfter [] log) route
        · exact Or.inl ⟨[], route, [], rfl, rfl, hbest, not_withdrawsBest_nil⟩
        · refine Or.inr (hbefore ?_)
          intro hnil
          refine hbest ?_
          intro x hx
          rw [show tableAfter [] log = tableOf log from rfl, hnil] at hx
          exact absurd hx List.not_mem_nil
      · rw [routesAt_add_of_ne (Ne.symm hpfx)] at hheld
        exact Or.inr (hbefore hheld)
    | retract route =>
      refine Or.inr (hbefore ?_)
      by_cases hpfx : network = route.pfx
      · subst hpfx
        intro hnil
        rw [routesAt_retract_self, show tableAfter [] log = tableOf log from rfl, hnil] at hheld
        exact hheld rfl
      · rw [routesAt_retract_of_ne hpfx] at hheld
        exact hheld

end Reports

section Updates
variable {forms : TextForms} {rib rib' : BgpRib} {client client' : BgpRibInterface}
  {table : List Route} {attempts : List (LockAttempt × Advertisement)}

/-- Any insertions and removals by one client alone, and what they report. -/
theorem represents_of_collect {start : BgpRib} {id : Uuid} (hstart : StartsEmpty start id)
    {log : List (Entry Route)} {changes : List (Entry BestRoute)}
    (h : Runs.collect (handle id) start log = .ok (rib, changes)) :
    Represents rib id (tableOf log) ∧ changes = changesOf [] log := by
  obtain ⟨rib'', hrun, hrep⟩ := (represents_of_startsEmpty hstart).run log
  obtain ⟨rfl, rfl⟩ := Prod.mk.inj (Except.ok.inj (h.symm.trans hrun))
  exact ⟨hrep, rfl⟩

/-- What an update collects after the earlier changes were taken, and their order. -/
theorem changes_of_update (h : Represents rib client.clientId table)
    {changes : List (Entry BestRoute)}
    (hupdate : client.getBestrouteUpdates.1.update forms rib attempts = .ok (rib', client'))
    (hchanges : Runs.collect (handle client.clientId) rib (entriesOf forms attempts) =
      .ok (rib', changes)) :
    client'.bestrouteUpdates = (added changes, retracted changes) ∧
      changes = changesOf table (entriesOf forms attempts) ∧
      Represents rib' client.clientId (tableAfter table (entriesOf forms attempts)) := by
  obtain ⟨rib'', hrun, hrep⟩ := h.run (entriesOf forms attempts)
  have hcollect : client.getBestrouteUpdates.1.update forms rib attempts = .ok _ :=
    update_of_collect hchanges
  obtain ⟨-, rfl⟩ := Prod.mk.inj (Except.ok.inj (hupdate.symm.trans hcollect))
  obtain ⟨rfl, rfl⟩ := Prod.mk.inj (Except.ok.inj (hchanges.symm.trans hrun))
  exact ⟨rfl, rfl, hrep⟩

end Updates

end NetfabricBgp.TableChanges
