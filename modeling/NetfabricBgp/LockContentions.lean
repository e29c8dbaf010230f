import NetfabricBgp.NeighbourReplays
import NetfabricBgp.SharedChoices
import Mathlib.Data.List.Flatten

/-!
Updates of a client that shares its RIB. Every advertisement makes its own attempt to take
the lock, and the other clients act on the RIB between two attempts. An advertisement
whose attempt times out is logged and skipped, and nothing keeps it for a later update.
-/
namespace NetfabricBgp.LockContentions

open Addresses Routes RouterMasks Ribs KeyedLog Advertisements Channels RibInterfaces
  NeighbourReplays SharedChoices

/-- What happens next to the RIB, seen from one client. -/
inductive Turn
  | attempt (lock : LockAttempt) (advertisement : Advertisement)
  | others (op : BgpRib.Op)
deriving DecidableEq

variable (forms : TextForms)

def step (state : BgpRib × BgpRibInterface) : Turn → Except Panic (BgpRib × BgpRibInterface)
  | .attempt lock advertisement => state.2.update forms state.1 [(lock, advertisement)]
  | .others op => (state.1.step op).map (fun rib => (rib, state.2))

/-- The updates of a client, one attempt after another, with the calls of others between. -/
def contend (state : BgpRib × BgpRibInterface) (turns : List Turn) :
    Except Panic (BgpRib × BgpRibInterface) :=
  Runs.run (step forms) state turns

/-- The calls that an advertisement asks for. -/
def opsOf (id : Uuid) (advertisement : Advertisement) : List BgpRib.Op :=
  (advertisement.entries forms).map (opOf id)

/-- The calls that a turn makes on the RIB. -/
def appliedBy (id : Uuid) : Turn → List BgpRib.Op
  | .attempt .acquired advertisement => opsOf forms id advertisement
  | .attempt .timedOut _ => []
  | .others op => [op]

/-- The advertisements that were passed to the updates. -/
def requested (turns : List Turn) : List Advertisement :=
  turns.filterMap (fun turn => match turn with
    | .attempt _ advertisement => some advertisement
    | .others _ => none)

/-- The advertisements whose attempt took the lock. -/
def granted (turns : List Turn) : List Advertisement :=
  turns.filterMap (fun turn => match turn with
    | .attempt .acquired advertisement => some advertisement
    | _ => none)

/-- A call on the RIB, with what it reports to the client that has made it. -/
def reporting (id : Uuid) (rib : BgpRib) :
    BgpRib.Op → Except Panic (BgpRib × Option (Entry BestRoute))
  | .insertRoute route router =>
    (rib.insertRoute route router).map (fun r => (r.1, if router = id then r.2.map .add else none))
  | .removeRoute route router =>
    (rib.removeRoute route router).map
      (fun r => (r.1, if router = id then r.2.map .retract else none))
  | .registerRouter router => (rib.registerRouter router).map (fun rib => (rib, none))

section Contention
variable {forms} {self self' : BgpRibInterface} {rib rib' : BgpRib}

theorem update_cons (attempt : LockAttempt × Advertisement)
    (rest : List (LockAttempt × Advertisement)) :
    self.update forms rib (attempt :: rest) =
      match self.update forms rib [attempt] with
      | .error panic => .error panic
      | .ok (rib, self) => self.update forms rib rest := by
  obtain ⟨lock, advertisement⟩ := attempt
  cases lock with
  | timedOut => rfl
  | acquired =>
    simp only [BgpRibInterface.update]
    rcases self.updateLocked forms rib advertisement with panic | ⟨rib', self'⟩ <;> rfl

/-- An update that no other client interrupts is `update` itself. -/
theorem contend_attempts (attempts : List (LockAttempt × Advertisement)) :
    contend forms (rib, self) (attempts.map (fun a => .attempt a.1 a.2)) =
      self.update forms rib attempts := by
  unfold contend
  induction attempts generalizing self rib with
  | nil => rfl
  | cons attempt rest ih =>
    rw [List.map_cons, Runs.run, step, update_cons attempt rest]
    rcases self.update forms rib [attempt] with panic | ⟨rib', self'⟩
    · rfl
    · exact ih

/-- One turn makes its calls on the RIB and leaves the client's identifier. -/
theorem step_applies {turn : Turn} (h : step forms (rib, self) turn = .ok (rib', self')) :
    rib.run (appliedBy forms self.clientId turn) = .ok rib' ∧ self'.clientId = self.clientId := by
  cases turn with
  | others op =>
    obtain ⟨next, hstep, heq⟩ := Runs.map_eq_ok.mp h
    obtain ⟨rfl, rfl⟩ := Prod.mk.inj heq
    exact ⟨Runs.run_cons_ok.mpr ⟨next, hstep, rfl⟩, rfl⟩
  | attempt lock advertisement =>
    cases lock with
    | timedOut =>
      obtain ⟨rfl, rfl⟩ := Prod.mk.inj (Except.ok.inj h)
      exact ⟨rfl, rfl⟩
    | acquired =>
      rw [step, update_eq, entriesOf_single] at h
      obtain ⟨⟨next, changes⟩, hcollect, heq⟩ := Runs.map_eq_ok.mp h
      obtain ⟨rfl, rfl⟩ := Prod.mk.inj heq
      refine ⟨?_, rfl⟩
      rw [appliedBy, opsOf, run_opOf, hcollect]
      rfl

theorem contend_applies {turns : List Turn}
    (h : contend forms (rib, self) turns = .ok (rib', self')) :
    rib.run (turns.flatMap (appliedBy forms self.clientId)) = .ok rib' := by
  induction turns generalizing rib self with
  | nil =>
    obtain ⟨rfl, rfl⟩ := Prod.mk.inj (Except.ok.inj h)
    rfl
  | cons turn rest ih =>
    obtain ⟨⟨mid, self₁⟩, hturn, hrest⟩ := Runs.run_cons_ok.mp h
    obtain ⟨happlied, hclient⟩ := step_applies hturn
    have htail := ih hrest
    rw [hclient] at htail
    rw [List.flatMap_cons]
    exact Runs.run_append_ok.mpr ⟨mid, happlied, htail⟩

/-- The reports of the calls of an advertisement are those that the client records. -/
theorem collect_reporting_opsOf (client : Uuid) (rib : BgpRib) (advertisement : Advertisement) :
    Runs.collect (reporting client) rib (opsOf forms client advertisement) =
      Runs.collect (handle client) rib (advertisement.entries forms) := by
  have hcalls : ∀ (rib : BgpRib) (entry : Entry Route),
      reporting client rib (opOf client entry) =
        (handle client rib entry).map (fun r => (r.1, r.2.map id)) := by
    intro rib entry
    cases entry with
    | add route =>
      cases h : rib.insertRoute route client <;> simp [opOf, reporting, handle, h, Except.map]
    | retract route =>
      cases h : rib.removeRoute route client <;> simp [opOf, reporting, handle, h, Except.map]
  unfold opsOf
  rw [Runs.collect_map (opOf client) id hcalls rib (advertisement.entries forms)]
  rcases Runs.collect (handle client) rib (advertisement.entries forms) with panic | ⟨rib', changes⟩
  · rfl
  · simp [Except.map]

/-- The call of another client reports nothing to this one. -/
theorem reporting_of_ne {id : Uuid} {op : BgpRib.Op} (hne : op.router ≠ id)
    (h : rib.step op = .ok rib') : reporting id rib op = .ok (rib', none) := by
  cases op with
  | registerRouter router =>
    have hregister : rib.registerRouter router = .ok rib' := h
    simp [reporting, hregister, Except.map]
  | insertRoute route router =>
    obtain ⟨report, hinsert⟩ := BgpRib.step_insertRoute_ok.mp h
    have hother : router ≠ id := hne
    simp [reporting, hinsert, hother, Except.map]
  | removeRoute route router =>
    obtain ⟨report, hremove⟩ := BgpRib.step_removeRoute_ok.mp h
    have hother : router ≠ id := hne
    simp [reporting, hremove, hother, Except.map]

/-- One turn records what its own calls report. -/
theorem step_reports {turn : Turn} (hothers : ∀ op, turn = .others op → op.router ≠ self.clientId)
    (h : step forms (rib, self) turn = .ok (rib', self')) :
    ∃ changes, Runs.collect (reporting self.clientId) rib (appliedBy forms self.clientId turn) =
      .ok (rib', changes) ∧ self' = self.record changes := by
  cases turn with
  | others op =>
    obtain ⟨next, hstep, heq⟩ := Runs.map_eq_ok.mp h
    obtain ⟨rfl, rfl⟩ := Prod.mk.inj heq
    refine ⟨[], ?_, by simp [BgpRibInterface.record, added, retracted]⟩
    exact Runs.collect_cons_ok.mpr
      ⟨next, none, [], reporting_of_ne (hothers op rfl) hstep, rfl, rfl⟩
  | attempt lock advertisement =>
    cases lock with
    | timedOut =>
      obtain ⟨rfl, rfl⟩ := Prod.mk.inj (Except.ok.inj h)
      exact ⟨[], rfl, by simp [BgpRibInterface.record, added, retracted]⟩
    | acquired =>
      rw [step, update_eq, entriesOf_single] at h
      obtain ⟨⟨next, changes⟩, hcollect, heq⟩ := Runs.map_eq_ok.mp h
      obtain ⟨rfl, rfl⟩ := Prod.mk.inj heq
      refine ⟨changes, ?_, rfl⟩
      rw [appliedBy, collect_reporting_opsOf]
      exact hcollect

/-- The client records, in order, what its own calls report, and so makes none of them twice. -/
theorem contend_reports {turns : List Turn}
    (hothers : ∀ op, .others op ∈ turns → op.router ≠ self.clientId)
    (h : contend forms (rib, self) turns = .ok (rib', self')) :
    ∃ changes, Runs.collect (reporting self.clientId) rib
        (turns.flatMap (appliedBy forms self.clientId)) = .ok (rib', changes) ∧
      self' = self.record changes := by
  induction turns generalizing rib self with
  | nil =>
    obtain ⟨rfl, rfl⟩ := Prod.mk.inj (Except.ok.inj h)
    exact ⟨[], rfl, by simp [BgpRibInterface.record, added, retracted]⟩
  | cons turn rest ih =>
    obtain ⟨⟨mid, self₁⟩, hturn, hrest⟩ := Runs.run_cons_ok.mp h
    obtain ⟨changes, hcollect, rfl⟩ :=
      step_reports (fun op hop => hothers op (hop ▸ List.mem_cons_self)) hturn
    obtain ⟨more, hmore, rfl⟩ := @ih (self.record changes) mid
      (fun op hop => hothers op (List.mem_cons_of_mem _ hop)) hrest
    refine ⟨changes ++ more, ?_, record_append changes more⟩
    rw [List.flatMap_cons]
    exact Runs.collect_append_ok hcollect hmore

theorem ownOps_opsOf (id : Uuid) (advertisement : Advertisement) :
    ownOps id (opsOf forms id advertisement) = opsOf forms id advertisement := by
  apply List.filter_eq_self.mpr
  intro op hop
  obtain ⟨entry, -, rfl⟩ := List.mem_map.mp hop
  cases entry <;> exact decide_eq_true rfl

/-- The client's own calls are those of the advertisements that took the lock. -/
theorem ownOps_applied {id : Uuid} {turns : List Turn}
    (hothers : ∀ op, .others op ∈ turns → op.router ≠ id) :
    ownOps id (turns.flatMap (appliedBy forms id)) = (granted turns).flatMap (opsOf forms id) := by
  induction turns with
  | nil => rfl
  | cons turn rest ih =>
    have hrest := ih (fun op hop => hothers op (List.mem_cons_of_mem _ hop))
    have hsplit : ownOps id ((turn :: rest).flatMap (appliedBy forms id)) =
        ownOps id (appliedBy forms id turn) ++ ownOps id (rest.flatMap (appliedBy forms id)) := by
      rw [List.flatMap_cons, ownOps, List.filter_append]
      rfl
    rw [hsplit, hrest]
    cases turn with
    | others op =>
      have hne : op.router ≠ id := hothers op (by simp)
      simp [appliedBy, ownOps, granted, hne]
    | attempt lock advertisement =>
      cases lock with
      | timedOut => simp [appliedBy, ownOps, granted]
      | acquired => rw [appliedBy, ownOps_opsOf]; simp [granted]

theorem granted_sublist_requested (turns : List Turn) :
    (granted turns).Sublist (requested turns) := by
  induction turns with
  | nil => exact List.Sublist.slnil
  | cons turn rest ih =>
    cases turn with
    | others op => exact ih
    | attempt lock advertisement =>
      cases lock with
      | acquired => exact ih.cons_cons advertisement
      | timedOut => exact ih.cons advertisement

/-- Nothing is missing exactly when every skipped advertisement asks for nothing. -/
theorem granted_eq_requested_iff (id : Uuid) (turns : List Turn) :
    (granted turns).flatMap (opsOf forms id) = (requested turns).flatMap (opsOf forms id) ↔
      ∀ advertisement, .attempt .timedOut advertisement ∈ turns →
        advertisement.entries forms = [] := by
  induction turns with
  | nil => simp [granted, requested]
  | cons turn rest ih =>
    cases turn with
    | others op =>
      refine Iff.trans ih (forall_congr' fun advertisement => ?_)
      simp
    | attempt lock advertisement =>
      cases lock with
      | acquired =>
        refine Iff.trans (List.append_right_inj _) (ih.trans (forall_congr' fun other => ?_))
        simp
      | timedOut =>
        have hsplit : (∀ other, Turn.attempt .timedOut other ∈
            Turn.attempt .timedOut advertisement :: rest → other.entries forms = []) ↔
            advertisement.entries forms = [] ∧
              ∀ other, .attempt .timedOut other ∈ rest → other.entries forms = [] := by
          simp
        rw [hsplit, ← ih]
        change (granted rest).flatMap (opsOf forms id) = opsOf forms id advertisement ++
          (requested rest).flatMap (opsOf forms id) ↔ _
        constructor
        · intro h
          have hle := ((granted_sublist_requested rest).flatMap (opsOf forms id)).length_le
          have hlength := congrArg List.length h
          rw [List.length_append] at hlength
          have hnil : opsOf forms id advertisement = [] := List.length_eq_zero_iff.mp (by omega)
          exact ⟨List.map_eq_nil_iff.mp hnil, by rw [h, hnil, List.nil_append]⟩
        · rintro ⟨hnil, hrest⟩
          rw [opsOf, hnil, hrest]
          rfl

end Contention

/-- Over any updates of a client and any calls of others between its attempts, the RIB
takes the calls of each advertisement whose attempt got the lock once and in order, the client
records what they report, and those of a skipped one are never made. So all is applied exactly
when each skipped advertisement asks for nothing. -/
theorem contended_updates_apply {forms : TextForms} {self self' : BgpRibInterface}
    {rib rib' : BgpRib} {turns : List Turn}
    (hothers : ∀ op, .others op ∈ turns → op.router ≠ self.clientId)
    (h : contend forms (rib, self) turns = .ok (rib', self')) :
    rib.run (turns.flatMap (appliedBy forms self.clientId)) = .ok rib' ∧
      (∃ changes, Runs.collect (reporting self.clientId) rib
          (turns.flatMap (appliedBy forms self.clientId)) = .ok (rib', changes) ∧
        self' = self.record changes) ∧
      ownOps self.clientId (turns.flatMap (appliedBy forms self.clientId)) =
        (granted turns).flatMap (opsOf forms self.clientId) ∧
      (ownOps self.clientId (turns.flatMap (appliedBy forms self.clientId)) =
          (requested turns).flatMap (opsOf forms self.clientId) ↔
        ∀ advertisement, .attempt .timedOut advertisement ∈ turns →
          advertisement.entries forms = []) := by
  refine ⟨contend_applies h, contend_reports hothers h, ownOps_applied hothers, ?_⟩
  rw [ownOps_applied hothers]
  exact granted_eq_requested_iff self.clientId turns

/-- The lock is busy for the first announcement and free for the second. -/
def skippedTurns : List Turn :=
  [.attempt .timedOut (.sample "10.0.0.1" "10.0.0.1" [65001] true false),
    .others (.insertRoute (.sample 3 8 "10.0.0.3" [65003]) 2),
    .attempt .acquired (.sample "10.0.0.2" "10.0.0.2" [65002] true false)]

theorem contended_updates_apply_skipped :
    ∃ rib' self' changes,
      contend .sample (BgpRib.new, ⟨1, [], []⟩) skippedTurns = .ok (rib', self') ∧
      BgpRib.new.run (skippedTurns.flatMap (appliedBy .sample 1)) = .ok rib' ∧
      Runs.collect (reporting 1) BgpRib.new (skippedTurns.flatMap (appliedBy .sample 1)) =
        .ok (rib', changes) ∧ self'.bestrouteUpdates = (added changes, retracted changes) ∧
      ownOps 1 (skippedTurns.flatMap (appliedBy .sample 1)) =
        (granted skippedTurns).flatMap (opsOf .sample 1) := by
  obtain ⟨rib', self', hrun⟩ : ∃ rib' self',
      contend .sample (BgpRib.new, ⟨1, [], []⟩) skippedTurns = .ok (rib', self') := ⟨_, _, rfl⟩
  have hothers : ∀ op, .others op ∈ skippedTurns → op.router ≠ 1 := by
    intro op hop
    obtain rfl : op = .insertRoute (.sample 3 8 "10.0.0.3" [65003]) 2 := by
      simpa [skippedTurns] using hop
    decide
  obtain ⟨happlied, ⟨changes, hreported, rfl⟩, hown, -⟩ := contended_updates_apply hothers hrun
  exact ⟨rib', _, changes, hrun, happlied, hreported, rfl, hown⟩

/-- The first announcement has no trace in the RIB after the client's next update. -/
theorem announcement_dropped_skipped :
    ∃ rib' self', contend .sample (BgpRib.new, ⟨1, [], []⟩) skippedTurns = .ok (rib', self') ∧
      Route.mk (.V4 0x0A000001#32) (.V4 (.around 0x0A000000#32 8)) "10.0.0.1" [.ASN 65001] ∈
        (Advertisement.sample "10.0.0.1" "10.0.0.1" [65001] true false).getAnnouncements .sample ∧
      Route.mk (.V4 0x0A000001#32) (.V4 (.around 0x0A000000#32 8)) "10.0.0.1" [.ASN 65001] ∉
        rib'.held 1 (.V4 (.around 0x0A000000#32 8)) ∧
      ownOps 1 (skippedTurns.flatMap (appliedBy .sample 1)) ≠
        (requested skippedTurns).flatMap (opsOf .sample 1) :=
  ⟨_, _, rfl, by decide, by decide, by decide⟩

end NetfabricBgp.LockContentions
