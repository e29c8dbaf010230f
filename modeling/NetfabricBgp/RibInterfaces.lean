import NetfabricBgp.Channels
import NetfabricBgp.Ribs

/-!
One client's access to a RIB. The RIB sits behind a lock and is passed along explicitly.
An update is a run of the client's insertions and removals; what each of them reports is
kept in two lists, so that the order between the two kinds is lost.
-/
namespace NetfabricBgp.RibInterfaces

open Addresses Routes RouterMasks Ribs KeyedLog Advertisements Channels

structure BgpRibInterface where
  clientId : Uuid
  bestrouteUpdates : List BestRoute × List BestRoute

namespace BgpRibInterface

/-- The client is registered with the RIB. -/
def new (rib : BgpRib) (id : Uuid) : Except Panic (BgpRib × BgpRibInterface) :=
  match rib.registerRouter id with
  | .error panic => .error panic
  | .ok rib => .ok (rib, ⟨id, [], []⟩)

def setClientId (self : BgpRibInterface) (id : Uuid) : BgpRibInterface :=
  { self with clientId := id }

variable (forms : TextForms)

/-- What `update` does with one advertisement while it holds the lock. -/
def updateLocked (self : BgpRibInterface) (rib : BgpRib) (advertisement : Advertisement) :
    Except Panic (BgpRib × BgpRibInterface) :=
  match Runs.collect (fun rib route => rib.insertRoute route self.clientId) rib
      (advertisement.getAnnouncements forms) with
  | .error panic => .error panic
  | .ok (rib, inserted) =>
    match Runs.collect (fun rib route => rib.removeRoute route self.clientId) rib
        (advertisement.getWithdrawals forms) with
    | .error panic => .error panic
    | .ok (rib, removed) =>
      .ok (rib, { self with
        bestrouteUpdates :=
          (self.bestrouteUpdates.1 ++ inserted, self.bestrouteUpdates.2 ++ removed) })

/-- An advertisement whose lock attempt times out is skipped. -/
def update (self : BgpRibInterface) (rib : BgpRib) :
    List (LockAttempt × Advertisement) → Except Panic (BgpRib × BgpRibInterface)
  | [] => .ok (rib, self)
  | (.timedOut, _) :: rest => update self rib rest
  | (.acquired, advertisement) :: rest =>
    match self.updateLocked forms rib advertisement with
    | .error panic => .error panic
    | .ok (rib, self) => update self rib rest

def getBestrouteUpdates (self : BgpRibInterface) :
    BgpRibInterface × (List BestRoute × List BestRoute) :=
  ({ self with bestrouteUpdates := ([], []) }, self.bestrouteUpdates)

def getBestroute (self : BgpRibInterface) (rib : BgpRib) (address : IpAddr) : Option BestRoute :=
  rib.getBestrouteForRouter address self.clientId

/-- The RIB and the interface after a sequence of updates. -/
def updateAll (state : BgpRib × BgpRibInterface)
    (calls : List (List (LockAttempt × Advertisement))) : Except Panic (BgpRib × BgpRibInterface) :=
  Runs.run (fun state attempts => state.2.update forms state.1 attempts) state calls

/-- Changes of best routes, in the order of the calls that reported them. -/
def record (self : BgpRibInterface) (changes : List (Entry BestRoute)) : BgpRibInterface :=
  { self with
    bestrouteUpdates :=
      (self.bestrouteUpdates.1 ++ added changes, self.bestrouteUpdates.2 ++ retracted changes) }

end BgpRibInterface

/-- The advertisements of an update that are not skipped, taken apart. -/
def entriesOf (forms : TextForms) (attempts : List (LockAttempt × Advertisement)) :
    List (Entry Route) :=
  attempts.flatMap (fun (lock, advertisement) => match lock with
    | .acquired => advertisement.entries forms
    | .timedOut => [])

/-- One insertion or removal by a client, with its report. -/
def handle (id : Uuid) (rib : BgpRib) :
    Entry Route → Except Panic (BgpRib × Option (Entry BestRoute))
  | .add route => (rib.insertRoute route id).map (fun r => (r.1, r.2.map .add))
  | .retract route => (rib.removeRoute route id).map (fun r => (r.1, r.2.map .retract))

theorem removeRoute_of_handle {id : Uuid} {rib rib' : BgpRib} {route : Route}
    {change : Option (Entry BestRoute)} (h : handle id rib (.retract route) = .ok (rib', change)) :
    ∃ report, rib.removeRoute route id = .ok (rib', report) ∧ change = report.map .retract := by
  obtain ⟨⟨next, report⟩, hremove, heq⟩ := Runs.map_eq_ok.mp h
  obtain ⟨rfl, rfl⟩ := Prod.mk.inj heq
  exact ⟨report, hremove, rfl⟩

section Updates
variable {forms : TextForms} {self : BgpRibInterface}

theorem record_append (changes more : List (Entry BestRoute)) :
    (self.record changes).record more = self.record (changes ++ more) := by
  simp [BgpRibInterface.record, added_append, retracted_append]

theorem collect_handle_add (id : Uuid) (rib : BgpRib) (routes : List Route) :
    Runs.collect (handle id) rib (routes.map .add) =
      (Runs.collect (fun rib route => rib.insertRoute route id) rib routes).map
        (fun r => (r.1, r.2.map .add)) := by
  refine Runs.collect_map Entry.add Entry.add ?_ rib routes
  intro rib route
  rfl

theorem collect_handle_retract (id : Uuid) (rib : BgpRib) (routes : List Route) :
    Runs.collect (handle id) rib (routes.map .retract) =
      (Runs.collect (fun rib route => rib.removeRoute route id) rib routes).map
        (fun r => (r.1, r.2.map .retract)) := by
  refine Runs.collect_map Entry.retract Entry.retract ?_ rib routes
  intro rib route
  rfl

/-- One advertisement is a run of its entries. -/
theorem updateLocked_eq (self : BgpRibInterface) (rib : BgpRib) (advertisement : Advertisement) :
    self.updateLocked forms rib advertisement =
      (Runs.collect (handle self.clientId) rib (advertisement.entries forms)).map
        (fun r => (r.1, self.record r.2)) := by
  unfold BgpRibInterface.updateLocked Advertisement.entries
  rw [Runs.collect_append, collect_handle_add]
  rcases hinsert : Runs.collect (fun rib route => rib.insertRoute route self.clientId) rib
    (advertisement.getAnnouncements forms) with panic | ⟨rib', inserted⟩
  · simp only [hinsert, Except.map]
  · simp only [hinsert, Except.map, collect_handle_retract]
    rcases hremove : Runs.collect (fun rib route => rib.removeRoute route self.clientId) rib'
      (advertisement.getWithdrawals forms) with panic | ⟨rib'', removed⟩
    · simp only [hremove]
    · simp [hremove, BgpRibInterface.record, added_append, retracted_append]

/-- An update is a run of the entries of the advertisements it does not skip. -/
theorem update_eq (self : BgpRibInterface) (rib : BgpRib)
    (attempts : List (LockAttempt × Advertisement)) :
    self.update forms rib attempts =
      (Runs.collect (handle self.clientId) rib (entriesOf forms attempts)).map
        (fun r => (r.1, self.record r.2)) := by
  induction attempts generalizing self rib with
  | nil => simp [BgpRibInterface.update, entriesOf, Runs.collect_nil, Except.map,
      BgpRibInterface.record, added, retracted]
  | cons attempt rest ih =>
    obtain ⟨lock, advertisement⟩ := attempt
    cases lock with
    | timedOut => exact ih self rib
    | acquired =>
      have hentries : entriesOf forms ((.acquired, advertisement) :: rest) =
          advertisement.entries forms ++ entriesOf forms rest := rfl
      rw [hentries, Runs.collect_append, BgpRibInterface.update, updateLocked_eq]
      rcases Runs.collect (handle self.clientId) rib (advertisement.entries forms) with
        panic | ⟨rib', changes⟩
      · rfl
      · have hclient : (self.record changes).clientId = self.clientId := rfl
        simp only [Except.map, ih, hclient]
        rcases Runs.collect (handle self.clientId) rib' (entriesOf forms rest) with
          panic | ⟨rib'', more⟩
        · rfl
        · simp only [record_append]

theorem update_of_collect {self : BgpRibInterface} {rib rib' : BgpRib}
    {attempts : List (LockAttempt × Advertisement)} {changes : List (Entry BestRoute)}
    (h : Runs.collect (handle self.clientId) rib (entriesOf forms attempts) = .ok (rib', changes)) :
    self.update forms rib attempts = .ok (rib', self.record changes) := by
  rw [update_eq, h]
  rfl

theorem entriesOf_single (forms : TextForms) (advertisement : Advertisement) :
    entriesOf forms [(.acquired, advertisement)] = advertisement.entries forms :=
  List.append_nil _

/-- A sequence of updates is one run of all their entries. -/
theorem updateAll_eq (self : BgpRibInterface) (rib : BgpRib)
    (calls : List (List (LockAttempt × Advertisement))) :
    BgpRibInterface.updateAll forms (rib, self) calls =
      (Runs.collect (handle self.clientId) rib (calls.flatMap (entriesOf forms))).map
        (fun r => (r.1, self.record r.2)) := by
  unfold BgpRibInterface.updateAll
  induction calls generalizing self rib with
  | nil => simp [Runs.run_nil, Runs.collect_nil, Except.map, BgpRibInterface.record, added,
      retracted]
  | cons attempts rest ih =>
    rw [Runs.run_cons, update_eq, List.flatMap_cons, Runs.collect_append]
    rcases Runs.collect (handle self.clientId) rib (entriesOf forms attempts) with
      panic | ⟨rib', changes⟩
    · rfl
    · have hclient : (self.record changes).clientId = self.clientId := rfl
      simp only [Except.map, ih, hclient]
      rcases Runs.collect (handle self.clientId) rib' (rest.flatMap (entriesOf forms)) with
        panic | ⟨rib'', more⟩
      · rfl
      · simp only [record_append]

end Updates

end NetfabricBgp.RibInterfaces
