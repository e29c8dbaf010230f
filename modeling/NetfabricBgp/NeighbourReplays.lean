import NetfabricBgp.ClientTables
import NetfabricBgp.Processes

/-!
A neighbour that replays the changes a process reports. The neighbour holds its own RIB,
shared with any other routers, and takes each change as an announcement or a withdrawal
by the sender. Whether a prefix is reachable through the sender afterwards depends on the
kinds and prefixes of the changes only.
-/
namespace NetfabricBgp.NeighbourReplays

open Addresses Routes RouterMasks Ribs RibInvariants KeyedLog Advertisements Channels RibInterfaces
  Processes ClientTables

/-- A change as the neighbour decodes it from an advertisement without a path. -/
def relayed (sender : IpAddr) : Entry BestRoute → Entry Route
  | .add best => .add ⟨sender, best.route.pfx, best.route.nextHop, []⟩
  | .retract best => .retract ⟨sender, best.route.pfx, "", []⟩

def prefixOf (best : BestRoute) : IpNetwork := best.route.pfx

/-- The neighbour holds a route of the sender at the prefix. -/
def Reaches (rib : BgpRib) (neighbour : Uuid) (sender : IpAddr) (network : IpNetwork) : Prop :=
  ∃ route ∈ rib.held neighbour network, route.peer = sender

/-- A RIB that some calls led to, with the neighbour among its registered routers. -/
def Registered (rib : BgpRib) (neighbour : Uuid) : Prop :=
  (∃ ops, BgpRib.new.run ops = .ok rib) ∧ neighbour ∈ rib.routerMaskMap.map

def opOf (id : Uuid) : Entry Route → BgpRib.Op
  | .add route => .insertRoute route id
  | .retract route => .removeRoute route id

section Replay
variable {rib : BgpRib} {neighbour : Uuid} {sender : IpAddr}

theorem run_opOf (rib : BgpRib) (id : Uuid) (log : List (Entry Route)) :
    rib.run (log.map (opOf id)) = (Runs.collect (handle id) rib log).map Prod.fst := by
  refine Runs.run_map (opOf id) ?_ rib log
  intro s e
  cases e with
  | add route =>
    cases h : s.insertRoute route id <;> simp [opOf, BgpRib.step, handle, h, Except.map]
  | retract route =>
    cases h : s.removeRoute route id <;> simp [opOf, BgpRib.step, handle, h, Except.map]

theorem ownLog_opOf (id : Uuid) (log : List (Entry Route)) :
    ReferenceStores.ownLog id (log.map (opOf id)) = log := by
  unfold ReferenceStores.ownLog
  induction log with
  | nil => rfl
  | cons e rest ih => cases e <;> simpa [opOf] using ih

/-- A registered router's calls never panic. -/
theorem collect_registered (hmem : neighbour ∈ rib.routerMaskMap.map) (log : List (Entry Route)) :
    ∃ rib' changes, Runs.collect (handle neighbour) rib log = .ok (rib', changes) := by
  have hrun : ∃ rib', rib.run (log.map (opOf neighbour)) = .ok rib' := by
    refine Runs.run_total (fun s rest => neighbour ∈ s.routerMaskMap.map ∧
      ∀ op ∈ rest, op.router = neighbour) ?_ ⟨hmem, ?_⟩
    · intro s op rest hs
      obtain ⟨hs, hrouter⟩ := hs
      have hop : op.router = neighbour := hrouter op (by simp)
      obtain ⟨s', hstep, hmasks⟩ := step_of_registered (hop ▸ hs)
      refine ⟨s', hstep, ?_, fun op' hop' => hrouter op' (List.mem_cons_of_mem _ hop')⟩
      rw [hmasks]
      exact hs
    · intro op hop
      obtain ⟨e, -, rfl⟩ := List.mem_map.mp hop
      cases e <;> rfl
  obtain ⟨rib', hrun⟩ := hrun
  rw [run_opOf] at hrun
  rcases h : Runs.collect (handle neighbour) rib log with panic | ⟨next, changes⟩
  · rw [h] at hrun
    cases hrun
  · exact ⟨next, changes, rfl⟩

/-- The neighbour's routes after a replay: what the replay makes live, and what it had and
the replay does not withdraw. -/
theorem mem_held_replay {ops : List BgpRib.Op} (hops : BgpRib.new.run ops = .ok rib)
    {rib' : BgpRib} {log : List (Entry Route)} {changes : List (Entry BestRoute)}
    (h : Runs.collect (handle neighbour) rib log = .ok (rib', changes)) {network : IpNetwork}
    {x : Route} :
    x ∈ rib'.held neighbour network ↔
      (Live Route.key log x ∧ x.pfx = network) ∨
        (x ∈ rib.held neighbour network ∧ ∀ w, Entry.retract w ∈ log → w.key ≠ x.key) := by
  have hrun : BgpRib.new.run (ops ++ log.map (opOf neighbour)) = .ok rib' := by
    refine Runs.run_append_ok.mpr ⟨rib, hops, ?_⟩
    change rib.run _ = _
    rw [run_opOf, h]
    rfl
  have hlog : ReferenceStores.ownLog neighbour (ops ++ log.map (opOf neighbour)) =
      ReferenceStores.ownLog neighbour ops ++ log := by
    unfold ReferenceStores.ownLog
    rw [List.filterMap_append]
    exact congrArg _ (ownLog_opOf neighbour log)
  rw [ReferenceStores.mem_held_iff_live hrun, hlog, live_append,
    ReferenceStores.mem_held_iff_live hops]
  tauto

theorem exists_live_relayed (sender : IpAddr) (changes : List (Entry BestRoute))
    (network : IpNetwork) :
    (∃ x, Live Route.key (changes.map (relayed sender)) x ∧ x.key = (sender, network)) ↔
      ∃ best, Live prefixOf changes best ∧ prefixOf best = network := by
  rw [exists_live_iff_map, exists_live_iff_map, List.map_map]
  have hkinds : Entry.map (fun x : Route => decide (x.key = (sender, network))) ∘ relayed sender =
      Entry.map (fun best => decide (prefixOf best = network)) := by
    funext e
    cases e with
    | add best => exact congrArg Entry.add (decide_eq_decide.mpr (by simp [Route.key, prefixOf]))
    | retract best =>
      exact congrArg Entry.retract (decide_eq_decide.mpr (by simp [Route.key, prefixOf]))
  rw [hkinds]

theorem retract_mem_relayed (sender : IpAddr) (changes : List (Entry BestRoute))
    (network : IpNetwork) :
    (∀ w, Entry.retract w ∈ changes.map (relayed sender) → w.key ≠ (sender, network)) ↔
      ∀ best, Entry.retract best ∈ changes → prefixOf best ≠ network := by
  constructor
  · intro h best hbest hnetwork
    refine h _ (List.mem_map_of_mem (f := relayed sender) hbest) ?_
    rw [← hnetwork]
    rfl
  · intro h w hw hkey
    obtain ⟨e, he, hew⟩ := List.mem_map.mp hw
    cases e with
    | add best => cases hew
    | retract best =>
      rw [← Entry.retract.inj hew] at hkey
      exact h best he (congrArg Prod.snd hkey)

/-- A replay succeeds, and decides reachability by its kinds and prefixes alone. -/
theorem reaches_replay (hreg : Registered rib neighbour) (sender : IpAddr)
    (changes : List (Entry BestRoute)) :
    ∃ rib' reports, Runs.collect (handle neighbour) rib (changes.map (relayed sender)) =
        .ok (rib', reports) ∧
      ∀ network, Reaches rib' neighbour sender network ↔
        Present prefixOf changes (Reaches rib neighbour sender network) network := by
  obtain ⟨⟨ops, hops⟩, hmem⟩ := hreg
  obtain ⟨rib', reports, hreplay⟩ := collect_registered hmem (changes.map (relayed sender))
  refine ⟨rib', reports, hreplay, ?_⟩
  intro network
  have hwell := wellFormed_run wellFormed_new hops
  unfold Present
  rw [← exists_live_relayed sender, ← retract_mem_relayed sender]
  constructor
  · intro h
    obtain ⟨x, hx, rfl⟩ := h
    rcases (mem_held_replay hops hreplay).mp hx with ⟨hlive, rfl⟩ | ⟨hheld, hkept⟩
    · exact Or.inl ⟨x, hlive, rfl⟩
    · have hpfx := pfx_of_held hwell hheld
      subst hpfx
      exact Or.inr ⟨⟨x, hheld, rfl⟩, hkept⟩
  · intro h
    rcases h with ⟨x, hlive, hkey⟩ | ⟨⟨x, hheld, rfl⟩, hkept⟩
    · exact ⟨x, (mem_held_replay hops hreplay).mpr (Or.inl ⟨hlive, congrArg Prod.snd hkey⟩),
        congrArg Prod.fst hkey⟩
    · have hpfx := pfx_of_held hwell hheld
      subst hpfx
      exact ⟨x, (mem_held_replay hops hreplay).mpr (Or.inr ⟨hheld, hkept⟩), rfl⟩

end Replay

section Samples

/-- A process at 10.0.0.1, for concrete runs. -/
def sampleProcess (ribInterface : BgpRibInterface) : BgpProcess :=
  { BgpProcess.new 5 ribInterface with config := ⟨.V4 0x0A000001#32, 65000⟩ }

theorem registered_sample {rib : BgpRib} (h : BgpRib.new.run [.registerRouter 9] = .ok rib) :
    Registered rib 9 := by
  refine ⟨⟨_, h⟩, ?_⟩
  rw [← Finmap.mem_keys, keys_run h]
  simp [BgpRib.Op.router]

theorem not_reaches_of_startsEmpty {rib : BgpRib} {neighbour : Uuid} (h : StartsEmpty rib neighbour)
    (sender : IpAddr) (network : IpNetwork) : ¬ Reaches rib neighbour sender network := by
  intro hreaches
  obtain ⟨route, hroute, -⟩ := hreaches
  rw [(represents_of_startsEmpty h).own] at hroute
  exact List.not_mem_nil hroute

end Samples

end NetfabricBgp.NeighbourReplays
