import NetfabricBgp.MachineTurns
import NetfabricBgp.TopologyThreads

/-!
Starting the network that is made from a topology: a machine for each router, with a channel for
its commands. From then on, whatever is sent to the machines and however they interleave, none
panics, and each process is a speaker on a RIB of its own.
-/
namespace NetfabricBgp.NetworkStarts

open RouterMasks Ribs Advertisements Channels Processes Supplies MessageBuses Topologies Routers
  Networks StateMachines StateMachineHandles TopologyWirings JoinedSessions ProcessThreads
  ThreadSteps ThreadHistories ThreadCycles Speakers TopologyThreads RouterMachines MachineRuns

/-- `StateMachine::new`: both ends of a channel for the commands, and a thread for the runner. -/
def newMachine (uuids : ℕ → Uuid) (messageBus : MessageBus) (supply : Supply) (router : Router) :
    Except StateMachineError (MessageBus × Supply × Machine) :=
  match messageBus.createChannel uuids supply COMMAND_CAPACITY with
  | .error e => .error (.MessageBusError e)
  | .ok (messageBus, supply, channelId) =>
    match messageBus.publish channelId with
    | .error e => .error (.MessageBusError e)
    | .ok _ =>
      match messageBus.subscribe channelId with
      | .error e => .error (.MessageBusError e)
      | .ok (messageBus, _) =>
        let (_, supply) := supply.newV4 uuids
        .ok (messageBus, supply, .new router.bgpProcesses.length)

/-- The routers that are machines already, and what they were made with. -/
structure Starting where
  messageBus : MessageBus
  supply : Supply
  routerSm : Uuid → Option Machine

/-- The first loop of `start`, over a router that the map yields. -/
def createMachine (uuids : ℕ → Uuid) (state : Starting) (entry : Uuid × Router) :
    Except NetworkManagerError Starting :=
  match newMachine uuids state.messageBus state.supply entry.2 with
  | .error e => .error (.StateMachineError e)
  | .ok (messageBus, supply, machine) =>
    .ok ⟨messageBus, supply, Function.update state.routerSm entry.1 (some machine)⟩

/-- The machines of a network whose routers the map yields in this order, before the second loop
sends them their first command. -/
def startMachines (uuids : ℕ → Uuid) (state : NetworkManager × Supply)
    (routers : List (Uuid × Router)) : Except NetworkManagerError (Machines Uuid) :=
  match Runs.run (createMachine uuids) ⟨state.1.threadManager.messageBus, state.2, fun _ => none⟩
    routers with
  | .error e => .error e
  | .ok started => .ok ⟨started.routerSm, threadsOf (state.1, started.supply)⟩

section Making
variable {forms : TextForms} {uuids : ℕ → Uuid} {supply : Supply}

/-- An unused identifier gets a channel, of which the bus keeps the sender only. -/
theorem newMachine_ok {messageBus : MessageBus} (router : Router)
    (hunused : messageBus.Unused (uuids supply.drawn)) :
    ∃ messageBus' supply', newMachine uuids messageBus supply router =
        .ok (messageBus', supply', .new router.bgpProcesses.length) ∧
      (∀ id, id ≠ uuids supply.drawn → messageBus.Unused id → messageBus'.Unused id) ∧
      supply'.drawn = supply.drawn + 2 ∧ supply'.ribs = supply.ribs ∧
      supply'.nextRib = supply.nextRib := by
  obtain ⟨hsender, hreceiver⟩ := hunused
  have hback := erase_insert_of_notMem hreceiver supply.nextChannel
  refine ⟨{ messageBus with
      senders := messageBus.senders.insert (uuids supply.drawn) supply.nextChannel },
    { (supply.syncChannel COMMAND_CAPACITY).2 with drawn := supply.drawn + 2 }, ?_, ?_, rfl, rfl,
    rfl⟩
  · simp [newMachine, MessageBus.createChannel, MessageBus.createChannelWithUuid, Supply.newV4,
      MessageBus.publish, MessageBus.subscribe, Supply.syncChannel, hsender, hreceiver, hback]
  · intro id hne hid
    refine ⟨?_, hid.2⟩
    rw [Finmap.mem_insert]
    exact fun hmem => hmem.elim hne hid.1

/-- What the loop has made of some of the routers. -/
structure Made (uuids : ℕ → Uuid) (start : Supply) (stop : ℕ) (done : List (Uuid × Router))
    (state : Starting) : Prop where
  machines : ∀ id machine, state.routerSm id = some machine ↔
    ∃ router, (id, router) ∈ done ∧ machine = .new router.bgpProcesses.length
  drawn : state.supply.drawn = start.drawn + 2 * done.length
  unused : ∀ n, state.supply.drawn ≤ n → n < stop → state.messageBus.Unused (uuids n)
  ribs : state.supply.ribs = start.ribs
  nextRib : state.supply.nextRib = start.nextRib

theorem Made.createMachine {stop : ℕ} {done : List (Uuid × Router)} {state : Starting}
    (h : Made uuids supply stop done state) (entry : Uuid × Router)
    (hnew : entry.1 ∉ done.map Prod.fst) (hroom : supply.drawn + 2 * (done.length + 1) ≤ stop)
    (hdistinct : ∀ m n, supply.drawn ≤ m → m < n → n < stop → uuids m ≠ uuids n) :
    ∃ state', createMachine uuids state entry = .ok state' ∧
      Made uuids supply stop (done ++ [entry]) state' := by
  have hdrawn := h.drawn
  obtain ⟨messageBus', supply', hmachine, hkept, hdrawn', hribs, hnext⟩ := newMachine_ok entry.2
    (h.unused state.supply.drawn (Nat.le_refl _) (by omega))
  refine ⟨⟨messageBus', supply', Function.update state.routerSm entry.1
    (some (.new entry.2.bgpProcesses.length))⟩, ?_, ?_, ?_, ?_, hribs.trans h.ribs,
    hnext.trans h.nextRib⟩
  · simp only [NetworkStarts.createMachine, hmachine]
  · intro id machine
    simp only [Function.update_apply]
    by_cases hid : id = entry.1
    · rw [if_pos hid, Option.some.injEq]
      constructor
      · intro hsome
        exact ⟨entry.2, List.mem_append_right _ (by simp [hid]), hsome.symm⟩
      · intro hsome
        obtain ⟨router, hmem, rfl⟩ := hsome
        rcases List.mem_append.mp hmem with hold | hlast
        · rw [hid] at hold
          exact absurd (List.mem_map.mpr ⟨_, hold, rfl⟩) hnew
        · obtain rfl := List.mem_singleton.mp hlast
          rfl
    · rw [if_neg hid, h.machines id machine]
      refine exists_congr (fun router => and_congr_left (fun _ => ?_))
      rw [List.mem_append, List.mem_singleton]
      exact ⟨Or.inl, fun hor => hor.resolve_right (fun heq => hid (congrArg Prod.fst heq))⟩
  · rw [List.length_append, List.length_singleton, hdrawn', hdrawn]
    omega
  · intro n hle hlt
    have hle' : supply'.drawn ≤ n := hle
    have hne := hdistinct state.supply.drawn n (by omega) (by omega) hlt
    exact hkept (uuids n) hne.symm (h.unused n (by omega) hlt)

/-- With fresh identifiers every router gets its machine. -/
theorem startMachines_ok {state : NetworkManager × Supply} {routers : List (Uuid × Router)}
    (hkeys : (routers.map Prod.fst).Nodup)
    (hfresh : Fresh uuids state.1.threadManager.messageBus state.2.drawn (2 * routers.length)) :
    ∃ started, startMachines uuids state routers =
        .ok ⟨started.routerSm, threadsOf (state.1, started.supply)⟩ ∧
      ∃ stop, Made uuids state.2 stop routers started := by
  let stop := state.2.drawn + 2 * routers.length
  let Inv := fun (started : Starting) (rest : List (Uuid × Router)) =>
    ∃ done, done ++ rest = routers ∧ Made uuids state.2 stop done started
  have hstart : Inv ⟨state.1.threadManager.messageBus, state.2, fun _ => none⟩ routers := by
    refine ⟨[], rfl, ?_, rfl, hfresh.unused, rfl, rfl⟩
    intro id machine
    simp
  have hstep : ∀ started entry rest, Inv started (entry :: rest) →
      ∃ started', createMachine uuids started entry = .ok started' ∧ Inv started' rest := by
    intro started entry rest hinv
    obtain ⟨done, hdone, hmade⟩ := hinv
    have hnew : entry.1 ∉ done.map Prod.fst := by
      rw [← hdone, List.map_append, List.map_cons, List.nodup_middle] at hkeys
      exact fun hmem => hkeys.notMem (List.mem_append_left _ hmem)
    have hlength := congrArg List.length hdone
    rw [List.length_append, List.length_cons] at hlength
    obtain ⟨started', hcreate, hmade'⟩ := hmade.createMachine entry hnew (by omega) hfresh.distinct
    exact ⟨started', hcreate, done ++ [entry], by rw [List.append_assoc]; exact hdone, hmade'⟩
  obtain ⟨started, hrun, done, hdone, hmade⟩ := Runs.run_reaches Inv hstep hstart
  rw [List.append_nil] at hdone
  refine ⟨started, ?_, stop, hdone ▸ hmade⟩
  unfold startMachines
  rw [hrun]

end Making

section Starting
variable {forms : TextForms} {uuids : ℕ → Uuid} {state : NetworkManager × Supply}
  {routers : List (Uuid × Router)} {started : Starting}

/-- The machines of the routers, with the threads of their processes. -/
theorem orderly_started {stop : ℕ} (hmade : Made uuids state.2 stop routers started)
    (hrouters : ∀ id router, (id, router) ∈ routers ↔ state.1.routers.lookup id = some router) :
    Orderly ⟨started.routerSm, threadsOf (state.1, started.supply)⟩ := by
  refine ⟨?_, ?_⟩
  · intro id machine hmachine
    obtain ⟨router, hmem, rfl⟩ := (hmade.machines id machine).mp hmachine
    have hlookup := (hrouters id router).mp hmem
    have hthread : ∀ n, (threadsOf (state.1, started.supply)).thread (id, n) =
        router.bgpProcesses[n]?.map Thread.start := by
      intro n
      show ((state.1.routers.lookup id).bind (·.bgpProcesses[n]?)).map Thread.start = _
      rw [hlookup]
      rfl
    refine ⟨?_, Nat.zero_le _, ?_, ?_⟩
    · intro n
      rw [hthread n]
      constructor
      · intro hlt
        exact ⟨_, by rw [List.getElem?_eq_getElem hlt]; rfl⟩
      · intro hsome
        obtain ⟨self, hself⟩ := hsome
        obtain ⟨hosted, hhosted, -⟩ := Option.map_eq_some_iff.mp hself
        exact (List.getElem?_eq_some_iff.mp hhosted).1
    · intro n hn
      cases hn
    · intro n self hself _
      rw [hthread n] at hself
      obtain ⟨hosted, -, rfl⟩ := Option.map_eq_some_iff.mp hself
      exact ⟨rfl, rfl⟩
  · intro place self hself
    obtain ⟨hosted, -, rfl⟩ := thread_threadsOf hself
    exact fun _ => rfl

/-- The identifiers that are left are enough for the machines. -/
theorem fresh_left {topology : NetworkTopology} {manager : ThreadManager} {start : Supply}
    (htopology : topology.WellFormed)
    (hfresh : Fresh uuids manager.messageBus start.drawn
      (4 * topology.vertices.length + 6 * topology.edges.length))
    (hbuilt : Built uuids start
      (start.drawn + (4 * topology.vertices.length + 6 * topology.edges.length))
      topology.vertices topology.edges state) (hkeys : (routers.map Prod.fst).Nodup)
    (hrouters : ∀ id router, (id, router) ∈ routers ↔ state.1.routers.lookup id = some router) :
    Fresh uuids state.1.threadManager.messageBus state.2.drawn (2 * routers.length) := by
  have hperm : (routers.map Prod.fst).Perm (topology.vertices.map Prod.fst) := by
    refine (List.perm_ext_iff_of_nodup hkeys htopology.distinct).mpr ?_
    intro id
    rw [← hbuilt.keys id]
    constructor
    · intro hmem
      obtain ⟨⟨id, router⟩, hentry, rfl⟩ := List.mem_map.mp hmem
      exact Finmap.mem_of_lookup_eq_some ((hrouters id router).mp hentry)
    · intro hmem
      obtain ⟨router, hlookup⟩ := Finmap.mem_iff.mp hmem
      exact List.mem_map.mpr ⟨_, (hrouters id router).mpr hlookup, rfl⟩
  have hlength := hperm.length_eq
  rw [List.length_map, List.length_map] at hlength
  exact fresh_rest hfresh (by omega) hbuilt

/-- A network made from a topology without loops can be started, and then, in every order of the
commands, the work of the machines and the messages, no router panics, and each process is a
speaker from the start: its routes and what it tells follow from what it has applied. A router
that is not at work has left no cycle half done. -/
theorem started_fromTopology (forms : TextForms) (uuids : ℕ → Uuid) (ops : List NetworkTopology.Op)
    (threadManager : ThreadManager) (supply : Supply)
    (hunwritten : ∀ rib, Unwritten (supply.ribs rib))
    (hloops : ∀ edge ∈ (NetworkTopology.build ops).edges, edge.1 ≠ edge.2.1)
    (hfresh : Fresh uuids threadManager.messageBus supply.drawn
      (4 * (NetworkTopology.build ops).vertices.length +
        6 * (NetworkTopology.build ops).edges.length)) :
    ∃ state, NetworkManager.fromTopology forms uuids (NetworkTopology.build ops) threadManager
        supply = .ok state ∧
      ∀ routers, (routers.map Prod.fst).Nodup →
        (∀ id router, (id, router) ∈ routers ↔ state.1.routers.lookup id = some router) →
        ∃ machines, startMachines uuids state routers = .ok machines ∧
          ∀ events, ∃ state' log, RouterMachines.run forms machines events = .ok (state', log) ∧
            ∀ id router, state.1.routers.lookup id = some router →
              ∃ machine, state'.machine id = some machine ∧
                ∀ n hosted, router.bgpProcesses[n]? = some hosted →
                  ∃ self, state'.threads.thread (id, n) = some self ∧
                    Speaks state'.threads.shared self
                      ((ownEffects (id, n) (effectsOf log)).foldl (Speaker.after forms) .silent) ∧
                    (machine.position = .between → Resting self) := by
  have htopology := NetworkTopology.wellFormed_build ops
  obtain ⟨state, hfrom, hbuilt⟩ := @built_before forms uuids _ _ _ _ htopology hloops (by omega)
    hfresh
  refine ⟨state, hfrom, ?_⟩
  intro routers hkeys hrouters
  obtain ⟨started, hstart, stop, hmade⟩ :=
    startMachines_ok hkeys (fresh_left htopology hfresh hbuilt hkeys hrouters)
  have hhoused : Housed (state.1, started.supply) :=
    (housed_fromTopology hunwritten hfrom).congr hmade.ribs hmade.nextRib (fun _ => rfl)
  refine ⟨_, hstart, ?_⟩
  intro events
  obtain ⟨state', log, hrun, horderly, inner, hinner⟩ :=
    orderly_run forms _ (orderly_started hmade hrouters) hhoused.roomy events
  refine ⟨state', log, hrun, ?_⟩
  intro id router hlookup
  have hmachine : started.routerSm id = some (.new router.bgpProcesses.length) :=
    (hmade.machines id _).mpr ⟨router, (hrouters id router).mpr hlookup, rfl⟩
  have hfollows : MachineTurns.Follows (.new router.bgpProcesses.length) [] [] := rfl
  obtain ⟨machine, more, waiting, hfound, -⟩ :=
    MachineTurns.continues_run hfollows hmachine hrun
  refine ⟨machine, hfound, ?_⟩
  intro n hosted hhosted
  have hplace : hostedAt state.1 (id, n) = some hosted := by
    unfold hostedAt
    rw [hlookup]
    exact hhosted
  obtain ⟨⟨⟨self, hself, -, hspeaks⟩, -⟩, -⟩ := speaks_run (hhoused.speaks hplace) hinner
  refine ⟨self, hself, hspeaks, ?_⟩
  intro hbetween
  refine (horderly.machines id machine hfound).resting n self hself ?_
  rw [hbetween]
  exact fun heq => by cases heq

/-- The entries of a map in some order. -/
theorem exists_listed (map : Finmap (fun _ : Uuid => Router)) :
    ∃ routers : List (Uuid × Router), (routers.map Prod.fst).Nodup ∧
      ∀ id router, (id, router) ∈ routers ↔ map.lookup id = some router := by
  have hkeys := map.nodupKeys
  rw [← Multiset.coe_toList map.entries, Multiset.coe_nodupKeys] at hkeys
  refine ⟨map.entries.toList.map (fun entry => (entry.1, entry.2)), ?_, ?_⟩
  · rw [List.map_map]
    exact hkeys
  · intro id router
    rw [Finmap.lookup_eq_some_iff, List.mem_map]
    constructor
    · intro h
      obtain ⟨⟨id', router'⟩, hmem, heq⟩ := h
      obtain ⟨rfl, rfl⟩ := Prod.mk.inj heq
      exact Multiset.mem_toList.mp hmem
    · intro hmem
      exact ⟨⟨id, router⟩, Multiset.mem_toList.mpr hmem, rfl⟩

theorem started_fromTopology_parallel :
    ∃ state routers machines, NetworkManager.fromTopology .sample (fun n => BitVec.ofNat 128 n)
        (NetworkTopology.build parallelEdges) .new .initial = .ok state ∧
      startMachines (fun n => BitVec.ofNat 128 n) state routers = .ok machines ∧
      ∀ events, ∃ state' log,
        RouterMachines.run .sample machines events = .ok (state', log) := by
  have hcounts : 4 * (NetworkTopology.build parallelEdges).vertices.length +
      6 * (NetworkTopology.build parallelEdges).edges.length = 20 := by decide
  obtain ⟨state, hfrom, hstarts⟩ := started_fromTopology .sample (fun n => BitVec.ofNat 128 n)
    parallelEdges .new .initial (fun _ => unwritten_new) (by decide)
    (by rw [hcounts]; exact fresh_ofNat (by decide))
  obtain ⟨routers, hkeys, hrouters⟩ := exists_listed state.1.routers
  obtain ⟨machines, hstart, hruns⟩ := hstarts routers hkeys hrouters
  refine ⟨state, routers, machines, hfrom, hstart, ?_⟩
  intro events
  obtain ⟨state', log, hrun, -⟩ := hruns events
  exact ⟨state', log, hrun⟩

end Starting

end NetfabricBgp.NetworkStarts
