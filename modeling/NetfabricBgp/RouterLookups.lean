import NetfabricBgp.RibInvariants

/-!
Address lookups by one router of the shared RIB. The lookup takes the longest stored
prefix, whoever stored it, and reads that entry with the router's mask. It answers for
the router's own longest prefix exactly when no other router stores a longer one around
the address.
-/
namespace NetfabricBgp.RouterLookups

open BitPrefix Addresses NetworkTables Routes RouterMasks RibEntries Ribs RibInvariants

/-- The answer for the router alone: the routes it holds at the longest prefix around the
address at which it holds any, and nothing only when it holds no route around it. -/
structure AnswersLongestHeld (rib : BgpRib) (address : IpAddr) (router : Uuid) : Prop where
  longest : ∀ network, network.contains address = true → rib.held router network ≠ [] →
    (∀ other, other.contains address = true → rib.held router other ≠ [] →
      other.netmask ≤ network.netmask) →
    rib.getRoutesForRouter address router = rib.held router network
  empty : rib.getRoutesForRouter address router = [] ↔
    ∀ network, network.contains address = true → rib.held router network = []

/-- Wherever any router holds a route around the address, a router that has one at all has
one at a prefix at least as long. -/
def NotHidden (rib : BgpRib) (address : IpAddr) (router : Uuid) : Prop :=
  ∀ network other, network.contains address = true → rib.held other network ≠ [] →
    (∃ covering, covering.contains address = true ∧ rib.held router covering ≠ []) →
    ∃ covering, covering.contains address = true ∧ rib.held router covering ≠ [] ∧
      network.netmask ≤ covering.netmask

section Lookup
variable {rib : BgpRib} {address : IpAddr} {router : Uuid}

theorem stored_of_held {network : IpNetwork} (h : rib.held router network ≠ []) :
    (rib.treebitmap.exactMatch network).isSome := by
  unfold BgpRib.held at h
  cases hentry : rib.treebitmap.exactMatch network with
  | none =>
    rw [hentry] at h
    exact absurd rfl h
  | some entry => rfl

/-- In a well-formed RIB every stored prefix is held by some router. -/
theorem exists_holder (hw : WellFormed rib) {network : IpNetwork}
    (h : (rib.treebitmap.exactMatch network).isSome) : ∃ other, rib.held other network ≠ [] := by
  obtain ⟨entry, hentry⟩ := Option.isSome_iff_exists.mp h
  have hat : rib.entryAt network = entry := by simp [BgpRib.entryAt, hentry]
  obtain ⟨i, hi, hused, hread⟩ :=
    (hw.entries network).exists_reader (hat ▸ hw.nonempty network entry hentry)
  obtain ⟨other, hother⟩ := (hw.masks.union i hi).mp hused
  refine ⟨other, ?_⟩
  rw [BgpRib.held_eq_entryAt, RouterMaskMap.tryGet_of_lookup hother]
  exact hread

theorem getRoutesForRouter_none (router : Uuid)
    (h : rib.treebitmap.longestMatch address = none) :
    rib.getRoutesForRouter address router = [] ∧
      ∀ other network, network.contains address = true → rib.held other network = [] := by
  refine ⟨by simp [BgpRib.getRoutesForRouter, h], ?_⟩
  intro other network hcontains
  have hnone := IpNetworkTable.longestMatch_none h hcontains
  simp [BgpRib.held, hnone]

/-- A hit reads the router's routes at the longest stored prefix around the address. -/
theorem getRoutesForRouter_some (router : Uuid) {network : IpNetwork} {entry : BgpRibEntry}
    (h : rib.treebitmap.longestMatch address = some (network, entry)) :
    rib.getRoutesForRouter address router = rib.held router network ∧
      network.contains address = true ∧ (rib.treebitmap.exactMatch network).isSome ∧
      ∀ other covering, covering.contains address = true → rib.held other covering ≠ [] →
        covering.netmask ≤ network.netmask := by
  obtain ⟨hentry, hcontains, hmax⟩ := IpNetworkTable.longestMatch_some h
  refine ⟨?_, hcontains, by simp [hentry], ?_⟩
  · simp [BgpRib.getRoutesForRouter, BgpRib.held, h, hentry]
  · intro other covering hcovering hheld
    exact hmax covering (stored_of_held hheld) hcovering

theorem answersLongestHeld_of_notHidden (hw : WellFormed rib)
    (h : NotHidden rib address router) : AnswersLongestHeld rib address router := by
  cases hmatch : rib.treebitmap.longestMatch address with
  | none =>
    obtain ⟨hnil, hnone⟩ := getRoutesForRouter_none router hmatch
    refine ⟨?_, ?_⟩
    · intro network hcontains hheld
      exact absurd (hnone router network hcontains) hheld
    · exact ⟨fun _ => hnone router, fun _ => hnil⟩
  | some hit =>
    obtain ⟨network, entry⟩ := hit
    obtain ⟨hroutes, hcontains, hstored, hmax⟩ := getRoutesForRouter_some router hmatch
    obtain ⟨other, hother⟩ := exists_holder hw hstored
    have hheld : ∀ covering, covering.contains address = true →
        rib.held router covering ≠ [] → rib.held router network ≠ [] := by
      intro covering hcovering hne
      obtain ⟨longest, hlongest, hlheld, hle⟩ :=
        h network other hcontains hother ⟨covering, hcovering, hne⟩
      have hge := hmax router longest hlongest hlheld
      have heq : longest = network :=
        IpNetwork.eq_of_contains hlongest hcontains (Nat.le_antisymm hge hle)
      rw [← heq]
      exact hlheld
    refine ⟨?_, ?_⟩
    · intro covering hcovering hne hlongest
      have hge := hlongest network hcontains (hheld covering hcovering hne)
      have hle := hmax router covering hcovering hne
      rw [hroutes, IpNetwork.eq_of_contains hcontains hcovering (Nat.le_antisymm hge hle)]
    · rw [hroutes]
      constructor
      · intro hnil covering hcovering
        by_contra hne
        exact hheld covering hcovering hne hnil
      · intro hnone
        exact hnone network hcontains

theorem notHidden_of_answersLongestHeld (h : AnswersLongestHeld rib address router) :
    NotHidden rib address router := by
  intro longer other hlonger hother hcovered
  obtain ⟨covering, hcovering, hheld⟩ := hcovered
  have hne : rib.getRoutesForRouter address router ≠ [] := by
    intro hnil
    exact hheld (h.empty.mp hnil covering hcovering)
  cases hmatch : rib.treebitmap.longestMatch address with
  | none => exact absurd (getRoutesForRouter_none router hmatch).1 hne
  | some hit =>
    obtain ⟨network, entry⟩ := hit
    obtain ⟨hroutes, hcontains, -, hmax⟩ := getRoutesForRouter_some router hmatch
    rw [hroutes] at hne
    exact ⟨network, hcontains, hne, hmax other longer hlonger hother⟩

end Lookup

/-- The lookup answers for the router alone exactly when no other router's longer prefix
stands between the address and the router's own routes. -/
theorem answersLongestHeld_iff_notHidden {ops : List BgpRib.Op} {rib : BgpRib}
    (h : BgpRib.new.run ops = .ok rib) (address : IpAddr) (router : Uuid) :
    AnswersLongestHeld rib address router ↔ NotHidden rib address router :=
  ⟨notHidden_of_answersLongestHeld,
    answersLongestHeld_of_notHidden (wellFormed_run wellFormed_new h)⟩

/-- Router 1 holds the covering block of length 8, router 2 the one of length 16. -/
def nestedOps : List BgpRib.Op :=
  [.insertRoute (.sample 1 8 "10.0.0.1" [65001]) 1,
    .insertRoute (.sample 1 16 "10.0.0.1" [65001]) 2]

theorem answersLongestHeld_iff_notHidden_nested :
    ∃ rib, BgpRib.new.run nestedOps = .ok rib ∧
      (AnswersLongestHeld rib (.V4 0x0A010203#32) 2 ↔
        NotHidden rib (.V4 0x0A010203#32) 2) :=
  ⟨_, rfl, answersLongestHeld_iff_notHidden (show BgpRib.new.run nestedOps = .ok _ from rfl) _ 2⟩

/-- Router 1 gets no route for 10.1.2.3 although it holds the covering block. -/
theorem not_answersLongestHeld_nested :
    ∃ rib, BgpRib.new.run nestedOps = .ok rib ∧
      rib.held 1 (.V4 (.around 0x0A010203#32 8)) = [.sample 1 8 "10.0.0.1" [65001]] ∧
      rib.getRoutesForRouter (.V4 0x0A010203#32) 1 = [] ∧
      ¬ AnswersLongestHeld rib (.V4 0x0A010203#32) 1 := by
  refine ⟨_, rfl, by decide, by decide, ?_⟩
  intro h
  have hheld := h.empty.mp (by decide) (.V4 (.around 0x0A010203#32 8)) (by decide)
  exact absurd hheld (by decide)

end NetfabricBgp.RouterLookups
