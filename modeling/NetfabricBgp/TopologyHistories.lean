import NetfabricBgp.Topologies

/-!
Topologies after any sequence of operations, told by the history of what was added. The
vertices stand in the order in which they were first mentioned, by themselves or by an edge,
each with the value it was given last; the edges stand in the order in which they were added.
-/
namespace NetfabricBgp.TopologyHistories

open RouterMasks Topologies Topology

section FirstMentions
variable {K : Type*} [DecidableEq K]

/-- A key that is mentioned again changes nothing, a new one goes to the end. -/
theorem eraseDups_append_singleton (keys : List K) (key : K) :
    (keys ++ [key]).eraseDups =
      if key ∈ keys.eraseDups then keys.eraseDups else keys.eraseDups ++ [key] := by
  rw [List.eraseDups_append]
  simp only [List.mem_eraseDups]
  by_cases h : key ∈ keys
  · rw [if_pos h]
    simp [List.removeAll, h]
  · rw [if_neg h]
    simp [List.removeAll, h, List.eraseDups_cons]

theorem nodup_eraseDups (keys : List K) : keys.eraseDups.Nodup := by
  induction keys using List.reverseRecOn with
  | nil => exact List.nodup_nil
  | append_singleton keys key ih =>
    rw [eraseDups_append_singleton]
    by_cases h : key ∈ keys.eraseDups
    · rw [if_pos h]
      exact ih
    · rw [if_neg h]
      exact ih.append (List.nodup_singleton key) (by simpa using h)

end FirstMentions

/-- One addition to a topology. -/
inductive Addition (V E K : Type*)
  | vertex (vertex : K) (value : V)
  | edge (edge : K × K × E)

/-- One operation on a topology; `fromEdges` replaces it by a new one. -/
inductive Op (V E K : Type*)
  | addVertex (vertex : K) (value : V)
  | addEdge (edge : K × K × E)
  | fromEdges (edges : List (K × K × E))

section Histories
variable {V E K : Type*}

def Addition.mentions : Addition V E K → List K
  | .vertex key _ => [key]
  | .edge added => [added.1, added.2.1]

def Addition.edge? : Addition V E K → Option (K × K × E)
  | .vertex _ _ => none
  | .edge added => some added

/-- What was added since the topology was made. -/
def record (history : List (Addition V E K)) : Op V E K → List (Addition V E K)
  | .addVertex vertex value => history ++ [.vertex vertex value]
  | .addEdge edge => history ++ [.edge edge]
  | .fromEdges edges => edges.map .edge

def additions (ops : List (Op V E K)) : List (Addition V E K) := ops.foldl record []

/-- All keys that the additions mention, in their order. -/
def mentions (history : List (Addition V E K)) : List K := history.flatMap Addition.mentions

def addedEdges (history : List (Addition V E K)) : List (K × K × E) :=
  history.filterMap Addition.edge?

/-- Both ends of an edge are mentioned by it. -/
theorem mem_mentions_of_addedEdges {history : List (Addition V E K)} {edge : K × K × E}
    (h : edge ∈ addedEdges history) :
    edge.1 ∈ mentions history ∧ edge.2.1 ∈ mentions history := by
  obtain ⟨addition, hmem, hedge⟩ := List.mem_filterMap.mp h
  cases addition with
  | vertex vertex value => cases hedge
  | edge added =>
    obtain rfl : added = edge := Option.some.inj hedge
    have hmentions : ∀ vertex, vertex ∈ [added.1, added.2.1] → vertex ∈ mentions history :=
      fun vertex hvertex => List.mem_flatMap.mpr ⟨_, hmem, hvertex⟩
    exact ⟨hmentions _ (by simp), hmentions _ (by simp)⟩

variable [DecidableEq K]

def Addition.value? (vertex : K) : Addition V E K → Option V
  | .vertex other value => if other = vertex then some value else none
  | .edge _ => none

/-- The value given to a vertex by the last of the additions that give it one. -/
def lastValue (vertex : K) (history : List (Addition V E K)) : Option V :=
  (history.filterMap (Addition.value? vertex)).getLast?

theorem lastValue_append_vertex (history : List (Addition V E K)) (vertex other : K) (value : V) :
    lastValue other (history ++ [.vertex vertex value]) =
      if vertex = other then some value else lastValue other history := by
  unfold lastValue
  by_cases h : vertex = other
  · simp [Addition.value?, h]
  · simp [Addition.value?, h]

theorem lastValue_append_edge (history : List (Addition V E K)) (other : K) (edge : K × K × E) :
    lastValue other (history ++ [.edge edge]) = lastValue other history := by
  simp [lastValue, Addition.value?]

/-- A vertex that was never mentioned was given no value. -/
theorem lastValue_of_notMem {history : List (Addition V E K)} {vertex : K}
    (h : vertex ∉ mentions history) : lastValue vertex history = none := by
  rw [lastValue, List.getLast?_eq_none_iff, List.filterMap_eq_nil_iff]
  intro addition hmem
  cases addition with
  | edge edge => rfl
  | vertex other value =>
    have hne : other ≠ vertex := by
      rintro rfl
      have hmention : other ∈ (Addition.vertex other value : Addition V E K).mentions :=
        List.mem_singleton.mpr rfl
      exact h (List.mem_flatMap.mpr ⟨_, hmem, hmention⟩)
    simp [Addition.value?, hne]

end Histories

section Vertices
variable {V E K : Type*} {keys : List K} {value : K → V}

/-- The vertices with these keys and values, in this order. -/
def listed (keys : List K) (value : K → V) : List (K × V) :=
  keys.map (fun vertex => (vertex, value vertex))

theorem keys_listed (keys : List K) (value : K → V) :
    (listed keys value).map Prod.fst = keys := by
  rw [listed, List.map_map]
  exact List.map_id keys

theorem listed_congr {value' : K → V} (h : ∀ vertex ∈ keys, value vertex = value' vertex) :
    listed keys value = listed keys value' :=
  List.map_congr_left (fun vertex hmem => by rw [h vertex hmem])

theorem listed_append (keys : List K) (key : K) (value : K → V) :
    listed (keys ++ [key]) value = listed keys value ++ [(key, value key)] := by
  simp [listed]

variable [DecidableEq K]

/-- Setting the value of a listed vertex, or of a new one behind the others. -/
theorem setValue_listed (hkeys : keys.Nodup) (vertex : K) (given : V) :
    setValue vertex given (listed keys value) =
      listed (if vertex ∈ keys then keys else keys ++ [vertex])
        (Function.update value vertex given) := by
  by_cases hmem : vertex ∈ keys
  · rw [if_pos hmem]
    induction keys with
    | nil => cases hmem
    | cons first rest ih =>
      obtain ⟨hnot, hrest⟩ := List.nodup_cons.mp hkeys
      have hcons : ∀ f : K → V, listed (first :: rest) f = (first, f first) :: listed rest f :=
        fun _ => rfl
      rw [hcons, hcons, setValue]
      by_cases heq : first = vertex
      · subst heq
        rw [if_pos rfl, Function.update_self]
        congr 1
        refine listed_congr ?_
        intro other hother
        have hne : other ≠ first := fun heq => hnot (heq ▸ hother)
        rw [Function.update_of_ne hne]
      · rw [if_neg heq, Function.update_of_ne heq,
          ih hrest ((List.mem_cons.mp hmem).resolve_left (Ne.symm heq))]
  · rw [if_neg hmem, listed_append, Function.update_self]
    rw [setValue_of_notMem (by rw [keys_listed]; exact hmem)]
    congr 1
    refine listed_congr ?_
    intro other hother
    have hne : other ≠ vertex := fun heq => hmem (heq ▸ hother)
    rw [Function.update_of_ne hne]

end Vertices

section Steps
variable {V E K : Type*} [DecidableEq K] [Inhabited V]

def apply (self : Topology V E K) : Op V E K → Topology V E K
  | .addVertex vertex value => self.addVertex vertex value
  | .addEdge edge => self.addEdge edge
  | .fromEdges edges => Topology.fromEdges edges

/-- The topology after a sequence of operations. -/
def build (ops : List (Op V E K)) : Topology V E K := ops.foldl apply new

def add (self : Topology V E K) : Addition V E K → Topology V E K
  | .vertex vertex value => self.addVertex vertex value
  | .edge edge => self.addEdge edge

/-- What was added last makes the topology anew. -/
theorem build_eq_foldl_add (ops : List (Op V E K)) :
    build ops = (additions ops).foldl add new := by
  unfold build additions
  induction ops using List.reverseRecOn with
  | nil => rfl
  | append_singleton ops op ih =>
    rw [List.foldl_concat, List.foldl_concat, ih]
    cases op with
    | addVertex vertex value => rw [record, List.foldl_concat, apply, add]
    | addEdge edge => rw [record, List.foldl_concat, apply, add]
    | fromEdges edges =>
      rw [record, List.foldl_map]
      rfl

/-- The value a vertex has after a history of additions. -/
def valueOf (history : List (Addition V E K)) (vertex : K) : V :=
  (lastValue vertex history).getD default

theorem valueOf_append_vertex (history : List (Addition V E K)) (vertex : K) (value : V) :
    valueOf (history ++ [.vertex vertex value]) =
      Function.update (valueOf history) vertex value := by
  funext other
  rw [valueOf, lastValue_append_vertex]
  by_cases h : vertex = other
  · subst h
    rw [if_pos rfl, Function.update_self]
    rfl
  · rw [if_neg h, Function.update_of_ne (Ne.symm h)]
    rfl

theorem valueOf_append_edge (history : List (Addition V E K)) (edge : K × K × E) :
    valueOf (history ++ [.edge edge]) = valueOf history := by
  funext other
  rw [valueOf, lastValue_append_edge]
  rfl

variable {self : Topology V E K} {history : List (Addition V E K)}

/-- Mentioning a vertex of a topology adds it if it is new, with the default value. -/
theorem vertices_mention {keys : List K} {value : K → V} (h : self.vertices = listed keys value)
    {vertex : K} (hdefault : vertex ∉ keys → value vertex = default) :
    (self.mention vertex).vertices =
      listed (if vertex ∈ keys then keys else keys ++ [vertex]) value := by
  have hcontains : self.containsVertex vertex = true ↔ vertex ∈ keys := by
    rw [containsVertex_iff, h, keys_listed]
  unfold mention
  by_cases hmem : vertex ∈ keys
  · rw [if_pos (hcontains.mpr hmem), if_pos hmem, h]
  · rw [if_neg (fun hin => hmem (hcontains.mp hin)), if_neg hmem, addVertex, h,
      setValue_of_notMem (by rw [keys_listed]; exact hmem), listed_append, hdefault hmem]

/-- The vertices in the order of their first mention, with their last values, and the edges in
the order in which they were added. -/
structure Reflects (topology : Topology V E K) (history : List (Addition V E K)) : Prop where
  vertices : topology.vertices = listed (mentions history).eraseDups (valueOf history)
  edges : topology.edges = addedEdges history

theorem reflects_new : Reflects (new : Topology V E K) [] := ⟨rfl, rfl⟩

theorem Reflects.addVertex (h : Reflects self history) (vertex : K) (value : V) :
    Reflects (self.addVertex vertex value) (history ++ [.vertex vertex value]) where
  vertices := by
    have hmentions : mentions (history ++ [.vertex vertex value]) =
        mentions history ++ [vertex] := by simp [mentions, Addition.mentions]
    rw [hmentions, eraseDups_append_singleton, valueOf_append_vertex,
      ← setValue_listed (nodup_eraseDups _), ← h.vertices]
    rfl
  edges := by
    rw [addedEdges, List.filterMap_append]
    exact h.edges.trans (List.append_nil _).symm

theorem Reflects.addEdge (h : Reflects self history) (edge : K × K × E) :
    Reflects (self.addEdge edge) (history ++ [.edge edge]) where
  vertices := by
    have hmentions : mentions (history ++ [.edge edge]) =
        mentions history ++ [edge.1] ++ [edge.2.1] := by simp [mentions, Addition.mentions]
    have hdefault : ∀ vertex, vertex ∉ (mentions history).eraseDups →
        valueOf history vertex = default := by
      intro vertex hnot
      rw [List.mem_eraseDups] at hnot
      rw [valueOf, lastValue_of_notMem hnot]
      rfl
    have hfirst := vertices_mention h.vertices (hdefault edge.1)
    rw [← eraseDups_append_singleton] at hfirst
    have hsecond := @vertices_mention _ _ _ _ _ _ _ _ hfirst edge.2.1 (by
      intro hnot
      apply hdefault
      rw [List.mem_eraseDups] at hnot ⊢
      exact fun hmem => hnot (List.mem_append_left _ hmem))
    rw [hmentions, eraseDups_append_singleton, valueOf_append_edge]
    exact hsecond
  edges := by
    rw [edges_addEdge, h.edges, addedEdges, addedEdges, List.filterMap_append]
    rfl

theorem reflects_foldl_add (history : List (Addition V E K)) :
    Reflects (history.foldl add new) history := by
  induction history using List.reverseRecOn with
  | nil => exact reflects_new
  | append_singleton history addition ih =>
    rw [List.foldl_concat]
    cases addition with
    | vertex vertex value => exact ih.addVertex vertex value
    | edge edge => exact ih.addEdge edge

theorem reflects_build (ops : List (Op V E K)) : Reflects (build ops) (additions ops) := by
  rw [build_eq_foldl_add]
  exact reflects_foldl_add (additions ops)

/-- What a reader of a topology sees of the history of its additions. -/
structure Faithful (topology : Topology V E K) (history : List (Addition V E K)) : Prop where
  distinct : (topology.iterVertices.map Prod.fst).Nodup
  ends : ∀ edge ∈ topology.iterEdges, edge.1 ∈ topology.iterVertices.map Prod.fst ∧
    edge.2.1 ∈ topology.iterVertices.map Prod.fst
  edges : topology.iterEdges = addedEdges history
  order : topology.iterVertices.map Prod.fst = (mentions history).eraseDups
  values : ∀ entry ∈ topology.iterVertices,
    entry.2 = (lastValue entry.1 history).getD default

theorem Reflects.faithful (h : Reflects self history) : Faithful self history := by
  have hkeys : self.vertices.map Prod.fst = (mentions history).eraseDups := by
    rw [h.vertices, keys_listed]
  constructor
  · rw [iterVertices_eq, hkeys]
    exact nodup_eraseDups _
  · intro edge hedge
    rw [iterEdges_eq, h.edges] at hedge
    rw [iterVertices_eq, hkeys, List.mem_eraseDups, List.mem_eraseDups]
    exact mem_mentions_of_addedEdges hedge
  · rw [iterEdges_eq, h.edges]
  · rw [iterVertices_eq, hkeys]
  · intro entry hentry
    rw [iterVertices_eq, h.vertices] at hentry
    obtain ⟨vertex, -, rfl⟩ := List.mem_map.mp hentry
    rfl

/-- A mentioned vertex leaves the others as they are. -/
theorem mem_vertices_mention {entry : K × V} (h : entry ∈ self.vertices) (vertex : K) :
    entry ∈ (self.mention vertex).vertices := by
  unfold mention
  by_cases hmem : self.containsVertex vertex = true
  · rwa [if_pos hmem]
  · rw [if_neg hmem, addVertex,
      setValue_of_notMem (fun hin => hmem (containsVertex_iff.mpr hin))]
    exact List.mem_append_left _ h

end Steps

/-- After every sequence of operations the vertices are pairwise distinct and stand in the order
of their first mention, each with the value it was given last or the default one, and the
edges are the added ones in order, between vertices. A further edge changes no value, and a
further vertex no edge. -/
theorem faithful_build {V E K : Type*} [DecidableEq K] [Inhabited V] (ops : List (Op V E K)) :
    Faithful (build ops) (additions ops) ∧
      (∀ edge, ∀ entry ∈ (build ops).iterVertices,
        entry ∈ ((build ops).addEdge edge).iterVertices) ∧
      ∀ vertex value, ((build ops).addVertex vertex value).iterEdges = (build ops).iterEdges := by
  refine ⟨(reflects_build ops).faithful, ?_, fun _ _ => rfl⟩
  intro edge entry hentry
  rw [iterVertices_eq] at hentry ⊢
  exact mem_vertices_mention (mem_vertices_mention hentry edge.1) edge.2.1

example : (build [.addVertex 1 10, .addVertex 2 20, .addVertex 2 10, .addEdge (1, 2, ()),
      .addEdge (3, 3, ())] : Topology ℕ Unit ℕ).iterVertices = [(1, 10), (2, 10), (3, 0)] := by
  decide

section Networks

/-- The operation that an operation on a network topology performs on the topology inside. -/
def inner : NetworkTopology.Op → Op NetworkTopologyVertex NetworkTopologyEdge Uuid
  | .addRouter fresh routerOptions processConfig =>
    .addVertex fresh ⟨routerOptions, processConfig⟩
  | .addConnection vertex1Id vertex2Id sessionConfigs linkBufferSize =>
    .addEdge (vertex1Id, vertex2Id, ⟨sessionConfigs, linkBufferSize⟩)
  | .addVertex vertex value => .addVertex vertex value
  | .addEdge edge => .addEdge edge
  | .fromEdges edges => .fromEdges edges

theorem build_inner (ops : List NetworkTopology.Op) :
    NetworkTopology.build ops = build (ops.map inner) := by
  rw [NetworkTopology.build, build, List.foldl_map]
  congr 1
  funext topology op
  cases op <;> rfl

/-- So it is with the topologies from which networks are built. -/
theorem faithful_network (ops : List NetworkTopology.Op) :
    Faithful (NetworkTopology.build ops) (additions (ops.map inner)) := by
  rw [build_inner]
  exact (reflects_build _).faithful

end Networks

end NetfabricBgp.TopologyHistories
