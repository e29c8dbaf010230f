import NetfabricBgp.Sessions
import NetfabricBgp.Processes

/-!
Topologies: vertices with values, and edges between them, both in the order in which they
were added. An edge brings the ends that are missing, with default values, so both ends of
every edge are vertices, and no vertex is listed twice.
-/
namespace NetfabricBgp.Topologies

open RouterMasks Sessions Processes

structure Topology (V E K : Type*) where
  vertices : List (K × V)
  edges : List (K × K × E)
deriving DecidableEq

namespace Topology

variable {V E K : Type*}

def new : Topology V E K := ⟨[], []⟩

def iterVertices (self : Topology V E K) : List (K × V) := self.vertices.map (fun (k, v) => (k, v))

def iterEdges (self : Topology V E K) : List (K × K × E) :=
  self.edges.map (fun (k1, k2, e) => (k1, k2, e))

@[simp]
theorem iterVertices_eq (self : Topology V E K) : self.iterVertices = self.vertices :=
  List.map_id self.vertices

@[simp]
theorem iterEdges_eq (self : Topology V E K) : self.iterEdges = self.edges :=
  List.map_id self.edges

/-- No vertex is listed twice, and both ends of every edge are listed. -/
structure WellFormed (topology : Topology V E K) : Prop where
  distinct : (topology.vertices.map Prod.fst).Nodup
  ends : ∀ edge ∈ topology.edges, edge.1 ∈ topology.vertices.map Prod.fst ∧
    edge.2.1 ∈ topology.vertices.map Prod.fst

theorem wellFormed_new : (new : Topology V E K).WellFormed := ⟨List.nodup_nil, by simp [new]⟩

section Vertices
variable [DecidableEq K]

def containsVertex (self : Topology V E K) (vertex : K) : Bool :=
  self.vertices.any (fun entry => entry.1 = vertex)

/-- The value of a known vertex is overwritten; a new vertex goes to the end. -/
def setValue (vertex : K) (value : V) : List (K × V) → List (K × V)
  | [] => [(vertex, value)]
  | entry :: rest =>
    if entry.1 = vertex then (entry.1, value) :: rest else entry :: setValue vertex value rest

def addVertex (self : Topology V E K) (vertex : K) (value : V) : Topology V E K :=
  { self with vertices := setValue vertex value self.vertices }

variable {self : Topology V E K} {vertex other : K} {value : V}

theorem containsVertex_iff :
    self.containsVertex vertex = true ↔ vertex ∈ self.vertices.map Prod.fst := by
  simp [containsVertex]

theorem keys_setValue_of_mem {vertices : List (K × V)} (h : vertex ∈ vertices.map Prod.fst) :
    (setValue vertex value vertices).map Prod.fst = vertices.map Prod.fst := by
  induction vertices with
  | nil => cases h
  | cons entry rest ih =>
    by_cases heq : entry.1 = vertex
    · simp [setValue, heq]
    · rw [List.map_cons, List.mem_cons] at h
      rw [setValue, if_neg heq, List.map_cons, List.map_cons,
        ih (h.resolve_left (Ne.symm heq))]

theorem setValue_of_notMem {vertices : List (K × V)} (h : vertex ∉ vertices.map Prod.fst) :
    setValue vertex value vertices = vertices ++ [(vertex, value)] := by
  induction vertices with
  | nil => rfl
  | cons entry rest ih =>
    rw [List.map_cons, List.mem_cons, not_or] at h
    rw [setValue, if_neg (Ne.symm h.1), ih h.2, List.cons_append]

theorem mem_keys_addVertex :
    other ∈ (self.addVertex vertex value).vertices.map Prod.fst ↔
      other ∈ self.vertices.map Prod.fst ∨ other = vertex := by
  unfold addVertex
  by_cases hmem : vertex ∈ self.vertices.map Prod.fst
  · rw [keys_setValue_of_mem hmem]
    constructor
    · exact Or.inl
    · intro h
      rcases h with h | rfl
      · exact h
      · exact hmem
  · rw [setValue_of_notMem hmem, List.map_append, List.mem_append]
    simp

theorem WellFormed.addVertex (h : self.WellFormed) (vertex : K) (value : V) :
    (self.addVertex vertex value).WellFormed where
  distinct := by
    unfold Topology.addVertex
    by_cases hmem : vertex ∈ self.vertices.map Prod.fst
    · rw [keys_setValue_of_mem hmem]
      exact h.distinct
    · rw [setValue_of_notMem hmem, List.map_append]
      exact h.distinct.append (List.nodup_singleton vertex) (by simpa using hmem)
  ends := by
    intro edge hedge
    obtain ⟨hfirst, hsecond⟩ := h.ends edge hedge
    exact ⟨mem_keys_addVertex.mpr (Or.inl hfirst), mem_keys_addVertex.mpr (Or.inl hsecond)⟩

end Vertices

section Edges
variable [DecidableEq K] [Inhabited V]

/-- A vertex that an edge mentions is added with the default value, if it is missing. -/
def mention (self : Topology V E K) (vertex : K) : Topology V E K :=
  if self.containsVertex vertex then self else self.addVertex vertex default

def addEdge (self : Topology V E K) (edge : K × K × E) : Topology V E K :=
  let self := (self.mention edge.1).mention edge.2.1
  { self with edges := self.edges ++ [edge] }

def fromEdges (edges : List (K × K × E)) : Topology V E K := edges.foldl addEdge new

variable {self : Topology V E K} {vertex other : K}

theorem WellFormed.mention (h : self.WellFormed) (vertex : K) :
    (self.mention vertex).WellFormed := by
  unfold Topology.mention
  by_cases hmem : self.containsVertex vertex = true
  · rw [if_pos hmem]
    exact h
  · rw [if_neg hmem]
    exact h.addVertex vertex default

theorem mem_keys_mention :
    other ∈ (self.mention vertex).vertices.map Prod.fst ↔
      other ∈ self.vertices.map Prod.fst ∨ other = vertex := by
  unfold mention
  by_cases hmem : self.containsVertex vertex = true
  · rw [if_pos hmem]
    constructor
    · exact Or.inl
    · intro h
      rcases h with h | rfl
      · exact h
      · exact containsVertex_iff.mp hmem
  · rw [if_neg hmem]
    exact mem_keys_addVertex

theorem edges_mention (self : Topology V E K) (vertex : K) :
    (self.mention vertex).edges = self.edges := by
  unfold mention
  by_cases hmem : self.containsVertex vertex = true <;> simp [hmem, addVertex]

theorem edges_addEdge (self : Topology V E K) (edge : K × K × E) :
    (self.addEdge edge).edges = self.edges ++ [edge] := by
  show ((self.mention edge.1).mention edge.2.1).edges ++ [edge] = _
  rw [edges_mention, edges_mention]

theorem WellFormed.addEdge (h : self.WellFormed) (edge : K × K × E) :
    (self.addEdge edge).WellFormed where
  distinct := ((h.mention edge.1).mention edge.2.1).distinct
  ends := by
    intro other hother
    have hmentioned := (h.mention edge.1).mention edge.2.1
    rcases List.mem_append.mp hother with hold | hnew
    · exact hmentioned.ends other hold
    · obtain rfl := List.mem_singleton.mp hnew
      exact ⟨mem_keys_mention.mpr (Or.inl (mem_keys_mention.mpr (Or.inr rfl))),
        mem_keys_mention.mpr (Or.inr rfl)⟩

theorem wellFormed_fromEdges (edges : List (K × K × E)) :
    (fromEdges edges : Topology V E K).WellFormed := by
  unfold fromEdges
  induction edges using List.reverseRecOn with
  | nil => exact wellFormed_new
  | append_singleton edges edge ih =>
    rw [List.foldl_concat]
    exact ih.addEdge edge

theorem edges_fromEdges (edges : List (K × K × E)) :
    (fromEdges edges : Topology V E K).edges = edges := by
  unfold fromEdges
  induction edges using List.reverseRecOn with
  | nil => rfl
  | append_singleton edges edge ih => rw [List.foldl_concat, edges_addEdge, ih]

end Edges

end Topology

/-- The options of a router; there are none yet. -/
structure RouterOptions where
deriving DecidableEq, Inhabited

structure NetworkTopologyVertex where
  routerOptions : RouterOptions
  processConfig : ProcessConfig
deriving DecidableEq

instance : Inhabited NetworkTopologyVertex := ⟨⟨default, ProcessConfig.default⟩⟩

structure NetworkTopologyEdge where
  sessionConfigs : SessionConfig × SessionConfig
  linkBufferSize : BitVec 32
deriving DecidableEq

abbrev NetworkTopology := Topology NetworkTopologyVertex NetworkTopologyEdge Uuid

namespace NetworkTopology

/-- The identifier of the new router is a fresh one. -/
def addRouter (self : NetworkTopology) (fresh : Uuid) (routerOptions : RouterOptions)
    (processConfig : ProcessConfig) : NetworkTopology :=
  self.addVertex fresh ⟨routerOptions, processConfig⟩

def addConnection (self : NetworkTopology) (vertex1Id vertex2Id : Uuid)
    (sessionConfigs : SessionConfig × SessionConfig) (linkBufferSize : BitVec 32) :
    NetworkTopology :=
  self.addEdge (vertex1Id, vertex2Id, ⟨sessionConfigs, linkBufferSize⟩)

/-- One operation on a network topology, or on the topology inside it. -/
inductive Op
  | addRouter (fresh : Uuid) (routerOptions : RouterOptions) (processConfig : ProcessConfig)
  | addConnection (vertex1Id vertex2Id : Uuid) (sessionConfigs : SessionConfig × SessionConfig)
      (linkBufferSize : BitVec 32)
  | addVertex (vertex : Uuid) (value : NetworkTopologyVertex)
  | addEdge (edge : Uuid × Uuid × NetworkTopologyEdge)
  | fromEdges (edges : List (Uuid × Uuid × NetworkTopologyEdge))

def apply (self : NetworkTopology) : Op → NetworkTopology
  | .addRouter fresh routerOptions processConfig =>
    addRouter self fresh routerOptions processConfig
  | .addConnection vertex1Id vertex2Id sessionConfigs linkBufferSize =>
    addConnection self vertex1Id vertex2Id sessionConfigs linkBufferSize
  | .addVertex vertex value => Topology.addVertex self vertex value
  | .addEdge edge => Topology.addEdge self edge
  | .fromEdges edges => Topology.fromEdges edges

def build (ops : List Op) : NetworkTopology := ops.foldl apply Topology.new

theorem wellFormed_build (ops : List Op) : (build ops).WellFormed := by
  unfold build
  induction ops using List.reverseRecOn with
  | nil => exact Topology.wellFormed_new
  | append_singleton ops op ih =>
    rw [List.foldl_concat]
    cases op with
    | addRouter fresh routerOptions processConfig => exact ih.addVertex fresh _
    | addConnection vertex1Id vertex2Id sessionConfigs linkBufferSize => exact ih.addEdge _
    | addVertex vertex value => exact ih.addVertex vertex value
    | addEdge edge => exact ih.addEdge edge
    | fromEdges edges => exact Topology.wellFormed_fromEdges edges

end NetworkTopology

end NetfabricBgp.Topologies
