import Mathlib.Data.List.Induction

/-!
The ends of edges at a vertex, in the order of the edges. Without loops an edge has at most
one end at a vertex, so an end is found at the position given by the ends of the earlier
edges there, and at no other.
-/
namespace NetfabricBgp.Incidences

variable {K E : Type*}

inductive Side
  | first
  | second
deriving DecidableEq

def Side.other : Side → Side
  | .first => .second
  | .second => .first

theorem Side.other_other (side : Side) : side.other.other = side := by
  cases side <;> rfl

/-- An end of an edge: the number of the edge, which of its ends, and its label. -/
structure Incidence (E : Type*) where
  index : ℕ
  side : Side
  label : E

def endpoint (edge : K × K × E) : Side → K
  | .first => edge.1
  | .second => edge.2.1

variable [DecidableEq K]

def endsAt (vertex : K) (edge : K × K × E) (index : ℕ) : List (Incidence E) :=
  (if edge.1 = vertex then [⟨index, .first, edge.2.2⟩] else []) ++
    (if edge.2.1 = vertex then [⟨index, .second, edge.2.2⟩] else [])

def incidences (vertex : K) (edges : List (K × K × E)) : List (Incidence E) :=
  edges.zipIdx.flatMap (fun (edge, index) => endsAt vertex edge index)

variable {vertex : K} {edges : List (K × K × E)} {edge : K × K × E} {incidence : Incidence E}

theorem incidences_concat (vertex : K) (edges : List (K × K × E)) (edge : K × K × E) :
    incidences vertex (edges ++ [edge]) =
      incidences vertex edges ++ endsAt vertex edge edges.length := by
  simp [incidences, List.zipIdx_append]

section Ends
variable {index : ℕ}

theorem endsAt_endpoint (h : edge.1 ≠ edge.2.1) (side : Side) :
    endsAt (endpoint edge side) edge index = [⟨index, side, edge.2.2⟩] := by
  cases side with
  | first => simp [endsAt, endpoint, Ne.symm h]
  | second => simp [endsAt, endpoint, h]

theorem endsAt_of_ne (hfirst : edge.1 ≠ vertex) (hsecond : edge.2.1 ≠ vertex) :
    endsAt vertex edge index = [] := by
  simp [endsAt, hfirst, hsecond]

/-- Without loops, the ends of an edge at a vertex are one or none. -/
theorem endsAt_cases (h : edge.1 ≠ edge.2.1) (vertex : K) :
    endsAt vertex edge index = [] ∨
      ∃ side, endpoint edge side = vertex ∧
        endsAt vertex edge index = [⟨index, side, edge.2.2⟩] := by
  by_cases hfirst : edge.1 = vertex
  · right
    exact ⟨.first, hfirst, hfirst ▸ endsAt_endpoint h .first⟩
  · by_cases hsecond : edge.2.1 = vertex
    · right
      exact ⟨.second, hsecond, hsecond ▸ endsAt_endpoint h .second⟩
    · left
      exact endsAt_of_ne hfirst hsecond

end Ends

/-- The position of an edge's end at a vertex: the number of the ends there of earlier edges. -/
def position (vertex : K) (edges : List (K × K × E)) (index : ℕ) : ℕ :=
  (incidences vertex (edges.take index)).length

theorem position_concat_of_le {index : ℕ} (h : index ≤ edges.length) :
    position vertex (edges ++ [edge]) index = position vertex edges index := by
  unfold position
  rw [List.take_append_of_le_length h]

theorem position_length (vertex : K) (edges : List (K × K × E)) :
    position vertex edges edges.length = (incidences vertex edges).length := by
  rw [position, List.take_length]

/-- The end of an edge is found at its position. -/
theorem getElem?_position (hloops : ∀ edge ∈ edges, edge.1 ≠ edge.2.1) {index : ℕ}
    (hedge : edges[index]? = some edge) (side : Side) :
    (incidences (endpoint edge side) edges)[position (endpoint edge side) edges index]? =
      some ⟨index, side, edge.2.2⟩ := by
  induction edges using List.reverseRecOn with
  | nil => simp at hedge
  | append_singleton edges last ih =>
    obtain ⟨hlt, -⟩ := List.getElem?_eq_some_iff.mp hedge
    rw [List.length_append, List.length_singleton] at hlt
    have hle : index ≤ edges.length := by omega
    rw [incidences_concat, position_concat_of_le hle]
    rcases Nat.lt_or_eq_of_le hle with hold | rfl
    · rw [List.getElem?_append_left hold] at hedge
      have hfound := ih (fun edge hmem => hloops edge (List.mem_append_left _ hmem)) hedge
      obtain ⟨hpos, -⟩ := List.getElem?_eq_some_iff.mp hfound
      rw [List.getElem?_append_left hpos]
      exact hfound
    · rw [List.getElem?_concat_length, Option.some.injEq] at hedge
      subst hedge
      rw [endsAt_endpoint (hloops last (by simp)), position_length, List.getElem?_concat_length]

/-- Without loops, a position at a vertex belongs to one end of one edge. -/
theorem eq_position (hloops : ∀ edge ∈ edges, edge.1 ≠ edge.2.1) {p : ℕ}
    (h : (incidences vertex edges)[p]? = some incidence) :
    ∃ edge, edges[incidence.index]? = some edge ∧ endpoint edge incidence.side = vertex ∧
      incidence.label = edge.2.2 ∧ p = position vertex edges incidence.index := by
  induction edges using List.reverseRecOn with
  | nil => simp [incidences] at h
  | append_singleton edges last ih =>
    rw [incidences_concat] at h
    by_cases hp : p < (incidences vertex edges).length
    · rw [List.getElem?_append_left hp] at h
      obtain ⟨edge, hedge, hend, hlabel, hpos⟩ :=
        ih (fun edge hmem => hloops edge (List.mem_append_left _ hmem)) h
      obtain ⟨hlt, -⟩ := List.getElem?_eq_some_iff.mp hedge
      refine ⟨edge, ?_, hend, hlabel, ?_⟩
      · rw [List.getElem?_append_left hlt]
        exact hedge
      · rw [position_concat_of_le (Nat.le_of_lt hlt)]
        exact hpos
    · have hge : (incidences vertex edges).length ≤ p := by omega
      rw [List.getElem?_append_right hge] at h
      rcases endsAt_cases (hloops last (by simp)) vertex with hnone | ⟨side, hend, hone⟩
      · rw [hnone] at h
        cases h
      · rw [hone, List.getElem?_singleton] at h
        have hzero : p - (incidences vertex edges).length = 0 := by
          by_contra hne
          rw [if_neg hne] at h
          cases h
        rw [if_pos hzero, Option.some.injEq] at h
        subst h
        refine ⟨last, List.getElem?_concat_length, hend, rfl, ?_⟩
        show p = position vertex (edges ++ [last]) edges.length
        rw [position_concat_of_le (Nat.le_refl _), position_length]
        omega

end NetfabricBgp.Incidences
