import Mathlib.Logic.Basic
import Mathlib.Data.List.Induction

/-!
Whole runs of a fallible step function, with or without an output at each step.
Every fact about a run is reduced here to one fact about a step: an invariant,
a simulation by a total abstract step, and the absence of failure.
-/
namespace NetfabricBgp.Runs

variable {σ τ ι ε ο : Type*}

def run (step : σ → ι → Except ε σ) : σ → List ι → Except ε σ
  | s, [] => .ok s
  | s, i :: rest =>
    match step s i with
    | .error e => .error e
    | .ok s' => run step s' rest

/-- The outputs are kept in the order of the steps that made them. -/
def collect (step : σ → ι → Except ε (σ × Option ο)) : σ → List ι → Except ε (σ × List ο)
  | s, [] => .ok (s, [])
  | s, i :: rest =>
    match step s i with
    | .error e => .error e
    | .ok (s', out) =>
      match collect step s' rest with
      | .error e => .error e
      | .ok (s'', outs) => .ok (s'', out.toList ++ outs)

/-- The outputs of an abstract run, each computed from the state before its step. -/
def outputs (next : τ → ι → τ) (out : τ → ι → Option ο) : τ → List ι → List ο
  | _, [] => []
  | t, i :: rest => (out t i).toList ++ outputs next out (next t i) rest

theorem run_nil (step : σ → ι → Except ε σ) (s : σ) : run step s [] = .ok s := rfl

theorem run_cons (step : σ → ι → Except ε σ) (s : σ) (i : ι) (rest : List ι) :
    run step s (i :: rest) =
      match step s i with
      | .error e => .error e
      | .ok s' => run step s' rest := rfl

theorem collect_nil (step : σ → ι → Except ε (σ × Option ο)) (s : σ) :
    collect step s [] = .ok (s, []) := rfl

theorem collect_cons (step : σ → ι → Except ε (σ × Option ο)) (s : σ) (i : ι) (rest : List ι) :
    collect step s (i :: rest) =
      match step s i with
      | .error e => .error e
      | .ok (s', out) =>
        match collect step s' rest with
        | .error e => .error e
        | .ok (s'', outs) => .ok (s'', out.toList ++ outs) := rfl

theorem outputs_nil (next : τ → ι → τ) (out : τ → ι → Option ο) (t : τ) :
    outputs next out t [] = [] := rfl

theorem outputs_cons (next : τ → ι → τ) (out : τ → ι → Option ο) (t : τ) (i : ι)
    (rest : List ι) :
    outputs next out t (i :: rest) = (out t i).toList ++ outputs next out (next t i) rest := rfl

theorem map_eq_ok {α β : Type*} {f : α → β} {e : Except ε α} {b : β} :
    e.map f = .ok b ↔ ∃ a, e = .ok a ∧ f a = b := by
  cases e with
  | error e => simp [Except.map]
  | ok a => simp [Except.map]

section Plain
variable {step : σ → ι → Except ε σ}

theorem run_cons_ok {s s' : σ} {i : ι} {rest : List ι} :
    run step s (i :: rest) = .ok s' ↔ ∃ m, step s i = .ok m ∧ run step m rest = .ok s' := by
  cases h : step s i <;> simp [run_cons, h]

theorem run_append_ok {s s' : σ} {l l' : List ι} :
    run step s (l ++ l') = .ok s' ↔ ∃ m, run step s l = .ok m ∧ run step m l' = .ok s' := by
  induction l generalizing s with
  | nil => simp [run_nil]
  | cons i rest ih =>
    simp only [List.cons_append, run_cons_ok, ih]
    constructor
    · rintro ⟨m, hm, m', hm', hrest⟩
      exact ⟨m', ⟨m, hm, hm'⟩, hrest⟩
    · rintro ⟨m', ⟨m, hm, hm'⟩, hrest⟩
      exact ⟨m, hm, m', hm', hrest⟩

/-- A run goes on from where a first part of it has come. -/
theorem run_append_of_ok {s m : σ} {l : List ι} (h : run step s l = .ok m) (l' : List ι) :
    run step s (l ++ l') = run step m l' := by
  induction l generalizing s with
  | nil =>
    obtain rfl : s = m := Except.ok.inj h
    rfl
  | cons i rest ih =>
    obtain ⟨s', hi, hrest⟩ := run_cons_ok.mp h
    simp only [List.cons_append, run_cons, hi, ih hrest]

/-- A run ends with the first step that fails. -/
theorem run_append_cons_error {s m : σ} {l : List ι} {i : ι} {e : ε} (h : run step s l = .ok m)
    (hi : step m i = .error e) (rest : List ι) : run step s (l ++ i :: rest) = .error e := by
  induction l generalizing s with
  | nil =>
    obtain rfl : s = m := Except.ok.inj h
    simp only [List.nil_append, run_cons, hi]
  | cons j l ih =>
    obtain ⟨s', hj, hrest⟩ := run_cons_ok.mp h
    simp only [List.cons_append, run_cons, hj, ih hrest]

theorem run_invariant (Inv : σ → Prop)
    (hstep : ∀ s i s', Inv s → step s i = .ok s' → Inv s') {s s' : σ} {l : List ι}
    (hs : Inv s) (h : run step s l = .ok s') : Inv s' := by
  induction l generalizing s with
  | nil =>
    obtain rfl : s = s' := Except.ok.inj h
    exact hs
  | cons i rest ih =>
    obtain ⟨m, hm, hrest⟩ := run_cons_ok.mp h
    exact ih (hstep s i m hs hm) hrest

/-- A relation kept by matching steps relates the ends of matching runs. -/
theorem run_simulates (R : σ → τ → Prop) (next : τ → ι → τ)
    (hstep : ∀ s t i s', R s t → step s i = .ok s' → R s' (next t i))
    {s s' : σ} {t : τ} {l : List ι} (hs : R s t) (h : run step s l = .ok s') :
    R s' (l.foldl next t) := by
  induction l generalizing s t with
  | nil =>
    obtain rfl : s = s' := Except.ok.inj h
    exact hs
  | cons i rest ih =>
    obtain ⟨m, hm, hrest⟩ := run_cons_ok.mp h
    exact ih (hstep s t i m hs hm) hrest

/-- A run from the image of a state whose steps all have their image taken. -/
theorem run_image (image : τ → σ) (next : τ → ι → τ)
    (hstep : ∀ t i, step (image t) i = .ok (image (next t i))) (t : τ) (l : List ι) :
    run step (image t) l = .ok (image (l.foldl next t)) := by
  induction l generalizing t with
  | nil => rfl
  | cons i rest ih => exact run_cons_ok.mpr ⟨image (next t i), hstep t i, ih (next t i)⟩

/-- A property that a run brings about is brought about by one of its steps, after which
the run never loses it. -/
theorem run_enters (P : σ → Prop) {s s' : σ} {l : List ι} (hs : ¬ P s) (h : run step s l = .ok s')
    (hs' : P s') :
    ∃ l₁ i l₂ m m', l = l₁ ++ i :: l₂ ∧ run step s l₁ = .ok m ∧ ¬ P m ∧ step m i = .ok m' ∧
      P m' ∧ run step m' l₂ = .ok s' ∧
        ∀ l₃ l₄ m'', l₂ = l₃ ++ l₄ → run step m' l₃ = .ok m'' → P m'' := by
  induction l using List.reverseRecOn generalizing s' with
  | nil =>
    obtain rfl : s = s' := Except.ok.inj h
    exact absurd hs' hs
  | append_singleton l i ih =>
    obtain ⟨m, hm, hlast⟩ := run_append_ok.mp h
    obtain ⟨m', hi, hnil⟩ := run_cons_ok.mp hlast
    obtain rfl : m' = s' := Except.ok.inj hnil
    by_cases hP : P m
    · obtain ⟨l₁, j, l₂, a, b, rfl, ha, hna, hj, hb, hrest, hkept⟩ := ih hm hP
      refine ⟨l₁, j, l₂ ++ [i], a, b, by simp, ha, hna, hj, hb,
        run_append_ok.mpr ⟨m, hrest, hlast⟩, ?_⟩
      intro l₃ l₄ m'' hl hm''
      cases l₄ using List.reverseRecOn with
      | nil =>
        rw [List.append_nil] at hl
        subst hl
        obtain ⟨c, hc, hci⟩ := run_append_ok.mp hm''
        rw [hrest, Except.ok.injEq] at hc
        subst hc
        rw [hlast, Except.ok.injEq] at hci
        exact hci ▸ hs'
      | append_singleton l₄ k =>
        rw [← List.append_assoc] at hl
        exact hkept l₃ l₄ m'' (List.append_inj' hl rfl).1 hm''
    · refine ⟨l, i, [], m, m', rfl, hm, hP, hi, hs', rfl, ?_⟩
      intro l₃ l₄ m'' hl hm''
      obtain ⟨rfl, -⟩ := List.append_eq_nil_iff.mp hl.symm
      obtain rfl : m' = m'' := Except.ok.inj hm''
      exact hs'

/-- A run never fails when what it still has to do keeps every next step possible. -/
theorem run_reaches (Inv : σ → List ι → Prop)
    (hstep : ∀ s i rest, Inv s (i :: rest) → ∃ s', step s i = .ok s' ∧ Inv s' rest)
    {s : σ} {l : List ι} (hs : Inv s l) : ∃ s', run step s l = .ok s' ∧ Inv s' [] := by
  induction l generalizing s with
  | nil => exact ⟨s, rfl, hs⟩
  | cons i rest ih =>
    obtain ⟨m, hm, hinv⟩ := hstep s i rest hs
    obtain ⟨s', hs', hend⟩ := ih hinv
    exact ⟨s', run_cons_ok.mpr ⟨m, hm, hs'⟩, hend⟩

theorem run_total (Inv : σ → List ι → Prop)
    (hstep : ∀ s i rest, Inv s (i :: rest) → ∃ s', step s i = .ok s' ∧ Inv s' rest)
    {s : σ} {l : List ι} (hs : Inv s l) : ∃ s', run step s l = .ok s' := by
  obtain ⟨s', hs', -⟩ := run_reaches Inv hstep hs
  exact ⟨s', hs'⟩

end Plain

section Collecting
variable {step : σ → ι → Except ε (σ × Option ο)}

theorem collect_cons_ok {s s' : σ} {i : ι} {rest : List ι} {outs : List ο} :
    collect step s (i :: rest) = .ok (s', outs) ↔
      ∃ m out outs', step s i = .ok (m, out) ∧ collect step m rest = .ok (s', outs') ∧
        outs = out.toList ++ outs' := by
  rcases h : step s i with e | ⟨m, out⟩
  · simp [collect_cons, h]
  · rcases h' : collect step m rest with e | ⟨s'', outs'⟩
    · simp [collect_cons, h, h']
    · simp only [collect_cons, h, h', Except.ok.injEq, Prod.mk.injEq]
      constructor
      · rintro ⟨rfl, rfl⟩
        exact ⟨m, out, outs', ⟨rfl, rfl⟩, by rw [h'], rfl⟩
      · rintro ⟨m', out', outs'', ⟨rfl, rfl⟩, hrest, rfl⟩
        rw [h', Except.ok.injEq, Prod.mk.injEq] at hrest
        exact ⟨hrest.1, by rw [hrest.2]⟩

/-- An output was made by one step. -/
theorem collect_eq_append_cons {s s' : σ} {l : List ι} {before after : List ο} {o : ο}
    (h : collect step s l = .ok (s', before ++ o :: after)) :
    ∃ l₁ i l₂ m m', l = l₁ ++ i :: l₂ ∧ collect step s l₁ = .ok (m, before) ∧
      step m i = .ok (m', some o) ∧ collect step m' l₂ = .ok (s', after) := by
  induction l generalizing s before with
  | nil => simp [collect_nil] at h
  | cons i rest ih =>
    obtain ⟨m, out, outs, hi, hrest, heq⟩ := collect_cons_ok.mp h
    cases out with
    | none =>
      obtain rfl : before ++ o :: after = outs := heq
      obtain ⟨l₁, j, l₂, m₁, m₂, rfl, h₁, hj, h₂⟩ := ih hrest
      exact ⟨i :: l₁, j, l₂, m₁, m₂, rfl, collect_cons_ok.mpr ⟨m, none, before, hi, h₁, rfl⟩, hj,
        h₂⟩
    | some p =>
      cases before with
      | nil =>
        obtain ⟨rfl, rfl⟩ := List.cons.inj heq
        exact ⟨[], i, rest, s, m, rfl, rfl, hi, hrest⟩
      | cons first before =>
        obtain ⟨rfl, rfl⟩ := List.cons.inj heq
        obtain ⟨l₁, j, l₂, m₁, m₂, rfl, h₁, hj, h₂⟩ := ih hrest
        exact ⟨i :: l₁, j, l₂, m₁, m₂, rfl,
          collect_cons_ok.mpr ⟨m, some first, before, hi, h₁, rfl⟩, hj, h₂⟩

theorem collect_append (s : σ) (l l' : List ι) :
    collect step s (l ++ l') =
      match collect step s l with
      | .error e => .error e
      | .ok (m, outs) => (collect step m l').map (fun r => (r.1, outs ++ r.2)) := by
  induction l generalizing s with
  | nil => rcases h : collect step s l' with e | r <;> simp [collect_nil, h, Except.map]
  | cons i rest ih =>
    rcases hstep : step s i with e | ⟨m, out⟩
    · simp [collect_cons, hstep]
    · rcases hrest : collect step m rest with e | ⟨m', outs⟩
      · simp [collect_cons, hstep, ih, hrest]
      · rcases h : collect step m' l' with e | r <;>
          simp [collect_cons, hstep, ih, hrest, h, Except.map]

theorem collect_append_ok {s m s' : σ} {l l' : List ι} {outs outs' : List ο}
    (h : collect step s l = .ok (m, outs)) (h' : collect step m l' = .ok (s', outs')) :
    collect step s (l ++ l') = .ok (s', outs ++ outs') := by
  rw [collect_append, h]
  simp only [h', Except.map]

/-- Steps renamed, with their outputs, by two functions. -/
theorem collect_map {ι' ο' : Type*} {step' : σ → ι' → Except ε (σ × Option ο')} (f : ι → ι')
    (g : ο → ο') (h : ∀ s i, step' s (f i) = (step s i).map (fun r => (r.1, r.2.map g)))
    (s : σ) (l : List ι) :
    collect step' s (l.map f) = (collect step s l).map (fun r => (r.1, r.2.map g)) := by
  induction l generalizing s with
  | nil => rfl
  | cons i rest ih =>
    rcases hstep : step s i with e | ⟨m, out⟩
    · simp [collect_cons, h, hstep, Except.map]
    · rcases hrest : collect step m rest with e | ⟨s', outs⟩
      · simp [collect_cons, h, hstep, ih, hrest, Except.map]
      · cases out <;> simp [collect_cons, h, hstep, ih, hrest, Except.map]

/-- Dropping the outputs of a run leaves the run of the plain steps. -/
theorem run_map {ι' : Type*} {step' : σ → ι' → Except ε σ} (f : ι → ι')
    (h : ∀ s i, step' s (f i) = (step s i).map Prod.fst) (s : σ) (l : List ι) :
    run step' s (l.map f) = (collect step s l).map Prod.fst := by
  induction l generalizing s with
  | nil => rfl
  | cons i rest ih =>
    rcases hstep : step s i with e | ⟨m, out⟩
    · simp [run_cons, collect_cons, h, hstep, Except.map]
    · rcases hrest : collect step m rest with e | r <;>
        simp [run_cons, collect_cons, h, hstep, ih, hrest, Except.map]

/-- A simulation that never fails gives the whole run: its end and its outputs. -/
theorem collect_simulates (R : σ → τ → Prop) (next : τ → ι → τ) (out : τ → ι → Option ο)
    (hstep : ∀ s t i, R s t → ∃ s', step s i = .ok (s', out t i) ∧ R s' (next t i))
    {s : σ} {t : τ} (l : List ι) (hs : R s t) :
    ∃ s', collect step s l = .ok (s', outputs next out t l) ∧ R s' (l.foldl next t) := by
  induction l generalizing s t with
  | nil => exact ⟨s, rfl, hs⟩
  | cons i rest ih =>
    obtain ⟨m, hm, hR⟩ := hstep s t i hs
    obtain ⟨s', hrest, hR'⟩ := ih hR
    exact ⟨s', collect_cons_ok.mpr ⟨m, out t i, _, hm, hrest, rfl⟩, hR'⟩

end Collecting

section Outputs
variable {next : τ → ι → τ} {out : τ → ι → Option ο}

theorem outputs_append (t : τ) (l l' : List ι) :
    outputs next out t (l ++ l') =
      outputs next out t l ++ outputs next out (l.foldl next t) l' := by
  induction l generalizing t with
  | nil => rfl
  | cons i rest ih => simp [outputs_cons, ih, List.append_assoc]

/-- A position among the outputs belongs to one step, taken from the state it met. -/
theorem outputs_eq_append_cons {t : τ} {l : List ι} {before after : List ο} {o : ο} :
    outputs next out t l = before ++ o :: after ↔
      ∃ l₁ i l₂, l = l₁ ++ i :: l₂ ∧ outputs next out t l₁ = before ∧
        out (l₁.foldl next t) i = some o ∧
          outputs next out (next (l₁.foldl next t) i) l₂ = after := by
  constructor
  · intro h
    induction l generalizing t before with
    | nil => simp [outputs_nil] at h
    | cons i rest ih =>
      cases hout : out t i with
      | none =>
        obtain ⟨l₁, j, l₂, rfl, h₁, hj, h₂⟩ := ih (by simpa [outputs_cons, hout] using h)
        exact ⟨i :: l₁, j, l₂, rfl, by simpa [outputs_cons, hout] using h₁, hj, h₂⟩
      | some p =>
        simp only [outputs_cons, hout, Option.toList_some, List.singleton_append] at h
        cases before with
        | nil =>
          obtain ⟨rfl, hafter⟩ := List.cons.inj h
          exact ⟨[], i, rest, rfl, rfl, hout, hafter⟩
        | cons q before =>
          obtain ⟨rfl, hbefore⟩ := List.cons.inj h
          obtain ⟨l₁, j, l₂, rfl, h₁, hj, h₂⟩ := ih hbefore
          exact ⟨i :: l₁, j, l₂, rfl, by simpa [outputs_cons, hout] using h₁, hj, h₂⟩
  · intro h
    obtain ⟨l₁, i, l₂, rfl, rfl, hi, rfl⟩ := h
    rw [outputs_append]
    simp [outputs_cons, hi]

theorem mem_outputs_iff {t : τ} {l : List ι} {o : ο} :
    o ∈ outputs next out t l ↔
      ∃ before i after, l = before ++ i :: after ∧ out (before.foldl next t) i = some o := by
  rw [List.mem_iff_append]
  constructor
  · intro h
    obtain ⟨before, after, h⟩ := h
    obtain ⟨l₁, i, l₂, hl, -, hi, -⟩ := outputs_eq_append_cons.mp h
    exact ⟨l₁, i, l₂, hl, hi⟩
  · intro h
    obtain ⟨l₁, i, l₂, hl, hi⟩ := h
    exact ⟨_, _, outputs_eq_append_cons.mpr ⟨l₁, i, l₂, hl, rfl, hi, rfl⟩⟩

end Outputs

end NetfabricBgp.Runs
