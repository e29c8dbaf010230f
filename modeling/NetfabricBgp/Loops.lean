import Mathlib.Data.List.Basic

/-!
A loop that tests its state before each iteration. The inputs of the iterations are given
as a list, and each iteration leaves one entry in the log. A fact about an entry is
reduced to the state that its iteration met, and an invariant may speak of the inputs
used and of the log written so far.
-/
namespace NetfabricBgp.Loops

variable {σ ι ο : Type*}

def loop (halted : σ → Bool) (step : σ → ι → σ × ο) : σ → List ι → σ × List ο
  | s, [] => (s, [])
  | s, i :: rest =>
    if halted s then (s, [])
    else
      let (m, out) := step s i
      let (s', outs) := loop halted step m rest
      (s', out :: outs)

variable {halted : σ → Bool} {step : σ → ι → σ × ο}

theorem loop_of_halted {s : σ} (h : halted s = true) (l : List ι) :
    loop halted step s l = (s, []) := by
  cases l with
  | nil => rfl
  | cons i rest => rw [loop, if_pos h]

theorem loop_cons {s : σ} (h : halted s = false) (i : ι) (rest : List ι) :
    loop halted step s (i :: rest) =
      ((loop halted step (step s i).1 rest).1,
        (step s i).2 :: (loop halted step (step s i).1 rest).2) := by
  rw [loop, if_neg (by simp [h])]

theorem loop_append (s : σ) (l l' : List ι) :
    loop halted step s (l ++ l') =
      ((loop halted step (loop halted step s l).1 l').1,
        (loop halted step s l).2 ++ (loop halted step (loop halted step s l).1 l').2) := by
  induction l generalizing s with
  | nil => rfl
  | cons i rest ih =>
    cases h : halted s with
    | true => rw [loop_of_halted h, loop_of_halted h, loop_of_halted h, List.append_nil]
    | false =>
      rw [List.cons_append, loop_cons h, loop_cons h, ih]
      rfl

/-- An entry of the log was left by one iteration, which met a state that had not halted. -/
theorem log_eq_append_cons {s : σ} {l : List ι} {before after : List ο} {out : ο}
    (h : (loop halted step s l).2 = before ++ out :: after) :
    ∃ l₁ i l₂, l = l₁ ++ i :: l₂ ∧ (loop halted step s l₁).2 = before ∧
      halted (loop halted step s l₁).1 = false ∧ (step (loop halted step s l₁).1 i).2 = out ∧
        (loop halted step (step (loop halted step s l₁).1 i).1 l₂).2 = after := by
  induction l generalizing s before with
  | nil => simp [loop] at h
  | cons i rest ih =>
    cases hs : halted s with
    | true => simp [loop_of_halted hs] at h
    | false =>
      rw [loop_cons hs] at h
      cases before with
      | nil =>
        obtain ⟨hout, hafter⟩ := List.cons.inj h
        exact ⟨[], i, rest, rfl, rfl, hs, hout, hafter⟩
      | cons first before =>
        obtain ⟨hfirst, hrest⟩ := List.cons.inj h
        obtain ⟨l₁, j, l₂, rfl, hbefore, hhalted, hout, hafter⟩ := ih hrest
        refine ⟨i :: l₁, j, l₂, rfl, ?_, ?_, ?_, ?_⟩
        · rw [loop_cons hs, hfirst, hbefore]
        · rwa [loop_cons hs]
        · rwa [loop_cons hs]
        · rwa [loop_cons hs]

theorem mem_log_iff {s : σ} {l : List ι} {out : ο} :
    out ∈ (loop halted step s l).2 ↔ ∃ before i after, l = before ++ i :: after ∧
      halted (loop halted step s before).1 = false ∧
        (step (loop halted step s before).1 i).2 = out := by
  constructor
  · intro h
    obtain ⟨before, after, hlog⟩ := List.mem_iff_append.mp h
    obtain ⟨l₁, i, l₂, hl, -, hhalted, hout, -⟩ := log_eq_append_cons hlog
    exact ⟨l₁, i, l₂, hl, hhalted, hout⟩
  · intro h
    obtain ⟨before, i, after, rfl, hhalted, rfl⟩ := h
    rw [loop_append, loop_cons hhalted]
    simp

/-- A loop that has not halted has used all its inputs. -/
theorem length_log_of_running {s : σ} {l : List ι}
    (h : halted (loop halted step s l).1 = false) :
    (loop halted step s l).2.length = l.length := by
  induction l generalizing s with
  | nil => rfl
  | cons i rest ih =>
    cases hs : halted s with
    | true =>
      rw [loop_of_halted hs, hs] at h
      cases h
    | false =>
      rw [loop_cons hs] at h ⊢
      rw [List.length_cons, List.length_cons, ih h]

/-- A loop that has come to halt was halted by one iteration, its last. -/
theorem exists_last {s : σ} {l : List ι} (hs : halted s = false)
    (h : halted (loop halted step s l).1 = true) :
    ∃ before i after, l = before ++ i :: after ∧ halted (loop halted step s before).1 = false ∧
      loop halted step s l = ((step (loop halted step s before).1 i).1,
        (loop halted step s before).2 ++ [(step (loop halted step s before).1 i).2]) := by
  induction l generalizing s with
  | nil =>
    rw [loop, hs] at h
    cases h
  | cons i rest ih =>
    rw [loop_cons hs] at h
    cases hnext : halted (step s i).1 with
    | true =>
      refine ⟨[], i, rest, rfl, hs, ?_⟩
      rw [loop_cons hs, loop_of_halted hnext]
      rfl
    | false =>
      obtain ⟨before, j, after, rfl, hhalted, heq⟩ := ih hnext h
      refine ⟨i :: before, j, after, rfl, ?_, ?_⟩
      · rwa [loop_cons hs]
      · rw [loop_cons hs, heq, loop_cons hs]
        rfl

theorem history_from (Inv : σ → List ι → List ο → Prop)
    (hstep : ∀ s ins outs i, halted s = false → Inv s ins outs →
      Inv (step s i).1 (ins ++ [i]) (outs ++ [(step s i).2]))
    {s : σ} {ins : List ι} {outs : List ο} (hs : Inv s ins outs) (l : List ι) :
    Inv (loop halted step s l).1 (ins ++ l.take (loop halted step s l).2.length)
      (outs ++ (loop halted step s l).2) := by
  induction l generalizing s ins outs with
  | nil => simpa [loop] using hs
  | cons i rest ih =>
    cases h : halted s with
    | true => simpa [loop_of_halted h] using hs
    | false =>
      rw [loop_cons h]
      simpa using ih (hstep s ins outs i h hs)

/-- An invariant of the state, the inputs used and the log holds of the whole loop. -/
theorem history (Inv : σ → List ι → List ο → Prop)
    (hstep : ∀ s ins outs i, halted s = false → Inv s ins outs →
      Inv (step s i).1 (ins ++ [i]) (outs ++ [(step s i).2]))
    {s : σ} (hs : Inv s [] []) (l : List ι) :
    Inv (loop halted step s l).1 (l.take (loop halted step s l).2.length)
      (loop halted step s l).2 := history_from Inv hstep hs l

end NetfabricBgp.Loops
