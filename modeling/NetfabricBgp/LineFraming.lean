import Mathlib.Data.List.Basic

/-!
Lines of a stream. A line ends with the first element that a test accepts, and what comes
after the last such element is an open line. Complete lines taken off the front do not
change how the rest is cut, so a stream may be cut piece by piece.
-/
namespace NetfabricBgp.LineFraming

variable {α : Type*} (isEnd : α → Bool)

/-- The complete lines, each with its end, and the open line after them. -/
def lines : List α → List (List α) × List α
  | [] => ([], [])
  | a :: rest =>
    if isEnd a then ([a] :: (lines rest).1, (lines rest).2)
    else
      match lines rest with
      | ([], tail) => ([], a :: tail)
      | (line :: more, tail) => ((a :: line) :: more, tail)

def IsLine (line : List α) : Prop :=
  ∃ body last, line = body ++ [last] ∧ (∀ a ∈ body, isEnd a = false) ∧ isEnd last = true

variable {isEnd}

theorem lines_of_no_end {l : List α} (h : ∀ a ∈ l, isEnd a = false) : lines isEnd l = ([], l) := by
  induction l with
  | nil => rfl
  | cons a rest ih =>
    have ha := h a List.mem_cons_self
    have hrest := ih (fun b hb => h b (List.mem_cons_of_mem a hb))
    simp [lines, ha, hrest]

/-- The first line is cut off, and the rest is cut as if it stood alone. -/
theorem lines_line_append {line : List α} (h : IsLine isEnd line) (rest : List α) :
    lines isEnd (line ++ rest) = (line :: (lines isEnd rest).1, (lines isEnd rest).2) := by
  obtain ⟨body, last, rfl, hbody, hlast⟩ := h
  induction body with
  | nil => simp [lines, hlast]
  | cons a body ih =>
    have ha := hbody a List.mem_cons_self
    have hrest := ih (fun b hb => hbody b (List.mem_cons_of_mem a hb))
    rw [List.cons_append, List.cons_append, lines, if_neg (by simp [ha]), hrest]

theorem lines_flatten_append {complete : List (List α)} (h : ∀ line ∈ complete, IsLine isEnd line)
    (rest : List α) :
    lines isEnd (complete.flatten ++ rest) =
      (complete ++ (lines isEnd rest).1, (lines isEnd rest).2) := by
  induction complete with
  | nil => rfl
  | cons line more ih =>
    rw [List.flatten_cons, List.append_assoc, lines_line_append (h line List.mem_cons_self),
      ih (fun l hl => h l (List.mem_cons_of_mem line hl))]
    rfl

/-- A stream that is complete lines and then an open line is cut into just these. -/
theorem lines_of_complete {complete : List (List α)} (h : ∀ line ∈ complete, IsLine isEnd line)
    {tail : List α} (htail : ∀ a ∈ tail, isEnd a = false) :
    lines isEnd (complete.flatten ++ tail) = (complete, tail) := by
  rw [lines_flatten_append h, lines_of_no_end htail, List.append_nil]

theorem lines_spec (l : List α) :
    (∀ line ∈ (lines isEnd l).1, IsLine isEnd line) ∧
      (∀ a ∈ (lines isEnd l).2, isEnd a = false) ∧
        (lines isEnd l).1.flatten ++ (lines isEnd l).2 = l := by
  induction l with
  | nil => simp [lines]
  | cons a rest ih =>
    obtain ⟨hcomplete, htail, hflatten⟩ := ih
    cases ha : isEnd a with
    | true =>
      have hone : IsLine isEnd [a] := ⟨[], a, rfl, by simp, ha⟩
      rw [lines, if_pos ha]
      exact ⟨List.forall_mem_cons.mpr ⟨hone, hcomplete⟩, htail, congrArg (a :: ·) hflatten⟩
    | false =>
      rw [lines, if_neg (by simp [ha])]
      rcases hlines : lines isEnd rest with ⟨_ | ⟨line, more⟩, tail⟩
      · rw [hlines] at htail hflatten
        refine ⟨by simp, List.forall_mem_cons.mpr ⟨ha, htail⟩, congrArg (a :: ·) hflatten⟩
      · rw [hlines] at hcomplete htail hflatten
        obtain ⟨hline, hmore⟩ := List.forall_mem_cons.mp hcomplete
        obtain ⟨body, last, rfl, hbody, hlast⟩ := hline
        refine ⟨List.forall_mem_cons.mpr ⟨?_, hmore⟩, htail, congrArg (a :: ·) hflatten⟩
        exact ⟨a :: body, last, rfl, List.forall_mem_cons.mpr ⟨ha, hbody⟩, hlast⟩

/-- A stream cut piece by piece: the open line of the first piece goes before the second. -/
theorem lines_append (l l' : List α) :
    lines isEnd (l ++ l') = ((lines isEnd l).1 ++ (lines isEnd ((lines isEnd l).2 ++ l')).1,
      (lines isEnd ((lines isEnd l).2 ++ l')).2) := by
  obtain ⟨hcomplete, -, hflatten⟩ := @lines_spec _ isEnd l
  calc
    lines isEnd (l ++ l') =
        lines isEnd ((lines isEnd l).1.flatten ++ ((lines isEnd l).2 ++ l')) := by
      rw [← List.append_assoc, hflatten]
    _ = _ := lines_flatten_append hcomplete _

/-- The search for an end cuts off a line. -/
theorem isLine_of_findIdx? {l : List α} {pos : ℕ} (h : l.findIdx? isEnd = some pos) :
    IsLine isEnd (l.take (pos + 1)) := by
  obtain ⟨hlt, hend, hbefore⟩ := List.findIdx?_eq_some_iff_getElem.mp h
  refine ⟨l.take pos, l[pos], List.take_succ_eq_append_getElem hlt, ?_, hend⟩
  intro a ha
  obtain ⟨i, hi, rfl⟩ := List.mem_take_iff_getElem.mp ha
  have hpos : i < pos := by omega
  simpa using hbefore i hpos

end NetfabricBgp.LineFraming
