import Mathlib.Data.List.Basic
import Mathlib.Data.List.Induction

/-!
The maximum of a list under a comparison that may tie distinct elements.
The fold keeps the later of two tied elements, as `Iterator::max` does, so the
answer is the last element that nothing exceeds. That description is proved once;
the effect of appending, filtering and inserting an element is read off from it.
-/
namespace NetfabricBgp.LastMaximum

variable {α : Type*} (cmp : α → α → Ordering)

/-- Dropping up to an element of a list of distinct ones leaves it at the head. -/
theorem dropWhile_ne_of_nodup {α : Type*} [DecidableEq α] {before after : List α} {x : α}
    (hdistinct : (before ++ x :: after).Nodup) :
    (before ++ x :: after).dropWhile (· ≠ x) = x :: after := by
  rw [List.dropWhile_append_of_pos]
  · simp
  · intro y hy
    have hne : y ≠ x := (List.nodup_append.mp hdistinct).2.2 y hy x (by simp)
    exact decide_eq_true hne

/-- One comparison of the fold: the candidate survives only a strictly smaller rival. -/
def later (best next : α) : α := if cmp best next = .gt then best else next

def lastMax : List α → Option α
  | [] => none
  | first :: rest => some (rest.foldl (later cmp) first)

/-- Nothing before `m` exceeds it, and it exceeds everything after it. -/
def IsLastMax (l : List α) (m : α) : Prop :=
  ∃ before after, l = before ++ m :: after ∧
    (∀ x ∈ before, (cmp x m).isLE) ∧ ∀ y ∈ after, cmp m y = .gt

theorem lastMax_eq_none {l : List α} : lastMax cmp l = none ↔ l = [] := by
  cases l <;> simp [lastMax]

theorem lastMax_append_singleton (l : List α) (y : α) :
    lastMax cmp (l ++ [y]) =
      some (match lastMax cmp l with | none => y | some m => later cmp m y) := by
  cases l with
  | nil => rfl
  | cons first rest => simp [lastMax, List.foldl_append]

theorem exists_lastMax {l : List α} (hl : l ≠ []) : ∃ m, lastMax cmp l = some m := by
  cases l with
  | nil => exact absurd rfl hl
  | cons first rest => exact ⟨_, rfl⟩

theorem isLastMax_append_of_gt {l : List α} {m y : α} (h : IsLastMax cmp l m)
    (hy : cmp m y = .gt) : IsLastMax cmp (l ++ [y]) m := by
  obtain ⟨before, after, rfl, hbefore, hafter⟩ := h
  refine ⟨before, after ++ [y], by simp, hbefore, ?_⟩
  intro z hz
  rcases List.mem_append.mp hz with hz | hz
  · exact hafter z hz
  · rw [List.mem_singleton.mp hz]
    exact hy

theorem isLastMax_append_self {l : List α} {y : α} (hy : ∀ x ∈ l, (cmp x y).isLE) :
    IsLastMax cmp (l ++ [y]) y :=
  ⟨l, [], rfl, hy, by simp⟩

section Transitive
variable [Std.TransCmp cmp]

theorem IsLastMax.isLE {cmp : α → α → Ordering} [Std.TransCmp cmp] {l : List α} {m x : α}
    (h : IsLastMax cmp l m) (hx : x ∈ l) : (cmp x m).isLE := by
  obtain ⟨before, after, rfl, hbefore, hafter⟩ := h
  rcases List.mem_append.mp hx with hx | hx
  · exact hbefore x hx
  · rcases List.mem_cons.mp hx with rfl | hx
    · exact Std.ReflCmp.isLE_rfl
    · have hlt : cmp x m = .lt := Std.OrientedCmp.lt_of_gt (hafter x hx)
      rw [hlt]
      rfl

/-- The fold finds the last maximum; the induction adds one element at the end. -/
theorem isLastMax_of_lastMax {l : List α} {m : α} (h : lastMax cmp l = some m) :
    IsLastMax cmp l m := by
  induction l using List.reverseRecOn generalizing m with
  | nil => simp [lastMax] at h
  | append_singleton l y ih =>
    rw [lastMax_append_singleton] at h
    cases hl : lastMax cmp l with
    | none =>
      rw [hl, Option.some.injEq] at h
      have hnil : l = [] := (lastMax_eq_none cmp).mp hl
      subst hnil h
      exact isLastMax_append_self cmp (by simp)
    | some best =>
      rw [hl, Option.some.injEq] at h
      have hbest : IsLastMax cmp l best := ih hl
      by_cases hgt : cmp best y = .gt
      · have hm : best = m := by simpa [later, hgt] using h
        subst hm
        exact isLastMax_append_of_gt cmp hbest hgt
      · have hm : y = m := by simpa [later, hgt] using h
        subst hm
        have hle : (cmp best y).isLE := Ordering.isLE_iff_ne_gt.mpr hgt
        exact isLastMax_append_self cmp
          (fun x hx => Std.TransCmp.isLE_trans (hbest.isLE hx) hle)

theorem IsLastMax.unique {cmp : α → α → Ordering} [Std.TransCmp cmp] {l : List α} {m m' : α}
    (h : IsLastMax cmp l m) (h' : IsLastMax cmp l m') : m = m' := by
  obtain ⟨before, after, hl, hbefore, hafter⟩ := h
  obtain ⟨before', after', hl', hbefore', hafter'⟩ := h'
  rw [hl] at hl'
  have contra : ∀ {x y : α}, cmp x y = .gt → (cmp x y).isLE → False :=
    fun hgt hle => Ordering.isLE_iff_ne_gt.mp hle hgt
  rcases List.append_eq_append_iff.mp hl' with ⟨mid, hpre, hpost⟩ | ⟨mid, hpre, hpost⟩
  · cases mid with
    | nil => exact (List.cons.inj hpost).1
    | cons x mid =>
      obtain ⟨rfl, rfl⟩ := List.cons.inj hpost
      exact (contra (hafter m' (by simp)) (hbefore' m (by simp [hpre]))).elim
  · cases mid with
    | nil => exact (List.cons.inj hpost).1.symm
    | cons x mid =>
      obtain ⟨rfl, rfl⟩ := List.cons.inj hpost
      exact (contra (hafter' m (by simp)) (hbefore m' (by simp [hpre]))).elim

theorem lastMax_eq_some_iff {l : List α} {m : α} :
    lastMax cmp l = some m ↔ IsLastMax cmp l m := by
  refine ⟨isLastMax_of_lastMax cmp, fun h => ?_⟩
  have hne : l ≠ [] := by
    obtain ⟨before, after, rfl, -⟩ := h
    simp
  obtain ⟨best, hbest⟩ := exists_lastMax cmp hne
  rw [hbest, (isLastMax_of_lastMax cmp hbest).unique h]

theorem lastMax_mem {l : List α} {m : α} (h : lastMax cmp l = some m) : m ∈ l := by
  obtain ⟨before, after, rfl, -⟩ := isLastMax_of_lastMax cmp h
  simp

theorem lastMax_isLE {l : List α} {m x : α} (h : lastMax cmp l = some m) (hx : x ∈ l) :
    (cmp x m).isLE :=
  (isLastMax_of_lastMax cmp h).isLE hx

/-- What neither exceeds nor ties is exceeded. -/
theorem gt_of_isLE_of_ne {x y : α} (hle : (cmp y x).isLE) (hne : cmp y x ≠ .eq) :
    cmp x y = .gt := by
  apply Std.OrientedCmp.gt_of_lt
  cases hcmp : cmp y x with
  | lt => rfl
  | eq => exact absurd hcmp hne
  | gt => exact absurd hcmp (Ordering.isLE_iff_ne_gt.mp hle)

/-- Lists with the same members, in whatever order, have maxima that tie. -/
theorem lastMax_tie {l l' : List α} {m m' : α} (hmem : ∀ x, x ∈ l ↔ x ∈ l')
    (h : lastMax cmp l = some m) (h' : lastMax cmp l' = some m') : cmp m' m = .eq := by
  have hle : (cmp m' m).isLE := lastMax_isLE cmp h ((hmem m').mpr (lastMax_mem cmp h'))
  have hge : (cmp m m').isLE := lastMax_isLE cmp h' ((hmem m).mp (lastMax_mem cmp h))
  exact Std.OrientedCmp.isLE_antisymm hle hge

/-- An appended element wins exactly when nothing already there exceeds it. -/
theorem lastMax_append_eq_self_iff {l : List α} {y : α} :
    lastMax cmp (l ++ [y]) = some y ↔ ∀ x ∈ l, (cmp x y).isLE := by
  constructor
  · intro h x hx
    exact lastMax_isLE cmp h (List.mem_append_left _ hx)
  · intro h
    exact (lastMax_eq_some_iff cmp).mpr (isLastMax_append_self cmp h)

/-- Deleting rivals does not dethrone the maximum. -/
theorem lastMax_filter {l : List α} {m : α} (p : α → Bool) (h : lastMax cmp l = some m)
    (hm : p m = true) : lastMax cmp (l.filter p) = some m := by
  obtain ⟨before, after, rfl, hbefore, hafter⟩ := isLastMax_of_lastMax cmp h
  refine (lastMax_eq_some_iff cmp).mpr ⟨before.filter p, after.filter p, ?_, ?_, ?_⟩
  · rw [List.filter_append, List.filter_cons_of_pos hm]
  · exact fun x hx => hbefore x (List.mem_filter.mp hx).1
  · exact fun y hy => hafter y (List.mem_filter.mp hy).1

/-- An inserted element takes the maximum or leaves it where it was. -/
theorem lastMax_insert_cases {before after : List α} {m y : α}
    (h : lastMax cmp (before ++ y :: after) = some m) :
    m = y ∨ lastMax cmp (before ++ after) = some m := by
  obtain ⟨pre, post, hl, hpre, hpost⟩ := isLastMax_of_lastMax cmp h
  rcases List.append_eq_append_iff.mp hl with ⟨mid, hb, ha⟩ | ⟨mid, hb, ha⟩
  · cases mid with
    | nil => exact Or.inl (List.cons.inj ha).1.symm
    | cons x mid =>
      obtain ⟨rfl, rfl⟩ := List.cons.inj ha
      refine Or.inr ((lastMax_eq_some_iff cmp).mpr ⟨before ++ mid, post, by simp, ?_, hpost⟩)
      intro z hz
      apply hpre
      rw [hb]
      rcases List.mem_append.mp hz with hz | hz <;> simp [hz]
  · cases mid with
    | nil => exact Or.inl (List.cons.inj ha).1
    | cons x mid =>
      obtain ⟨rfl, rfl⟩ := List.cons.inj ha
      refine Or.inr ((lastMax_eq_some_iff cmp).mpr
        ⟨pre, mid ++ after, by simp [hb], hpre, ?_⟩)
      intro z hz
      apply hpost
      rcases List.mem_append.mp hz with hz | hz <;> simp [hz]

/-- An inserted element that occurs nowhere else is the last maximum exactly when nothing
before it exceeds it and it exceeds everything after it. -/
theorem lastMax_insert_eq_self_iff {before after : List α} {y : α} (hbefore : y ∉ before)
    (hafter : y ∉ after) :
    lastMax cmp (before ++ y :: after) = some y ↔
      (∀ x ∈ before, (cmp x y).isLE) ∧ ∀ z ∈ after, cmp y z = .gt := by
  rw [lastMax_eq_some_iff]
  constructor
  · intro h
    obtain ⟨pre, post, hl, hpre, hpost⟩ := h
    rcases List.append_eq_append_iff.mp hl with ⟨mid, hb, ha⟩ | ⟨mid, hb, ha⟩
    · cases mid with
      | nil =>
        obtain rfl := (List.cons.inj ha).2
        rw [List.append_nil] at hb
        exact ⟨hb ▸ hpre, hpost⟩
      | cons x mid =>
        have hmem : y ∈ after := by
          rw [(List.cons.inj ha).2]
          simp
        exact absurd hmem hafter
    · cases mid with
      | nil =>
        obtain rfl := (List.cons.inj ha).2
        rw [List.append_nil] at hb
        exact ⟨hb ▸ hpre, hpost⟩
      | cons x mid =>
        have hmem : y ∈ before := by
          rw [hb, (List.cons.inj ha).1]
          simp
        exact absurd hmem hbefore
  · intro h
    exact ⟨before, after, rfl, h.1, h.2⟩

/-- A sublist of distinct elements keeps the maximum if it keeps that element. -/
theorem lastMax_of_sublist {l l' : List α} {m : α} (hdistinct : l.Nodup) (hsub : l'.Sublist l)
    (h : lastMax cmp l = some m) (hm : m ∈ l') : lastMax cmp l' = some m := by
  obtain ⟨before, after, rfl, hbefore, hafter⟩ := isLastMax_of_lastMax cmp h
  obtain ⟨-, hlast, hapart⟩ := List.nodup_append.mp hdistinct
  obtain ⟨pre, rest, rfl, hpre, hrest⟩ := List.sublist_append_iff.mp hsub
  rcases List.sublist_cons_iff.mp hrest with hrest | ⟨post, rfl, hpost⟩
  · exfalso
    rcases List.mem_append.mp hm with hm | hm
    · exact hapart m (hpre.subset hm) m (by simp) rfl
    · exact (List.nodup_cons.mp hlast).1 (hrest.subset hm)
  · exact (lastMax_eq_some_iff cmp).mpr ⟨pre, post, rfl, fun x hx => hbefore x (hpre.subset hx),
      fun y hy => hafter y (hpost.subset hy)⟩

/-- Among distinct elements the last maximum is the one that nothing exceeds and that no
element behind it ties with. -/
theorem lastMax_eq_some_iff_of_nodup [DecidableEq α] {l : List α} {m : α}
    (hdistinct : l.Nodup) :
    lastMax cmp l = some m ↔ m ∈ l ∧ (∀ x ∈ l, (cmp x m).isLE) ∧
      ∀ x ∈ l.dropWhile (· ≠ m), x ≠ m → cmp x m ≠ .eq := by
  constructor
  · intro h
    refine ⟨lastMax_mem cmp h, fun x hx => lastMax_isLE cmp h hx, ?_⟩
    obtain ⟨before, after, rfl, -, hafter⟩ := isLastMax_of_lastMax cmp h
    intro x hx hne heq
    rw [dropWhile_ne_of_nodup hdistinct] at hx
    have hgt := hafter x ((List.mem_cons.mp hx).resolve_left hne)
    rw [Std.OrientedCmp.eq_comm.mp heq] at hgt
    cases hgt
  · intro h
    obtain ⟨hm, hle, htie⟩ := h
    obtain ⟨before, after, rfl⟩ := List.append_of_mem hm
    rw [dropWhile_ne_of_nodup hdistinct] at htie
    refine (lastMax_eq_some_iff cmp).mpr ⟨before, after, rfl, fun x hx => hle x (by simp [hx]), ?_⟩
    intro y hy
    have hne : y ≠ m := by
      rintro rfl
      exact (List.nodup_cons.mp (List.nodup_append.mp hdistinct).2.1).1 hy
    exact gt_of_isLE_of_ne cmp (hle y (by simp [hy])) (htie y (List.mem_cons_of_mem m hy) hne)

end Transitive

end NetfabricBgp.LastMaximum
