import Mathlib.Data.List.Basic
import Mathlib.Data.List.Induction

/-!
Logs of additions and of retractions that name only a key. A retraction takes
away every earlier addition with its key, so an addition is live while no later
retraction has its key. The ordered contents of a log are computed by a fold and
shown to be its live additions. Under one key the live additions are the latest one
alone exactly when no two different additions share a stretch without retraction.
-/
namespace NetfabricBgp.KeyedLog

inductive Entry (α : Type*)
  | add (a : α)
  | retract (a : α)
deriving DecidableEq

variable {α κ : Type*}

def Entry.value : Entry α → α
  | .add a => a
  | .retract a => a

def Entry.map {β : Type*} (f : α → β) : Entry α → Entry β
  | .add a => .add (f a)
  | .retract a => .retract (f a)

def added (log : List (Entry α)) : List α :=
  log.filterMap (fun e => match e with
    | .add a => some a
    | .retract _ => none)

def retracted (log : List (Entry α)) : List α :=
  log.filterMap (fun e => match e with
    | .add _ => none
    | .retract a => some a)

@[simp]
theorem added_map_add (l : List α) : added (l.map .add) = l := by
  simp [added]

@[simp]
theorem added_map_retract (l : List α) : added (l.map .retract) = [] := by
  simp [added]

@[simp]
theorem retracted_map_add (l : List α) : retracted (l.map .add) = [] := by
  simp [retracted]

@[simp]
theorem retracted_map_retract (l : List α) : retracted (l.map .retract) = l := by
  simp [retracted]

theorem added_append (l l' : List (Entry α)) : added (l ++ l') = added l ++ added l' := by
  simp [added]

theorem retracted_append (l l' : List (Entry α)) :
    retracted (l ++ l') = retracted l ++ retracted l' := by
  simp [retracted]

theorem mem_added {log : List (Entry α)} {a : α} : a ∈ added log ↔ Entry.add a ∈ log := by
  unfold added
  rw [List.mem_filterMap]
  constructor
  · intro h
    obtain ⟨e, he, hadd⟩ := h
    cases e with
    | add b =>
      rw [← Option.some.inj hadd]
      exact he
    | retract b => cases hadd
  · intro h
    exact ⟨.add a, h, rfl⟩

theorem mem_retracted {log : List (Entry α)} {a : α} :
    a ∈ retracted log ↔ Entry.retract a ∈ log := by
  unfold retracted
  rw [List.mem_filterMap]
  constructor
  · intro h
    obtain ⟨e, he, hretract⟩ := h
    cases e with
    | add b => cases hretract
    | retract b =>
      rw [← Option.some.inj hretract]
      exact he
  · intro h
    exact ⟨.retract a, h, rfl⟩

variable (key : α → κ)

/-- Added, and not retracted since. -/
def Live (log : List (Entry α)) (a : α) : Prop :=
  ∃ before after, log = before ++ .add a :: after ∧
    ∀ w, Entry.retract w ∈ after → key w ≠ key a

/-- The most recent entry under its key, and an addition. -/
def Latest (log : List (Entry α)) (a : α) : Prop :=
  ∃ before after, log = before ++ .add a :: after ∧ ∀ e ∈ after, key e.value ≠ key a

/-- Additions under `k` with no retraction of `k` behind the first of them agree. -/
def Consistent (log : List (Entry α)) (k : κ) : Prop :=
  ∀ before x mid y after, log = before ++ .add x :: (mid ++ .add y :: after) →
    key x = k → key y = k → (∀ w, Entry.retract w ∈ mid ++ after → key w ≠ k) → x = y

theorem live_nil (a : α) : ¬ Live key [] a := by
  rintro ⟨before, after, h, -⟩
  cases before <;> simp at h

theorem last_entry_cases {log before after : List (Entry α)} {e f : Entry α}
    (h : log ++ [e] = before ++ f :: after) :
    (after = [] ∧ e = f ∧ log = before) ∨
      ∃ after', after = after' ++ [e] ∧ log = before ++ f :: after' := by
  rcases List.eq_nil_or_concat after with rfl | ⟨after', e', rfl⟩
  · obtain ⟨hlog, he⟩ := List.append_inj' h rfl
    exact Or.inl ⟨rfl, (List.cons.inj he).1, hlog⟩
  · rw [List.concat_eq_append] at h ⊢
    have h' : log ++ [e] = (before ++ f :: after') ++ [e'] := by simpa using h
    obtain ⟨hlog, he⟩ := List.append_inj' h' rfl
    obtain rfl : e = e' := (List.cons.inj he).1
    exact Or.inr ⟨after', rfl, hlog⟩

theorem live_append_add {log : List (Entry α)} {a b : α} :
    Live key (log ++ [.add b]) a ↔ Live key log a ∨ a = b := by
  constructor
  · rintro ⟨before, after, h, hafter⟩
    rcases last_entry_cases h with ⟨-, he, -⟩ | ⟨after', rfl, hlog⟩
    · exact Or.inr (Entry.add.inj he).symm
    · exact Or.inl ⟨before, after', hlog, fun w hw => hafter w (List.mem_append_left _ hw)⟩
  · rintro (⟨before, after, rfl, hafter⟩ | rfl)
    · refine ⟨before, after ++ [.add b], by simp, ?_⟩
      intro w hw
      rcases List.mem_append.mp hw with hw | hw
      · exact hafter w hw
      · simp at hw
    · exact ⟨log, [], rfl, by simp⟩

theorem live_append_retract {log : List (Entry α)} {a w : α} :
    Live key (log ++ [.retract w]) a ↔ Live key log a ∧ key w ≠ key a := by
  constructor
  · rintro ⟨before, after, h, hafter⟩
    rcases last_entry_cases h with ⟨-, he, -⟩ | ⟨after', rfl, hlog⟩
    · cases he
    · exact ⟨⟨before, after', hlog, fun v hv => hafter v (List.mem_append_left _ hv)⟩,
        hafter w (by simp)⟩
  · rintro ⟨⟨before, after, rfl, hafter⟩, hne⟩
    refine ⟨before, after ++ [.retract w], by simp, ?_⟩
    intro v hv
    rcases List.mem_append.mp hv with hv | hv
    · exact hafter v hv
    · obtain rfl : v = w := by simpa using hv
      exact hne

section Contents
variable [DecidableEq α] [DecidableEq κ]

/-- One entry processed on the ordered contents; an addition already kept stays in place. -/
def next (kept : List α) : Entry α → List α
  | .add a => if a ∈ kept then kept else kept ++ [a]
  | .retract w => kept.filter (fun a => key a ≠ key w)

theorem mem_next_add {kept : List α} {a b : α} :
    a ∈ next key kept (.add b) ↔ a ∈ kept ∨ a = b := by
  by_cases hb : b ∈ kept
  · simp only [next, hb, if_true]
    constructor
    · exact Or.inl
    · rintro (h | rfl)
      · exact h
      · exact hb
  · simp [next, hb]

theorem mem_next_retract {kept : List α} {a w : α} :
    a ∈ next key kept (.retract w) ↔ a ∈ kept ∧ key a ≠ key w := by
  simp [next]

/-- What a log leaves of contents it starts from, and what it adds to them. -/
theorem mem_foldl_next_iff {log : List (Entry α)} {kept : List α} {a : α} :
    a ∈ log.foldl (next key) kept ↔
      Live key log a ∨ (a ∈ kept ∧ ∀ w, Entry.retract w ∈ log → key w ≠ key a) := by
  induction log using List.reverseRecOn with
  | nil => simp [live_nil]
  | append_singleton log e ih =>
    rw [List.foldl_append]
    cases e with
    | add b =>
      refine (mem_next_add key).trans ?_
      rw [ih, live_append_add]
      simp only [List.mem_append, List.mem_singleton, reduceCtorEq, or_false]
      exact or_right_comm
    | retract w =>
      refine (mem_next_retract key).trans ?_
      rw [ih, live_append_retract]
      simp only [List.mem_append, List.mem_singleton, Entry.retract.injEq]
      constructor
      · intro h
        obtain ⟨hlive | ⟨hkept, hlog⟩, hne⟩ := h
        · exact Or.inl ⟨hlive, Ne.symm hne⟩
        · refine Or.inr ⟨hkept, ?_⟩
          intro v hv
          rcases hv with hv | rfl
          · exact hlog v hv
          · exact Ne.symm hne
      · intro h
        rcases h with ⟨hlive, hne⟩ | ⟨hkept, hlog⟩
        · exact ⟨Or.inl hlive, Ne.symm hne⟩
        · exact ⟨Or.inr ⟨hkept, fun v hv => hlog v (Or.inl hv)⟩, Ne.symm (hlog w (Or.inr rfl))⟩

/-- A later log keeps what it does not retract. -/
theorem live_append {log more : List (Entry α)} {a : α} :
    Live key (log ++ more) a ↔
      Live key more a ∨ (Live key log a ∧ ∀ w, Entry.retract w ∈ more → key w ≠ key a) := by
  have hcontents : ∀ l : List (Entry α), a ∈ l.foldl (next key) [] ↔ Live key l a := by
    intro l
    simp [mem_foldl_next_iff]
  rw [← hcontents, List.foldl_append, mem_foldl_next_iff, hcontents]

theorem mem_contents_iff_live {log : List (Entry α)} {a : α} :
    a ∈ log.foldl (next key) [] ↔ Live key log a := by
  simp [mem_foldl_next_iff]

end Contents

section Batching

/-- All additions of a log before all its retractions. -/
def batched (log : List (Entry α)) : List (Entry α) :=
  (added log).map .add ++ (retracted log).map .retract

/-- An addition under `k` is live, or `k` was there from the start and is never retracted. -/
def Present (log : List (Entry α)) (start : Prop) (k : κ) : Prop :=
  (∃ a, Live key log a ∧ key a = k) ∨ (start ∧ ∀ w, Entry.retract w ∈ log → key w ≠ k)

theorem add_mem_of_live {log : List (Entry α)} {a : α} (h : Live key log a) :
    Entry.add a ∈ log := by
  obtain ⟨before, after, rfl, -⟩ := h
  simp

theorem live_of_not_retracted {log : List (Entry α)} {a : α} (h : Entry.add a ∈ log)
    (hlog : ∀ w, Entry.retract w ∈ log → key w ≠ key a) : Live key log a := by
  obtain ⟨before, after, rfl⟩ := List.append_of_mem h
  exact ⟨before, after, rfl, fun w hw => hlog w (by simp [hw])⟩

theorem add_mem_batched {log : List (Entry α)} {a : α} :
    Entry.add a ∈ batched log ↔ Entry.add a ∈ log := by
  simp [batched, mem_added]

theorem retract_mem_batched {log : List (Entry α)} {w : α} :
    Entry.retract w ∈ batched log ↔ Entry.retract w ∈ log := by
  simp [batched, mem_retracted]

theorem live_batched {log : List (Entry α)} {a : α} :
    Live key (batched log) a ↔
      Entry.add a ∈ log ∧ ∀ w, Entry.retract w ∈ log → key w ≠ key a := by
  constructor
  · intro h
    refine ⟨add_mem_batched.mp (add_mem_of_live key h), ?_⟩
    intro w hw
    obtain ⟨before, after, hsplit, hafter⟩ := h
    apply hafter
    -- The addition stands among the additions, so every retraction is behind it.
    rcases List.append_eq_append_iff.mp hsplit with ⟨mid, -, hmid⟩ | ⟨mid, -, hmid⟩
    · have hadd : Entry.add a ∈ (retracted log).map Entry.retract := by
        rw [hmid]
        simp
      simp at hadd
    · cases mid with
      | nil =>
        have hadd : Entry.add a ∈ (retracted log).map Entry.retract := by
          rw [← List.nil_append ((retracted log).map Entry.retract), ← hmid]
          simp
        simp at hadd
      | cons e mid =>
        obtain ⟨-, rfl⟩ := List.cons.inj hmid
        exact List.mem_append_right _ (List.mem_map_of_mem (mem_retracted.mpr hw))
  · intro h
    obtain ⟨hadd, hlog⟩ := h
    refine live_of_not_retracted key (add_mem_batched.mpr hadd) ?_
    intro w hw
    exact hlog w (retract_mem_batched.mp hw)

/-- Batching changes what is present exactly for the keys that are live and retracted in one
log. -/
theorem present_batched_iff {log : List (Entry α)} {start : κ → Prop} :
    (∀ k, Present key (batched log) (start k) k ↔ Present key log (start k) k) ↔
      ∀ k, ¬ ((∃ a, Live key log a ∧ key a = k) ∧ ∃ w, Entry.retract w ∈ log ∧ key w = k) := by
  constructor
  · intro h k hboth
    obtain ⟨hlive, w, hw, hkey⟩ := hboth
    rcases (h k).mpr (Or.inl hlive) with ⟨a, ha, hak⟩ | ⟨-, hnone⟩
    · exact ((live_batched key).mp ha).2 w hw (hkey.trans hak.symm)
    · exact hnone w (retract_mem_batched.mpr hw) hkey
  · intro h k
    by_cases hretract : ∃ w, Entry.retract w ∈ log ∧ key w = k
    · obtain ⟨w, hw, hkey⟩ := hretract
      have hnot : ¬ Present key log (start k) k := by
        intro hpresent
        rcases hpresent with hlive | ⟨-, hnone⟩
        · exact h k ⟨hlive, w, hw, hkey⟩
        · exact hnone w hw hkey
      refine iff_of_false ?_ hnot
      intro hpresent
      rcases hpresent with ⟨a, ha, hak⟩ | ⟨-, hnone⟩
      · exact ((live_batched key).mp ha).2 w hw (hkey.trans hak.symm)
      · exact hnone w (retract_mem_batched.mpr hw) hkey
    · have hnone : ∀ w, Entry.retract w ∈ log → key w ≠ k :=
        fun w hw hkey => hretract ⟨w, hw, hkey⟩
      have hlive : ∀ a, key a = k → (Live key (batched log) a ↔ Live key log a) := by
        rintro a rfl
        rw [live_batched]
        exact ⟨fun ha => live_of_not_retracted key ha.1 ha.2,
          fun ha => ⟨add_mem_of_live key ha, hnone⟩⟩
      refine or_congr (exists_congr fun a => and_congr_left (hlive a)) ?_
      exact and_congr_right fun _ => forall_congr' fun w => by rw [retract_mem_batched]

/-- Whether an addition under `k` is live depends only on the kinds of the entries and on
which of them have the key `k`. -/
theorem exists_live_iff_map [DecidableEq κ] {log : List (Entry α)} {k : κ} :
    (∃ a, Live key log a ∧ key a = k) ↔
      Live (fun x => x) (log.map (Entry.map (fun a => decide (key a = k)))) true := by
  constructor
  · intro h
    obtain ⟨a, ⟨before, after, rfl, hafter⟩, rfl⟩ := h
    refine ⟨before.map (Entry.map (fun b => decide (key b = key a))),
      after.map (Entry.map (fun b => decide (key b = key a))), by simp [Entry.map], ?_⟩
    intro here hhere
    obtain ⟨e, he, hek⟩ := List.mem_map.mp hhere
    cases e with
    | add b => cases hek
    | retract w =>
      rw [← Entry.retract.inj hek]
      exact ne_true_of_eq_false (decide_eq_false (hafter w he))
  · intro h
    obtain ⟨before, after, hlog, hafter⟩ := h
    obtain ⟨l₁, l₂, rfl, rfl, hrest⟩ := List.map_eq_append_iff.mp hlog
    obtain ⟨e, l₃, rfl, he, rfl⟩ := List.map_eq_cons_iff.mp hrest
    cases e with
    | retract w => cases he
    | add a =>
      have hkey : key a = k := of_decide_eq_true (Entry.add.inj he)
      refine ⟨a, ⟨l₁, l₃, rfl, ?_⟩, hkey⟩
      intro w hw hwa
      refine hafter (decide (key w = k)) ?_ (decide_eq_true (hwa.trans hkey))
      exact List.mem_map_of_mem (f := Entry.map (fun a => decide (key a = k))) hw

end Batching

section Replacement

theorem live_of_latest {log : List (Entry α)} {a : α} (h : Latest key log a) :
    Live key log a := by
  obtain ⟨before, after, hlog, hafter⟩ := h
  exact ⟨before, after, hlog, fun w hw => hafter _ hw⟩

theorem latest_append_self (log : List (Entry α)) (a : α) : Latest key (log ++ [.add a]) a :=
  ⟨log, [], rfl, by simp⟩

theorem latest_append_of_ne {log : List (Entry α)} {a : α} {e : Entry α}
    (h : Latest key log a) (he : key e.value ≠ key a) : Latest key (log ++ [e]) a := by
  obtain ⟨before, after, rfl, hafter⟩ := h
  refine ⟨before, after ++ [e], by simp, ?_⟩
  intro f hf
  rcases List.mem_append.mp hf with hf | hf
  · exact hafter f hf
  · rw [List.mem_singleton.mp hf]
    exact he

theorem latest_unique {log : List (Entry α)} {a b : α} (ha : Latest key log a)
    (hb : Latest key log b) (hkey : key a = key b) : a = b := by
  obtain ⟨before, after, hlog, hafter⟩ := ha
  obtain ⟨before', after', hlog', hafter'⟩ := hb
  rw [hlog] at hlog'
  rcases List.append_eq_append_iff.mp hlog' with ⟨mid, -, h⟩ | ⟨mid, -, h⟩
  · cases mid with
    | nil => exact Entry.add.inj (List.cons.inj h).1
    | cons e mid =>
      obtain ⟨-, rfl⟩ := List.cons.inj h
      exact absurd hkey.symm (hafter (.add b) (by simp))
  · cases mid with
    | nil => exact (Entry.add.inj (List.cons.inj h).1).symm
    | cons e mid =>
      obtain ⟨-, rfl⟩ := List.cons.inj h
      exact absurd hkey (hafter' (.add a) (by simp))

/-- An entry that retracts nothing under `k` adds no new pair of additions to compare. -/
theorem consistent_of_append {log : List (Entry α)} {e : Entry α} {k : κ}
    (h : Consistent key (log ++ [e]) k) (he : ∀ w, e = .retract w → key w ≠ k) :
    Consistent key log k := by
  intro before x mid y after hlog hx hy hmid
  refine h before x mid y (after ++ [e]) (by simp [hlog]) hx hy ?_
  intro w hw
  rw [← List.append_assoc] at hw
  rcases List.mem_append.mp hw with hw | hw
  · exact hmid w hw
  · exact he w (List.mem_singleton.mp hw).symm

theorem latest_of_live {log : List (Entry α)} {a : α} (h : Consistent key log (key a))
    (ha : Live key log a) : Latest key log a := by
  induction log using List.reverseRecOn with
  | nil => exact absurd ha (live_nil key a)
  | append_singleton log e ih =>
    cases e with
    | add b =>
      by_cases hab : a = b
      · subst hab
        exact latest_append_self key log a
      · have hlive : Live key log a := ((live_append_add key).mp ha).resolve_right hab
        have hlatest := ih (consistent_of_append key h (by simp)) hlive
        refine latest_append_of_ne key hlatest ?_
        intro hkey
        obtain ⟨before, after, rfl, hafter⟩ := hlive
        refine hab (h before a after b [] (by simp) rfl hkey ?_)
        simpa using hafter
    | retract w =>
      obtain ⟨hlive, hne⟩ := (live_append_retract key).mp ha
      refine latest_append_of_ne key (ih (consistent_of_append key h ?_) hlive) hne
      intro v hv
      rw [← Entry.retract.inj hv]
      exact hne

/-- Live and latest additions under a key coincide exactly for consistent logs. -/
theorem consistent_iff {log : List (Entry α)} {k : κ} :
    Consistent key log k ↔ ∀ a, key a = k → (Live key log a ↔ Latest key log a) := by
  constructor
  · rintro h a rfl
    exact ⟨latest_of_live key h, live_of_latest key⟩
  · intro h before x mid y after hlog hx hy hmid
    have hlivex : Live key log x := by
      refine ⟨before, mid ++ .add y :: after, hlog, ?_⟩
      intro w hw
      rw [hx]
      apply hmid w
      rcases List.mem_append.mp hw with hw | hw
      · exact List.mem_append_left _ hw
      · exact List.mem_append_right _ (by simpa using hw)
    have hlivey : Live key log y := by
      refine ⟨before ++ .add x :: mid, after, by simp [hlog], ?_⟩
      intro w hw
      rw [hy]
      exact hmid w (List.mem_append_right _ hw)
    exact latest_unique key ((h x hx).mp hlivex) ((h y hy).mp hlivey) (hx.trans hy.symm)

end Replacement

end NetfabricBgp.KeyedLog
