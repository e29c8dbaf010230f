import NetfabricBgp.RouterMasks
import NetfabricBgp.Routes

/-!
The entry stored for one prefix: tuples of a mask and a route, one tuple for all the
routers that hold the route. Inserting or withdrawing for the owner of one bit changes
the routes read through that bit and leaves those read through every other bit alone.
-/
namespace NetfabricBgp.RibEntries

open Addresses Routes RouterMasks

structure BgpRibEntry where
  routes : List (RouterMask × Route)
deriving DecidableEq

namespace BgpRibEntry

def new : BgpRibEntry := ⟨[]⟩

/-- The first tuple with this route takes the mask, or a new tuple is pushed. -/
def insertTuple (router : RouterMask) (route : Route) :
    List (RouterMask × Route) → List (RouterMask × Route)
  | [] => [(router, route)]
  | (mask, other) :: rest =>
    if other = route then (mask.combineWith router, other) :: rest
    else (mask, other) :: insertTuple router route rest

def insert (self : BgpRibEntry) (router : RouterMask) (route : Route) : BgpRibEntry :=
  ⟨insertTuple router route self.routes⟩

/-- Tuples with exactly this mask go; from the other matching tuples the mask is removed. -/
def withdraw (self : BgpRibEntry) (mask : RouterMask) (route : Route) : BgpRibEntry :=
  ⟨(self.routes.filter (fun tuple => !decide (mask = tuple.1 ∧ route.peer = tuple.2.peer ∧
      route.pfx = tuple.2.pfx))).map
    (fun tuple => if route.peer = tuple.2.peer ∧ route.pfx = tuple.2.pfx
      then (tuple.1.remove mask, tuple.2) else tuple)⟩

def getWithMask (self : BgpRibEntry) (router : RouterMask) : List Route :=
  (self.routes.filter (fun tuple => tuple.1.contains router)).map Prod.snd

def getAll (self : BgpRibEntry) : List Route := self.routes.map Prod.snd

def len (self : BgpRibEntry) : ℕ := self.routes.length

theorem len_eq_zero_iff {entry : BgpRibEntry} : entry.len = 0 ↔ entry.routes = [] :=
  List.length_eq_zero_iff

theorem key_eq_iff (route other : Route) :
    (route.peer = other.peer ∧ route.pfx = other.pfx) ↔ other.key = route.key := by
  simp only [Route.key, Prod.mk.injEq]
  constructor
  · intro h
    exact ⟨h.1.symm, h.2.symm⟩
  · intro h
    exact ⟨h.1.symm, h.2.symm⟩

/-- Nothing is read through the mask of an unregistered router. -/
theorem getWithMask_default (entry : BgpRibEntry) : entry.getWithMask RouterMask.default = [] := by
  simp [getWithMask, RouterMask.contains_default]

theorem getWithMask_subset_getAll {entry : BgpRibEntry} {router : RouterMask} {route : Route}
    (h : route ∈ entry.getWithMask router) : route ∈ entry.getAll := by
  obtain ⟨tuple, htuple, rfl⟩ := List.mem_map.mp h
  exact List.mem_map_of_mem (List.mem_filter.mp htuple).1

/-- With distinct routes, a route behind a split is not in front of it. -/
theorem notMem_takeWhile {entry : BgpRibEntry} (hdistinct : entry.getAll.Nodup)
    {p : RouterMask × Route → Bool} {route : Route}
    (h : route ∈ (BgpRibEntry.mk (entry.routes.dropWhile p)).getAll) :
    route ∉ (BgpRibEntry.mk (entry.routes.takeWhile p)).getAll := by
  intro htake
  have hsplit : entry.routes.takeWhile p ++ entry.routes.dropWhile p = entry.routes :=
    List.takeWhile_append_dropWhile
  rw [getAll, ← hsplit, List.map_append] at hdistinct
  exact List.disjoint_of_nodup_append hdistinct htake h

theorem getWithMask_cons {i : ℕ} (hi : i < 64) (tuple : RouterMask × Route)
    (rest : List (RouterMask × Route)) :
    (BgpRibEntry.mk (tuple :: rest)).getWithMask (.ofBit i) =
      (if tuple.1.has i = true then [tuple.2] else []) ++
        (BgpRibEntry.mk rest).getWithMask (.ofBit i) := by
  simp only [getWithMask, List.filter_cons, RouterMask.contains_ofBit _ hi]
  by_cases h : tuple.1.has i = true
  · simp [h]
  · simp [h]

theorem getWithMask_nil (router : RouterMask) : (BgpRibEntry.mk []).getWithMask router = [] := rfl

section Insert
variable {i j : ℕ} (hi : i < 64) (route : Route)
include hi

theorem getWithMask_insert_of_ne (hj : j < 64) (hne : i ≠ j) (entry : BgpRibEntry) :
    (entry.insert (.ofBit i) route).getWithMask (.ofBit j) = entry.getWithMask (.ofBit j) := by
  obtain ⟨routes⟩ := entry
  simp only [insert]
  induction routes with
  | nil => simp [insertTuple, getWithMask_cons hj, RouterMask.has_ofBit hi, hne]
  | cons tuple rest ih =>
    obtain ⟨mask, other⟩ := tuple
    by_cases heq : other = route
    · simp [insertTuple, heq, getWithMask_cons hj, RouterMask.has_combineWith_ofBit _ hi, hne]
    · simp only [insertTuple, heq, if_false, getWithMask_cons hj, ih]

theorem mem_getWithMask_insert (entry : BgpRibEntry) (x : Route) :
    x ∈ (entry.insert (.ofBit i) route).getWithMask (.ofBit i) ↔
      x ∈ entry.getWithMask (.ofBit i) ∨ x = route := by
  obtain ⟨routes⟩ := entry
  simp only [insert]
  induction routes with
  | nil => simp [insertTuple, getWithMask_cons hi, getWithMask_nil, RouterMask.has_ofBit hi]
  | cons tuple rest ih =>
    obtain ⟨mask, other⟩ := tuple
    by_cases heq : other = route
    · subst heq
      simp only [insertTuple, if_true, getWithMask_cons hi,
        RouterMask.has_combineWith_ofBit _ hi, decide_true, Bool.or_true, List.mem_append]
      by_cases hhas : mask.has i = true <;> simp [hhas, or_comm]
    · simp only [insertTuple, heq, if_false, getWithMask_cons hi, List.mem_append, ih, or_assoc]

/-- A route not yet read through the bit is read where its tuple stands, or at the end. -/
theorem getWithMask_insert_split {entry : BgpRibEntry} {route : Route}
    (hnot : route ∉ entry.getWithMask (.ofBit i)) :
    (entry.insert (.ofBit i) route).getWithMask (.ofBit i) =
      (BgpRibEntry.mk (entry.routes.takeWhile (·.2 ≠ route))).getWithMask (.ofBit i) ++
        route ::
          (BgpRibEntry.mk (entry.routes.dropWhile (·.2 ≠ route))).getWithMask (.ofBit i) := by
  obtain ⟨routes⟩ := entry
  simp only [insert]
  induction routes with
  | nil => simp [insertTuple, getWithMask_cons hi, getWithMask_nil, RouterMask.has_ofBit hi]
  | cons tuple rest ih =>
    obtain ⟨mask, other⟩ := tuple
    rw [getWithMask_cons hi, List.mem_append, not_or] at hnot
    by_cases heq : other = route
    · subst heq
      have hclear : mask.has i = false := by
        by_contra hset
        exact hnot.1 (by simp [hset])
      simp [insertTuple, getWithMask_cons hi, getWithMask_nil,
        RouterMask.has_combineWith_ofBit _ hi, hclear]
    · simp only [insertTuple, heq, if_false, getWithMask_cons hi, ih hnot.2, ne_eq,
        not_false_eq_true, decide_true, List.takeWhile_cons_of_pos, List.dropWhile_cons_of_pos,
        List.append_assoc]

/-- Inserting a route that is already read through the bit changes nothing. -/
theorem insert_of_mem {entry : BgpRibEntry} {route : Route} (hdistinct : entry.getAll.Nodup)
    (hmem : route ∈ entry.getWithMask (.ofBit i)) : entry.insert (.ofBit i) route = entry := by
  obtain ⟨routes⟩ := entry
  simp only [insert, BgpRibEntry.mk.injEq]
  induction routes with
  | nil => simp [getWithMask_nil] at hmem
  | cons tuple rest ih =>
    obtain ⟨mask, other⟩ := tuple
    obtain ⟨hnot, hrest⟩ := List.nodup_cons.mp hdistinct
    rw [getWithMask_cons hi, List.mem_append] at hmem
    by_cases heq : other = route
    · subst heq
      have hset : mask.has i = true := by
        by_contra hclear
        rcases hmem with hmem | hmem
        · simp [hclear] at hmem
        · exact hnot (getWithMask_subset_getAll hmem)
      simp [insertTuple, RouterMask.combineWith_ofBit_of_has hset]
    · have hmem' : route ∈ (BgpRibEntry.mk rest).getWithMask (.ofBit i) := by
        refine hmem.resolve_left ?_
        by_cases hset : mask.has i = true <;> simp [hset, Ne.symm heq]
      simp only [insertTuple, heq, if_false, ih hrest hmem']

end Insert

section Withdraw

/-- What a withdrawal does to one tuple. -/
def withdrawTuple (mask : RouterMask) (route : Route) (tuple : RouterMask × Route) :
    List (RouterMask × Route) :=
  if tuple.2.key = route.key then
    if mask = tuple.1 then [] else [(tuple.1.remove mask, tuple.2)]
  else [tuple]

theorem withdraw_cons (mask : RouterMask) (route : Route) (tuple : RouterMask × Route)
    (rest : List (RouterMask × Route)) :
    (BgpRibEntry.mk (tuple :: rest)).withdraw mask route =
      ⟨withdrawTuple mask route tuple ++ ((BgpRibEntry.mk rest).withdraw mask route).routes⟩ := by
  simp only [withdraw, withdrawTuple, key_eq_iff, BgpRibEntry.mk.injEq]
  by_cases hkey : tuple.2.key = route.key
  · by_cases hmask : mask = tuple.1
    · rw [List.filter_cons_of_neg (by simp [hkey, hmask])]
      simp [hkey, hmask]
    · rw [List.filter_cons_of_pos (by simp [hmask]), List.map_cons]
      simp [hkey, hmask]
  · rw [List.filter_cons_of_pos (by simp [hkey]), List.map_cons]
    simp [hkey]

theorem getWithMask_append (router : RouterMask) (l l' : List (RouterMask × Route)) :
    (BgpRibEntry.mk (l ++ l')).getWithMask router =
      (BgpRibEntry.mk l).getWithMask router ++ (BgpRibEntry.mk l').getWithMask router := by
  simp [getWithMask]

variable {i j : ℕ} (hi : i < 64) (route : Route)
include hi

theorem getWithMask_withdraw_of_ne (hj : j < 64) (hne : i ≠ j) (entry : BgpRibEntry) :
    (entry.withdraw (.ofBit i) route).getWithMask (.ofBit j) = entry.getWithMask (.ofBit j) := by
  obtain ⟨routes⟩ := entry
  induction routes with
  | nil => rfl
  | cons tuple rest ih =>
    rw [withdraw_cons, getWithMask_append, ih, getWithMask_cons hj, List.append_left_inj]
    by_cases hkey : tuple.2.key = route.key
    · by_cases hmask : RouterMask.ofBit i = tuple.1
      · simp [withdrawTuple, hkey, ← hmask, RouterMask.has_ofBit hi, hne, getWithMask_nil]
      · simp [withdrawTuple, hkey, hmask, getWithMask_cons hj, getWithMask_nil,
          RouterMask.has_remove_ofBit _ hi, hne]
    · simp [withdrawTuple, hkey, getWithMask_cons hj, getWithMask_nil]

theorem getWithMask_withdraw (entry : BgpRibEntry) :
    (entry.withdraw (.ofBit i) route).getWithMask (.ofBit i) =
      (entry.getWithMask (.ofBit i)).filter (fun x => x.key ≠ route.key) := by
  obtain ⟨routes⟩ := entry
  induction routes with
  | nil => rfl
  | cons tuple rest ih =>
    rw [withdraw_cons, getWithMask_append, ih, getWithMask_cons hi, List.filter_append,
      List.append_left_inj]
    by_cases hkey : tuple.2.key = route.key
    · by_cases hmask : RouterMask.ofBit i = tuple.1
      · simp [withdrawTuple, hkey, ← hmask, RouterMask.has_ofBit hi, getWithMask_nil]
      · by_cases hhas : tuple.1.has i = true <;>
          simp [withdrawTuple, hkey, hmask, getWithMask_cons hi, getWithMask_nil,
            RouterMask.has_remove_ofBit _ hi, hhas]
    · by_cases hhas : tuple.1.has i = true <;>
        simp [withdrawTuple, hkey, getWithMask_cons hi, getWithMask_nil, hhas]

theorem withdrawTuple_of_not_read {tuple : RouterMask × Route} {route : Route}
    (h : tuple.1.has i = true → tuple.2.key ≠ route.key) :
    withdrawTuple (.ofBit i) route tuple = [tuple] := by
  by_cases hkey : tuple.2.key = route.key
  · have hclear : tuple.1.has i = false := by
      by_contra hset
      exact h (by simpa using hset) hkey
    have hne : RouterMask.ofBit i ≠ tuple.1 := by
      intro hmask
      rw [← hmask, RouterMask.has_ofBit hi] at hclear
      simp at hclear
    simp [withdrawTuple, hkey, hne, RouterMask.remove_ofBit_of_not_has hi hclear]
  · simp [withdrawTuple, hkey]

/-- A withdrawal through a bit that reads no route of the key changes nothing. -/
theorem withdraw_of_not_read {entry : BgpRibEntry} {route : Route}
    (hnone : ∀ x ∈ entry.getWithMask (.ofBit i), x.key ≠ route.key) :
    entry.withdraw (.ofBit i) route = entry := by
  obtain ⟨routes⟩ := entry
  induction routes with
  | nil => rfl
  | cons tuple rest ih =>
    rw [getWithMask_cons hi] at hnone
    have hfirst : tuple.1.has i = true → tuple.2.key ≠ route.key :=
      fun hset => hnone tuple.2 (by simp [hset])
    have hrest := ih (fun x hx => hnone x (List.mem_append_right _ hx))
    rw [withdraw_cons, hrest, withdrawTuple_of_not_read hi hfirst]
    rfl

/-- A withdrawal undoes the insertion of a route whose key the bit did not read before. The
induction is on the tuples up to the one that takes the bit. -/
theorem withdraw_insert {entry : BgpRibEntry} {route : Route}
    (hheld : ∀ tuple ∈ entry.routes, tuple.1 ≠ RouterMask.default)
    (hnone : ∀ x ∈ entry.getWithMask (.ofBit i), x.key ≠ route.key) :
    (entry.insert (.ofBit i) route).withdraw (.ofBit i) route = entry := by
  obtain ⟨routes⟩ := entry
  simp only [insert]
  induction routes with
  | nil => simp [insertTuple, withdraw]
  | cons tuple rest ih =>
    obtain ⟨mask, other⟩ := tuple
    rw [getWithMask_cons hi] at hnone
    have hfirst : mask.has i = true → other.key ≠ route.key :=
      fun hset => hnone other (by simp [hset])
    have hrest : ∀ x ∈ (BgpRibEntry.mk rest).getWithMask (.ofBit i), x.key ≠ route.key :=
      fun x hx => hnone x (List.mem_append_right _ hx)
    by_cases heq : other = route
    · subst heq
      have hclear : mask.has i = false := by
        by_contra hset
        exact hfirst (by simpa using hset) rfl
      have hback := RouterMask.remove_combineWith_ofBit hi hclear
      -- the tuple has other holders, so its mask is not the withdrawn bit alone
      have hne : RouterMask.ofBit i ≠ mask.combineWith (.ofBit i) := by
        intro hmask
        obtain ⟨j, -, hj⟩ := RouterMask.exists_has (hheld (mask, other) (by simp))
        rw [← hback, ← hmask, RouterMask.has_remove_ofBit _ hi, RouterMask.has_ofBit hi] at hj
        simp at hj
      rw [insertTuple, if_pos rfl, withdraw_cons, withdraw_of_not_read hi hrest]
      simp [withdrawTuple, hne, hback]
    · have hih := ih (fun tuple ht => hheld tuple (List.mem_cons_of_mem _ ht)) hrest
      rw [insertTuple, if_neg heq, withdraw_cons, hih, withdrawTuple_of_not_read hi hfirst]
      rfl

end Withdraw

/-- What every stored entry satisfies: distinct routes of the entry's own prefix, each held
by at least one of the routers whose bits are in `used`. -/
structure WellFormed (network : IpNetwork) (used : RouterMask) (entry : BgpRibEntry) : Prop where
  distinct : entry.getAll.Nodup
  stored_at : ∀ tuple ∈ entry.routes, tuple.2.pfx = network
  held : ∀ tuple ∈ entry.routes, tuple.1 ≠ RouterMask.default
  registered : ∀ tuple ∈ entry.routes, ∀ j, tuple.1.has j = true → used.has j = true

section Preservation
variable {network : IpNetwork} {used : RouterMask} {entry : BgpRibEntry} {i : ℕ} {route : Route}

theorem wellFormed_new : new.WellFormed network used := by
  constructor <;> simp [new, getAll]

theorem WellFormed.mono {used' : RouterMask} (h : entry.WellFormed network used)
    (hsub : ∀ j, used.has j = true → used'.has j = true) : entry.WellFormed network used' :=
  ⟨h.distinct, h.stored_at, h.held, fun t ht j hj => hsub j (h.registered t ht j hj)⟩

theorem mem_insertTuple {router : RouterMask} {routes : List (RouterMask × Route)}
    {tuple : RouterMask × Route} (h : tuple ∈ insertTuple router route routes) :
    tuple ∈ routes ∨ tuple = (router, route) ∨
      ∃ mask, (mask, route) ∈ routes ∧ tuple = (mask.combineWith router, route) := by
  induction routes with
  | nil => exact Or.inr (Or.inl (by simpa [insertTuple] using h))
  | cons first rest ih =>
    obtain ⟨mask, other⟩ := first
    by_cases heq : other = route
    · subst heq
      simp only [insertTuple, if_true, List.mem_cons] at h
      rcases h with rfl | h
      · exact Or.inr (Or.inr ⟨mask, by simp, rfl⟩)
      · exact Or.inl (List.mem_cons_of_mem _ h)
    · simp only [insertTuple, heq, if_false, List.mem_cons] at h
      rcases h with rfl | h
      · exact Or.inl (by simp)
      · rcases ih h with h | h | ⟨m, hm, h⟩
        · exact Or.inl (List.mem_cons_of_mem _ h)
        · exact Or.inr (Or.inl h)
        · exact Or.inr (Or.inr ⟨m, List.mem_cons_of_mem _ hm, h⟩)

theorem getAll_insert (entry : BgpRibEntry) (router : RouterMask) (route : Route) :
    (entry.insert router route).getAll =
      if route ∈ entry.getAll then entry.getAll else entry.getAll ++ [route] := by
  obtain ⟨routes⟩ := entry
  simp only [insert, getAll]
  induction routes with
  | nil => rfl
  | cons first rest ih =>
    obtain ⟨mask, other⟩ := first
    by_cases heq : other = route
    · simp [insertTuple, heq]
    · have hne : route ≠ other := Ne.symm heq
      simp only [insertTuple, heq, if_false, List.map_cons, ih, List.mem_cons, hne, false_or]
      by_cases hmem : route ∈ rest.map Prod.snd
      · simp only [hmem, if_true]
      · simp only [hmem, if_false, List.cons_append]

theorem WellFormed.insert (h : entry.WellFormed network used) (hi : i < 64)
    (hused : used.has i = true) (hroute : route.pfx = network) :
    (entry.insert (.ofBit i) route).WellFormed network used where
  distinct := by
    rw [getAll_insert]
    by_cases hmem : route ∈ entry.getAll
    · simpa only [hmem, if_true] using h.distinct
    · simp only [hmem, if_false]
      exact h.distinct.append (by simp) (by simpa using hmem)
  stored_at := by
    intro tuple ht
    rcases mem_insertTuple ht with ht | rfl | ⟨mask, -, rfl⟩
    · exact h.stored_at tuple ht
    · exact hroute
    · exact hroute
  held := by
    intro tuple ht
    rcases mem_insertTuple ht with ht | rfl | ⟨mask, hmask, rfl⟩
    · exact h.held tuple ht
    · exact RouterMask.ofBit_ne_default hi
    · intro hzero
      have hbit := RouterMask.has_combineWith_ofBit mask (j := i) hi
      have hzero' : mask.combineWith (.ofBit i) = RouterMask.default := hzero
      rw [hzero'] at hbit
      simp [RouterMask.has, RouterMask.default] at hbit
  registered := by
    intro tuple ht j hj
    have hown : decide (i = j) = true → used.has j = true := by
      intro hij
      rw [← of_decide_eq_true hij]
      exact hused
    rcases mem_insertTuple ht with ht | rfl | ⟨mask, hmask, rfl⟩
    · exact h.registered tuple ht j hj
    · rw [RouterMask.has_ofBit hi] at hj
      exact hown hj
    · rw [RouterMask.has_combineWith_ofBit _ hi, Bool.or_eq_true] at hj
      rcases hj with hj | hj
      · exact h.registered _ hmask j hj
      · exact hown hj

theorem mem_withdraw {mask : RouterMask} {tuple : RouterMask × Route}
    (h : tuple ∈ (entry.withdraw mask route).routes) :
    ∃ old ∈ entry.routes, tuple.2 = old.2 ∧
      ((tuple.1 = old.1 ∧ old.2.key ≠ route.key) ∨
        (tuple.1 = old.1.remove mask ∧ old.1 ≠ mask ∧ old.2.key = route.key)) := by
  simp only [withdraw, key_eq_iff] at h
  obtain ⟨old, hold, rfl⟩ := List.mem_map.mp h
  obtain ⟨hmem, hkeep⟩ := List.mem_filter.mp hold
  by_cases hkey : old.2.key = route.key
  · have hne : mask ≠ old.1 := by simpa [hkey] using hkeep
    simp only [hkey, if_true]
    exact ⟨old, hmem, rfl, Or.inr ⟨rfl, Ne.symm hne, hkey⟩⟩
  · simp only [hkey, if_false]
    exact ⟨old, hmem, rfl, Or.inl ⟨rfl, hkey⟩⟩

theorem getAll_withdraw_sublist (entry : BgpRibEntry) (mask : RouterMask) (route : Route) :
    (entry.withdraw mask route).getAll.Sublist entry.getAll := by
  simp only [getAll, withdraw, List.map_map]
  have hsnd : Prod.snd ∘ (fun tuple : RouterMask × Route =>
      if route.peer = tuple.2.peer ∧ route.pfx = tuple.2.pfx
        then (tuple.1.remove mask, tuple.2) else tuple) = Prod.snd := by
    funext tuple
    by_cases h : route.peer = tuple.2.peer ∧ route.pfx = tuple.2.pfx <;> simp [h]
  rw [hsnd]
  exact List.filter_sublist.map _

/-- A mask that is neither empty nor the withdrawn bit keeps another bit. -/
theorem remove_ne_default {mask : RouterMask} (hi : i < 64) (hmask : mask ≠ RouterMask.default)
    (hne : mask ≠ .ofBit i) : mask.remove (.ofBit i) ≠ RouterMask.default := by
  intro hzero
  have honly : ∀ j, mask.has j = true → i = j := by
    intro j hj
    have hbit := RouterMask.has_remove_ofBit mask (j := j) hi
    rw [hzero, hj] at hbit
    simpa [RouterMask.has, RouterMask.default] using hbit
  obtain ⟨k, -, hk⟩ := RouterMask.exists_has hmask
  obtain rfl := honly k hk
  refine hne (RouterMask.eq_ofBit hi ?_)
  intro j
  constructor
  · exact honly j
  · intro hij
    rw [← hij]
    exact hk

theorem WellFormed.withdraw (h : entry.WellFormed network used) (hi : i < 64) :
    (entry.withdraw (.ofBit i) route).WellFormed network used where
  distinct := h.distinct.sublist (getAll_withdraw_sublist entry _ route)
  stored_at := by
    intro tuple ht
    obtain ⟨old, hold, hroute, -⟩ := mem_withdraw ht
    rw [hroute]
    exact h.stored_at old hold
  held := by
    intro tuple ht
    obtain ⟨old, hold, -, ⟨hmask, -⟩ | ⟨hmask, hne, -⟩⟩ := mem_withdraw ht
    · rw [hmask]
      exact h.held old hold
    · rw [hmask]
      exact remove_ne_default hi (h.held old hold) hne
  registered := by
    intro tuple ht j hj
    obtain ⟨old, hold, -, ⟨hmask, -⟩ | ⟨hmask, -, -⟩⟩ := mem_withdraw ht
    · rw [hmask] at hj
      exact h.registered old hold j hj
    · rw [hmask, RouterMask.has_remove_ofBit _ hi, Bool.and_eq_true] at hj
      exact h.registered old hold j hj.1

/-- A bit outside `used` reads nothing from a well-formed entry. -/
theorem WellFormed.getWithMask_unused (h : entry.WellFormed network used) (hi : i < 64)
    (hunused : used.has i = false) : entry.getWithMask (.ofBit i) = [] := by
  simp only [getWithMask, RouterMask.contains_ofBit _ hi, List.map_eq_nil_iff,
    List.filter_eq_nil_iff]
  intro tuple ht hhas
  have hused := h.registered tuple ht i hhas
  rw [hunused] at hused
  exact Bool.noConfusion hused

/-- Every tuple of a well-formed entry is read through some bit in use. -/
theorem WellFormed.exists_reader (h : entry.WellFormed network used) (hne : entry.routes ≠ []) :
    ∃ i, i < 64 ∧ used.has i = true ∧ entry.getWithMask (.ofBit i) ≠ [] := by
  obtain ⟨tuple, ht⟩ := List.exists_mem_of_ne_nil _ hne
  obtain ⟨i, hi, hhas⟩ := RouterMask.exists_has (h.held tuple ht)
  refine ⟨i, hi, h.registered tuple ht i hhas, ?_⟩
  apply List.ne_nil_of_mem (a := tuple.2)
  refine List.mem_map_of_mem (List.mem_filter.mpr ⟨ht, ?_⟩)
  rw [RouterMask.contains_ofBit _ hi]
  exact hhas

end Preservation

end BgpRibEntry

end NetfabricBgp.RibEntries
