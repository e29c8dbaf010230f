import Mathlib.Algebra.Group.Nat.Defs
import Mathlib.Data.List.Nodup
import Mathlib.Data.List.Forall2

/-!
Codecs between values and documents of numbers, texts, arrays and objects, each built from
the codecs of its parts. A record is read from an object by the names of its members, each
of which must stand there once, or from an array by position; a nullable member may be
missing from the object. What is read back is a fact about each value, so a codec may be
used where only some values have a text, or where some are read back as others.
-/
namespace NetfabricBgp.JsonCodecs

inductive Json
  | null
  | bool (value : Bool)
  | number (value : ℕ)
  | string (text : String)
  | array (items : List Json)
  | object (members : List (String × Json))

structure Codec (α : Type) where
  encode : α → Json
  decode : Json → Option α

/-- The members of a record: their names, and their values in the order of the names. -/
structure Members (α : Type) where
  names : List String
  encode : α → List Json
  decode : List Json → Option α
  length_encode : ∀ a, (encode a).length = names.length

variable {α β : Type}

namespace Codec

/-- The second value is read back from the document of the first. -/
def Reads (c : Codec α) (a b : α) : Prop := c.decode (c.encode a) = some b

def RoundTrips (c : Codec α) (a : α) : Prop := c.decode (c.encode a) = some a

def unsigned (w : ℕ) : Codec (BitVec w) where
  encode := fun value => .number value.toNat
  decode := fun
    | .number value => if value < 2 ^ w then some (BitVec.ofNat w value) else none
    | _ => none

def string : Codec String where
  encode := .string
  decode := fun
    | .string text => some text
    | _ => none

/-- A value that is written as a text and parsed from it. -/
def text (print : α → String) (parse : String → Option α) : Codec α where
  encode := fun a => .string (print a)
  decode := fun
    | .string text => parse text
    | _ => none

def list (c : Codec α) : Codec (List α) where
  encode := fun l => .array (l.map c.encode)
  decode := fun
    | .array items => items.mapM c.decode
    | _ => none

def pair (c : Codec α) (d : Codec β) : Codec (α × β) where
  encode := fun p => .array [c.encode p.1, d.encode p.2]
  decode := fun
    | .array [first, second] => do some (← c.decode first, ← d.decode second)
    | _ => none

def option (c : Codec α) : Codec (Option α) where
  encode := fun
    | none => .null
    | some a => c.encode a
  decode := fun
    | .null => some none
    | doc => (c.decode doc).map some

/-- One of two forms without a mark: the first that can be read is taken. -/
def either (c : Codec α) (d : Codec β) : Codec (α ⊕ β) where
  encode := Sum.elim c.encode d.encode
  decode := fun doc =>
    match c.decode doc with
    | some a => some (.inl a)
    | none => (d.decode doc).map .inr

def imap (c : Codec α) (f : α → β) (g : β → α) : Codec β where
  encode := fun b => c.encode (g b)
  decode := fun doc => (c.decode doc).map f

/-- The value of a name, which must stand in the object once. -/
def member (members : List (String × Json)) (name : String) : Option Json :=
  match members.filter (·.1 = name) with
  | [found] => some found.2
  | _ => none

def object (m : Members α) : Codec α where
  encode := fun a => .object (m.names.zip (m.encode a))
  decode := fun
    | .object members => (m.names.mapM (member members)).bind m.decode
    | .array items => m.decode items
    | _ => none

/-- An object with `null` for those of the names that it does not mention. -/
def fillNulls (names : List String) : Json → Json
  | .object members =>
    .object (members ++ (names.filter (· ∉ members.map Prod.fst)).map (·, .null))
  | doc => doc

/-- The members of these names may be missing from an object. -/
def nullable (names : List String) (c : Codec α) : Codec α where
  encode := c.encode
  decode := fun doc => c.decode (fillNulls names doc)

end Codec

namespace Members

def Reads (m : Members α) (a b : α) : Prop := m.decode (m.encode a) = some b

def RoundTrips (m : Members α) (a : α) : Prop := m.decode (m.encode a) = some a

def one (name : String) (c : Codec α) : Members α where
  names := [name]
  encode := fun a => [c.encode a]
  decode := fun
    | [value] => c.decode value
    | _ => none
  length_encode := fun _ => rfl

def cons (name : String) (c : Codec α) (rest : Members β) : Members (α × β) where
  names := name :: rest.names
  encode := fun p => c.encode p.1 :: rest.encode p.2
  decode := fun
    | value :: values => do some (← c.decode value, ← rest.decode values)
    | [] => none
  length_encode := fun p => congrArg (· + 1) (rest.length_encode p.2)

end Members

section Lists

theorem mapM_eq_some_of_forall₂ {f : α → Option β} {l : List α} {l' : List β}
    (h : List.Forall₂ (fun a b => f a = some b) l l') : l.mapM f = some l' := by
  induction h with
  | nil => rfl
  | cons hhead _ ih => simp [hhead, ih]

theorem mapM_map_eq_some {f : α → Option β} {g : β → α} {l : List β}
    (h : ∀ b ∈ l, f (g b) = some b) : (l.map g).mapM f = some l := by
  apply mapM_eq_some_of_forall₂
  rw [List.forall₂_map_left_iff]
  exact List.forall₂_same.mpr h

/-- With distinct names, each name finds the value that stands at its own position. -/
theorem member_zip {names : List String} {values : List Json} (hnames : names.Nodup)
    {name : String} {value : Json} (h : (name, value) ∈ names.zip values) :
    Codec.member (names.zip values) name = some value := by
  induction names generalizing values with
  | nil => simp at h
  | cons first names ih =>
    cases values with
    | nil => simp at h
    | cons other values =>
      obtain ⟨hfirst, hrest⟩ := List.nodup_cons.mp hnames
      rw [List.zip_cons_cons, List.mem_cons] at h
      rcases h with heq | hmem
      · obtain ⟨rfl, rfl⟩ := Prod.mk.inj heq
        have hnone : (names.zip values).filter (·.1 = name) = [] := by
          apply List.filter_eq_nil_iff.mpr
          intro p hp hname
          apply hfirst
          rw [← of_decide_eq_true hname]
          exact (List.of_mem_zip hp).1
        simp [Codec.member, hnone]
      · have hne : first ≠ name := by
          intro heq
          exact hfirst (heq ▸ (List.of_mem_zip hmem).1)
        have hskip : Codec.member ((first, other) :: names.zip values) name =
            Codec.member (names.zip values) name := by
          simp [Codec.member, hne]
        rw [List.zip_cons_cons, hskip]
        exact ih hrest hmem

theorem mapM_member_zip {names : List String} {values : List Json} (hnames : names.Nodup)
    (hlen : values.length = names.length) :
    names.mapM (Codec.member (names.zip values)) = some values := by
  apply mapM_eq_some_of_forall₂
  apply List.forall₂_iff_zip.mpr
  refine ⟨hlen.symm, ?_⟩
  intro name value h
  exact member_zip hnames h

end Lists

section RoundTrips
variable {c : Codec α} {d : Codec β} {a : α} {b : β}

theorem roundTrips_unsigned {w : ℕ} (value : BitVec w) : (Codec.unsigned w).RoundTrips value := by
  show (if value.toNat < 2 ^ w then some (BitVec.ofNat w value.toNat) else none) = some value
  rw [if_pos value.isLt, BitVec.ofNat_toNat, BitVec.setWidth_eq]

theorem roundTrips_string (text : String) : Codec.string.RoundTrips text := rfl

theorem roundTrips_text {print : α → String} {parse : String → Option α}
    (h : parse (print a) = some a) : (Codec.text print parse).RoundTrips a := h

theorem roundTrips_list {l : List α} (h : ∀ a ∈ l, c.RoundTrips a) : c.list.RoundTrips l :=
  mapM_map_eq_some h

theorem roundTrips_pair (ha : c.RoundTrips a) (hb : d.RoundTrips b) :
    (c.pair d).RoundTrips (a, b) := by
  show (do some (← c.decode (c.encode a), ← d.decode (d.encode b))) = some (a, b)
  rw [ha, hb]
  rfl

theorem roundTrips_inl (ha : c.RoundTrips a) : (c.either d).RoundTrips (.inl a) := by
  have h : c.decode (c.encode a) = some a := ha
  simp [Codec.RoundTrips, Codec.either, h]

/-- The second form is read back when the first form does not take it. -/
theorem roundTrips_inr (hb : d.RoundTrips b) (hfirst : c.decode (d.encode b) = none) :
    (c.either d).RoundTrips (.inr b) := by
  have h : d.decode (d.encode b) = some b := hb
  simp [Codec.RoundTrips, Codec.either, hfirst, h]

/-- An optional value is told from a missing one if no value is written as `null`. -/
theorem roundTrips_option {o : Option α} (h : ∀ a ∈ o, c.RoundTrips a)
    (hnull : ∀ a, c.encode a ≠ .null) : c.option.RoundTrips o := by
  cases o with
  | none => rfl
  | some a =>
    have ha : c.decode (c.encode a) = some a := h a rfl
    show c.option.decode (c.encode a) = some (some a)
    unfold Codec.option
    cases hdoc : c.encode a with
    | null => exact absurd hdoc (hnull a)
    | _ => simp [← hdoc, ha]

theorem reads_imap {f : α → β} {g : β → α} (h : c.Reads (g b) a) :
    (c.imap f g).Reads b (f a) := by
  show (c.decode (c.encode (g b))).map f = some (f a)
  rw [h, Option.map_some]

theorem roundTrips_imap {f : α → β} {g : β → α} (h : c.RoundTrips (g b)) (hfg : f (g b) = b) :
    (c.imap f g).RoundTrips b := by
  have hreads : (c.imap f g).Reads b (f (g b)) := reads_imap h
  rwa [hfg] at hreads

theorem roundTrips_one (name : String) (ha : c.RoundTrips a) :
    (Members.one name c).RoundTrips a := ha

theorem reads_cons (name : String) {rest : Members β} {a' : α} {b' : β} (ha : c.Reads a a')
    (hb : rest.Reads b b') : (Members.cons name c rest).Reads (a, b) (a', b') := by
  show (do some (← c.decode (c.encode a), ← rest.decode (rest.encode b))) = some (a', b')
  rw [ha, hb]
  rfl

theorem roundTrips_cons (name : String) {rest : Members β} (ha : c.RoundTrips a)
    (hb : rest.RoundTrips b) : (Members.cons name c rest).RoundTrips (a, b) :=
  reads_cons name ha hb

/-- A record with distinct member names is read from the object it is written as. -/
theorem reads_object {m : Members α} {a' : α} (hnames : m.names.Nodup) (h : m.Reads a a') :
    (Codec.object m).Reads a a' := by
  show (m.names.mapM (Codec.member (m.names.zip (m.encode a)))).bind m.decode = some a'
  rw [mapM_member_zip hnames (m.length_encode a)]
  exact h

theorem roundTrips_object {m : Members α} (hnames : m.names.Nodup) (h : m.RoundTrips a) :
    (Codec.object m).RoundTrips a :=
  reads_object hnames h

/-- Nothing is filled in where all members are written. -/
theorem fillNulls_encode {m : Members α} {names : List String} (h : names ⊆ m.names) (a : α) :
    Codec.fillNulls names ((Codec.object m).encode a) = (Codec.object m).encode a := by
  have hfst : (m.names.zip (m.encode a)).map Prod.fst = m.names :=
    List.map_fst_zip (Nat.le_of_eq (m.length_encode a).symm)
  have hnone : names.filter (· ∉ (m.names.zip (m.encode a)).map Prod.fst) = [] := by
    apply List.filter_eq_nil_iff.mpr
    intro name hname hmissing
    rw [hfst] at hmissing
    exact of_decide_eq_true hmissing (h hname)
  show Json.object (m.names.zip (m.encode a) ++
    (names.filter (· ∉ (m.names.zip (m.encode a)).map Prod.fst)).map (·, Json.null)) = _
  rw [hnone, List.map_nil, List.append_nil]
  rfl

theorem reads_nullable {m : Members α} {names : List String} {a' : α} (hsub : names ⊆ m.names)
    (h : (Codec.object m).Reads a a') : ((Codec.object m).nullable names).Reads a a' := by
  show (Codec.object m).decode (Codec.fillNulls names ((Codec.object m).encode a)) = some a'
  rw [fillNulls_encode hsub a]
  exact h

end RoundTrips

end NetfabricBgp.JsonCodecs
