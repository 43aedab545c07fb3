import Mathlib.Data.List.Perm.Basic
import ModelSurface.Json.Decode
import ModelSurface.Proofs.Json.Building
import ModelSurface.Proofs.Named

/-!
# Reading back what was written

What is written for a value is read as that value. The members of a structure stand in the order of
their names and not in that of its fields, and fields may be left out; as each of them is put in
its own place, the order does not matter, and one that is left out keeps its default.
-/

namespace ModelSurface.Json

open Document

variable {α β : Type} {n : ℕ}

/-- What was written for a value is proper, not too deep, and read as the value. -/
structure Recovers (n : ℕ) (read : Document → Decoded α) (json : Json) (a : α) : Prop where
  fits : json.Fits n
  read_eq : read (ofJson json) = .ok a

namespace Recovers

variable {read : Document → Decoded α} {json : Json} {a : α}

theorem string (n : ℕ) (s : String) : Recovers n Document.string (.str s) s :=
  ⟨⟨rfl, Nat.zero_le n⟩, rfl⟩

theorem boolean (n : ℕ) (b : Bool) : Recovers n Document.boolean (.bool b) b :=
  ⟨⟨rfl, Nat.zero_le n⟩, rfl⟩

theorem natural (n : ℕ) {k : ℕ} (h : k < 2 ^ 64) : Recovers n Document.natural (.ofNat k) k := by
  have hsigned : ¬ (k : ℤ) < 0 := by omega
  refine ⟨⟨decide_eq_true ⟨by omega, by omega⟩, Nat.zero_le n⟩, ?_⟩
  rw [ofNat, ofJson, Document.natural, if_neg hsigned]
  rfl

theorem plain {known : List String} {ofName? : String → Option α} {name : String}
    (h : ofName? name = some a) (n : ℕ) :
    Recovers n (Choice.plain known ofName?).decode (.str name) a := by
  have hname : (Choice.plain known ofName?).ofName? name = some (.inl a) := by
    change (ofName? name).map Sum.inl = _
    rw [h]
    rfl
  refine ⟨⟨rfl, Nat.zero_le n⟩, ?_⟩
  rw [ofJson, Choice.decode, hname]

theorem nullable (h : Recovers n read json a) (hnull : json ≠ .null) :
    Recovers n (Document.nullable read) json (some a) := by
  refine ⟨h.fits, ?_⟩
  have hmap : Document.nullable read (ofJson json) = (read (ofJson json)).map some := by
    cases json with
    | null => exact absurd rfl hnull
    | _ => rfl
  rw [hmap, h.read_eq]
  rfl

theorem written (h : Recovers n read json a) : ∀ other ∈ some json, Recovers n read other a :=
  fun _ hother => Option.some.inj hother ▸ h

/-- What may be missing is written if it is there. -/
theorem written_map {o : Option α} {write : α → Json} (h : ∀ a ∈ o, Recovers n read (write a) a)
    (hnull : ∀ a, write a ≠ .null) :
    ∀ json ∈ o.map write, Recovers n (Document.nullable read) json o := by
  intro json hjson
  obtain ⟨a, ha, rfl⟩ := Option.map_eq_some_iff.mp hjson
  rw [ha]
  exact (h a ha).nullable (hnull a)

theorem string? (o : Option String) (n : ℕ) :
    ∀ json ∈ o.map .str, Recovers n (Document.nullable Document.string) json o :=
  written_map (fun s _ => string n s) fun _ h => by cases h

theorem jsonOrNull (h : json.Fits n) (hnull : json ≠ .null) :
    Recovers n Document.jsonOrNull json (some json) := by
  refine ⟨h, ?_⟩
  have hvalue := toJson_ofJson json h.1
  cases json with
  | null => exact absurd rfl hnull
  | _ =>
      rw [ofJson] at hvalue ⊢
      rw [Document.jsonOrNull, hvalue]
      exact fun hempty => absurd hempty (by simp)

theorem list {items : List α} {write : α → Json} (h : ∀ a ∈ items, Recovers n read (write a) a) :
    Recovers (n + 1) (Document.list read) (.arr (items.map write)) items := by
  have hitems : Document.itemsOf read (ofItems (items.map write)) = .ok items := by
    induction items with
    | nil => rfl
    | cons item items ih =>
        obtain ⟨hitem, hothers⟩ := List.forall_mem_cons.mp h
        rw [List.map_cons, ofItems, Document.itemsOf, hitem.read_eq, ih hothers]
        rfl
  refine ⟨fits_arr (List.forall_mem_map.mpr fun item hitem => (h item hitem).fits), ?_⟩
  rw [ofJson, Document.list, hitems]
  rfl

end Recovers

/-! ### Structures -/

/-- A field as it is written, or left out, and what reading it puts into the structure. -/
structure Slot (α : Type) where
  name : String
  json : Option Json
  put : α → α

namespace Slot

variable {slots : List (Slot α)}

/-- The members that are written. -/
def members (slots : List (Slot α)) : List (String × Json) :=
  slots.filterMap fun slot => slot.json.map (slot.name, ·)

def puts (slots : List (Slot α)) : List (α → α) :=
  slots.filterMap fun slot => slot.json.map fun _ => slot.put

/-- What the written ones put into a structure. -/
def putAll (slots : List (Slot α)) (a : α) : α := (puts slots).foldl (fun a put => put a) a

/-- A field reads what is written for it, and what must be there is written. -/
structure ReadBy (n : ℕ) (slot : Slot α) (field : FieldShape α) : Prop where
  name_eq : slot.name = field.name
  fits : ∀ json ∈ slot.json, json.Fits n
  read_eq : ∀ json ∈ slot.json, ∀ a, field.read a (ofJson json) = .ok (slot.put a)
  written : field.required = true → slot.json.isSome = true

/-- A field that reads a value and sets it reads the slot in which this value is written. -/
theorem ReadBy.of_set {slot : Slot α} {field : FieldShape α} {read : Document → Decoded β}
    {set : α → β → α} {b : β} (hname : slot.name = field.name)
    (hread : ∀ a document, field.read a document = read document >>= fun b => .ok (set a b))
    (hput : ∀ a, slot.put a = set a b) (h : ∀ json ∈ slot.json, Recovers n read json b)
    (hwritten : field.required = false ∨ slot.json.isSome = true) : ReadBy n slot field where
  name_eq := hname
  fits json hjson := (h json hjson).fits
  read_eq json hjson a := by
    rw [hread, (h json hjson).read_eq, hput]
    rfl
  written hneeded := hwritten.resolve_left (Bool.not_eq_false _ ▸ hneeded)

/-- Two slots that are put into different places. -/
def Apart (p q : Slot α) : Prop := ∀ a, p.put (q.put a) = q.put (p.put a)

theorem members_cons (slot : Slot α) (slots : List (Slot α)) :
    members (slot :: slots) =
      (slot.json.map (slot.name, ·)).toList ++ members slots := by
  unfold members
  rw [List.filterMap_cons]
  cases slot.json <;> rfl

theorem puts_cons (slot : Slot α) (slots : List (Slot α)) :
    puts (slot :: slots) = (slot.json.map fun _ => slot.put).toList ++ puts slots := by
  unfold puts
  rw [List.filterMap_cons]
  cases slot.json <;> rfl

theorem names_sublist (slots : List (Slot α)) :
    ((members slots).map (·.1)).Sublist (slots.map (·.name)) := by
  induction slots with
  | nil => exact .slnil
  | cons slot slots ih =>
      rw [members_cons]
      cases slot.json with
      | none => exact ih.cons _
      | some json => exact ih.cons_cons _

theorem exists_of_mem_puts {put : α → α} (h : put ∈ puts slots) :
    ∃ slot ∈ slots, slot.put = put := by
  obtain ⟨slot, hslot, heq⟩ := List.mem_filterMap.mp h
  obtain ⟨-, -, rfl⟩ := Option.map_eq_some_iff.mp heq
  exact ⟨slot, hslot, rfl⟩

end Slot

namespace Shape

variable {shape : Shape α}

/-- A member that is accepted, with what it puts into the structure. -/
def Takes (shape : Shape α) (member : String × Document) (put : α → α) : Prop :=
  ∃ field, shape.fields.find? (fun field => field.name == member.1) = some field ∧
    ∀ a, field.read a member.2 = .ok (put a)

theorem ofMembers_eq_ok {members : List (String × Document)} {puts : List (α → α)}
    (h : members.Forall₂ shape.Takes puts) {seen : List String}
    (hdistinct : (members.map (·.1)).Nodup) (hseen : ∀ member ∈ members, member.1 ∉ seen)
    (hrequired : ∀ field ∈ shape.fields, field.required = true →
      field.name ∈ seen ∨ field.name ∈ members.map (·.1)) (a : α) :
    shape.ofMembers .closed seen a members = .ok (puts.foldl (fun a put => put a) a) := by
  induction h generalizing seen a with
  | nil =>
      have hmissing : shape.missing? seen = none := by
        refine Option.map_eq_none_iff.mpr (List.find?_eq_none.mpr fun field hfield hmissing => ?_)
        rw [Bool.and_eq_true, Bool.not_eq_true', List.contains_eq_mem, decide_eq_false_iff_not]
          at hmissing
        exact hmissing.2 ((hrequired field hfield hmissing.1).resolve_right List.not_mem_nil)
      unfold ofMembers
      rw [hmissing]
      rfl
  | @cons member put members puts hmember hmembers ih =>
      obtain ⟨name, document⟩ := member
      obtain ⟨field, hfield, hread⟩ := hmember
      obtain ⟨hnew, hothers⟩ := List.nodup_cons.mp hdistinct
      obtain ⟨hfirst, hlater⟩ := List.forall_mem_cons.mp hseen
      have hunseen : seen.contains name = false := by
        rw [List.contains_eq_mem, decide_eq_false_iff_not]
        exact hfirst
      have hseen' : ∀ member ∈ members, member.1 ∉ name :: seen := by
        intro member hmember hmem
        rcases List.mem_cons.mp hmem with heq | hmem
        · exact hnew (List.mem_map.mpr ⟨member, hmember, heq⟩)
        · exact hlater member hmember hmem
      have hrequired' : ∀ field ∈ shape.fields, field.required = true →
          field.name ∈ name :: seen ∨ field.name ∈ members.map (·.1) := by
        intro field hfield hneeded
        rcases hrequired field hfield hneeded with hmem | hmem
        · exact .inl (List.mem_cons_of_mem _ hmem)
        · rcases List.mem_cons.mp hmem with heq | hmem
          · exact .inl (List.mem_cons.mpr (.inl heq))
          · exact .inr hmem
      rw [ofMembers, hfield]
      dsimp only
      rw [hunseen, hread]
      exact ih hothers hseen' hrequired' (put a)

/-- The members may stand in any order, if they are put into different places. -/
theorem decode_object {members : List (String × Json)} {puts : List (α → α)}
    (hdistinct : (members.map (·.1)).Nodup)
    (htakes : (members.map fun member => (member.1, ofJson member.2)).Forall₂ shape.Takes puts)
    (hrequired : ∀ field ∈ shape.fields, field.required = true → field.name ∈ members.map (·.1))
    (happart : ∀ f ∈ puts, ∀ g ∈ puts, ∀ a, f (g a) = g (f a)) :
    shape.decode (ofJson (object members)) =
      .ok (puts.foldl (fun a put => put a) shape.default) := by
  obtain ⟨sorted, hsorted, hperm⟩ := exists_perm_object hdistinct
  obtain ⟨placed, hplaced, hsame⟩ := List.perm_comp_forall₂
    (hperm.map fun member => (member.1, ofJson member.2)) htakes
  have hnames : (sorted.map fun member => (member.1, ofJson member.2)).map (·.1) =
      sorted.map (·.1) := List.map_map
  have hread : shape.ofMembers .closed [] shape.default
      (sorted.map fun member => (member.1, ofJson member.2)) =
      .ok (placed.foldl (fun a put => put a) shape.default) := by
    refine ofMembers_eq_ok hplaced ?_ (fun _ _ => List.not_mem_nil)
      (fun field hfield hneeded => ?_) _
    · rw [hnames]
      exact (hperm.map (·.1)).nodup_iff.mpr hdistinct
    · rw [hnames]
      exact .inr ((hperm.map (·.1)).mem_iff.mpr (hrequired field hfield hneeded))
  rw [hsorted, ofJson, ofMembers_eq]
  refine hread.trans (congrArg Except.ok ?_)
  refine hsame.foldl_eq' (fun f hf g hg a => ?_) _
  exact (happart f (hsame.mem_iff.mp hf) g (hsame.mem_iff.mp hg) a).symm

theorem takes_of_readBy (hnames : shape.fieldNames.Nodup) {slots : List (Slot α)}
    {fields : List (FieldShape α)} (h : slots.Forall₂ (Slot.ReadBy n) fields)
    (hfields : ∀ field ∈ fields, field ∈ shape.fields) :
    ((Slot.members slots).map fun member => (member.1, ofJson member.2)).Forall₂ shape.Takes
      (Slot.puts slots) := by
  induction h with
  | nil => exact .nil
  | @cons slot field slots fields hslot _ ih =>
      obtain ⟨hfield, hothers⟩ := List.forall_mem_cons.mp hfields
      rw [Slot.members_cons, Slot.puts_cons]
      cases hjson : slot.json with
      | none => exact ih hothers
      | some json =>
          have htakes : shape.Takes (slot.name, ofJson json) slot.put :=
            ⟨field, hslot.name_eq ▸ find?_eq_some_of_nodup hnames hfield, hslot.read_eq json hjson⟩
          exact .cons htakes (ih hothers)

theorem names_of_readBy {slots : List (Slot α)} {fields : List (FieldShape α)}
    (h : slots.Forall₂ (Slot.ReadBy n) fields) :
    slots.map (·.name) = fields.map (·.name) ∧ ∀ field ∈ fields, field.required = true →
      field.name ∈ (Slot.members slots).map (·.1) := by
  induction h with
  | nil => exact ⟨rfl, List.forall_mem_nil _⟩
  | @cons slot field slots fields hslot _ ih =>
      refine ⟨congrArg₂ List.cons hslot.name_eq ih.1, ?_⟩
      rw [Slot.members_cons, List.map_append]
      refine List.forall_mem_cons.mpr ⟨fun hneeded => List.mem_append_left _ ?_,
        fun other hother hneeded => List.mem_append_right _ (ih.2 other hother hneeded)⟩
      obtain ⟨json, hjson⟩ := Option.isSome_iff_exists.mp (hslot.written hneeded)
      rw [hjson]
      exact List.mem_singleton.mpr hslot.name_eq.symm

theorem fits_of_readBy {slots : List (Slot α)} {fields : List (FieldShape α)}
    (h : slots.Forall₂ (Slot.ReadBy n) fields) :
    ∀ member ∈ Slot.members slots, member.2.Fits n := by
  induction h with
  | nil => exact List.forall_mem_nil _
  | @cons slot field slots fields hslot _ ih =>
      rw [Slot.members_cons]
      refine List.forall_mem_append.mpr ⟨fun member hmember => ?_, ih⟩
      obtain ⟨json, hjson, rfl⟩ := Option.map_eq_some_iff.mp (Option.mem_toList.mp hmember)
      exact hslot.fits json hjson

/-- What is written for the fields of a structure is read as what they put into it. -/
theorem recovers {slots : List (Slot α)} {a : α} (hnames : shape.fieldNames.Nodup)
    (h : slots.Forall₂ (Slot.ReadBy n) shape.fields) (happart : slots.Pairwise Slot.Apart)
    (hall : Slot.putAll slots shape.default = a) :
    Recovers (n + 1) shape.decode (object (Slot.members slots)) a := by
  obtain ⟨hsame, hrequired⟩ := names_of_readBy h
  have hdistinct : ((Slot.members slots).map (·.1)).Nodup :=
    (Slot.names_sublist slots).nodup (hsame ▸ hnames)
  have : Std.Symm (Slot.Apart (α := α)) := ⟨fun _ _ hpq a => (hpq a).symm⟩
  have hanywhere := happart.forall_of_forall fun _ _ _ => rfl
  refine ⟨fits_object (fits_of_readBy h), ?_⟩
  rw [decode_object hdistinct (takes_of_readBy hnames h fun _ => id) hrequired, ← hall]
  · rfl
  · intro f hf g hg a
    obtain ⟨p, hp, rfl⟩ := Slot.exists_of_mem_puts hf
    obtain ⟨q, hq, rfl⟩ := Slot.exists_of_mem_puts hg
    exact hanywhere hp hq a

end Shape

end ModelSurface.Json
