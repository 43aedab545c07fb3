import ModelSurface.Json.Decode
import ModelSurface.Proofs.Json.Bounds

/-!
# What typed reading accepts

A typed reader that succeeds has read all of its document, so the document does not break off
anywhere, and what is known of the parts that it reads is known of what it puts together from them.
-/

namespace ModelSurface.Json

variable {α β : Type} {n : ℕ}

/-! ### Whole documents -/

namespace Document

/-- A document that breaks off nowhere. -/
def Whole (document : Document) : Prop := ∃ json, document.toJson = .ok json

theorem exists_itemsToJson {items : List Document} (h : ∀ item ∈ items, item.Whole) :
    ∃ values, itemsToJson items = .ok values := by
  induction items with
  | nil => exact ⟨[], rfl⟩
  | cons item items ih =>
      obtain ⟨⟨value, hvalue⟩, hitems⟩ := List.forall_mem_cons.mp h
      obtain ⟨values, hvalues⟩ := ih hitems
      refine ⟨value :: values, ?_⟩
      rw [itemsToJson, hvalue, hvalues]
      rfl

theorem exists_membersToJson {members : List (String × Document)}
    (h : ∀ member ∈ members, member.2.Whole) : ∃ values, membersToJson members = .ok values := by
  induction members with
  | nil => exact ⟨[], rfl⟩
  | cons member members ih =>
      obtain ⟨name, item⟩ := member
      obtain ⟨⟨value, hvalue⟩, hmembers⟩ := List.forall_mem_cons.mp h
      obtain ⟨values, hvalues⟩ := ih hmembers
      refine ⟨(name, value) :: values, ?_⟩
      rw [membersToJson, hvalue, hvalues]
      rfl

theorem names_membersToJson {members : List (String × Document)} {values : List (String × Json)}
    (h : membersToJson members = .ok values) : values.map (·.1) = members.map (·.1) := by
  induction members generalizing values with
  | nil =>
      obtain rfl := Except.ok.inj h
      rfl
  | cons member members ih =>
      obtain ⟨name, item⟩ := member
      rw [membersToJson] at h
      obtain ⟨value, -, h⟩ := except_bind_eq_ok.mp h
      obtain ⟨rest, hrest, h⟩ := except_bind_eq_ok.mp h
      obtain rfl := Except.ok.inj h
      exact congrArg (name :: ·) (ih hrest)

theorem whole_arr {items : List Document} (h : ∀ item ∈ items, item.Whole) :
    (arr items .closed).Whole := by
  obtain ⟨values, hvalues⟩ := exists_itemsToJson h
  refine ⟨.arr values, ?_⟩
  rw [toJson, hvalues]
  rfl

theorem whole_obj {members : List (String × Document)} (h : ∀ member ∈ members, member.2.Whole) :
    (obj members .closed).Whole := by
  obtain ⟨values, hvalues⟩ := exists_membersToJson h
  refine ⟨Json.object values, ?_⟩
  rw [toJson, hvalues]
  rfl

theorem Fits.items {items : List Document} {ending : Ending}
    (h : (Document.arr items ending).Fits (n + 1)) : ∀ item ∈ items, item.Fits n := by
  cases h with
  | arr h => exact h

theorem Fits.members {members : List (String × Document)} {ending : Ending}
    (h : (Document.obj members ending).Fits (n + 1)) : ∀ member ∈ members, member.2.Fits n := by
  cases h with
  | obj h => exact h

theorem Fits.mono {m : ℕ} {document : Document} (h : document.Fits n) (hle : n ≤ m) :
    document.Fits m := by
  induction h generalizing m with
  | null | bool | str | broken => constructor
  | num _ h => exact .num m h
  | arr h ending ih =>
      obtain ⟨k, rfl⟩ := Nat.exists_eq_add_of_le' ((Nat.le_add_left 1 _).trans hle)
      exact .arr (fun item hitem => ih item hitem (Nat.le_of_succ_le_succ hle)) ending
  | obj h ending ih =>
      obtain ⟨k, rfl⟩ := Nat.exists_eq_add_of_le' ((Nat.le_add_left 1 _).trans hle)
      exact .obj (fun member hmember => ih member hmember (Nat.le_of_succ_le_succ hle)) ending

end Document

open Document

/-- Of the documents that fit, a reader accepts only whole ones, and what it reads off them is as
stated. -/
def Reads (n : ℕ) (read : Document → Decoded α) (P : α → Prop) : Prop :=
  ∀ document a, document.Fits n → read document = .ok a → document.Whole ∧ P a

namespace Reads

variable {read : Document → Decoded α} {P : α → Prop} {Q : β → Prop}

theorem mono {m : ℕ} (h : Reads m read P) (hle : n ≤ m) : Reads n read P :=
  fun document a hfits hread => h document a (hfits.mono hle) hread

theorem map (h : Reads n read P) {f : α → β} (hf : ∀ a, P a → Q (f a)) :
    Reads n (fun document => (read document).map f) Q := by
  intro document b hfits hread
  obtain ⟨a, ha, rfl⟩ := except_map_eq_ok.mp hread
  obtain ⟨hwhole, hP⟩ := h document a hfits ha
  exact ⟨hwhole, hf a hP⟩

/-- A field that reads a value and sets it. -/
theorem set (h : Reads n read P) {set : α → β} (hset : ∀ a, P a → Q (set a)) :
    Reads n (fun document => read document >>= fun a => .ok (set a)) Q := by
  intro document b hfits hread
  obtain ⟨a, ha, hb⟩ := except_bind_eq_ok.mp hread
  obtain ⟨hwhole, hP⟩ := h document a hfits ha
  exact ⟨hwhole, Except.ok.inj hb ▸ hset a hP⟩

/-! ### Single values -/

theorem string (n : ℕ) : Reads n Document.string fun _ => True := by
  intro document a _ h
  cases document with
  | str s => exact ⟨⟨.str s, rfl⟩, trivial⟩
  | num value => cases value <;> cases h
  | _ => cases h

theorem boolean (n : ℕ) : Reads n Document.boolean fun _ => True := by
  intro document a _ h
  cases document with
  | bool b => exact ⟨⟨.bool b, rfl⟩, trivial⟩
  | num value => cases value <;> cases h
  | _ => cases h

theorem natural (n : ℕ) : Reads n Document.natural fun a => a < 2 ^ 64 := by
  intro document a hfits h
  cases document with
  | num value =>
      refine ⟨⟨.num value, rfl⟩, ?_⟩
      cases value with
      | float x => cases h
      | int i =>
          obtain - | - | ⟨-, hlow, hhigh⟩ := hfits
          unfold Document.natural at h
          dsimp only at h
          split at h
          · cases h
          · obtain rfl := Except.ok.inj h
            omega
  | _ => cases h

theorem nullable (h : Reads n read P) :
    Reads n (Document.nullable read) fun o => ∀ a ∈ o, P a := by
  intro document o hfits hread
  by_cases hnull : document = .null
  · subst hnull
    obtain rfl := Except.ok.inj hread
    exact ⟨⟨.null, rfl⟩, nofun⟩
  · have hmap : Document.nullable read document = (read document).map some := by
      cases document with
      | null => exact absurd rfl hnull
      | _ => rfl
    rw [hmap] at hread
    have hsome : ∀ a, P a → ∀ b ∈ some a, P b := fun a hP b hb => Option.some.inj hb ▸ hP
    exact h.map (Q := fun o => ∀ b ∈ o, P b) hsome document o hfits hread

theorem toJson_ne_null {document : Document} {json : Json} (h : document.toJson = .ok json)
    (hnull : document ≠ .null) : json ≠ .null := by
  cases document with
  | null => exact absurd rfl hnull
  | bool b => exact Except.ok.inj h ▸ nofun
  | num value => exact Except.ok.inj h ▸ nofun
  | str s => exact Except.ok.inj h ▸ nofun
  | arr items ending =>
      obtain ⟨values, -, rfl⟩ := toJson_arr_ok h
      nofun
  | obj members ending =>
      obtain ⟨values, -, rfl⟩ := toJson_obj_ok h
      nofun
  | broken fault => cases h

theorem jsonOrNull (n : ℕ) :
    Reads n Document.jsonOrNull fun o => o ≠ some .null ∧ ∀ json ∈ o, json.Fits n := by
  intro document o hfits hread
  by_cases hnull : document = .null
  · subst hnull
    obtain rfl := Except.ok.inj hread
    exact ⟨⟨.null, rfl⟩, nofun, nofun⟩
  · cases hjson : document.toJson with
    | error fault =>
        have herror : Document.jsonOrNull document = .error (.form fault) := by
          cases document with
          | null => exact absurd rfl hnull
          | _ => rw [Document.jsonOrNull, hjson]; nofun
        rw [herror] at hread
        cases hread
    | ok json =>
        have hok : Document.jsonOrNull document = .ok (some json) := by
          cases document with
          | null => exact absurd rfl hnull
          | _ => rw [Document.jsonOrNull, hjson]; nofun
        rw [hok] at hread
        obtain rfl := Except.ok.inj hread
        refine ⟨⟨json, hjson⟩, fun heq => ?_, fun value hvalue => ?_⟩
        · exact toJson_ne_null hjson hnull (Option.some.inj heq)
        · exact Option.some.inj hvalue ▸ fits_toJson hfits hjson

/-! ### Lists -/

theorem itemsOf (h : Reads n read P) {items : List Document} (hfits : ∀ item ∈ items, item.Fits n)
    {values : List α} (hread : Document.itemsOf read items = .ok values) :
    (∀ item ∈ items, item.Whole) ∧ ∀ a ∈ values, P a := by
  induction items generalizing values with
  | nil =>
      obtain rfl := Except.ok.inj hread
      exact ⟨List.forall_mem_nil _, List.forall_mem_nil _⟩
  | cons item items ih =>
      obtain ⟨hitem, hitems⟩ := List.forall_mem_cons.mp hfits
      rw [Document.itemsOf] at hread
      obtain ⟨value, hvalue, hread⟩ := except_bind_eq_ok.mp hread
      obtain ⟨rest, hrest, hread⟩ := except_bind_eq_ok.mp hread
      obtain rfl := Except.ok.inj hread
      obtain ⟨hwhole, hP⟩ := h item value hitem hvalue
      obtain ⟨hwholes, hPs⟩ := ih hitems hrest
      exact ⟨List.forall_mem_cons.mpr ⟨hwhole, hwholes⟩, List.forall_mem_cons.mpr ⟨hP, hPs⟩⟩

theorem list (h : Reads n read P) :
    Reads (n + 1) (Document.list read) fun values => ∀ a ∈ values, P a := by
  intro document values hfits hread
  cases document with
  | arr items ending =>
      unfold Document.list at hread
      obtain ⟨found, hfound, hend⟩ := except_bind_eq_ok.mp hread
      cases ending with
      | closed =>
          obtain rfl := Except.ok.inj hend
          obtain ⟨hwhole, hP⟩ := h.itemsOf hfits.items hfound
          exact ⟨whole_arr hwhole, hP⟩
      | cut fault | cutBehindComma fault => cases hend
  | num value => cases value <;> cases hread
  | _ => cases hread

end Reads

/-! ### Alternatives -/

namespace Choice

variable {choice : Choice α} {P : α → Prop}

theorem reads_unit {a : α} (h : P a) (n : ℕ) : Reads n (unit a) P := by
  intro document b _ hread
  cases document with
  | null => exact ⟨⟨.null, rfl⟩, Except.ok.inj hread ▸ h⟩
  | num value => cases value <;> cases hread
  | _ => cases hread

/-- Nothing may stand behind what an alternative holds. -/
theorem eq_ok_of_end {members : List (String × Document)} {ending : Ending} {value a : α}
    (h : (match members, ending with
      | [], .closed => .ok value
      | [], .cut fault => .error (.form fault)
      | _, _ => .error (.form .malformed) : Decoded α) = .ok a) :
    members = [] ∧ ending = .closed ∧ value = a := by
  split at h
  · exact ⟨rfl, rfl, Except.ok.inj h⟩
  · cases h
  · cases h

/-- An alternative that is accepted is one of the known ones, and all that it holds is read. -/
theorem reads (hplain : ∀ name a, choice.ofName? name = some (.inl a) → P a)
    (hcontent : ∀ name read, choice.ofName? name = some (.inr read) → ∀ n, Reads n read P) (n : ℕ) :
    Reads n choice.decode P := by
  intro document a hfits h
  cases document with
  | str name =>
      refine ⟨⟨.str name, rfl⟩, ?_⟩
      unfold decode at h
      dsimp only at h
      split at h
      · rename_i value hname
        exact Except.ok.inj h ▸ hplain name value hname
      · cases h
      · cases h
  | obj members ending =>
      cases members with
      | nil => cases h
      | cons member members =>
          obtain ⟨name, content⟩ := member
          unfold decode at h
          dsimp only at h
          split at h
          · cases h
          · rename_i variant hname
            have hfirst : content.Fits n := by
              cases hfits with
              | obj hmembers =>
                  exact (hmembers (name, content) List.mem_cons_self).mono (Nat.le_succ _)
            have hread : ∃ value, (content.Whole ∧ P value) ∧
                members = [] ∧ ending = .closed ∧ value = a := by
              cases variant with
              | inl plain =>
                  obtain ⟨value, hvalue, hend⟩ := except_bind_eq_ok.mp h
                  exact ⟨value, reads_unit (hplain name plain hname) _ _ _ hfirst hvalue,
                    eq_ok_of_end hend⟩
              | inr read =>
                  obtain ⟨value, hvalue, hend⟩ := except_bind_eq_ok.mp h
                  exact ⟨value, hcontent name read hname _ _ _ hfirst hvalue, eq_ok_of_end hend⟩
            obtain ⟨value, ⟨hwhole, hP⟩, rfl, rfl, rfl⟩ := hread
            exact ⟨whole_obj (List.forall_mem_singleton.mpr hwhole), hP⟩
  | _ => cases h

theorem reads_plain (known : List String) (ofName? : String → Option α) (n : ℕ) :
    Reads n (plain known ofName?).decode fun _ => True := by
  refine reads (fun _ _ _ => trivial) (fun name read hread => ?_) n
  obtain ⟨a, -, heq⟩ := Option.map_eq_some_iff.mp hread
  cases heq

end Choice

/-! ### Structures -/

namespace Shape

variable {shape : Shape α} {P : α → Prop} {ending : Ending}

/-- Only the fields that are named have to keep what is known. -/
theorem reads_ofMembers {members : List (String × Document)}
    (hfields : ∀ field ∈ shape.fields, field.name ∈ members.map (·.1) → ∀ a, P a →
      Reads n (field.read a) P)
    (hfits : ∀ member ∈ members, member.2.Fits n) {seen : List String} {a b : α} (ha : P a)
    (hread : shape.ofMembers ending seen a members = .ok b) :
    ending = .closed ∧ (∀ member ∈ members, member.2.Whole) ∧ P b := by
  induction members generalizing seen a with
  | nil =>
      unfold ofMembers at hread
      split at hread
      · cases hread
      · cases hread
      · rename_i hending _
        obtain rfl := Except.ok.inj hread
        refine ⟨?_, nofun, ha⟩
        cases ending with
        | closed => rfl
        | cut fault | cutBehindComma fault => cases hending
  | cons member members ih =>
      obtain ⟨name, document⟩ := member
      obtain ⟨hfirst, hothers⟩ := List.forall_mem_cons.mp hfits
      unfold ofMembers at hread
      split at hread
      · cases hread
      · rename_i field hfield
        split at hread
        · cases hread
        · obtain ⟨value, hvalue, hrest⟩ := except_bind_eq_ok.mp hread
          have hname := List.find?_some hfield
          obtain ⟨hwhole, hP⟩ := hfields field (List.mem_of_find?_eq_some hfield)
            (List.mem_cons.mpr (.inl (beq_iff_eq.mp hname))) a ha document value hfirst hvalue
          have hfields' := fun field hmem hlater =>
            hfields field hmem (List.mem_cons_of_mem name hlater)
          obtain ⟨hclosed, hwholes, hb⟩ := ih hfields' hothers hP hrest
          exact ⟨hclosed, List.forall_mem_cons.mpr ⟨hwhole, hwholes⟩, hb⟩

theorem reads_ofItems {fields : List (FieldShape α)}
    (hfields : ∀ field ∈ fields, ∀ a, P a → Reads n (field.read a) P) {items : List Document}
    (hfits : ∀ item ∈ items, item.Fits n) {index : ℕ} {a b : α} (ha : P a)
    (hread : shape.ofItems ending index a fields items = .ok b) :
    ending = .closed ∧ (∀ item ∈ items, item.Whole) ∧ P b := by
  induction fields generalizing index a items with
  | nil =>
      cases items with
      | cons item items => cases hread
      | nil =>
          cases ending with
          | closed => exact ⟨rfl, nofun, Except.ok.inj hread ▸ ha⟩
          | cut fault | cutBehindComma fault => cases hread
  | cons field fields ih =>
      obtain ⟨hfield, hothers⟩ := List.forall_mem_cons.mp hfields
      cases items with
      | nil =>
          unfold ofItems at hread
          split at hread
          · cases hread
          · split at hread
            · cases hread
            · exact ih hothers hfits ha hread
      | cons item items =>
          obtain ⟨hitem, hitems⟩ := List.forall_mem_cons.mp hfits
          obtain ⟨value, hvalue, hrest⟩ := except_bind_eq_ok.mp hread
          obtain ⟨hwhole, hP⟩ := hfield a ha item value hitem hvalue
          obtain ⟨hclosed, hwholes, hb⟩ := ih hothers hitems hP hrest
          exact ⟨hclosed, List.forall_mem_cons.mpr ⟨hwhole, hwholes⟩, hb⟩

/-- What each field keeps, the structure keeps, however it is spelled. -/
theorem reads (hdefault : P shape.default)
    (hfields : ∀ field ∈ shape.fields, ∀ a, P a → Reads n (field.read a) P) :
    Reads (n + 1) shape.decode P := by
  intro document a hfits h
  cases document with
  | obj members ending =>
      have hnamed := fun field hmem (_ : field.name ∈ members.map (·.1)) => hfields field hmem
      obtain ⟨rfl, hwhole, hP⟩ := reads_ofMembers hnamed hfits.members hdefault h
      exact ⟨whole_obj hwhole, hP⟩
  | arr items ending =>
      obtain ⟨rfl, hwhole, hP⟩ := reads_ofItems hfields hfits.items hdefault h
      exact ⟨whole_arr hwhole, hP⟩
  | num value => cases value <;> cases h
  | _ => cases h

end Shape

end ModelSurface.Json
