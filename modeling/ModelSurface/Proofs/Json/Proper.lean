import Mathlib.Data.List.Nodup
import Mathlib.Data.String.Basic
import Mathlib.Order.Compare
import ModelSurface.Json.Basic
import ModelSurface.Proofs.Query.Paging

/-!
# Proper values

A value whose integers fit 64 bits and whose members are in the order of their names is what a
document can hold. Putting a member in its place keeps the order, so that all objects that are built
are proper if what they hold is, and members with different names are only put in another order.
-/

namespace ModelSurface.Json

/-! ### Proper values, and how deep they are -/

mutual

def isProper : Json → Bool
  | .num (.int i) => decide (-9223372036854775808 ≤ i ∧ i ≤ 18446744073709551615)
  | .arr items => areProper items
  | .obj members =>
    decide ((members.map (·.1)).Pairwise (· < ·)) && membersAreProper members
  | _ => true

def areProper : List Json → Bool
  | [] => true
  | item :: items => item.isProper && areProper items

def membersAreProper : List (String × Json) → Bool
  | [] => true
  | (_, value) :: members => value.isProper && membersAreProper members

end

mutual

/-- How many arrays and objects stand inside each other. -/
def height : Json → Nat
  | .arr items => itemsHeight items + 1
  | .obj members => membersHeight members + 1
  | _ => 0

def itemsHeight : List Json → Nat
  | [] => 0
  | item :: items => max item.height (itemsHeight items)

def membersHeight : List (String × Json) → Nat
  | [] => 0
  | (_, value) :: members => max value.height (membersHeight members)

end

theorem areProper_iff {items : List Json} : areProper items ↔ ∀ item ∈ items, item.isProper := by
  induction items with
  | nil => exact iff_of_true rfl (List.forall_mem_nil _)
  | cons item items ih => rw [areProper, Bool.and_eq_true, ih, List.forall_mem_cons]

theorem membersAreProper_iff {members : List (String × Json)} :
    membersAreProper members ↔ ∀ member ∈ members, member.2.isProper := by
  induction members with
  | nil => exact iff_of_true rfl (List.forall_mem_nil _)
  | cons member members ih =>
      obtain ⟨name, value⟩ := member
      rw [membersAreProper, Bool.and_eq_true, ih, List.forall_mem_cons]

theorem isProper_arr {items : List Json} :
    (arr items).isProper ↔ ∀ item ∈ items, item.isProper := by
  rw [isProper, areProper_iff]

theorem isProper_obj {members : List (String × Json)} : (obj members).isProper ↔
    (members.map (·.1)).Pairwise (· < ·) ∧ ∀ member ∈ members, member.2.isProper := by
  rw [isProper, Bool.and_eq_true, decide_eq_true_eq, membersAreProper_iff]

theorem itemsHeight_le_iff {items : List Json} {n : ℕ} :
    itemsHeight items ≤ n ↔ ∀ item ∈ items, item.height ≤ n := by
  induction items with
  | nil => exact iff_of_true (Nat.zero_le n) (List.forall_mem_nil _)
  | cons item items ih => rw [itemsHeight, max_le_iff, ih, List.forall_mem_cons]

theorem membersHeight_le_iff {members : List (String × Json)} {n : ℕ} :
    membersHeight members ≤ n ↔ ∀ member ∈ members, member.2.height ≤ n := by
  induction members with
  | nil => exact iff_of_true (Nat.zero_le n) (List.forall_mem_nil _)
  | cons member members ih =>
      obtain ⟨name, value⟩ := member
      rw [membersHeight, max_le_iff, ih, List.forall_mem_cons]

/-- A proper value in which at most so many arrays and objects stand inside each other. -/
def Fits (n : ℕ) (json : Json) : Prop := json.isProper ∧ json.height ≤ n

theorem Fits.mono {n m : ℕ} {json : Json} (h : json.Fits n) (hle : n ≤ m) : json.Fits m :=
  ⟨h.1, h.2.trans hle⟩

theorem fits_arr {items : List Json} {n : ℕ} (h : ∀ item ∈ items, item.Fits n) :
    (arr items).Fits (n + 1) :=
  ⟨isProper_arr.mpr fun item hitem => (h item hitem).1,
    Nat.succ_le_succ (itemsHeight_le_iff.mpr fun item hitem => (h item hitem).2)⟩

/-! ### Members in order -/

/-- The members are in the order of their names. -/
def Ascending (members : List (String × Json)) : Prop := (members.map (·.1)).Pairwise (· < ·)

theorem ascending_nil : Ascending [] := List.Pairwise.nil

theorem ascending_cons {member : String × Json} {members : List (String × Json)} :
    Ascending (member :: members) ↔
      (∀ other ∈ members, member.1 < other.1) ∧ Ascending members := by
  unfold Ascending
  rw [List.map_cons, List.pairwise_cons, List.forall_mem_map]

theorem ascending_insertMember {members : List (String × Json)} (h : Ascending members)
    (name : String) (value : Json) : Ascending (insertMember name value members) := by
  induction members with
  | nil => exact List.pairwise_singleton _ _
  | cons member rest ih =>
      obtain ⟨other, old⟩ := member
      obtain ⟨hfirst, hrest⟩ := ascending_cons.mp h
      unfold insertMember
      split
      · rename_i hbefore
        have hless : name < other := compare_lt_iff_lt.mp hbefore
        refine ascending_cons.mpr ⟨List.forall_mem_cons.mpr ⟨hless, fun later hlater => ?_⟩, h⟩
        exact hless.trans (hfirst later hlater)
      · rename_i hsame
        obtain rfl : name = other := compare_eq_iff_eq.mp hsame
        exact ascending_cons.mpr ⟨hfirst, hrest⟩
      · rename_i hbehind
        refine ascending_cons.mpr ⟨fun later hlater => ?_, ih hrest⟩
        rcases mem_insertMember hlater with rfl | hold
        · exact compare_gt_iff_gt.mp hbehind
        · exact hfirst later hold

theorem insertMember_perm {name : String} {members : List (String × Json)}
    (h : name ∉ members.map (·.1)) (value : Json) :
    (insertMember name value members).Perm ((name, value) :: members) := by
  induction members with
  | nil => exact .refl _
  | cons member rest ih =>
      obtain ⟨other, old⟩ := member
      rw [List.map_cons, List.mem_cons, not_or] at h
      unfold insertMember
      split
      · exact .refl _
      · rename_i hsame
        exact absurd (compare_eq_iff_eq.mp hsame) h.1
      · exact ((ih h.2).cons (other, old)).trans (.swap _ _ _)

/-- A member in front of all others stays there. -/
theorem insertMember_of_lt {name : String} {members : List (String × Json)}
    (h : ∀ member ∈ members, member.1 < name) (value : Json) :
    insertMember name value members = members ++ [(name, value)] := by
  induction members with
  | nil => rfl
  | cons member rest ih =>
      obtain ⟨other, old⟩ := member
      obtain ⟨hfirst, hrest⟩ := List.forall_mem_cons.mp h
      have hbehind : compare name other = .gt := compare_gt_iff_gt.mpr hfirst
      unfold insertMember
      rw [hbehind]
      exact congrArg _ (ih hrest)

/-- The members of an object that is built from some, after others. -/
def insertAll (sorted members : List (String × Json)) : List (String × Json) :=
  members.foldl (fun sorted member => insertMember member.1 member.2 sorted) sorted

theorem object_eq (members : List (String × Json)) : object members = .obj (insertAll [] members) :=
  rfl

theorem ascending_insertAll {sorted : List (String × Json)} (h : Ascending sorted)
    (members : List (String × Json)) : Ascending (insertAll sorted members) := by
  induction members generalizing sorted with
  | nil => exact h
  | cons member members ih => exact ih (ascending_insertMember h member.1 member.2)

theorem mem_insertAll {sorted members : List (String × Json)} {member : String × Json}
    (h : member ∈ insertAll sorted members) : member ∈ sorted ∨ member ∈ members := by
  induction members generalizing sorted with
  | nil => exact .inl h
  | cons first members ih =>
      rcases ih h with hsorted | hlater
      · rcases mem_insertMember hsorted with heq | hold
        · exact .inr (heq ▸ List.mem_cons_self)
        · exact .inl hold
      · exact .inr (List.mem_cons_of_mem _ hlater)

theorem isSome_lookup_insertAll {sorted members : List (String × Json)} {name : String} :
    ((insertAll sorted members).lookup name).isSome ↔
      (sorted.lookup name).isSome ∨ name ∈ members.map (·.1) := by
  induction members generalizing sorted with
  | nil => simp [insertAll]
  | cons member members ih =>
      obtain ⟨other, value⟩ := member
      change ((insertAll (insertMember other value sorted) members).lookup name).isSome ↔ _
      rw [ih, List.map_cons, List.mem_cons]
      by_cases hname : name = other
      · rw [hname, lookup_insertMember_self]
        simp
      · rw [lookup_insertMember_of_ne hname]
        simp [hname]

theorem insertAll_perm {sorted members : List (String × Json)}
    (h : ((sorted ++ members).map (·.1)).Nodup) :
    (insertAll sorted members).Perm (sorted ++ members) := by
  induction members generalizing sorted with
  | nil => rw [List.append_nil]; exact .refl _
  | cons member members ih =>
      obtain ⟨name, value⟩ := member
      have hmiddle : (sorted ++ (name, value) :: members).Perm
          ((name, value) :: (sorted ++ members)) := List.perm_middle
      have hnames := (hmiddle.map (·.1)).nodup_iff.mp h
      rw [List.map_cons, List.nodup_cons, List.map_append] at hnames
      have hplaced := insertMember_perm (fun hmem => hnames.1 (List.mem_append_left _ hmem)) value
      have hall := (hplaced.append_right members).trans hmiddle.symm
      exact (ih ((hall.map (·.1)).nodup_iff.mpr h)).trans hall

theorem insertAll_of_ascending {sorted members : List (String × Json)}
    (h : Ascending (sorted ++ members)) : insertAll sorted members = sorted ++ members := by
  induction members generalizing sorted with
  | nil => rw [List.append_nil]; rfl
  | cons member members ih =>
      obtain ⟨name, value⟩ := member
      have hbefore : ∀ other ∈ sorted, other.1 < name := by
        unfold Ascending at h
        rw [List.map_append, List.pairwise_append] at h
        exact fun other hother => h.2.2 _ (List.mem_map_of_mem hother) _ List.mem_cons_self
      change insertAll (insertMember name value sorted) members = _
      rw [insertMember_of_lt hbefore, ih (by rwa [List.append_assoc]), List.append_assoc]
      rfl

/-! ### Objects -/

theorem fits_object {members : List (String × Json)} {n : ℕ}
    (h : ∀ member ∈ members, member.2.Fits n) : (object members).Fits (n + 1) := by
  have hall : ∀ member ∈ insertAll [] members, member.2.Fits n := fun member hmember =>
    h member ((mem_insertAll hmember).resolve_left List.not_mem_nil)
  refine ⟨isProper_obj.mpr ⟨ascending_insertAll ascending_nil members, ?_⟩, ?_⟩
  · exact fun member hmember => (hall member hmember).1
  · exact Nat.succ_le_succ (membersHeight_le_iff.mpr fun member hmember => (hall member hmember).2)

/-- Members that are in order already are those of the object. -/
theorem object_of_proper {members : List (String × Json)} (h : (obj members).isProper) :
    object members = .obj members :=
  congrArg obj (insertAll_of_ascending (isProper_obj.mp h).1)

/-- Members with different names are only put in another order. -/
theorem exists_perm_object {members : List (String × Json)} (h : (members.map (·.1)).Nodup) :
    ∃ sorted, object members = .obj sorted ∧ sorted.Perm members :=
  ⟨insertAll [] members, rfl, insertAll_perm h⟩

theorem isSome_get?_object {members : List (String × Json)} {name : String} :
    ((object members).get? name).isSome ↔ name ∈ members.map (·.1) := by
  change ((insertAll [] members).lookup name).isSome ↔ _
  rw [isSome_lookup_insertAll]
  exact or_iff_right (by simp)

end ModelSurface.Json
