import Mathlib.Data.List.Basic
import ModelSurface.Query.Order
import ModelSurface.Query.Page

/-!
# Results in pages

The pages of one size that follow each other, from a position of a result on, up to the first one
that reaches the end of it. Together they hold each record behind the position once, in order.
-/

namespace ModelSurface

namespace Record

theorem perm_insertBackwards (identity : String) (keys : List OrderKey) (record : Record)
    (sorted : List Record) :
    (insertBackwards identity keys record sorted).Perm (record :: sorted) := by
  induction sorted with
  | nil => exact .refl _
  | cons other rest ih =>
      unfold insertBackwards
      split
      · exact (ih.cons other).trans (.swap record other rest)
      · exact .refl _

/-- Sorting neither loses a record nor adds one. -/
theorem perm_sort (identity : String) (keys : List OrderKey) (records : List Record) :
    (sort identity keys records).Perm records := by
  suffices hfold : ∀ sorted : List Record,
      (records.foldl (fun sorted record => insertBackwards identity keys record sorted)
        sorted).Perm (records ++ sorted) by
    have hall := hfold []
    rw [List.append_nil] at hall
    exact (List.reverse_perm _).trans hall
  induction records with
  | nil => exact fun sorted => .refl sorted
  | cons record records ih =>
      intro sorted
      have hinsert := perm_insertBackwards identity keys record sorted
      exact (ih _).trans ((hinsert.append_left records).trans List.perm_middle)

end Record

namespace Page

variable {records : List Record} {start size : Nat}

/-! ### One page -/

theorem items_slice (records : List Record) (start size : Nat) :
    (slice records start size).items = (records.drop start).take size := by
  change (records.drop (min start records.length)).take
    (min (min start records.length + size) records.length - min start records.length) = _
  rcases Nat.le_total start records.length with hin | hout
  · rw [Nat.min_eq_left hin, List.take_eq_take_iff, List.length_drop]
    omega
  · rw [Nat.min_eq_right hout, List.drop_length, List.drop_of_length_le hout]
    simp

theorem hasNextPage_slice (records : List Record) (start size : Nat) :
    (slice records start size).info.hasNextPage = decide (start + size < records.length) := by
  change decide (min (min start records.length + size) records.length < records.length) = _
  rw [decide_eq_decide]
  omega

theorem hasPreviousPage_slice (records : List Record) (start size : Nat) :
    (slice records start size).info.hasPreviousPage = decide (0 < start ∧ records ≠ []) := by
  change decide (0 < min start records.length) = _
  rw [decide_eq_decide, Nat.lt_min, List.length_pos_iff]

/-- A page that is not the last one ends with the record in front of the next one. -/
theorem endCursor_slice (hsize : 0 < size) (hmore : start + size < records.length) :
    (slice records start size).info.endCursor =
      some (Text.Base62.encode (start + size - 1)) := by
  have hitems : (slice records start size).items.isEmpty = false := by
    rw [items_slice, List.isEmpty_eq_false_iff, ← List.length_pos_iff, List.length_take,
      List.length_drop]
    omega
  have hstop : min (min start records.length + size) records.length - 1 = start + size - 1 := by
    omega
  change (if (slice records start size).items.isEmpty then none else
    some (Text.Base62.encode (min (min start records.length + size) records.length - 1))) = _
  rw [hitems, hstop]
  rfl

/-! ### All pages -/

/-- The pages of a size from a position on, up to the first one that reaches the end. -/
def all (records : List Record) (size start : Nat) : List Page :=
  slice records start size ::
    if 0 < size ∧ start + size < records.length then all records size (start + size) else []
termination_by records.length - start
decreasing_by omega

theorem all_of_more (hsize : 0 < size) (hmore : start + size < records.length) :
    all records size start = slice records start size :: all records size (start + size) := by
  rw [all, if_pos ⟨hsize, hmore⟩]

theorem all_of_last (hlast : ¬start + size < records.length) :
    all records size start = [slice records start size] := by
  rw [all, if_neg fun h => hlast h.2]

/-- The pages together are what stands behind the position. -/
theorem items_all (hsize : 0 < size) (records : List Record) (start : Nat) :
    (all records size start).flatMap items = records.drop start := by
  by_cases hmore : start + size < records.length
  · rw [all_of_more hsize hmore, List.flatMap_cons, items_all hsize records (start + size),
      items_slice, ← List.drop_drop, List.take_append_drop]
  · rw [all_of_last hmore, List.flatMap_cons, List.flatMap_nil, List.append_nil, items_slice]
    refine List.take_of_length_le ?_
    rw [List.length_drop]
    omega
termination_by records.length - start

theorem getElem?_all (hsize : 0 < size) (records : List Record) (start index : Nat) :
    (all records size start)[index]? =
      if index = 0 ∨ start + index * size < records.length then
        some (slice records (start + index * size) size)
      else none := by
  induction index generalizing start with
  | zero =>
      rw [all, List.getElem?_cons_zero, if_pos (.inl rfl), Nat.zero_mul, Nat.add_zero]
  | succ index ih =>
      have hposition : start + size + index * size = start + (index + 1) * size := by
        rw [Nat.succ_mul]
        omega
      by_cases hmore : start + size < records.length
      · rw [all_of_more hsize hmore, List.getElem?_cons_succ, ih, hposition]
        refine if_congr ?_ rfl rfl
        constructor
        · rintro (rfl | hbehind)
          · exact .inr (by omega)
          · exact .inr hbehind
        · rintro (hzero | hbehind)
          · cases hzero
          · exact .inr hbehind
      · rw [all_of_last hmore, List.getElem?_cons_succ, List.getElem?_nil, if_neg]
        rintro (hzero | hbehind)
        · cases hzero
        · omega

/-- What is to be seen of a page among all pages of a result. -/
theorem all_page (hsize : 0 < size) {index : Nat} {page : Page}
    (hpage : (all records size 0)[index]? = some page) :
    page.items = (records.drop (index * size)).take size ∧
      page.totalCount = records.length ∧
      (page.info.hasNextPage = false ↔ index + 1 = (all records size 0).length) ∧
      (page.info.hasPreviousPage = false ↔ index = 0) := by
  have hinside := (List.getElem?_eq_some_iff.mp hpage).1
  rw [getElem?_all hsize, Nat.zero_add] at hpage
  split at hpage
  · rename_i hreached
    obtain rfl := Option.some.inj hpage
    refine ⟨items_slice .., rfl, ?_, ?_⟩
    · have hnext := getElem?_all hsize records 0 (index + 1)
      rw [hasNextPage_slice, decide_eq_false_iff_not]
      rw [Nat.zero_add, Nat.succ_mul] at hnext
      constructor
      · intro hlast
        rw [if_neg (by omega), List.getElem?_eq_none_iff] at hnext
        omega
      · intro hlength hmore
        rw [if_pos (.inr hmore)] at hnext
        have := (List.getElem?_eq_some_iff.mp hnext).1
        omega
    · rw [hasPreviousPage_slice, decide_eq_false_iff_not]
      constructor
      · intro hfirst
        by_contra hne
        have hbehind := hreached.resolve_left hne
        refine hfirst ⟨Nat.mul_pos (Nat.pos_of_ne_zero hne) hsize, ?_⟩
        exact List.length_pos_iff.mp (Nat.zero_lt_of_lt hbehind)
      · rintro rfl
        simp
  · cases hpage

end Page

end ModelSurface
