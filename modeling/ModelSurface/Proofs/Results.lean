import Mathlib.Data.List.Forall2

/-!
# Results

What is known when several steps that may fail have not, or when one of them has.
-/

namespace ModelSurface

section Steps

variable {α β ε : Type} {result : Except ε α}

theorem except_bind_eq_ok {next : α → Except ε β} {b : β} :
    result >>= next = .ok b ↔ ∃ a, result = .ok a ∧ next a = .ok b := by
  cases result <;> simp [bind, Except.bind]

theorem except_bind_eq_error {next : α → Except ε β} {failure : ε} :
    result >>= next = .error failure ↔
      result = .error failure ∨ ∃ a, result = .ok a ∧ next a = .error failure := by
  cases result <;> simp [bind, Except.bind]

theorem except_map_eq_ok {f : α → β} {b : β} :
    result.map f = .ok b ↔ ∃ a, result = .ok a ∧ f a = b := by
  cases result <;> simp [Except.map]

end Steps

theorem forall₂_of_mapM_ok {α β ε : Type} {f : α → Except ε β} {items : List α}
    {results : List β} (h : items.mapM f = .ok results) :
    items.Forall₂ (fun a b => f a = .ok b) results := by
  induction items generalizing results with
  | nil =>
      obtain rfl : [] = results := Except.ok.inj h
      exact .nil
  | cons item items ih =>
      rw [List.mapM_cons] at h
      obtain ⟨first, hitem, h⟩ := except_bind_eq_ok.mp h
      obtain ⟨rest, hitems, h⟩ := except_bind_eq_ok.mp h
      obtain rfl : first :: rest = results := Except.ok.inj h
      exact .cons hitem (ih hitems)

theorem mem_of_mapM_ok {α β ε : Type} {f : α → Except ε β} {items : List α} {results : List β}
    (h : items.mapM f = .ok results) {b : β} (hb : b ∈ results) : ∃ a ∈ items, f a = .ok b := by
  have hall := forall₂_of_mapM_ok h
  clear h
  induction hall with
  | nil => cases hb
  | cons hfirst _ ih =>
      rcases List.mem_cons.mp hb with rfl | hrest
      · exact ⟨_, List.mem_cons_self, hfirst⟩
      · obtain ⟨a, ha, heq⟩ := ih hrest
        exact ⟨a, List.mem_cons_of_mem _ ha, heq⟩

end ModelSurface
