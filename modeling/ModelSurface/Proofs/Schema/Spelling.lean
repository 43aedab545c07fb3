import ModelSurface.Proofs.Schema.ValidNames

/-!
# Names and reserved keys

Keys of inputs that name no member begin with a dollar sign. No name that a registry gives has that
sign, and no name that is made of given ones has it either: snake case and plurals bring no new
signs, and a template keeps those of its signs that are not part of the placeholder.
-/

namespace ModelSurface

namespace Text

variable {c : Char}

/-! ### Replacement -/

theorem mem_replaceFrom {pattern replacement text : List Char} {skip : Nat}
    (h : c ∈ replaceFrom pattern replacement skip text) : c ∈ replacement ∨ c ∈ text := by
  fun_induction replaceFrom pattern replacement skip text with
  | case1 => cases h
  | case2 first rest skip ih => exact (ih h).imp_right (List.mem_cons_of_mem _)
  | case3 first rest _ ih =>
      rcases List.mem_append.mp h with hnew | hrest
      · exact .inl hnew
      · exact (ih hrest).imp_right (List.mem_cons_of_mem _)
  | case4 first rest _ ih =>
      rcases List.mem_cons.mp h with rfl | hrest
      · exact .inr List.mem_cons_self
      · exact (ih hrest).imp_right (List.mem_cons_of_mem _)

/-- A sign that is not in the pattern is not replaced. What is skipped is the rest of the pattern,
so the sign is not in there either. -/
theorem mem_replaceFrom_of_mem {sign : Char} {signs : List Char} (replacement : List Char)
    {skip : Nat} {text : List Char} (hpattern : c ∉ sign :: signs) (hskip : c ∉ text.take skip)
    (h : c ∈ text) : c ∈ replaceFrom (sign :: signs) replacement skip text := by
  generalize hsame : sign :: signs = pattern
  fun_induction replaceFrom pattern replacement skip text with
  | case1 => exact h
  | case2 first rest skip ih =>
      rw [List.take_succ_cons] at hskip
      obtain ⟨hfirst, hrest⟩ := not_or.mp (mt List.mem_cons.mpr hskip)
      exact ih hrest ((List.mem_cons.mp h).resolve_left hfirst)
  | case3 first rest hprefix ih =>
      subst hsame
      obtain ⟨tail, htail⟩ := List.isPrefixOf_iff_prefix.mp hprefix
      obtain ⟨rfl, rfl⟩ := List.cons.inj (show sign :: (signs ++ tail) = first :: rest from htail)
      refine List.mem_append_right _ (ih ?_ ?_)
      · rw [List.length_cons, Nat.add_sub_cancel, List.take_left]
        exact fun hmem => hpattern (List.mem_cons_of_mem _ hmem)
      · exact (List.mem_cons.mp h).resolve_left fun heq => hpattern (heq ▸ List.mem_cons_self)
  | case4 first rest _ ih =>
      rcases List.mem_cons.mp h with rfl | hrest
      · exact List.mem_cons_self
      · exact List.mem_cons_of_mem _ (ih List.not_mem_nil hrest)

end Text

/-! ### Names -/

namespace Naming

/-- Whether a name is free of the sign by which reserved keys are known. -/
def Unreserved (name : String) : Prop := '$' ∉ name.toList

instance : DecidablePred Unreserved := fun _ => inferInstanceAs (Decidable (¬ _))

theorem unreserved_of_valid {name : String} (h : isValid name) : Unreserved name :=
  fun hmem => absurd ((isValid_iff.mp h).parts _ hmem) (by decide)

end Naming

namespace RelationDef

variable {relation : RelationDef} {template model : String}

/-- Whether the other side of a relation is named without the sign of reserved keys. -/
def Unreserved (relation : RelationDef) : Prop :=
  ∀ template, relation.relatedName = some template → Naming.Unreserved template

theorem unreserved_expand (htemplate : Naming.Unreserved template)
    (hmodel : Naming.isValid model) : Naming.Unreserved (expand template model) := by
  intro hmem
  unfold expand at hmem
  rw [String.toList_ofList] at hmem
  exact (Text.mem_replaceFrom hmem).elim
    (Naming.unreserved_of_valid (Naming.isValid_snakeCase hmodel)) htemplate

/-- A template that one model can use has no sign of a reserved key in it. -/
theorem unreserved_template (h : Naming.isValid (expand template model)) :
    Naming.Unreserved template := by
  intro hmem
  apply Naming.unreserved_of_valid h
  unfold expand
  rw [String.toList_ofList]
  exact Text.mem_replaceFrom_of_mem _ (by decide) List.not_mem_nil hmem

/-- A relation that one model may declare is named without reserved signs in every model that
inherits it. -/
theorem Unreserved.reverseName (h : relation.Unreserved) (hmodel : Naming.isValid model) :
    Naming.Unreserved (relation.reverseName model) := by
  have hsnake := Naming.isValid_snakeCase hmodel
  unfold RelationDef.reverseName
  split
  · rename_i template hrelated
    exact unreserved_expand (h template hrelated) hmodel
  · exact Naming.unreserved_of_valid hsnake
  · exact Naming.unreserved_of_valid (Naming.isValid_plural hsnake)

end RelationDef

end ModelSurface
