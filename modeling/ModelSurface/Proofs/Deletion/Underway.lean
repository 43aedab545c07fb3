import ModelSurface.Proofs.Deletion.Erosion

/-!
# Removals that are underway

A removal walks over the records that go with a record, and changes the tables while it walks. The
records that it has begun to remove fall into those that it is still busy with, and those that are
gone and to which nothing refers any more.
-/

namespace ModelSurface.Deletion

/-- The records that a deletion takes along: the deleted record, and every record that refers to
one of them by a single reference that cascades. -/
inductive Doomed (schema : Schema) (tables : Tables) (root : RowKey) : RowKey → Prop where
  | root : Doomed schema tables root root
  | cascade {key : RowKey} {holder : Model} {relationship : Relationship} {id : Identity}
      {record : Record} : Doomed schema tables root key → holder ∈ schema.models →
      relationship ∈ holder.relationships.values → relationship.isOwn →
      relationship.target = key.model → relationship.cardinality ≠ .manyToMany →
      relationship.onDelete = .cascade → tables.get? holder.name id = some record →
      key.id.toValue.refersTo (record.get? relationship.name) →
      Doomed schema tables root ⟨holder.name, id⟩

theorem effectOf_eq_cascade {relationship : Relationship} : effectOf relationship = .cascade ↔
    relationship.cardinality ≠ .manyToMany ∧ relationship.onDelete = .cascade := by
  unfold effectOf
  cases relationship.onDelete with
  | restrict => simp
  | cascade => by_cases hmany : relationship.cardinality = .manyToMany <;> simp [hmany]
  | setNull =>
      by_cases hmany : relationship.cardinality = .manyToMany <;>
        by_cases hnull : relationship.nullable <;> simp [hmany, hnull]

theorem mem_holders {schema : Schema} {model : String} {holder : Model}
    {relationship : Relationship} : (holder, relationship) ∈ holders schema model ↔
      holder ∈ schema.models ∧ relationship ∈ holder.relationships.values ∧
        relationship.isOwn ∧ relationship.target = model := by
  unfold holders
  rw [List.mem_flatMap]
  constructor
  · rintro ⟨found, hmodel, hmem⟩
    obtain ⟨r, hr, heq⟩ := List.mem_map.mp hmem
    obtain ⟨rfl, rfl⟩ := Prod.mk.inj heq
    obtain ⟨hvalue, hboth⟩ := List.mem_filter.mp hr
    obtain ⟨hown, htarget⟩ := Bool.and_eq_true_iff.mp hboth
    exact ⟨hmodel, hvalue, hown, beq_iff_eq.mp htarget⟩
  · rintro ⟨hmodel, hvalue, hown, htarget⟩
    exact ⟨holder, hmodel, List.mem_map.mpr ⟨relationship, List.mem_filter.mpr
      ⟨hvalue, Bool.and_eq_true_iff.mpr ⟨hown, beq_iff_eq.mpr htarget⟩⟩, rfl⟩⟩

/-- No record that stays refers to a removed one by a relationship, or it only does so where the
reference is part of a record that is on its way out. -/
def Dealt (key : RowKey) (holder : Model) (relationship : Relationship) (visited : List RowKey)
    (tables : Tables) : Prop :=
  ∀ id, ⟨holder.name, id⟩ ∉ visited → ∀ record, tables.get? holder.name id = some record →
    relationship.Settled key (record.get? relationship.name)

/-- A removal under way. `opened` are the records whose removal has begun and is not over. -/
structure Underway (schema : Schema) (before : Tables) (root : RowKey)
    (opened visited : List RowKey) (tables : Tables) : Prop where
  doomed : ∀ key ∈ visited, Doomed schema before root key
  stored : ∀ key ∈ visited, (before.get? key.model key.id).isSome
  nodup : visited.Nodup
  removed : ∀ key ∈ visited, key ∉ opened → tables.get? key.model key.id = none
  eroded : Tables.Eroded schema visited before tables
  identified : tables.Identified schema
  dealt : ∀ key ∈ visited, key ∉ opened → ∀ holder relationship,
    (holder, relationship) ∈ holders schema key.model →
    Dealt key holder relationship visited tables
  sequences : tables.sequences = before.sequences

/-- A part of a removal, from some tables to later ones. -/
structure Advance (schema : Schema) (before : Tables) (root : RowKey) (opened : List RowKey)
    (visited : List RowKey) (tables : Tables) (visited' : List RowKey) (tables' : Tables) :
    Prop where
  suffix : visited <:+ visited'
  eroded : Tables.Eroded schema visited' tables tables'
  underway : Underway schema before root opened visited' tables'

variable {schema : Schema} {before : Tables} {root : RowKey}

theorem Dealt.mono {key : RowKey} {holder : Model} {relationship : Relationship}
    {visited visited' : List RowKey} {tables tables' : Tables}
    (h : Dealt key holder relationship visited tables) (hregular : schema.Regular)
    (hholder : (holder, relationship) ∈ holders schema key.model)
    (hsubset : visited ⊆ visited') (heroded : Tables.Eroded schema visited' tables tables') :
    Dealt key holder relationship visited' tables' := by
  intro id hid new hnew
  obtain ⟨hmodel, hmem, hown, -⟩ := mem_holders.mp hholder
  obtain ⟨old, hold, hrecord⟩ := heroded.of_after ⟨holder.name, id⟩ hid hnew
  obtain ⟨lost, -, heq⟩ := hrecord.get? relationship.name
  have hremaining : schema.remaining lost holder.name relationship.name =
      relationship.remaining lost :=
    funext (Schema.remaining_of_reference (hregular.reference?_own hmodel hmem hown))
  rw [heq, hremaining]
  exact (h id (fun hvisited => hid (hsubset hvisited)) old hold).mono lost

namespace Advance

variable {opened visited visited' visited'' : List RowKey} {tables tables' tables'' : Tables}

theorem refl (h : Underway schema before root opened visited tables) :
    Advance schema before root opened visited tables visited tables where
  suffix := List.suffix_rfl
  eroded := .refl tables
  underway := h

theorem trans (hfirst : Advance schema before root opened visited tables visited' tables')
    (hsecond : Advance schema before root opened visited' tables' visited'' tables'') :
    Advance schema before root opened visited tables visited'' tables'' where
  suffix := hfirst.suffix.trans hsecond.suffix
  eroded := (hfirst.eroded.mono hsecond.suffix.subset).trans hsecond.eroded
  underway := hsecond.underway

end Advance

/-! ### Opening and closing -/

namespace Underway

variable {opened visited : List RowKey} {tables tables' : Tables} {key : RowKey}

theorem start (hidentified : before.Identified schema) :
    Underway schema before root [] [] before where
  doomed _ hkey := absurd hkey List.not_mem_nil
  stored _ hkey := absurd hkey List.not_mem_nil
  nodup := .nil
  removed _ hkey := absurd hkey List.not_mem_nil
  eroded := .refl before
  identified := hidentified
  dealt _ hkey := absurd hkey List.not_mem_nil
  sequences := rfl

theorem begun (h : Underway schema before root opened visited tables) (hregular : schema.Regular)
    (hkey : key ∉ visited) (hdoomed : Doomed schema before root key)
    (hstored : (before.get? key.model key.id).isSome) :
    Underway schema before root (key :: opened) (key :: visited) tables where
  doomed := List.forall_mem_cons.mpr ⟨hdoomed, h.doomed⟩
  stored := List.forall_mem_cons.mpr ⟨hstored, h.stored⟩
  nodup := List.nodup_cons.mpr ⟨hkey, h.nodup⟩
  removed other hother hopened := by
    obtain ⟨hne, hopened⟩ := List.ne_and_not_mem_of_not_mem_cons hopened
    exact h.removed other ((List.mem_cons.mp hother).resolve_left hne) hopened
  eroded := h.eroded.mono (List.subset_cons_self key visited)
  identified := h.identified
  dealt other hother hopened holder relationship hholder := by
    obtain ⟨hne, hopened⟩ := List.ne_and_not_mem_of_not_mem_cons hopened
    exact (h.dealt other ((List.mem_cons.mp hother).resolve_left hne) hopened holder relationship
      hholder).mono hregular hholder (List.subset_cons_self key visited) (.refl tables)
  sequences := h.sequences

/-- A record goes when nothing depends on it any more. -/
theorem close (h : Underway schema before root (key :: opened) visited tables)
    (hregular : schema.Regular) (hkey : key ∈ visited)
    (hdealt : ∀ holder relationship, (holder, relationship) ∈ holders schema key.model →
      Dealt key holder relationship visited tables) :
    Advance schema before root opened visited tables visited
      (tables.erase key.model key.id) := by
  have hother : ∀ other : RowKey, other ≠ key →
      (tables.erase key.model key.id).get? other.model other.id =
        tables.get? other.model other.id := by
    intro other hne
    rw [Tables.get?_erase, if_neg]
    rintro ⟨hmodel, hid⟩
    exact hne (by cases other; cases key; cases hmodel; cases hid; rfl)
  have heroded : Tables.Eroded schema visited tables (tables.erase key.model key.id) := by
    intro other hvisited
    rw [hother other fun heq => hvisited (heq ▸ hkey)]
    exact Tables.Eroded.refl tables other hvisited
  refine ⟨List.suffix_rfl, heroded, ?_⟩
  refine ⟨h.doomed, h.stored, h.nodup, ?_, h.eroded.trans heroded,
    h.identified.erase key.model key.id, ?_, ?_⟩
  · intro other hvisited hopened
    by_cases heq : other = key
    · rw [heq, Tables.get?_erase, if_pos ⟨rfl, rfl⟩]
    · rw [hother other heq]
      exact h.removed other hvisited (List.not_mem_cons_of_ne_of_not_mem heq hopened)
  · intro other hvisited hopened holder relationship hholder
    by_cases heq : other = key
    · subst heq
      exact (hdealt holder relationship hholder).mono hregular hholder (List.Subset.refl _) heroded
    · have hnot := List.not_mem_cons_of_ne_of_not_mem heq hopened
      exact (h.dealt other hvisited hnot holder relationship hholder).mono hregular hholder
        (List.Subset.refl _) heroded
  · rw [Tables.sequences_erase]
    exact h.sequences

/-- Records may lose references to a record that is on its way out. -/
theorem erode (h : Underway schema before root opened visited tables) (hregular : schema.Regular)
    (hkey : key ∈ visited) (hsequences : tables'.sequences = tables.sequences)
    (hrecords : ∀ model id, Option.Rel (Record.Eroded schema model [key])
      (tables.get? model id) (tables'.get? model id)) :
    Advance schema before root opened visited tables visited tables' := by
  have heroded : Tables.Eroded schema visited tables tables' := by
    intro other _
    have hrel := hrecords other.model other.id
    generalize tables.get? other.model other.id = old at hrel ⊢
    generalize tables'.get? other.model other.id = new at hrel ⊢
    cases hrel with
    | none => exact .none
    | some hrecord =>
        exact .some (hrecord.mono (List.cons_subset.mpr ⟨hkey, List.nil_subset _⟩))
  refine ⟨List.suffix_rfl, heroded, ?_⟩
  refine ⟨h.doomed, h.stored, h.nodup, ?_, h.eroded.trans heroded, ?_, ?_,
    hsequences.trans h.sequences⟩
  · intro other hvisited hopened
    have hrel := hrecords other.model other.id
    rw [h.removed other hvisited hopened] at hrel
    generalize tables'.get? other.model other.id = new at hrel ⊢
    cases hrel
    rfl
  · intro model hmodel id new hnew
    have hrel := hrecords model.name id
    rw [hnew] at hrel
    generalize hold : tables.get? model.name id = old at hrel
    cases hrel with
    | some hrecord =>
        rw [hrecord.identity? hregular hmodel]
        exact h.identified model hmodel id _ hold
  · intro other hvisited hopened holder relationship hholder
    exact (h.dealt other hvisited hopened holder relationship hholder).mono hregular hholder
      (List.Subset.refl _) heroded

end Underway

end ModelSurface.Deletion
