import ModelSurface.Proofs.Deletion.Removal

/-!
# The outcome of deletions

A deletion removes exactly the records that are doomed, and what remains of all others is told by
the relationships they hold.
-/

namespace ModelSurface

/-- A record that keeps all of its fields, apart from its references to records that are gone. -/
structure Record.Cleared (schema : Schema) (model : String) (gone : List RowKey)
    (before after : Record) : Prop where
  keys : after.keys = before.keys
  get? : ∀ field,
    after.get? field = (before.get? field).map (schema.remaining gone model field)

namespace Deletion

/-- The tables after a record has been deleted, together with those that go along. -/
structure Outcome (schema : Schema) (before : Tables) (root : RowKey) (gone : List RowKey)
    (after : Tables) : Prop where
  doomed : ∀ key, key ∈ gone ↔ Doomed schema before root key
  removed : ∀ key ∈ gone, (before.get? key.model key.id).isSome ∧
    after.get? key.model key.id = none
  kept : ∀ key ∉ gone, Option.Rel (Record.Cleared schema key.model gone)
    (before.get? key.model key.id) (after.get? key.model key.id)
  unrestricted : ∀ key ∈ gone, ∀ holder relationship,
    (holder, relationship) ∈ holders schema key.model → effectOf relationship = .restrict →
    ∀ id, ⟨holder.name, id⟩ ∉ gone → ∀ record, before.get? holder.name id = some record →
      key.id.toValue.refersTo (record.get? relationship.name) = false
  sequences : after.sequences = before.sequences

variable {schema : Schema} {before after : Tables} {root : RowKey} {visited : List RowKey}

/-- A removal that is over has begun to remove all that is doomed. -/
theorem mem_visited_of_doomed (hregular : schema.Regular)
    (hover : Underway schema before root [] visited after) (hroot : root ∈ visited)
    {key : RowKey} (hdoomed : Doomed schema before root key) : key ∈ visited := by
  induction hdoomed with
  | root => exact hroot
  | @cascade key holder relationship id record _ hmodel hmem hown htarget hsingle hcascade hstored
      hrefers hkey =>
      by_contra hnew
      have heffect := effectOf_eq_cascade.mpr ⟨hsingle, hcascade⟩
      obtain ⟨new, hnew_stored, heroded⟩ := hover.eroded.of_before ⟨holder.name, id⟩ hnew hstored
      have hsettled := hover.dealt key hkey List.not_mem_nil holder relationship
        (mem_holders.mpr ⟨hmodel, hmem, hown, htarget⟩) id hnew new hnew_stored
      unfold Relationship.Settled at hsettled
      rw [heffect, heroded.get?_of_kept hregular hmodel hmem hown (.inl heffect)] at hsettled
      rw [hsettled] at hrefers
      cases hrefers

/-- Records that stay have lost exactly their references to those that are gone. -/
theorem cleared_of_eroded (hregular : schema.Regular)
    (hover : Underway schema before root [] visited after) {key : RowKey} (hkey : key ∉ visited)
    {old new : Record} (hnew : after.get? key.model key.id = some new)
    (heroded : Record.Eroded schema key.model visited old new) :
    Record.Cleared schema key.model visited old new := by
  refine ⟨heroded.keys, ?_⟩
  intro field
  obtain ⟨lost, hlost, heq⟩ := heroded.get? field
  rw [heq]
  cases hreference : schema.reference? key.model field with
  | none =>
      rw [Schema.remaining_of_no_reference hreference, Schema.remaining_of_no_reference hreference]
  | some relationship =>
      cases hvalue : old.get? field with
      | none => rfl
      | some value =>
          rw [hvalue, Option.map_some, Schema.remaining_of_reference hreference] at heq
          rw [Option.map_some, Option.map_some, Schema.remaining_of_reference hreference,
            Schema.remaining_of_reference hreference]
          refine congrArg some (relationship.remaining_of_partial hlost fun other hother => ?_)
          by_cases htarget : other.model = relationship.target
          · obtain ⟨holder, hmodel, hname, hmem, hfield, hown⟩ :=
              hregular.reference?_eq_some.mp hreference
            have hsettled := hover.dealt other hother List.not_mem_nil holder relationship
              (mem_holders.mpr ⟨hmodel, hmem, hown, htarget.symm⟩) key.id
              (by rw [hname]; exact hkey) new (by rw [hname]; exact hnew)
            rw [hfield, heq] at hsettled
            exact hsettled.remaining htarget.symm
          · exact relationship.remaining_of_not_holdsGone (Value.holdsGone_of_other htarget)

theorem Outcome.of_underway (hregular : schema.Regular)
    (hover : Underway schema before root [] visited after) (hroot : root ∈ visited) :
    Outcome schema before root visited after where
  doomed key := ⟨hover.doomed key, mem_visited_of_doomed hregular hover hroot⟩
  removed key hkey := ⟨hover.stored key hkey, hover.removed key hkey List.not_mem_nil⟩
  kept key hkey := by
    have hrel := hover.eroded key hkey
    generalize hold : before.get? key.model key.id = old at hrel ⊢
    generalize hnew : after.get? key.model key.id = new at hrel ⊢
    cases hrel with
    | none => exact .none
    | some heroded => exact .some (cleared_of_eroded hregular hover hkey hnew heroded)
  unrestricted key hkey holder relationship hholder heffect id hid record hrecord := by
    obtain ⟨hmodel, hmem, hown, -⟩ := mem_holders.mp hholder
    obtain ⟨new, hnew, heroded⟩ := hover.eroded.of_before ⟨holder.name, id⟩ hid hrecord
    have hsettled := hover.dealt key hkey List.not_mem_nil holder relationship hholder id hid new
      hnew
    unfold Relationship.Settled at hsettled
    rw [heffect, heroded.get?_of_kept hregular hmodel hmem hown (.inr heffect)] at hsettled
    exact hsettled
  sequences := hover.sequences

/-- A deletion gives the record as it was and leads to its outcome. It never fails for want of
depth, whichever way records refer to each other. -/
theorem delete_ends (hregular : schema.Regular) (model : String) (id : Identity) {start : Work}
    (hidentified : start.tables.Identified schema) :
    Writing.Ends (delete schema model id) start (fun record stop =>
      start.tables.get? model id = some record ∧ ∃ gone,
        Outcome schema start.tables ⟨model, id⟩ gone stop.tables) Bounded := by
  refine .bind (fun found stop => start.tables.get? model id = found ∧ start = stop)
    (.read bounded_storage fun found hrun => ⟨(Writing.get?_ok hrun).1, rfl⟩) ?_
  rintro found _ ⟨hfound, rfl⟩
  cases found with
  | none => exact .refuse (bounded_refused _)
  | some record =>
      refine .bind (fun work stop => start = work ∧ start = stop) ⟨rfl, rfl⟩ ?_
      rintro _ _ ⟨rfl, rfl⟩
      refine .bind _ (remove_ends hregular _ (Underway.start hidentified)
        (fun _ => ⟨.root, Option.isSome_of_eq_some hfound⟩) ?_) ?_
      · rw [List.length_nil, Nat.zero_add]
        exact Nat.le_refl _
      · rintro visited stop ⟨hadvance, hroot⟩
        exact ⟨hfound, visited, .of_underway hregular hadvance.underway hroot⟩

end Deletion

end ModelSurface
