import ModelSurface.Proofs.Deletion.Outcome
import ModelSurface.Proofs.Engine.Calm
import ModelSurface.Proofs.Linked

/-!
# Deletions that are refused

When nothing from outside makes it fail, a deletion of a stored record is carried out, or some
record keeps one that would have to go from going, and callers are told so. A record that loses a
reference is rewritten where it is stored, never after it has been removed; and it loses nothing
else, so that what is found to be in the way was there from the beginning.
-/

namespace ModelSurface.Deletion

open Writing (Safe)

variable {schema : Schema} {before : Tables} {root key : RowKey} {holder : Model}
  {relationship : Relationship} {start : Work}

/-- A stored record keeps another one from going. -/
inductive Restricts (schema : Schema) (tables : Tables) (key : RowKey) : RowKey → Prop where
  | holder {holder : Model} {relationship : Relationship} {id : Identity} {record : Record}
      (hholder : (holder, relationship) ∈ holders schema key.model)
      (heffect : effectOf relationship = .restrict) (hother : (⟨holder.name, id⟩ : RowKey) ≠ key)
      (hrecord : tables.get? holder.name id = some record)
      (hrefers : key.id.toValue.refersTo (record.get? relationship.name)) :
      Restricts schema tables key ⟨holder.name, id⟩

/-- A deletion is refused because of a record that keeps one from going which would have to. -/
structure Refused (schema : Schema) (tables : Tables) (root : RowKey) (failure : Failure) :
    Prop where
  restricted : ∃ violation, failure = .refused [violation] ∧ violation.kind = .cascadeRestricted
  restricts : ∃ key other, Doomed schema tables root key ∧ Restricts schema tables key other

theorem Refused.isTold {failure : Failure} (h : Refused schema before root failure) :
    failure.IsTold := by
  obtain ⟨violation, rfl, hkind⟩ := h.restricted
  refine Failure.isTold_refused ?_
  rw [hkind]
  exact ErrorKind.noConfusion

/-! ### Records while others are removed -/

/-- Every stored record was stored before, and has lost nothing but references since. -/
def Worn (schema : Schema) (before tables : Tables) : Prop :=
  ∀ name id record, tables.get? name id = some record →
    ∃ old gone, before.get? name id = some old ∧ Record.Eroded schema name gone old record

namespace Worn

variable {tables tables' : Tables}

theorem refl (tables : Tables) : Worn schema tables tables :=
  fun _ _ record hrecord => ⟨record, [], hrecord, .refl record⟩

/-- A record is rewritten as what is left of it. -/
theorem put (h : Worn schema before tables) (h' : Worn schema before tables') {name : String}
    {id : Identity} {record new : Record} {gone : List RowKey}
    (hrecord : tables.get? name id = some record)
    (hnew : Record.Eroded schema name gone record new) :
    Worn schema before (tables'.put name id new) := by
  intro other id' found hfound
  rw [Tables.get?_put] at hfound
  by_cases hsame : other = name ∧ id' = id
  · rw [if_pos hsame] at hfound
    obtain ⟨rfl, rfl⟩ := hsame
    obtain rfl := Option.some.inj hfound
    obtain ⟨old, lost, hold, heroded⟩ := h other id' record hrecord
    exact ⟨old, lost ++ gone, hold, (heroded.mono (List.subset_append_left _ _)).trans
      (hnew.mono (List.subset_append_right _ _))⟩
  · rw [if_neg hsame] at hfound
    exact h' other id' found hfound

theorem erase (h : Worn schema before tables) (name : String) (id : Identity) :
    Worn schema before (tables.erase name id) := by
  intro other id' found hfound
  rw [Tables.get?_erase] at hfound
  split at hfound
  · cases hfound
  · exact h other id' found hfound

/-- A reference that leads to a record now, and is not one to be cleared, did so before. -/
theorem refers (h : Worn schema before tables) (hregular : schema.Regular)
    (hholder : (holder, relationship) ∈ holders schema key.model)
    (heffect : effectOf relationship = .cascade ∨ effectOf relationship = .restrict)
    {id : Identity} {record : Record} (hrecord : tables.get? holder.name id = some record)
    (hrefers : key.id.toValue.refersTo (record.get? relationship.name)) :
    ∃ old, before.get? holder.name id = some old ∧
      key.id.toValue.refersTo (old.get? relationship.name) := by
  obtain ⟨hmodel, hmem, hown, -⟩ := mem_holders.mp hholder
  obtain ⟨old, gone, hold, heroded⟩ := h holder.name id record hrecord
  rw [heroded.get?_of_kept hregular hmodel hmem hown heffect] at hrefers
  exact ⟨old, hold, hrefers⟩

end Worn

/-- What holds between two steps of a removal. -/
structure Steady (schema : Schema) (before tables : Tables) : Prop where
  identified : tables.Identified schema
  worn : Worn schema before tables

namespace Steady

variable {tables : Tables} {record : Record}

/-- A dependent that is to go along was doomed from the beginning. -/
theorem doomed_of_dependent (h : Steady schema before tables) (hregular : schema.Regular)
    (hdoomed : Doomed schema before root key)
    (hholder : (holder, relationship) ∈ holders schema key.model)
    (heffect : effectOf relationship = .cascade)
    (hdependent : record ∈ dependents key.model key.id holder relationship
      (tables.scan holder.name)) :
    ∃ id, Record.identity? record holder.identity.name = some id ∧
      Doomed schema before root ⟨holder.name, id⟩ := by
  obtain ⟨hmodel, hmem, hown, htarget⟩ := mem_holders.mp hholder
  obtain ⟨hsingle, hcascade⟩ := effectOf_eq_cascade.mp heffect
  obtain ⟨hscan, hrefers, -⟩ := mem_dependents.mp hdependent
  obtain ⟨id, hrecord⟩ := Tables.mem_scan.mp hscan
  obtain ⟨old, hold, hrefers⟩ := h.worn.refers hregular hholder (.inl heffect) hrecord hrefers
  exact ⟨id, h.identified holder hmodel id record hrecord,
    hdoomed.cascade hmodel hmem hown htarget hsingle hcascade hold hrefers⟩

/-- A dependent that keeps a record from going did so from the beginning. -/
theorem restricts_of_dependent (h : Steady schema before tables) (hregular : schema.Regular)
    (hholder : (holder, relationship) ∈ holders schema key.model)
    (heffect : effectOf relationship = .restrict)
    (hdependent : record ∈ dependents key.model key.id holder relationship
      (tables.scan holder.name)) : ∃ other, Restricts schema before key other := by
  obtain ⟨hscan, hrefers, hself⟩ := mem_dependents.mp hdependent
  obtain ⟨id, hrecord⟩ := Tables.mem_scan.mp hscan
  have hid := h.identified holder (mem_holders.mp hholder).1 id record hrecord
  obtain ⟨old, hold, hrefers⟩ := h.worn.refers hregular hholder (.inr heffect) hrecord hrefers
  refine ⟨_, .holder hholder heffect ?_ hold hrefers⟩
  rintro rfl
  exact hself ⟨rfl, hid⟩

end Steady

/-! ### Steps of removals -/

/-- How a removal may fail as far as its single steps go. -/
def Halts (schema : Schema) (before : Tables) (root : RowKey) (failure : Failure) (_ : Work) :
    Prop :=
  failure = .breach .depth ∨ Refused schema before root failure

/-- Records that are stored are changed where they are, if the change only takes references from
them. -/
theorem changeEach_safe (hregular : schema.Regular) (hmodel : holder ∈ schema.models)
    {change : Record → Record} {records : List Record} {gone : List RowKey}
    (hchange : ∀ record ∈ records, Record.Eroded schema holder.name gone record (change record))
    (hsteady : Steady schema before start.tables)
    (hrecords : ∀ record ∈ records, record ∈ start.tables.scan holder.name) :
    Safe (changeEach holder change records) start
      (fun _ stop => Steady schema before stop.tables) (Halts schema before root) := by
  refine (Safe.forM (fun _ between => Steady schema before between.tables ∧
    start.tables.Retains between.tables) ⟨hsteady, fun _ _ h => h⟩ ?_).mono
      (fun _ _ h => h.1) fun _ _ h => h
  rintro done record between hpart ⟨hbetween, hretains⟩
  have hmem : record ∈ records := hpart.subset (by simp)
  obtain ⟨id, hrecord⟩ := Tables.mem_scan.mp (hrecords record hmem)
  have hid := hsteady.identified holder hmodel id record hrecord
  rw [hid]
  refine .replace (hretains _ _ (Option.isSome_of_eq_some hrecord)) ⟨⟨?_, ?_⟩, ?_⟩
  · refine hbetween.identified.put ?_
    intro other hother hname
    have hsame := hregular.model?_eq_some.mpr ⟨hother, hname⟩
    rw [hregular.model?_eq_some.mpr ⟨hmodel, rfl⟩] at hsame
    rw [← Option.some.inj hsame, (hchange record hmem).identity? hregular hmodel, hid]
  · exact hsteady.worn.put hbetween.worn hrecord (hchange record hmem)
  · exact hretains.trans (between.tables.retains_put holder.name id _)

theorem detach_safe (hregular : schema.Regular)
    {removal : List RowKey → RowKey → Writing (List RowKey)}
    (hremoval : ∀ visited key work, Doomed schema before root key →
      Steady schema before work.tables →
        Safe (removal visited key) work (fun _ stop => Steady schema before stop.tables)
          (Halts schema before root))
    (visited : List RowKey) (hdoomed : Doomed schema before root key)
    (hholder : (holder, relationship) ∈ holders schema key.model)
    (hsteady : Steady schema before start.tables) :
    Safe (detach removal key visited (holder, relationship)) start
      (fun _ stop => Steady schema before stop.tables) (Halts schema before root) := by
  obtain ⟨hmodel, -⟩ := mem_holders.mp hholder
  refine .bind (fun records stop => records = start.tables.scan holder.name ∧ stop = start)
    (.scan ⟨rfl, rfl⟩) ?_
  rintro _ start ⟨rfl, rfl⟩
  have hstored : ∀ record ∈ dependents key.model key.id holder relationship
      (start.tables.scan holder.name), record ∈ start.tables.scan holder.name :=
    fun record hrecord => (mem_dependents.mp hrecord).1
  dsimp only
  split
  · exact .pure hsteady
  · rename_i hnonempty
    split
    · rename_i heffect
      refine .foldlM (fun _ _ between => Steady schema before between.tables) hsteady ?_
      intro done record visited' between hpart hbetween
      obtain ⟨id, hid, hgoes⟩ := hsteady.doomed_of_dependent hregular hdoomed hholder heffect
        (hpart.subset (List.mem_append_right done List.mem_cons_self))
      rw [hid]
      exact hremoval _ _ between hgoes hbetween
    · rename_i heffect
      exact .bind _ (changeEach_safe hregular hmodel
        (fun record _ => (unlink_spec hregular hholder heffect record).1) hsteady hstored)
        fun _ _ h => .pure h
    · rename_i heffect
      exact .bind _ (changeEach_safe hregular hmodel
        (fun record hrecord =>
          (clear_spec hregular hholder heffect (mem_dependents.mp hrecord).2.1).1) hsteady hstored)
        fun _ _ h => .pure h
    · rename_i heffect
      obtain ⟨record, hdependent⟩ :=
        List.exists_mem_of_ne_nil _ fun hnil => hnonempty (List.isEmpty_iff.mpr hnil)
      obtain ⟨other, hrestricts⟩ :=
        hsteady.restricts_of_dependent hregular hholder heffect hdependent
      exact .refuse (.inr ⟨⟨_, rfl, rfl⟩, key, other, hdoomed, hrestricts⟩)

theorem remove_safe (hregular : schema.Regular) (depth : Nat) (visited : List RowKey)
    (key : RowKey) (work : Work) (hdoomed : Doomed schema before root key)
    (hsteady : Steady schema before work.tables) :
    Safe (remove schema depth visited key) work
      (fun _ stop => Steady schema before stop.tables) (Halts schema before root) := by
  induction depth generalizing visited key work with
  | zero =>
      unfold remove
      split
      · exact .pure hsteady
      · exact .bind (fun _ _ => True) (.checkpoint trivial) fun _ _ _ _ => .inl rfl
  | succ depth ih =>
      unfold remove
      split
      · exact .pure hsteady
      · refine .bind (fun _ stop => stop = work) (.checkpoint rfl) ?_
        rintro _ _ rfl
        refine .bind (fun _ stop => Steady schema before stop.tables)
          (.foldlM (fun _ _ between => Steady schema before between.tables) hsteady ?_) ?_
        · rintro done ⟨holder, relationship⟩ visited' between hpart hbetween
          exact detach_safe hregular ih visited' hdoomed (hpart.subset (by simp)) hbetween
        · intro visited' between hbetween
          have herased : Steady schema before (between.tables.erase key.model key.id) :=
            ⟨hbetween.identified.erase key.model key.id, hbetween.worn.erase key.model key.id⟩
          exact .bind (fun _ stop => Steady schema before stop.tables)
            (.remove herased) fun _ _ h => .pure h

/-! ### Deletions -/

/-- A record is deleted, or it is not stored, or a record is in the way. -/
theorem delete_decided (hregular : schema.Regular) (model : String) (id : Identity)
    (hidentified : start.tables.Identified schema) :
    Safe (delete schema model id) start (fun _ _ => True) fun failure _ =>
      (start.tables.get? model id = none ∧ failure = .refused [.ofCause .notFound]) ∨
        Refused schema start.tables ⟨model, id⟩ failure := by
  have hhalts : Safe (delete schema model id) start (fun _ _ => True) fun failure stop =>
      (start.tables.get? model id = none ∧ failure = .refused [.ofCause .notFound]) ∨
        Halts schema start.tables ⟨model, id⟩ failure stop := by
    unfold delete
    refine .bind (fun found stop => start.tables.get? model id = found ∧ stop = start)
      (.get? ⟨rfl, rfl⟩) ?_
    rintro found start ⟨hfound, rfl⟩
    split
    · exact .refuse (.inl ⟨hfound, rfl⟩)
    · refine .bind (fun _ stop => stop = start) (fun hcalm => ⟨hcalm, rfl⟩) ?_
      rintro work start rfl
      exact .bind _ ((remove_safe hregular _ _ _ start .root
        ⟨hidentified, .refl start.tables⟩).mono (fun _ _ h => h) fun _ _ => .inr)
        fun _ _ _ => .pure trivial
  refine .intro (fun _ _ hcalm hrun => hhalts.ok hcalm hrun) ?_
  intro failure stop hcalm hrun
  rcases hhalts.error hcalm hrun with habsent | hdepth | hrefused
  · exact .inl habsent
  · exact absurd hdepth ((delete_ends hregular model id hidentified).error hrun)
  · exact .inr hrefused

/-- A record is deleted, or callers are told why it is not. -/
theorem delete_safe (hregular : schema.Regular) (model : String) (id : Identity)
    (hidentified : start.tables.Identified schema) :
    Safe (delete schema model id) start (fun _ _ => True) fun failure _ => failure.IsTold := by
  refine (delete_decided hregular model id hidentified).mono (fun _ _ h => h) ?_
  rintro failure _ (⟨-, rfl⟩ | hrefused)
  · exact Failure.isTold_refused fun h => by cases h
  · exact hrefused.isTold

end ModelSurface.Deletion
