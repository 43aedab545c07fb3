import Mathlib.Data.List.Perm.Subperm
import ModelSurface.Proofs.Deletion.Underway
import ModelSurface.Proofs.Engine.Work

/-!
# Removals

What a removal does with each relationship that leads to a record, and with the records behind it. A
removal that ends has dealt with all of them, and it ends, since it begins each record only once.
-/

namespace ModelSurface.Deletion

variable {schema : Schema} {before : Tables} {root : RowKey}

/-! ### Single relationships -/

/-- How a removal may fail: not for want of depth. -/
def Bounded (failure : Failure) : Prop := failure ≠ .breach .depth

theorem bounded_storage (fault : StorageFault) : Bounded (.storage fault) := by
  intro h
  cases h

theorem bounded_refused (violations : List Violation) : Bounded (.refused violations) := by
  intro h
  cases h

/-- Each of the records is changed where it is stored, and all others stay as they are. -/
theorem changeEach_ends {holder : Model} (hmodel : holder ∈ schema.models)
    (change : Record → Record) {records : List Record} {start : Work}
    (hidentified : start.tables.Identified schema)
    (hrecords : ∀ record ∈ records, record ∈ start.tables.scan holder.name) :
    Writing.Ends (changeEach holder change records) start (fun _ stop =>
      stop.tables.sequences = start.tables.sequences ∧
      (∀ model id, stop.tables.get? model id = start.tables.get? model id ∨
        ∃ record ∈ records, model = holder.name ∧ start.tables.get? model id = some record ∧
          stop.tables.get? model id = some (change record)) ∧
      ∀ record ∈ records, ∀ id, start.tables.get? holder.name id = some record →
        stop.tables.get? holder.name id = some (change record)) Bounded := by
  refine Writing.Ends.forM (fun done stop =>
      stop.tables.sequences = start.tables.sequences ∧
      (∀ model id, stop.tables.get? model id = start.tables.get? model id ∨
        ∃ record ∈ done, model = holder.name ∧ start.tables.get? model id = some record ∧
          stop.tables.get? model id = some (change record)) ∧
      ∀ record ∈ done, ∀ id, start.tables.get? holder.name id = some record →
        stop.tables.get? holder.name id = some (change record))
    ⟨rfl, fun _ _ => .inl rfl, fun _ h => absurd h List.not_mem_nil⟩ ?_
  rintro done record between hpart ⟨hsequences, hall, hdone⟩
  have hrecord : record ∈ records := hpart.subset (by simp)
  obtain ⟨own, hown⟩ := Tables.mem_scan.mp (hrecords record hrecord)
  have hidentity := hidentified holder hmodel own record hown
  rw [hidentity]
  refine Writing.Ends.replace bounded_storage ⟨hsequences, ?_, ?_⟩
  · intro model id
    rw [Work.tables_withTables, Tables.get?_put]
    split
    · rename_i heq
      obtain ⟨rfl, rfl⟩ := heq
      exact .inr ⟨record, by simp, rfl, hown, rfl⟩
    · rcases hall model id with hsame | ⟨old, hold, heq, hstart, hchanged⟩
      · exact .inl hsame
      · exact .inr ⟨old, List.mem_append_left _ hold, heq, hstart, hchanged⟩
  · intro old hold id hstart
    rw [Work.tables_withTables, Tables.get?_put]
    split
    · rename_i heq
      rw [heq.2, hown] at hstart
      rw [Option.some.inj hstart]
    · rename_i hne
      rcases List.mem_append.mp hold with h | h
      · exact hdone old h id hstart
      · have hsame : old = record := List.mem_singleton.mp h
        have hid : some id = some own := by
          rw [← hidentified holder hmodel id old hstart, hsame, hidentity]
        exact absurd ⟨rfl, Option.some.inj hid⟩ hne

theorem mem_dependents {model : String} {id : Identity} {holder : Model}
    {relationship : Relationship} {records : List Record} {record : Record} :
    record ∈ dependents model id holder relationship records ↔
      record ∈ records ∧ id.toValue.refersTo (record.get? relationship.name) ∧
        ¬ (holder.name = model ∧ Record.identity? record holder.identity.name = some id) := by
  unfold dependents
  simp only [List.mem_filter, Bool.and_eq_true, Bool.not_eq_true', Bool.and_eq_false_iff,
    beq_eq_false_iff_ne, ne_eq, not_and_or]

/-- A stored record that refers to a removed one is one of its dependents, unless it is that record
itself. -/
theorem mem_dependents_of_refersTo {tables : Tables} (hidentified : tables.Identified schema)
    {key : RowKey} {holder : Model} {relationship : Relationship}
    (hholder : (holder, relationship) ∈ holders schema key.model) {id : Identity}
    (hne : (⟨holder.name, id⟩ : RowKey) ≠ key) {record : Record}
    (hrecord : tables.get? holder.name id = some record)
    (hrefers : key.id.toValue.refersTo (record.get? relationship.name)) :
    record ∈ dependents key.model key.id holder relationship (tables.scan holder.name) := by
  refine mem_dependents.mpr ⟨Tables.mem_scan.mpr ⟨id, hrecord⟩, hrefers, ?_⟩
  rintro ⟨hname, hid⟩
  rw [hidentified holder (mem_holders.mp hholder).1 id record hrecord] at hid
  refine hne ?_
  cases key
  cases hname
  cases hid
  rfl

theorem Dealt.of_no_dependents {tables : Tables} (hidentified : tables.Identified schema)
    {key : RowKey} {holder : Model} {relationship : Relationship} {visited : List RowKey}
    (hholder : (holder, relationship) ∈ holders schema key.model) (hkey : key ∈ visited)
    (hnone : dependents key.model key.id holder relationship (tables.scan holder.name) = []) :
    Dealt key holder relationship visited tables := by
  intro id hid record hrecord
  refine .of_not_refersTo (mem_holders.mp hholder).2.2.2 ?_
  rw [← Bool.not_eq_true]
  intro hrefers
  have hmem := mem_dependents_of_refersTo hidentified hholder (fun heq => hid (heq ▸ hkey))
    hrecord hrefers
  rw [hnone] at hmem
  cases hmem

section Holding

variable {opened visited : List RowKey} {key : RowKey} {holder : Model}
  {relationship : Relationship} {start : Work}

/-- Dependents that lose their references keep all else. -/
theorem changeEach_advance (hregular : schema.Regular)
    (hunderway : Underway schema before root opened visited start.tables) (hkey : key ∈ visited)
    (hholder : (holder, relationship) ∈ holders schema key.model)
    (heffect : effectOf relationship = .unlink ∨ effectOf relationship = .clear)
    (change : Record → Record)
    (hchange : ∀ record : Record, key.id.toValue.refersTo (record.get? relationship.name) →
      Record.Eroded schema holder.name [key] record (change record) ∧
      (change record).get? relationship.name =
        (record.get? relationship.name).map (relationship.remaining [key])) :
    Writing.Ends (changeEach holder change
        (dependents key.model key.id holder relationship (start.tables.scan holder.name))) start
      (fun _ stop =>
        Advance schema before root opened visited start.tables visited stop.tables ∧
          Dealt key holder relationship visited stop.tables) Bounded := by
  obtain ⟨hmodel, -, -, htarget⟩ := mem_holders.mp hholder
  have hidentified := hunderway.identified
  refine (changeEach_ends hmodel change hidentified fun record hrecord =>
    (mem_dependents.mp hrecord).1).mono ?_
  rintro _ stop ⟨hsequences, hall, hdone⟩
  constructor
  · refine hunderway.erode hregular hkey hsequences fun model id => ?_
    rcases hall model id with hsame | ⟨record, hrecord, rfl, hstart, hchanged⟩
    · rw [hsame]
      cases start.tables.get? model id with
      | none => exact .none
      | some record => exact .some (.refl record)
    · rw [hstart, hchanged]
      exact .some (hchange record (mem_dependents.mp hrecord).2.1).1
  · intro id hid new hnew
    have hne : (⟨holder.name, id⟩ : RowKey) ≠ key := fun heq => hid (heq ▸ hkey)
    rcases hall holder.name id with hsame | ⟨record, hrecord, -, -, hchanged⟩
    · rw [hnew] at hsame
      by_cases hrefers : key.id.toValue.refersTo (new.get? relationship.name)
      · have hmem := mem_dependents_of_refersTo hidentified hholder hne hsame.symm hrefers
        have hchanged : change new = new :=
          Option.some.inj ((hdone new hmem id hsame.symm).symm.trans hnew)
        have hsettled : relationship.Settled key ((change new).get? relationship.name) := by
          rw [(hchange new hrefers).2]
          exact .of_remaining htarget heffect
        rwa [hchanged] at hsettled
      · exact .of_not_refersTo htarget (Bool.eq_false_iff.mpr hrefers)
    · rw [hnew] at hchanged
      rw [Option.some.inj hchanged, (hchange record (mem_dependents.mp hrecord).2.1).2]
      exact .of_remaining htarget heffect

/-- What a set of links loses is what remains of it when the record is gone. -/
theorem unlink_spec (hregular : schema.Regular)
    (hholder : (holder, relationship) ∈ holders schema key.model)
    (heffect : effectOf relationship = .unlink) (record : Record) :
    Record.Eroded schema holder.name [key] record (unlink relationship.name key.id record) ∧
      (unlink relationship.name key.id record).get? relationship.name =
        (record.get? relationship.name).map (relationship.remaining [key]) := by
  obtain ⟨hmodel, hmem, hown, htarget⟩ := mem_holders.mp hholder
  have hreference := hregular.reference?_own hmodel hmem hown
  have hlist : ∀ items : List Value, relationship.remaining [key] (.list items) =
      .list (items.filter fun item => !item.same key.id.toValue) := by
    intro items
    rw [relationship.remaining_of_unlink heffect, htarget]
    refine congrArg Value.list (congrArg (List.filter · items) (funext fun item => ?_))
    rw [Value.isGone_singleton, Bool.eq_iff_iff, Bool.not_eq_true', Bool.not_eq_true',
      Bool.eq_false_iff, Bool.eq_false_iff]
    exact not_congr (Identity.same_toValue.trans Identity.toValue_same.symm)
  unfold unlink
  split
  · rename_i items hitems
    rw [Keyed.get?_put_self, hitems, Option.map_some, hlist]
    refine ⟨?_, rfl⟩
    have heroded : Record.Eroded schema holder.name [key] record (record.put relationship.name
        (schema.remaining [key] holder.name relationship.name (.list items))) :=
      .of_put List.mem_cons_self hitems
    rwa [Schema.remaining_of_reference hreference, hlist] at heroded
  · rename_i hsingle
    refine ⟨.refl record, ?_⟩
    cases hvalue : record.get? relationship.name with
    | none => rfl
    | some value =>
        refine congrArg some (relationship.remaining_of_not_list heffect ?_).symm
        rintro items rfl
        exact hsingle items hvalue

theorem clear_spec (hregular : schema.Regular)
    (hholder : (holder, relationship) ∈ holders schema key.model)
    (heffect : effectOf relationship = .clear) {record : Record}
    (hrefers : key.id.toValue.refersTo (record.get? relationship.name)) :
    Record.Eroded schema holder.name [key] record (record.put relationship.name .null) ∧
      (record.put relationship.name .null).get? relationship.name =
        (record.get? relationship.name).map (relationship.remaining [key]) := by
  obtain ⟨hmodel, hmem, hown, htarget⟩ := mem_holders.mp hholder
  cases hvalue : record.get? relationship.name with
  | none =>
      rw [hvalue] at hrefers
      cases hrefers
  | some value =>
      rw [hvalue, Value.refersTo_eq_holdsGone] at hrefers
      have hnull : relationship.remaining [key] value = .null := by
        rw [relationship.remaining_of_clear heffect, htarget, if_pos hrefers]
      rw [Keyed.get?_put_self, Option.map_some, hnull]
      refine ⟨?_, rfl⟩
      have heroded : Record.Eroded schema holder.name [key] record (record.put relationship.name
          (schema.remaining [key] holder.name relationship.name value)) :=
        .of_put List.mem_cons_self hvalue
      rwa [Schema.remaining_of_reference (hregular.reference?_own hmodel hmem hown), hnull]
        at heroded

/-- What the removal of a single record does, at a depth that suffices for the records that are not
visited. -/
def Removes (schema : Schema) (before : Tables) (root : RowKey) (depth : Nat) : Prop :=
  ∀ {opened visited : List RowKey} {key : RowKey} {start : Work},
    Underway schema before root opened visited start.tables →
    (key ∉ visited →
      Doomed schema before root key ∧ (before.get? key.model key.id).isSome) →
    before.rows.length + 1 ≤ visited.length + depth →
    Writing.Ends (remove schema depth visited key) start (fun visited' stop =>
      Advance schema before root opened visited start.tables visited' stop.tables ∧
        key ∈ visited') Bounded

/-- A dependent that a removal takes along is doomed, and was stored from the beginning. -/
theorem doomed_of_dependent (hregular : schema.Regular)
    (hunderway : Underway schema before root opened visited start.tables) (hkey : key ∈ visited)
    (hholder : (holder, relationship) ∈ holders schema key.model)
    (heffect : effectOf relationship = .cascade) {id : Identity} {record : Record}
    (hrecord : start.tables.get? holder.name id = some record)
    (hrefers : key.id.toValue.refersTo (record.get? relationship.name))
    (hnew : ⟨holder.name, id⟩ ∉ visited) :
    Doomed schema before root ⟨holder.name, id⟩ ∧ (before.get? holder.name id).isSome := by
  obtain ⟨hmodel, hmem, hown, htarget⟩ := mem_holders.mp hholder
  obtain ⟨hsingle, hcascade⟩ := effectOf_eq_cascade.mp heffect
  obtain ⟨old, hold, heroded⟩ := hunderway.eroded.of_after ⟨holder.name, id⟩ hnew hrecord
  rw [heroded.get?_of_kept hregular hmodel hmem hown (.inl heffect)] at hrefers
  exact ⟨.cascade (hunderway.doomed key hkey) hmodel hmem hown htarget hsingle hcascade hold
    hrefers, Option.isSome_of_eq_some hold⟩

/-- Dependents that go along are removed one after another. -/
theorem cascade_advance {depth : Nat} (hremoves : Removes schema before root depth)
    (hregular : schema.Regular)
    (hunderway : Underway schema before root opened visited start.tables) (hkey : key ∈ visited)
    (hholder : (holder, relationship) ∈ holders schema key.model)
    (heffect : effectOf relationship = .cascade)
    (hdepth : before.rows.length + 1 ≤ visited.length + depth) :
    Writing.Ends ((dependents key.model key.id holder relationship
        (start.tables.scan holder.name)).foldlM (fun visited record =>
          match Record.identity? record holder.identity.name with
          | none => pure visited
          | some id => remove schema depth visited ⟨holder.name, id⟩) visited) start
      (fun visited' stop =>
        Advance schema before root opened visited start.tables visited' stop.tables ∧
          Dealt key holder relationship visited' stop.tables) Bounded := by
  obtain ⟨hmodel, hmem, hown, htarget⟩ := mem_holders.mp hholder
  have hidentified := hunderway.identified
  refine (Writing.Ends.foldlM (fun done visited' stop =>
      Advance schema before root opened visited start.tables visited' stop.tables ∧
        ∀ record ∈ done, ∀ id, Record.identity? record holder.identity.name = some id →
          ⟨holder.name, id⟩ ∈ visited')
    ⟨.refl hunderway, fun _ h => absurd h List.not_mem_nil⟩ ?_).mono ?_
  · rintro done record visited' between hpart ⟨hadvance, hdone⟩
    obtain ⟨hscan, hrefers, -⟩ :=
      mem_dependents.mp (hpart.subset (List.mem_append_right done List.mem_cons_self))
    obtain ⟨id, hrecord⟩ := Tables.mem_scan.mp hscan
    have hidentity := hidentified holder hmodel id record hrecord
    rw [hidentity]
    have hlength := hadvance.suffix.length_le
    refine (hremoves hadvance.underway ?_ (by omega)).mono ?_
    · intro hnew
      exact doomed_of_dependent hregular hunderway hkey hholder heffect hrecord hrefers
        fun hvisited => hnew (hadvance.suffix.subset hvisited)
    · rintro visited'' stop ⟨hnext, hgone⟩
      refine ⟨hadvance.trans hnext, ?_⟩
      intro other hother id' hid'
      rcases List.mem_append.mp hother with h | h
      · exact hnext.suffix.subset (hdone other h id' hid')
      · rw [List.mem_singleton.mp h, hidentity] at hid'
        rwa [← Option.some.inj hid']
  · rintro visited' stop ⟨hadvance, hdone⟩
    refine ⟨hadvance, ?_⟩
    intro id hid new hnew
    refine .of_not_refersTo htarget (Bool.eq_false_iff.mpr fun hrefers => hid ?_)
    obtain ⟨old, hold, heroded⟩ := hadvance.eroded.of_after ⟨holder.name, id⟩ hid hnew
    rw [heroded.get?_of_kept hregular hmodel hmem hown (.inl heffect)] at hrefers
    have hne : (⟨holder.name, id⟩ : RowKey) ≠ key :=
      fun heq => hid (heq ▸ hadvance.suffix.subset hkey)
    exact hdone old (mem_dependents_of_refersTo hidentified hholder hne hold hrefers) id
      (hidentified holder hmodel id old hold)

/-- Whatever the relationship says, its references to a record on its way out are dealt with. -/
theorem detach_ends {depth : Nat} (hremoves : Removes schema before root depth)
    (hregular : schema.Regular)
    (hunderway : Underway schema before root opened visited start.tables) (hkey : key ∈ visited)
    (hholder : (holder, relationship) ∈ holders schema key.model)
    (hdepth : before.rows.length + 1 ≤ visited.length + depth) :
    Writing.Ends (detach (remove schema depth) key visited (holder, relationship)) start
      (fun visited' stop =>
        Advance schema before root opened visited start.tables visited' stop.tables ∧
          Dealt key holder relationship visited' stop.tables) Bounded := by
  refine .bind (fun records stop => records = start.tables.scan holder.name ∧ stop = start)
    (.scan bounded_storage ⟨rfl, rfl⟩) ?_
  rintro records stop ⟨rfl, rfl⟩
  dsimp only
  split
  · rename_i hnone
    exact ⟨.refl hunderway,
      .of_no_dependents hunderway.identified hholder hkey (List.isEmpty_iff.mp hnone)⟩
  · split
    · rename_i heffect
      exact cascade_advance hremoves hregular hunderway hkey hholder heffect hdepth
    · rename_i heffect
      exact .bind _ (changeEach_advance hregular hunderway hkey hholder (.inl heffect) _
        fun record _ => unlink_spec hregular hholder heffect record) fun _ _ h => h
    · rename_i heffect
      exact .bind _ (changeEach_advance hregular hunderway hkey hholder (.inr heffect) _
        fun record hrefers => clear_spec hregular hholder heffect hrefers) fun _ _ h => h
    · exact .refuse (bounded_refused _)

/-- All relationships that lead to a record on its way out are dealt with, one after another. -/
theorem holders_ends {depth : Nat} (hremoves : Removes schema before root depth)
    (hregular : schema.Regular)
    (hunderway : Underway schema before root opened visited start.tables) (hkey : key ∈ visited)
    (hdepth : before.rows.length + 1 ≤ visited.length + depth) :
    Writing.Ends ((holders schema key.model).foldlM (detach (remove schema depth) key) visited)
      start (fun visited' stop =>
        Advance schema before root opened visited start.tables visited' stop.tables ∧
          ∀ holder relationship, (holder, relationship) ∈ holders schema key.model →
            Dealt key holder relationship visited' stop.tables) Bounded := by
  refine Writing.Ends.foldlM (fun done visited' stop =>
      Advance schema before root opened visited start.tables visited' stop.tables ∧
        ∀ holder relationship, (holder, relationship) ∈ done →
          Dealt key holder relationship visited' stop.tables)
    ⟨.refl hunderway, fun _ _ h => absurd h List.not_mem_nil⟩ ?_
  rintro done ⟨holder, relationship⟩ visited' between hpart ⟨hadvance, hdone⟩
  have hholder : (holder, relationship) ∈ holders schema key.model :=
    hpart.subset (List.mem_append_right done List.mem_cons_self)
  have hlength := hadvance.suffix.length_le
  refine (detach_ends hremoves hregular hadvance.underway (hadvance.suffix.subset hkey) hholder
    (by omega)).mono ?_
  rintro visited'' stop ⟨hnext, hdealt⟩
  refine ⟨hadvance.trans hnext, ?_⟩
  intro holder' relationship' hmem
  rcases List.mem_append.mp hmem with h | h
  · have hbefore := hpart.subset (List.mem_append_left [(holder, relationship)] h)
    exact (hdone holder' relationship' h).mono hregular hbefore hnext.suffix.subset hnext.eroded
  · obtain ⟨rfl, rfl⟩ := Prod.mk.inj (List.mem_singleton.mp h)
    exact hdealt

end Holding

/-- Visited records are distinct stored ones, so that there are never more of them than rows. -/
theorem Underway.length_le {opened visited : List RowKey} {tables : Tables}
    (h : Underway schema before root opened visited tables) :
    visited.length ≤ before.rows.length := by
  have hsubset : visited ⊆ before.rows.map (·.1) := by
    intro key hkey
    obtain ⟨record, hrecord⟩ := Option.isSome_iff_exists.mp (h.stored key hkey)
    exact List.mem_map.mpr ⟨(key, record), Tables.mem_rows.mpr hrecord, rfl⟩
  have hlength := (List.subperm_of_subset h.nodup hsubset).length_le
  rwa [List.length_map] at hlength

theorem remove_ends (hregular : schema.Regular) (depth : Nat) :
    Removes schema before root depth := by
  induction depth with
  | zero =>
      intro opened visited key start hunderway hkey hdepth
      unfold remove
      split
      · rename_i hvisited
        exact ⟨.refl hunderway, List.contains_iff_mem.mp hvisited⟩
      · rename_i hvisited
        have hnew : key ∉ visited := fun h => hvisited (List.contains_iff_mem.mpr h)
        obtain ⟨hdoomed, hstored⟩ := hkey hnew
        have hlength := (hunderway.begun hregular hnew hdoomed hstored).length_le
        rw [List.length_cons] at hlength
        omega
  | succ depth ih =>
      intro opened visited key start hunderway hkey hdepth
      unfold remove
      split
      · rename_i hvisited
        exact ⟨.refl hunderway, List.contains_iff_mem.mp hvisited⟩
      · rename_i hvisited
        have hnew : key ∉ visited := fun h => hvisited (List.contains_iff_mem.mpr h)
        obtain ⟨hdoomed, hstored⟩ := hkey hnew
        have hopen := hunderway.begun hregular hnew hdoomed hstored
        refine .bind (fun _ stop => start = stop) (.checkpoint bounded_storage rfl) ?_
        rintro _ _ rfl
        refine .bind _ (holders_ends ih hregular hopen List.mem_cons_self
          (by rw [List.length_cons]; omega)) ?_
        rintro visited' between ⟨hadvance, hdealt⟩
        have hmem : key ∈ visited' := hadvance.suffix.subset List.mem_cons_self
        have hclose := hadvance.underway.close hregular hmem hdealt
        have hwhole : Advance schema before root opened visited start.tables visited'
            (between.tables.erase key.model key.id) :=
          { suffix := (List.suffix_cons key visited).trans hadvance.suffix
            eroded := hadvance.eroded.trans hclose.eroded
            underway := hclose.underway }
        exact .bind (fun _ stop => Advance schema before root opened visited start.tables visited'
          stop.tables ∧ key ∈ visited') (.remove bounded_storage fun _ => ⟨hwhole, hmem⟩)
          fun _ _ h => h

end ModelSurface.Deletion
