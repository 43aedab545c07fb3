import ModelSurface.Proofs.Write.Deciding
import ModelSurface.Proofs.Write.Flat

/-!
# What an update leaves behind

When a plan that creates nothing has been carried out, the record that it updates has all values
that the plan gives, each late link is there, and no other record has what only one record may have.
A reference that the plan sets on the record itself is there, too, unless a late link has taken its
place.
-/

namespace ModelSurface

namespace Plan

open Writing (Yields)

variable {schema : Schema} {sources : Sources} {plan : Plan} {node : PlanNode} {id : Identity}
  {written : Written} {start stop : Work} {link other : Link NodeRef} {tables : Tables}
  {record : Record}

/-! ### Links that are there -/

theorem get?_withLink_of_ne {field name : String} (h : name ≠ field) (record : Record) (many : Bool)
    (value : Value) : (withLink record field many value).get? name = record.get? name :=
  Keyed.get?_put_of_ne _ _ h

theorem get?_withLink_single (record : Record) (field : String) (value : Value) :
    (withLink record field false value).get? field = some value := by
  unfold withLink
  rw [Keyed.get?_put_self, if_neg Bool.false_ne_true]

/-- A link is there: in its set of links, or as the single reference that it sets. -/
def Shown (id : Identity) (link : Link NodeRef) (record : Record) : Prop :=
  if link.many then link.valueAt id ∈ linkSet record link.field
  else record.get? link.field = some (link.valueAt id)

theorem shown_of_single (hsingle : link.many = false) :
    Shown id link record ↔ record.get? link.field = some (link.valueAt id) := by
  unfold Shown
  rw [hsingle, if_neg Bool.false_ne_true]

theorem Shown.congr {record' : Record} (h : Shown id link record)
    (hsame : record'.get? link.field = record.get? link.field) : Shown id link record' := by
  unfold Shown linkSet at h ⊢
  rwa [hsame]

theorem linkSet_withLink (record : Record) (field : String) (value : Value) :
    linkSet (withLink record field true value) field =
      if value.isNull || (linkSet record field).any value.same then linkSet record field
      else linkSet record field ++ [value] := by
  have hlist : (withLink record field true value).get? field = some (.list
      (if value.isNull || (linkSet record field).any value.same then linkSet record field
      else linkSet record field ++ [value])) := by
    unfold withLink
    rw [Keyed.get?_put_self, if_pos rfl]
  conv_lhs => unfold linkSet
  rw [hlist]

theorem valueAt_of_many (hlink : link.Sound schema (NodeRef.LeadsTo plan.nodes))
    (hmany : link.many = true) (id : Identity) :
    ∃ found : Identity, link.valueAt id = found.toValue := by
  obtain ⟨relationship, -, -, -, -, hrelationship, hnull⟩ := hlink.held
  cases hvalue : link.value with
  | none =>
      rw [hmany, (hnull hvalue).1] at hrelationship
      cases hrelationship
  | some target =>
      unfold Link.valueAt
      rw [hvalue]
      exact ⟨_, rfl⟩

theorem shown_withLink (hlink : link.Sound schema (NodeRef.LeadsTo plan.nodes)) (id : Identity)
    (record : Record) :
    Shown id link (withLink record link.field link.many (link.valueAt id)) := by
  cases hmany : link.many with
  | false =>
      rw [shown_of_single hmany]
      exact get?_withLink_single _ _ _
  | true =>
      obtain ⟨found, hfound⟩ := valueAt_of_many hlink hmany id
      unfold Shown
      rw [hmany, if_pos rfl, linkSet_withLink, hfound]
      exact mem_linkSet_of_added record link.field found

/-- Links that are set stay in their sets when others are added. -/
theorem Shown.withLink_many (h : Shown id link record) (hmany : link.many = true) (value : Value) :
    Shown id link (withLink record link.field true value) := by
  unfold Shown at h ⊢
  rw [hmany, if_pos rfl] at h ⊢
  rw [linkSet_withLink]
  split
  · exact h
  · exact List.mem_append_left _ h

/-- To set a link that is there changes nothing. -/
theorem Shown.withLink_eq (h : Shown id link record)
    (hlink : link.Sound schema (NodeRef.LeadsTo plan.nodes)) :
    withLink record link.field link.many (link.valueAt id) = record := by
  unfold withLink
  apply Keyed.put_of_get?
  cases hmany : link.many with
  | false =>
      rw [if_neg Bool.false_ne_true]
      exact (shown_of_single hmany).mp h
  | true =>
      obtain ⟨found, hfound⟩ := valueAt_of_many hlink hmany id
      unfold Shown at h
      rw [hmany, if_pos rfl, hfound] at h
      have hthere : (linkSet record link.field).any found.toValue.same = true :=
        List.any_eq_true.mpr ⟨_, h, Identity.same_toValue.mpr rfl⟩
      rw [if_pos rfl, hfound, hthere, Bool.or_true, if_pos rfl]
      unfold linkSet at h ⊢
      split at h
      · rename_i items hitems
        rw [hitems]
      · cases h

/-! ### References that only one record has -/

/-- No record but one has a value under a relationship that leads from one record to one. -/
def Sole (model : Model) (field : String) (value : Value) (holder : Identity) (tables : Tables) :
    Prop :=
  ∀ relationship, model.relationship? field = some relationship →
    relationship.cardinality = .oneToOne → value.isNull = false →
    ∀ id record, tables.get? model.name id = some record → record.get? field = some value →
      id = holder

theorem vacant_iff_sole {model : Model} {holder : Identity}
    (hidentified : ∀ id record, tables.get? model.name id = some record →
      Record.identity? record model.identity.name = some id) (link : Link NodeRef) (id : Identity)
    (field : String) : Vacant model field (link.valueAt id) holder tables ↔
      Sole model field (link.valueAt id) holder tables := by
  have hsame : (link.valueAt id).isNull = false → ∀ value : Value,
      (link.valueAt id).same value = true ↔ value = link.valueAt id := by
    unfold Link.valueAt
    cases link.value with
    | none => exact nofun
    | some target => exact fun _ value => Identity.same_toValue
  constructor
  · intro h relationship hfound hone hnull other record hrecord hvalue
    have hidentity := h relationship hfound hone hnull record
      (Tables.mem_scan.mpr ⟨other, hrecord⟩) (by
        rw [hvalue, Option.any_some]
        exact (hsame hnull _).mpr rfl)
    rw [hidentified other record hrecord] at hidentity
    exact Option.some.inj hidentity
  · intro h relationship hfound hone hnull record hscan hany
    obtain ⟨other, hrecord⟩ := Tables.mem_scan.mp hscan
    cases hvalue : record.get? field with
    | none =>
        rw [hvalue] at hany
        cases hany
    | some value =>
        rw [hvalue, Option.any_some] at hany
        rw [(hsame hnull value).mp hany] at hvalue
        rw [← h relationship hfound hone hnull other record hrecord hvalue]
        exact hidentified other record hrecord

theorem Sole.put {model : Model} {field name : String} {value : Value} {holder : Identity}
    (h : Sole model field value holder tables) (hnew : ∀ relationship,
      model.relationship? field = some relationship → relationship.cardinality = .oneToOne →
      value.isNull = false → name = model.name → record.get? field = some value → id = holder) :
    Sole model field value holder (tables.put name id record) := by
  intro relationship hfound hone hnull other found hother hvalue
  rw [Tables.get?_put] at hother
  split at hother
  · rename_i hsame
    obtain ⟨hname, rfl⟩ := hsame
    obtain rfl := Option.some.inj hother
    exact hnew relationship hfound hone hnull hname.symm hvalue
  · exact h relationship hfound hone hnull other found hother hvalue

/-! ### While links are set -/

/-- What a link that is set on a stored record does, where the only planned record has been
updated. -/
structure Relinked (id : Identity) (link : Link NodeRef) (before after : Tables) (old : Record) :
    Prop where
  found : before.get? link.holderModel.name (link.holderAt id) = some old
  target : ∀ other, link.value = some (.stored other) →
    (before.get? link.valueModel.name other).isSome
  vacant : link.many = false →
    Vacant link.holderModel link.field (link.valueAt id) (link.holderAt id) before
  after_eq : after = before.put link.holderModel.name (link.holderAt id)
    (withLink old link.field link.many (link.valueAt id))

theorem lookup_updated (id : Identity) : ∀ index other,
    ([(0, id)] : Written).lookup index = some other → other = id := by
  intro index other h
  rw [lookup_cons] at h
  split at h
  · exact (Option.some.inj h).symm
  · cases h

theorem target_of_linkedTo {value : Value} (h : LinkedTo written tables link value)
    {other : Identity} (hvalue : link.value = some (.stored other)) :
    (tables.get? link.valueModel.name other).isSome := by
  cases h with
  | nothing hnone =>
      rw [hnone] at hvalue
      cases hvalue
  | record htarget hnames hstored =>
      obtain rfl := Option.some.inj (htarget.symm.trans hvalue)
      rcases hnames with hsame | ⟨_, hsame, -⟩
      · obtain rfl := NodeRef.stored.inj hsame
        exact hstored _ rfl
      · cases hsame

theorem Attached.relinked {holder : Identity} {old : Record} {value : Value}
    (h : Attached [(0, id)] link start stop holder old value) :
    Relinked id link start.tables stop.tables old := by
  obtain rfl : holder = link.holderAt id := h.names.identity_eq (lookup_updated id)
  obtain rfl := h.linked.valueAt_eq (lookup_updated id)
  refine ⟨h.found, fun other => target_of_linkedTo h.linked, ?_, ?_⟩
  · intro hsingle
    rcases h.stop_eq with ⟨hmany, -⟩ | ⟨-, hvacant, -⟩
    · rw [hsingle] at hmany
      cases hmany
    · exact hvacant
  · unfold withLink
    rcases h.stop_eq with ⟨hmany, rfl⟩ | ⟨hsingle, -, rfl⟩
    · rw [hmany, if_pos rfl]
      rfl
    · rw [hsingle, if_neg Bool.false_ne_true]
      rfl

/-- What holds of the tables once the record has been updated and some late links are set. -/
structure Standing (schema : Schema) (plan : Plan) (node : PlanNode) (id : Identity)
    (set : List (Link NodeRef)) (tables : Tables) : Prop where
  carried : Carried schema plan [(0, id)] tables
  values : ∀ record, tables.get? node.model.name id = some record →
    ∀ entry ∈ node.values.entries, record.get? entry.1 = some entry.2
  held : ∀ link ∈ plan.heldLinks 0, ∀ record, tables.get? node.model.name id = some record →
    record.get? link.field = some (link.valueAt id) ∨
      ∃ later ∈ set, later.many = false ∧ later.holderModel.name = node.model.name ∧
        later.holderAt id = id ∧ later.field = link.field
  shown : ∀ link ∈ set, ∃ record,
    tables.get? link.holderModel.name (link.holderAt id) = some record ∧ Shown id link record
  sole : ∀ link ∈ plan.heldLinks 0 ++ set, link.many = false →
    Sole link.holderModel link.field (link.valueAt id) (link.holderAt id) tables
  targets : ∀ link ∈ plan.heldLinks 0 ++ set, ∀ other, link.value = some (.stored other) →
    (tables.get? link.valueModel.name other).isSome

theorem Standing.root {set : List (Link NodeRef)} (h : Standing schema plan node id set tables)
    (hflat : plan.Flat node id) : ∃ record, tables.get? node.model.name id = some record :=
  Option.isSome_iff_exists.mp (h.carried.stored (0, id) List.mem_cons_self node hflat.node_zero)

section

variable (hschema : schema.Sound) (hplan : plan.Sound schema) (hflat : plan.Flat node id)

include hschema hplan hflat

/-- A link has no field that is given a value. -/
theorem value_ne_field (hlink : link ∈ plan.links)
    (hname : link.holderModel.name = node.model.name) {entry : String × Value}
    (hentry : entry ∈ node.values.entries) : entry.1 ≠ link.field := by
  have hnode := hplan.nodes node hflat.node_mem
  have hsound := hplan.links link hlink
  obtain ⟨plain, hplain, hplain_name, -⟩ := hnode.values entry.1 entry.2 hentry
  obtain ⟨relationship, hmem, hfield, -⟩ := hsound.held
  rw [hschema.model_ext hnode.model hsound.model hname] at hmem
  have hmodel := hschema.model _ hnode.model
  rw [← hplain_name, ← hfield]
  exact fun heq => (hmodel.plain_apart (hmodel.plain.mem_keys.mpr ⟨plain, hplain, rfl⟩)).2
    relationship hmem heq.symm

theorem holder_of_held (hlink : link ∈ plan.heldLinks 0) :
    link.holderModel = node.model ∧ link.holderAt id = id := by
  obtain ⟨hmodel, -⟩ := held_of_heldLinks hschema hplan hflat.node_zero hlink
  refine ⟨hmodel, ?_⟩
  unfold Link.holderAt
  rw [(mem_heldLinks.mp hlink).2.2]
  rfl

/-- A late link that is there stays there when another one is set on its record. -/
theorem Shown.relink {old : Record} (h : Shown id other old) (hother : other ∈ plan.lateLinks)
    (hlink : link ∈ plan.lateLinks) (hname : other.holderModel.name = link.holderModel.name) :
    Shown id other (withLink old link.field link.many (link.valueAt id)) := by
  by_cases hfield : other.field = link.field
  · have hkind := many_eq hschema hplan (plan.lateLinks_subset hlink)
      (plan.lateLinks_subset hother) hname hfield
    cases hmany : other.many with
    | true =>
        rw [← hkind, hmany, ← hfield]
        exact h.withLink_many hmany _
    | false =>
        -- both lead to the record that is updated
        rw [hmany] at hkind
        rw [shown_of_single hmany, (hflat.late_single hother hmany).2, hfield, ← hkind,
          get?_withLink_single, (hflat.late_single hlink hkind.symm).2]
  · exact h.congr (get?_withLink_of_ne hfield _ _ _)

namespace Standing

variable {set : List (Link NodeRef)} {before after : Tables} {old : Record}
  (h : Standing schema plan node id set before) (hset : set ⊆ plan.lateLinks)

include h hset in
/-- The holder of a link that has been set has what the link sets, or the updated record. -/
theorem stands (hlink : link ∈ plan.heldLinks 0 ++ set) (hsingle : link.many = false) :
    ∃ record, before.get? link.holderModel.name (link.holderAt id) = some record ∧
      (record.get? link.field = some (link.valueAt id) ∨
        record.get? link.field = some id.toValue) := by
  rcases List.mem_append.mp hlink with hheld | hlate
  · obtain ⟨hmodel, hholder⟩ := holder_of_held hschema hplan hflat hheld
    obtain ⟨record, hrecord⟩ := h.root hflat
    refine ⟨record, by rw [hmodel, hholder, hrecord], ?_⟩
    refine (h.held link hheld record hrecord).imp_right ?_
    rintro ⟨later, hlater, hlater_single, hname, hlater_holder, hfield⟩
    obtain ⟨found, hfound, hshown⟩ := h.shown later hlater
    rw [hname, hlater_holder, hrecord] at hfound
    obtain rfl := Option.some.inj hfound
    rw [shown_of_single hlater_single, (hflat.late_single (hset hlater) hlater_single).2,
      hfield] at hshown
    exact hshown
  · obtain ⟨record, hrecord, hshown⟩ := h.shown link hlate
    exact ⟨record, hrecord, .inl ((shown_of_single hsingle).mp hshown)⟩

section Relinked

variable (hlink : link ∈ plan.lateLinks) (hrelinked : Relinked id link before after old)

include h hlink hrelinked

theorem values_relinked (hrecord : after.get? node.model.name id = some record)
    {entry : String × Value} (hentry : entry ∈ node.values.entries) :
    record.get? entry.1 = some entry.2 := by
  rw [hrelinked.after_eq, Tables.get?_put] at hrecord
  split at hrecord
  · rename_i hsame
    obtain ⟨hname, hid⟩ := hsame
    rw [← Option.some.inj hrecord, get?_withLink_of_ne (value_ne_field hschema hplan hflat
      (plan.lateLinks_subset hlink) hname.symm hentry)]
    exact h.values old (by rw [hname, hid, hrelinked.found]) entry hentry
  · exact h.values record hrecord entry hentry

/-- A reference that the updated record has been given stays unless the new link takes its
place. -/
theorem held_relinked {first : Link NodeRef} (hfirst : first ∈ plan.heldLinks 0)
    (hrecord : after.get? node.model.name id = some record) :
    record.get? first.field = some (first.valueAt id) ∨
      ∃ later ∈ set ++ [link], later.many = false ∧ later.holderModel.name = node.model.name ∧
        later.holderAt id = id ∧ later.field = first.field := by
  have hearlier : ∀ found, before.get? node.model.name id = some found →
      found.get? first.field = some (first.valueAt id) ∨
        ∃ later ∈ set ++ [link], later.many = false ∧ later.holderModel.name = node.model.name ∧
          later.holderAt id = id ∧ later.field = first.field := fun found hfound =>
    (h.held first hfirst found hfound).imp_right fun ⟨later, hlater, hrest⟩ =>
      ⟨later, List.mem_append_left [link] hlater, hrest⟩
  rw [hrelinked.after_eq, Tables.get?_put] at hrecord
  split at hrecord
  · rename_i hsame
    obtain ⟨hname, hid⟩ := hsame
    by_cases hfield : first.field = link.field
    · obtain ⟨hfirst_mem, hfirst_single, -⟩ := mem_heldLinks.mp hfirst
      obtain ⟨hmodel, -⟩ := holder_of_held hschema hplan hflat hfirst
      have hkind := many_eq hschema hplan hfirst_mem (plan.lateLinks_subset hlink)
        (by rw [hmodel, hname]) hfield.symm
      exact .inr ⟨link, List.mem_append_right _ (List.mem_singleton.mpr rfl),
        hkind.trans hfirst_single, hname.symm, hid.symm, hfield.symm⟩
    · rw [← Option.some.inj hrecord, get?_withLink_of_ne hfield]
      exact hearlier old (by rw [hname, hid, hrelinked.found])
  · exact hearlier record hrecord

include hset

theorem shown_relinked {later : Link NodeRef} (hlater : later ∈ set ++ [link]) : ∃ record,
    after.get? later.holderModel.name (later.holderAt id) = some record ∧
      Shown id later record := by
  rw [hrelinked.after_eq]
  rcases List.mem_append.mp hlater with hold | hnew
  · obtain ⟨record, hrecord, hshown⟩ := h.shown later hold
    rw [Tables.get?_put]
    split
    · rename_i hsame
      obtain ⟨hname, hid⟩ := hsame
      rw [hname, hid, hrelinked.found] at hrecord
      obtain rfl := Option.some.inj hrecord
      exact ⟨_, rfl, hshown.relink hschema hplan hflat (hset hold) hlink hname⟩
    · exact ⟨record, hrecord, hshown⟩
  · obtain rfl := List.mem_singleton.mp hnew
    exact ⟨_, by rw [Tables.get?_put, if_pos ⟨rfl, rfl⟩],
      shown_withLink (hplan.links later (plan.lateLinks_subset hlink)) id old⟩

/-- What only one record may have is not given to another one. -/
theorem sole_relinked {first : Link NodeRef} (hfirst : first ∈ plan.heldLinks 0 ++ (set ++ [link]))
    (hsingle : first.many = false) :
    Sole first.holderModel first.field (first.valueAt id) (first.holderAt id) after := by
  have hlink_mem := plan.lateLinks_subset hlink
  have hidentified := h.carried.intact.identified _ (hplan.links link hlink_mem).model
  have hsole := fun hlink_single => (vacant_iff_sole hidentified link id _).mp
    (hrelinked.vacant hlink_single)
  rw [hrelinked.after_eq]
  rw [← List.append_assoc] at hfirst
  rcases List.mem_append.mp hfirst with hold | hnew
  · refine (h.sole first hold hsingle).put ?_
    intro relationship hfound hone hnull hname hvalue
    have hfirst_mem : first ∈ plan.links := (List.mem_append.mp hold).elim
      (plan.heldLinks_subset 0 ·) (plan.lateLinks_subset <| hset ·)
    have hmodel := hschema.model_ext (hplan.links link hlink_mem).model
      (hplan.links first hfirst_mem).model hname.symm
    by_cases hfield : first.field = link.field
    · -- the holder of the earlier link has the updated record, which the new link asks for alone
      have hkind := many_eq hschema hplan hfirst_mem hlink_mem hname hfield.symm
      have hlink_single := hkind.trans hsingle
      have hupdated := (hflat.late_single hlink hlink_single).2
      rw [hfield, hlink_single, get?_withLink_single] at hvalue
      have hsame := Option.some.inj hvalue
      obtain ⟨record, hrecord, hstands⟩ := h.stands hschema hplan hflat hset hold hsingle
      rw [← hsame, hupdated, or_self, ← hupdated, hfield] at hstands
      rw [hmodel] at hrecord
      rw [← hsame] at hnull
      rw [hmodel, hfield] at hfound
      exact (hsole hlink_single relationship hfound hone hnull _ record hrecord hstands).symm
    · rw [get?_withLink_of_ne hfield] at hvalue
      have hold_found := hrelinked.found
      rw [← hmodel] at hold_found
      exact h.sole first hold hsingle relationship hfound hone hnull _ old hold_found hvalue
  · obtain rfl := List.mem_singleton.mp hnew
    exact (hsole hsingle).put fun _ _ _ _ _ _ => rfl

end Relinked

/-- One more late link is set. -/
theorem attached {set : List (Link NodeRef)} (h : Standing schema plan node id set start.tables)
    (hset : set ⊆ plan.lateLinks) (hlink : link ∈ plan.lateLinks) {holder : Identity}
    {old : Record} {value : Value}
    (hattached : Attached [(0, id)] link start stop holder old value) :
    Standing schema plan node id (set ++ [link]) stop.tables := by
  have hrelinked := hattached.relinked
  have hretains : start.tables.Retains stop.tables := by
    rw [hrelinked.after_eq]
    exact Tables.retains_put _ _ _ _
  refine ⟨h.carried.attached hschema (hplan.links link (plan.lateLinks_subset hlink)) hattached,
    fun record hrecord entry hentry =>
      h.values_relinked hschema hplan hflat hlink hrelinked hrecord hentry,
    fun first hfirst record hrecord =>
      h.held_relinked hschema hplan hflat hlink hrelinked hfirst hrecord,
    fun later hlater => h.shown_relinked hschema hplan hflat hset hlink hrelinked hlater,
    fun first hfirst hsingle =>
      h.sole_relinked hschema hplan hflat hset hlink hrelinked hfirst hsingle, ?_⟩
  intro first hfirst other hvalue
  rw [← List.append_assoc] at hfirst
  rcases List.mem_append.mp hfirst with hold | hnew
  · exact hretains _ _ (h.targets first hold other hvalue)
  · obtain rfl := List.mem_singleton.mp hnew
    exact hretains _ _ (hrelinked.target other hvalue)

end Standing

/-- Links that set one relationship of the record that is updated agree. -/
theorem held_of_assigned {before after : Record}
    (h : Assigned (Fitting [] node.model id tables) (plan.heldLinks 0) before after)
    (hlink : link ∈ plan.heldLinks 0) :
    after.get? link.field = some (link.valueAt id) ∧
      Vacant node.model link.field (link.valueAt id) id tables ∧
      ∀ other, link.value = some (.stored other) →
        (tables.get? link.valueModel.name other).isSome := by
  obtain ⟨last, hlast, hfield, value, hvalue, hfitting⟩ := h.set link hlink
  have hagree := hflat.agree link hlink last hlast hfield
  obtain rfl : value = link.valueAt id := by
    have hwritten : ∀ index other, ([] : Written).lookup index = some other → other = id :=
      fun _ _ h => by cases h
    rw [hfitting.linked.valueAt_eq hwritten]
    unfold Link.valueAt
    rw [hagree]
  have hvacant := hfitting.vacant
  rw [hfield] at hvacant
  refine ⟨hvalue, hvacant, fun other hother => ?_⟩
  -- both links set one relationship, which leads to records of one model
  obtain ⟨hlast_model, -⟩ := holder_of_held hschema hplan hflat hlast
  obtain ⟨hlink_model, -⟩ := holder_of_held hschema hplan hflat hlink
  have hlast_sound := hplan.links last (plan.heldLinks_subset 0 hlast)
  obtain ⟨led, hled, hled_name, -, hled_target, -⟩ := hlast_sound.held
  obtain ⟨held, hheld, hheld_name, -, hheld_target, -⟩ :=
    (hplan.links link (plan.heldLinks_subset 0 hlink)).held
  rw [hlast_model] at hled
  rw [hlink_model] at hheld
  obtain rfl := (hschema.model _ (hplan.nodes node hflat.node_mem).model).relationship_ext
    hheld hled (hled_name.trans (hfield.trans hheld_name.symm))
  rw [← hheld_target, hled_target]
  exact target_of_linkedTo hfitting.linked (hagree.trans hother)

/-- The record is updated, before any late link is set. -/
theorem Updated.standing {old refreshed : Record} {between : Work}
    (hsave : onSave node.model = []) (hintact : start.tables.Intact schema)
    (h : Updated sources plan [] 0 node start stop id old refreshed record between) :
    Standing schema plan node id [] stop.tables := by
  have hmodel := hschema.model _ (hplan.nodes node hflat.node_mem).model
  have hsame := h.refreshes.draws.records
  have hself : stop.tables.get? node.model.name id = some record := by
    rw [h.stop_eq, Work.tables_withTables, Tables.get?_put, if_pos ⟨rfl, rfl⟩]
  have hretains : between.tables.Retains stop.tables := by
    rw [h.stop_eq]
    exact Tables.retains_put _ _ _ _
  refine ⟨(Carried.outset hintact).wrote hschema hplan (.updated hflat.node_zero hflat.action h),
    ?_, ?_, fun _ hmem => absurd hmem List.not_mem_nil, ?_, ?_⟩
  · intro found hfound entry hentry
    obtain rfl := Option.some.inj (hself.symm.trans hfound)
    obtain ⟨plain, hplain, hname, -⟩ :=
      (hplan.nodes node hflat.node_mem).values entry.1 entry.2 hentry
    have hkey : entry.1 ∈ node.model.fields.keys := by
      rw [← hname]
      exact hmodel.mem_fields_keys (List.mem_cons_of_mem _ hplain)
    rw [field_of_assigned hschema hplan hflat.node_zero h.assigned hkey, h.refreshes.others,
      get?_foldl_put_of_mem hflat.distinct hentry]
    rw [hsave]
    exact List.not_mem_nil
  · intro link hlink found hfound
    obtain rfl := Option.some.inj (hself.symm.trans hfound)
    exact .inl (held_of_assigned hschema hplan hflat h.assigned hlink).1
  · intro link hlink hsingle
    rw [List.append_nil] at hlink
    obtain ⟨hholder_model, hholder⟩ := holder_of_held hschema hplan hflat hlink
    obtain ⟨-, hvacant, -⟩ := held_of_assigned hschema hplan hflat h.assigned hlink
    have hidentified := (hintact.sameRecords hsame).identified _
      (hplan.nodes node hflat.node_mem).model
    rw [h.stop_eq, hholder_model, hholder]
    exact ((vacant_iff_sole hidentified link id _).mp hvacant).put fun _ _ _ _ _ _ => rfl
  · intro link hlink other hvalue
    rw [List.append_nil] at hlink
    exact hretains _ _ ((held_of_assigned hschema hplan hflat h.assigned hlink).2.2 other hvalue)

end

end Plan

end ModelSurface
