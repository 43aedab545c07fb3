import ModelSurface.Proofs.Write.Applying
import ModelSurface.Proofs.Write.Placing

/-!
# What becomes of links

A link that adds to a set of links is there when a plan has been carried out. Several links may set
one single reference of one record, by way of different objects of the input; the last of them has
its way, so that a link is sure of its field only as far as all its rivals demand the same.
-/

namespace ModelSurface.Plan

open Writing (Yields)

variable {schema : Schema} {sources : Sources} {plan : Plan} {written written' : Written}
  {start stop : Work}

theorem Names.mono (hgrows : ∀ index id, written.lookup index = some id →
    written'.lookup index = some id) {ref : NodeRef} {id : Identity} (h : Names written ref id) :
    Names written' ref id :=
  h.imp_right fun ⟨index, heq, hid⟩ => ⟨index, heq, hgrows index id hid⟩

/-- What a link demands of its field: null, or the record that it leads to. -/
def Demands (written : Written) (link : Link NodeRef) (value : Value) : Prop :=
  (link.value = none ∧ value = .null) ∨
    ∃ target id, link.value = some target ∧ Names written target id ∧ value = id.toValue

theorem LinkedTo.demands {tables : Tables} {link : Link NodeRef} {value : Value}
    (h : LinkedTo written tables link value) : Demands written link value := by
  cases h with
  | nothing hnone => exact .inl ⟨hnone, rfl⟩
  | record hvalue hnames _ => exact .inr ⟨_, _, hvalue, hnames, rfl⟩

theorem Demands.mono (hgrows : ∀ index id, written.lookup index = some id →
    written'.lookup index = some id) {link : Link NodeRef} {value : Value}
    (h : Demands written link value) : Demands written' link value :=
  h.imp_right fun ⟨target, id, hvalue, hnames, heq⟩ =>
    ⟨target, id, hvalue, hnames.mono hgrows, heq⟩

/-- Two links set the same single reference of the same record. -/
structure Rivals (written : Written) (link rival : Link NodeRef) : Prop where
  single : rival.many = false
  model : rival.holderModel.name = link.holderModel.name
  field : rival.field = link.field
  holder : ∃ id, Names written link.holder id ∧ Names written rival.holder id

theorem Rivals.mono (hgrows : ∀ index id, written.lookup index = some id →
    written'.lookup index = some id) {link rival : Link NodeRef}
    (h : Rivals written link rival) : Rivals written' link rival where
  single := h.single
  model := h.model
  field := h.field
  holder := h.holder.imp fun _ ⟨hlink, hrival⟩ => ⟨hlink.mono hgrows, hrival.mono hgrows⟩

/-- A single reference is as a link demands, or as one of its rivals does. -/
def Settled (written : Written) (links : List (Link NodeRef)) (link : Link NodeRef)
    (record : Record) : Prop :=
  ∃ rival ∈ links, Rivals written link rival ∧
    ∃ value, record.get? link.field = some value ∧ Demands written rival value

/-- A set of links has the link to the record that a link leads to. -/
def Added (written : Written) (link : Link NodeRef) (record : Record) : Prop :=
  ∃ items target id, record.get? link.field = some (.list items) ∧ link.value = some target ∧
    Names written target id ∧ id.toValue ∈ items

theorem Settled.mono {links links' : List (Link NodeRef)} {link : Link NodeRef}
    {record record' : Record} (h : Settled written links link record)
    (hgrows : ∀ index id, written.lookup index = some id → written'.lookup index = some id)
    (hlinks : links ⊆ links') (hsame : record'.get? link.field = record.get? link.field) :
    Settled written' links' link record' := by
  obtain ⟨rival, hrival, hrivals, value, hvalue, hdemands⟩ := h
  exact ⟨rival, hlinks hrival, hrivals.mono hgrows, value, hsame.trans hvalue,
    hdemands.mono hgrows⟩

theorem Added.mono {link : Link NodeRef} {record record' : Record} (h : Added written link record)
    (hgrows : ∀ index id, written.lookup index = some id → written'.lookup index = some id)
    (hitems : ∀ items, record.get? link.field = some (.list items) →
      ∃ more, record'.get? link.field = some (.list more) ∧ items ⊆ more) :
    Added written' link record' := by
  obtain ⟨items, target, id, hlist, hvalue, hnames, hmem⟩ := h
  obtain ⟨more, hmore, hsub⟩ := hitems items hlist
  exact ⟨more, target, id, hmore, hvalue, hnames.mono hgrows, hsub hmem⟩

/-- Every one of some links is honoured by the record that holds it. -/
def Honoured (written : Written) (links : List (Link NodeRef)) (tables : Tables) : Prop :=
  ∀ link ∈ links, ∃ holder record, Names written link.holder holder ∧
    tables.get? link.holderModel.name holder = some record ∧
    (link.many = false → Settled written links link record) ∧
    (link.many = true → Added written link record)

/-- New links are set on a record, which keeps its other relationships and loses no link. -/
structure Takes (written : Written) (links new : List (Link NodeRef)) (name : String)
    (id : Identity) (before : Option Record) (after : Record) : Prop where
  held : ∀ link ∈ new, link.holderModel.name = name ∧ Names written link.holder id
  single : ∀ link ∈ new, link.many = false → ∃ last ∈ new, last.many = false ∧
    last.field = link.field ∧ ∃ value, after.get? link.field = some value ∧
      Demands written last value
  many : ∀ link ∈ new, link.many = true → Added written link after
  kept : ∀ old, before = some old → ∀ link ∈ links, link.holderModel.name = name →
    (∀ other ∈ new, other.field ≠ link.field) → after.get? link.field = old.get? link.field
  grown : ∀ old, before = some old → ∀ link ∈ links, link.holderModel.name = name →
    ∀ other ∈ new, other.field = link.field → other.many = link.many ∧
      (link.many = true → ∀ items, old.get? link.field = some (.list items) →
        ∃ more, after.get? link.field = some (.list more) ∧ items ⊆ more)

/-- Where a new link sets the single reference of an earlier one, it or a rival has its way. -/
theorem Takes.settled {links new : List (Link NodeRef)} {name : String} {id : Identity}
    {before : Option Record} {after : Record}
    (h : Takes written links new name id before after) {link other : Link NodeRef}
    (hname : link.holderModel.name = name) (hholder : Names written link.holder id)
    (hother : other ∈ new) (hfield : other.field = link.field) (hsingle : other.many = false) :
    Settled written (links ++ new) link after := by
  obtain ⟨last, hlast, hlast_single, hlast_field, value, hvalue, hdemands⟩ :=
    h.single other hother hsingle
  obtain ⟨hlast_name, hlast_holder⟩ := h.held last hlast
  refine ⟨last, List.mem_append_right _ hlast, ?_, value, ?_, hdemands⟩
  · exact ⟨hlast_single, hlast_name.trans hname.symm, hlast_field.trans hfield, id, hholder,
      hlast_holder⟩
  · rw [← hfield, hvalue]

theorem Honoured.take {links new : List (Link NodeRef)}
    (h : Honoured written links start.tables)
    (hgrows : ∀ index id, written.lookup index = some id → written'.lookup index = some id)
    {name : String} {id : Identity} {record : Record}
    (hstores : start.tables.Stores stop.tables name id record)
    (htakes : Takes written' links new name id (start.tables.get? name id) record) :
    Honoured written' (links ++ new) stop.tables := by
  have hsub : links ⊆ links ++ new := List.subset_append_left _ _
  intro link hlink
  rcases List.mem_append.mp hlink with hold | hnew
  · obtain ⟨holder, old, hnames, hstored, hsingle, hmany⟩ := h link hold
    have hholder := hnames.mono hgrows
    by_cases hsame : link.holderModel.name = name ∧ holder = id
    · obtain ⟨hname, rfl⟩ := hsame
      rw [hname] at hstored ⊢
      refine ⟨holder, record, hholder, hstores.self, ?_⟩
      by_cases hset : ∃ other ∈ new, other.field = link.field
      · obtain ⟨other, hother, hfield⟩ := hset
        obtain ⟨hkind, hgrown⟩ := htakes.grown old hstored link hold hname other hother hfield
        exact ⟨fun hlink_single =>
            htakes.settled hname hholder hother hfield (hkind.trans hlink_single),
          fun hlink_many => (hmany hlink_many).mono hgrows (hgrown hlink_many)⟩
      · have hkept := htakes.kept old hstored link hold hname fun other hother hfield =>
          hset ⟨other, hother, hfield⟩
        exact ⟨fun hlink_single => (hsingle hlink_single).mono hgrows hsub hkept,
          fun hlink_many => (hmany hlink_many).mono hgrows fun items hitems =>
            ⟨items, hkept.trans hitems, List.Subset.refl _⟩⟩
    · refine ⟨holder, old, hholder, (hstores.of_ne hsame).trans hstored, ?_⟩
      exact ⟨fun hlink_single => (hsingle hlink_single).mono hgrows hsub rfl,
        fun hlink_many => (hmany hlink_many).mono hgrows fun items hitems =>
          ⟨items, hitems, List.Subset.refl _⟩⟩
  · obtain ⟨hname, hholder⟩ := htakes.held link hnew
    exact ⟨id, record, hholder, hname ▸ hstores.self,
      fun hsingle => htakes.settled hname hholder hnew rfl hsingle, htakes.many link hnew⟩

/-! ### Steps -/

/-- Links that set one field of one model are all of one kind. -/
theorem many_eq (hschema : schema.Sound) (hplan : plan.Sound schema) {link other : Link NodeRef}
    (hlink : link ∈ plan.links) (hother : other ∈ plan.links)
    (hname : other.holderModel.name = link.holderModel.name) (hfield : other.field = link.field) :
    other.many = link.many := by
  obtain ⟨held, hheld, hheld_name, -, -, hheld_many, -⟩ := (hplan.links link hlink).held
  obtain ⟨found, hfound, hfound_name, -, -, hfound_many, -⟩ := (hplan.links other hother).held
  have hmodel := hschema.model_ext (hplan.links link hlink).model (hplan.links other hother).model
    hname
  rw [hmodel] at hfound
  have hsame := (hschema.model _ (hplan.links link hlink).model).relationship_ext hheld hfound
    (hfound_name.trans (hfield.trans hheld_name.symm))
  rw [← hheld_many, ← hfound_many, hsame]

/-- The single references that a record has been assigned are as the links demand. -/
theorem takes_of_assigned (hschema : schema.Sound) (hplan : plan.Sound schema) {index : Nat}
    {node : PlanNode} (hnode : plan.nodes[index]? = some node) {tables : Tables} {id : Identity}
    {before after : Record}
    (h : Assigned (Fitting written node.model id tables) (plan.heldLinks index) before after)
    (hgrows : ∀ index id, written.lookup index = some id → written'.lookup index = some id)
    (hplaced : written'.lookup index = some id) {links : List (Link NodeRef)}
    (hlinks : links ⊆ plan.links) {stored : Option Record}
    (hstored : ∀ old, stored = some old → ∀ link ∈ links,
      link.holderModel.name = node.model.name → before.get? link.field = old.get? link.field) :
    Takes written' links (plan.heldLinks index) node.model.name id stored after where
  held link hlink := by
    obtain ⟨hmodel, -⟩ := held_of_heldLinks hschema hplan hnode hlink
    exact ⟨congrArg Model.name hmodel, .inr ⟨index, (mem_heldLinks.mp hlink).2.2, hplaced⟩⟩
  single link hlink _ := by
    obtain ⟨last, hlast, hfield, value, hvalue, hfitting⟩ := h.set link hlink
    exact ⟨last, hlast, (mem_heldLinks.mp hlast).2.1, hfield, value, hvalue,
      hfitting.linked.demands.mono hgrows⟩
  many link hlink hmany := by
    rw [(mem_heldLinks.mp hlink).2.1] at hmany
    cases hmany
  kept old hold link hlink hname hother := by
    rw [h.others link.field hother, hstored old hold link hlink hname]
  grown old _ link hlink hname other hother hfield := by
    obtain ⟨hmem, hsingle, -⟩ := mem_heldLinks.mp hother
    obtain ⟨hmodel, -⟩ := held_of_heldLinks hschema hplan hnode hother
    have hkind := many_eq hschema hplan (hlinks hlink) hmem
      ((congrArg Model.name hmodel).trans hname.symm) hfield
    refine ⟨hkind, fun hmany => ?_⟩
    rw [← hkind, hsingle] at hmany
    cases hmany

theorem Honoured.wrote (hschema : schema.Sound) (hplan : plan.Sound schema)
    {links : List (Link NodeRef)} (h : Honoured written links start.tables)
    (hlinks : links ⊆ plan.links) {index : Nat} (hnew : written.lookup index = none)
    (hwrote : Wrote sources plan index written start stop written') :
    Honoured written' (links ++ plan.heldLinks index) stop.tables := by
  cases hwrote with
  | @created node id filled record between hnode haction hcreated =>
      obtain ⟨habsent, hstores⟩ := hcreated.stores
      refine h.take (fun _ _ => lookup_mono hnew) hstores ?_
      rw [habsent]
      exact takes_of_assigned hschema hplan hnode hcreated.assigned (fun _ _ => lookup_mono hnew)
        (by rw [lookup_cons, if_pos rfl]) hlinks fun old hold => by cases hold
  | @updated node id old refreshed record between hnode haction hupdated =>
      have hmodel := hschema.model _ (hplan.nodes node (List.mem_of_getElem? hnode)).model
      refine h.take (fun _ _ => lookup_mono hnew) hupdated.stores ?_
      rw [hupdated.found]
      refine takes_of_assigned hschema hplan hnode hupdated.assigned (fun _ _ => lookup_mono hnew)
        (by rw [lookup_cons, if_pos rfl]) hlinks ?_
      intro _ hold link hlink hname
      rw [← Option.some.inj hold]
      -- an update puts values into plain fields, and no link has one
      obtain ⟨held, hheld, hheld_name, -⟩ := (hplan.links link (hlinks hlink)).held
      have hsame := hschema.model_ext (hplan.nodes node (List.mem_of_getElem? hnode)).model
        (hplan.links link (hlinks hlink)).model hname
      rw [hsame] at hheld
      exact hupdated.others hschema hplan hnode fun hplain =>
        (hmodel.plain_apart hplain).2 held hheld hheld_name

/-- A link is in the set to which it has been added. -/
theorem mem_linkSet_of_added (record : Record) (field : String) (id : Identity) :
    id.toValue ∈ if id.toValue.isNull || (linkSet record field).any id.toValue.same then
      linkSet record field else linkSet record field ++ [id.toValue] := by
  split
  · rename_i hthere
    have hnull : id.toValue.isNull = false := by cases id <;> rfl
    rw [hnull, Bool.false_or] at hthere
    obtain ⟨value, hvalue, hsame⟩ := List.any_eq_true.mp hthere
    rwa [Identity.same_toValue.mp hsame] at hvalue
  · exact List.mem_append_right _ (List.mem_singleton.mpr rfl)

/-- A link that is put into the field of a record leaves all other fields alone. -/
theorem takes_of_put {links : List (Link NodeRef)} {link : Link NodeRef} {id : Identity}
    (hholder : Names written link.holder id) {old : Record} {new : Value}
    (hsingle : link.many = false → Demands written link new)
    (hmany : link.many = true → Added written link (old.put link.field new))
    (hgrown : ∀ other ∈ links, other.holderModel.name = link.holderModel.name →
      link.field = other.field → link.many = other.many ∧
        (other.many = true → ∀ items, old.get? other.field = some (.list items) →
          ∃ more, (old.put link.field new).get? other.field = some (.list more) ∧ items ⊆ more)) :
    Takes written links [link] link.holderModel.name id (some old) (old.put link.field new) where
  held other hother := by
    rw [List.mem_singleton.mp hother]
    exact ⟨rfl, hholder⟩
  single other hother hother_single := by
    rw [List.mem_singleton.mp hother] at hother_single ⊢
    exact ⟨link, List.mem_singleton.mpr rfl, hother_single, rfl, new, Keyed.get?_put_self _ _ _,
      hsingle hother_single⟩
  many other hother hother_many := by
    rw [List.mem_singleton.mp hother] at hother_many ⊢
    exact hmany hother_many
  kept found hfound other _ _ hnone := by
    rw [← Option.some.inj hfound]
    exact Keyed.get?_put_of_ne _ _ (hnone link (List.mem_singleton.mpr rfl)).symm
  grown found hfound other hother hname last hlast hfield := by
    rw [List.mem_singleton.mp hlast] at hfield ⊢
    rw [← Option.some.inj hfound]
    exact hgrown other hother hname hfield

theorem Honoured.attached (hschema : schema.Sound) (hplan : plan.Sound schema)
    {links : List (Link NodeRef)} (h : Honoured written links start.tables)
    (hlinks : links ⊆ plan.links) {link : Link NodeRef} (hlink : link ∈ plan.links)
    {holder : Identity} {old : Record} {value : Value}
    (hattached : Attached written link start stop holder old value) :
    Honoured written (links ++ [link]) stop.tables := by
  have hdemands := hattached.linked.demands
  have hkind : ∀ other ∈ links, other.holderModel.name = link.holderModel.name →
      link.field = other.field → link.many = other.many := fun other hother hname hfield =>
    many_eq hschema hplan (hlinks hother) hlink hname.symm hfield
  rcases hattached.stop_eq with ⟨hmany, rfl⟩ | ⟨hsingle, -, rfl⟩
  · refine h.take (fun _ _ hid => hid) (.of_put (fun _ _ => rfl) _ _ _) ?_
    rw [hattached.found]
    obtain ⟨held, hheld, -, -, -, hheld_many, hnull⟩ := (hplan.links link hlink).held
    obtain ⟨hnone, -⟩ | ⟨target, id, hvalue, hnames, rfl⟩ := hdemands
    · rw [hmany, (hnull hnone).1] at hheld_many
      cases hheld_many
    · refine takes_of_put hattached.names (fun hsingle => ?_) (fun _ => ?_) ?_
      · rw [hmany] at hsingle
        cases hsingle
      · exact ⟨_, target, id, Keyed.get?_put_self _ _ _, hvalue, hnames,
          mem_linkSet_of_added old link.field id⟩
      · intro other hother hname hfield
        refine ⟨hkind other hother hname hfield, fun _ items hitems => ?_⟩
        rw [← hfield] at hitems ⊢
        refine ⟨_, Keyed.get?_put_self _ _ _, ?_⟩
        have hset : linkSet old link.field = items := by
          unfold linkSet
          rw [hitems]
        rw [hset]
        split
        · exact List.Subset.refl _
        · exact List.subset_append_left _ _
  · refine h.take (fun _ _ hid => hid) (.of_put (fun _ _ => rfl) _ _ _) ?_
    rw [hattached.found]
    refine takes_of_put hattached.names (fun _ => hdemands) (fun hmany => ?_) ?_
    · rw [hsingle] at hmany
      cases hmany
    · intro other hother hname hfield
      refine ⟨hkind other hother hname hfield, fun hmany => ?_⟩
      rw [← hkind other hother hname hfield, hsingle] at hmany
      cases hmany

/-! ### The whole plan -/

/-- Each link is set together with the planned object that holds it, or late. -/
theorem mem_lateLinks {link : Link NodeRef} : link ∈ plan.lateLinks ↔
    link ∈ plan.links ∧ (link.many = true ∨ ∃ id, link.holder = .stored id) := by
  unfold lateLinks
  rw [List.mem_filter, Bool.or_eq_true]
  refine and_congr_right fun _ => or_congr_right ?_
  cases link.holder with
  | stored id => simp
  | node index => simp

theorem mem_links_iff (hplan : plan.Sound schema) {order : List Nat}
    (horder : plan.order = .ok order) {link : Link NodeRef} :
    link ∈ order.flatMap plan.heldLinks ++ plan.lateLinks ↔ link ∈ plan.links := by
  constructor
  · intro hlink
    rcases List.mem_append.mp hlink with hheld | hlate
    · obtain ⟨index, -, hheld⟩ := List.mem_flatMap.mp hheld
      exact plan.heldLinks_subset index hheld
    · exact plan.lateLinks_subset hlate
  · intro hlink
    by_cases hlate : link ∈ plan.lateLinks
    · exact List.mem_append_right _ hlate
    · cases hholder : link.holder with
      | stored id => exact absurd (mem_lateLinks.mpr ⟨hlink, .inr ⟨id, hholder⟩⟩) hlate
      | node index =>
          have hsingle : link.many = false :=
            Bool.eq_false_iff.mpr fun hmany => hlate (mem_lateLinks.mpr ⟨hlink, .inl hmany⟩)
          have hleads := (hplan.links link hlink).holder
          rw [hholder] at hleads
          obtain ⟨node, hnode, -⟩ := hleads
          refine List.mem_append_left _ (List.mem_flatMap.mpr ⟨index, ?_, ?_⟩)
          · exact ((order_spec horder).2 index).mpr (List.getElem?_eq_some_iff.mp hnode).1
          · exact mem_heldLinks.mpr ⟨hlink, hsingle, hholder⟩

theorem Honoured.congr {tables : Tables} {links links' : List (Link NodeRef)}
    (h : Honoured written links tables) (hsame : ∀ link, link ∈ links ↔ link ∈ links') :
    Honoured written links' tables := by
  intro link hlink
  obtain ⟨holder, record, hnames, hstored, hsingle, hmany⟩ := h link ((hsame link).mpr hlink)
  exact ⟨holder, record, hnames, hstored, fun hlink_single => (hsingle hlink_single).mono
    (fun _ _ hid => hid) (fun rival hrival => (hsame rival).mp hrival) rfl, hmany⟩

/-- A plan that is carried out honours its links. -/
theorem honoured_of_apply (hschema : schema.Sound) (hplan : plan.Sound schema) {order : List Nat}
    (horder : plan.order = .ok order) {record : Record}
    (hrun : plan.apply sources order start = .ok record stop) :
    ∃ written, plan.Placed start.tables order written stop.tables ∧
      Honoured written plan.links stop.tables := by
  have hlinks : ∀ {link}, link ∈ order.flatMap plan.heldLinks ++ plan.lateLinks →
      link ∈ plan.links := (mem_links_iff hplan horder).mp
  suffices h : Yields (plan.apply sources order) start fun _ stop => ∃ written,
      plan.Placed start.tables order written stop.tables ∧
        Honoured written plan.links stop.tables from h.ok hrun
  refine (apply_passes (hplan.models hschema)
    (fun done written stop => plan.Placed start.tables done written stop.tables ∧
      Honoured written (done.flatMap plan.heldLinks) stop.tables)
    (fun written set stop => plan.Placed start.tables order written stop.tables ∧
      Honoured written (order.flatMap plan.heldLinks ++ set) stop.tables)
    ⟨.outset _, fun _ h => absurd h List.not_mem_nil⟩ ?_ ?_ ?_).mono ?_
  · rintro done index written before written' after hpart ⟨hplaced, hhonoured⟩ hwrote
    have hnew := not_mem_done horder hpart
    refine ⟨hplaced.wrote hnew hwrote, ?_⟩
    rw [List.flatMap_append, List.flatMap_singleton]
    refine hhonoured.wrote hschema hplan ?_ (hplaced.lookup_none hnew) hwrote
    intro link hlink
    obtain ⟨other, -, hheld⟩ := List.mem_flatMap.mp hlink
    exact plan.heldLinks_subset other hheld
  · rintro written between h
    rwa [List.append_nil]
  · rintro set link written before after holder old value hpart ⟨hplaced, hhonoured⟩ hattached
    refine ⟨hplaced.attached hattached, ?_⟩
    rw [← List.append_assoc]
    refine hhonoured.attached hschema hplan ?_ ?_ hattached
    · intro other hother
      rcases List.mem_append.mp hother with hheld | hset
      · exact hlinks (List.mem_append_left _ hheld)
      · have hlate := hpart.subset (List.mem_append_left _ hset)
        exact hlinks (List.mem_append_right _ hlate)
    · exact plan.lateLinks_subset (hpart.subset (List.mem_append_right _ List.mem_cons_self))
  · rintro _ _ ⟨written, ⟨hplaced, hhonoured⟩, -⟩
    exact ⟨written, hplaced, hhonoured.congr fun _ => mem_links_iff hplan horder⟩

end ModelSurface.Plan
