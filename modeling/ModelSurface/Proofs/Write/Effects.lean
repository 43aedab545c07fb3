import ModelSurface.Proofs.Write.Adding
import ModelSurface.Proofs.Write.Building
import ModelSurface.Proofs.Write.Placing

/-!
# What a plan does

A plan that is carried out makes of each object of its input exactly what the object asks for, and
leaves all other records alone but for the references that its links set on them. Its first pass
stores one record after another. What it has stored it does not store again: a new record has a key
of its own, and the record to update was stored before the plan, hence is none of the new ones. That
it was is not checked at the outset, so that it has to be supposed. The second pass only touches
references.
-/

namespace ModelSurface.Plan

open Writing (Yields)

variable {schema : Schema} {sources : Sources} {plan : Plan} {objects : List InputObject}
  {written written' : Written} {start before after stop : Work} {index : Nat}
  {object : InputObject} {id : Identity} {record : Record}

/-- A link of a plan sets a relationship of a record. -/
def Touches (plan : Plan) (written : Written) (model : String) (id : Identity) (name : String) :
    Prop :=
  ∃ link ∈ plan.links, link.holderModel.name = model ∧ link.field = name ∧
    Names written link.holder id

theorem Touches.cons {model name : String} {other : Identity}
    (h : plan.Touches written model id name) (hnew : written.lookup index = none) :
    plan.Touches ((index, other) :: written) model id name := by
  obtain ⟨link, hlink, hmodel, hfield, hnames⟩ := h
  refine ⟨link, hlink, hmodel, hfield, ?_⟩
  rcases hnames with hstored | ⟨place, hplace, hfound⟩
  · exact .inl hstored
  · exact .inr ⟨place, hplace, lookup_mono hnew hfound⟩

/-- The references that a new record holds are set by links. -/
theorem touches_of_holds (hschema : schema.Sound) (hplan : plan.Sound schema) {node : PlanNode}
    (hnode : plan.nodes[index]? = some node) {name : String} (h : plan.Holds index name) :
    plan.Touches ((index, id) :: written) node.model.name id name := by
  obtain ⟨link, hlink, hfield⟩ := h
  obtain ⟨hmem, -, hholder⟩ := mem_heldLinks.mp hlink
  refine ⟨link, hmem, ?_, hfield, .inr ⟨index, hholder, ?_⟩⟩
  · rw [holderModel_eq hschema hplan hnode hmem hholder]
  · rw [lookup_cons, if_pos rfl]

/-- Links touch no fields. -/
theorem not_touches_field (hschema : schema.Sound) (hplan : plan.Sound schema) {model : Model}
    (hmodel : model ∈ schema.models) {name : String} (hname : name ∈ model.fields.keys) :
    ¬ plan.Touches written model.name id name := by
  rintro ⟨link, hlink, hholder, rfl, -⟩
  have hsound := hplan.links link hlink
  obtain ⟨relationship, hmem, hfield, -⟩ := hsound.held
  have hsame := hschema.model_ext hmodel hsound.model hholder
  rw [hsame] at hmem
  rw [← hfield] at hname
  exact (hschema.model _ hmodel).not_mem_fields hmem hname

/-! ### The first pass -/

theorem proper_of_reads {model : Model} {kind : InputKind} {input : Json}
    (hkind : kind ≠ .delete) (hplan : plan.Sound schema)
    (hreads : plan.Reads schema (schema.inputObjects model kind input)) :
    ∀ object ∈ schema.inputObjects model kind input, object.Proper schema := by
  intro object hmem
  obtain ⟨index, hindex⟩ := List.mem_iff_getElem?.mp hmem
  obtain ⟨node, hnode, hplans⟩ := hreads.node hindex
  refine ⟨?_, (Schema.mem_inputObjects hkind hindex).1, hreads.readable object hmem⟩
  rw [← hplans.model]
  exact (hplan.nodes node (List.mem_of_getElem? hnode)).model

/-- Only the first of some objects may be one to update, and its record is stored. -/
def Rooted (objects : List InputObject) (tables : Tables) : Prop :=
  ∀ index object named, objects[index]? = some object → object.action = .update named →
    index = 0 ∧ (tables.get? object.model.name named).isSome

/-- No planned object has been stored under a key. -/
def Untaken (objects : List InputObject) (written : Written) (name : String) (id : Identity) :
    Prop :=
  ∀ index object, objects[index]? = some object → object.model.name = name →
    written.lookup index ≠ some id

/-- While records are written, those that have been are what their objects make of them, and all
others are as they were. -/
structure Underway (plan : Plan) (schema : Schema) (sources : Sources)
    (objects : List InputObject) (start : Work) (done : List Nat) (written : Written)
    (work : Work) : Prop where
  placed : plan.Placed start.tables done written work.tables
  filled : work.tables.Filled schema
  elapsed : start.meter.Until work.meter
  made : ∀ index object id, objects[index]? = some object → written.lookup index = some id →
    ∃ record, work.tables.get? object.model.name id = some record ∧
      object.Makes sources start.meter work.meter (plan.Touches written object.model.name id)
        (start.tables.get? object.model.name id) record
  others : ∀ name id, Untaken objects written name id →
    work.tables.get? name id = start.tables.get? name id

namespace Underway

variable {done : List Nat}

theorem outset (hfilled : start.tables.Filled schema) :
    plan.Underway schema sources objects start [] [] start where
  placed := .outset _
  filled := hfilled
  elapsed := .refl _
  made _ _ _ _ h := by cases h
  others _ _ _ := rfl

/-- One more record is stored, under a key that none of the earlier ones has. -/
theorem store (h : plan.Underway schema sources objects start done written before)
    (hnew : written.lookup index = none) (hobject : objects[index]? = some object)
    (hapart : Untaken objects written object.model.name id)
    (hstores : before.tables.Stores after.tables object.model.name id record)
    (hmakes : object.Makes sources start.meter after.meter
      (plan.Touches ((index, id) :: written) object.model.name id)
      (start.tables.get? object.model.name id) record)
    (hplaced : plan.Placed start.tables (done ++ [index]) ((index, id) :: written) after.tables)
    (hfilled : after.tables.Filled schema) (helapsed : before.meter.Until after.meter) :
    plan.Underway schema sources objects start (done ++ [index]) ((index, id) :: written)
      after where
  placed := hplaced
  filled := hfilled
  elapsed := h.elapsed.trans helapsed
  made other earlier found hother hfound := by
    rw [lookup_cons] at hfound
    by_cases hsame : other = index
    · rw [if_pos hsame] at hfound
      rw [hsame, hobject] at hother
      obtain rfl := Option.some.inj hother
      obtain rfl := Option.some.inj hfound
      exact ⟨record, hstores.self, hmakes⟩
    · rw [if_neg hsame] at hfound
      obtain ⟨made, hmade, hmakes⟩ := h.made other earlier found hother hfound
      refine ⟨made, ?_, hmakes.mono (.refl _) helapsed fun _ htouched => htouched.cons hnew⟩
      rw [hstores.of_ne, hmade]
      rintro ⟨hname, rfl⟩
      exact hapart other earlier hother hname hfound
  others name found hfree := by
    have hearlier : Untaken objects written name found := fun other earlier hother hname hfound =>
      hfree other earlier hother hname (lookup_mono hnew hfound)
    rw [hstores.of_ne, h.others name found hearlier]
    rintro ⟨rfl, rfl⟩
    exact hfree index object hobject rfl (by rw [lookup_cons, if_pos rfl])

/-- What has been written so far is no record to update. -/
theorem untaken_of_updated (h : plan.Underway schema sources objects start done written before)
    (hreads : plan.Reads schema objects) (hrooted : Rooted objects start.tables)
    (hnew : written.lookup index = none) (hobject : objects[index]? = some object)
    (haction : object.action = .update id) : Untaken objects written object.model.name id := by
  obtain ⟨rfl, hstored⟩ := hrooted index object id hobject haction
  intro other earlier hother hname hfound
  obtain ⟨node, hnode, hplans⟩ := hreads.node hother
  obtain ⟨placed, hplaced, -, hlands⟩ := h.placed.places other id hfound
  obtain rfl := Option.some.inj (hnode.symm.trans hplaced)
  cases hearlier : earlier.action with
  | create =>
      unfold PlanNode.Lands at hlands
      rw [hplans.action, hearlier] at hlands
      dsimp only at hlands
      rw [hplans.model, hname] at hlands
      rw [hlands] at hstored
      cases hstored
  | update named =>
      rw [(hrooted other earlier named hother hearlier).1, hnew] at hfound
      cases hfound

theorem wrote (h : plan.Underway schema sources objects start done written before)
    (hschema : schema.Sound) (hplan : plan.Sound schema) (hreads : plan.Reads schema objects)
    (hproper : ∀ object ∈ objects, object.Proper schema) (hrooted : Rooted objects start.tables)
    (hnew : index ∉ done) (hwrote : Wrote sources plan index written before after written') :
    plan.Underway schema sources objects start (done ++ [index]) written' after := by
  have hplaced := h.placed.wrote hnew hwrote
  have hfilled := filled_of_wrote hschema hplan hwrote h.filled
  have hfree := h.placed.lookup_none hnew
  cases hwrote with
  | @created node id filled record between hnode haction hcreated =>
      obtain ⟨object, hobject, hplans⟩ := hreads.object hnode
      obtain ⟨habsent, hstores⟩ := hcreated.stores
      have hbuilds := hcreated.builds hschema hplan hnode hplans
        (hproper object (List.mem_of_getElem? hobject)) haction
      have helapsed : before.meter.Until after.meter := by
        rw [hcreated.stop_eq]
        exact hcreated.fills.draws.until
      rw [hplans.model] at hstores habsent
      refine h.store hfree hobject ?_ hstores ?_ hplaced hfilled helapsed
      · intro other earlier hother hname hfound
        obtain ⟨made, hmade, -⟩ := h.made other earlier id hother hfound
        rw [hname, habsent] at hmade
        cases hmade
      · unfold InputObject.Makes
        rw [← hplans.action, haction, ← hplans.model]
        exact hbuilds.mono h.elapsed (.refl _) fun _ => touches_of_holds hschema hplan hnode
  | @updated node id old refreshed record between hnode haction hupdated =>
      obtain ⟨object, hobject, hplans⟩ := hreads.object hnode
      have hstores := hupdated.stores
      have hrevises := hupdated.revises hschema hplan hnode h.filled hplans
        (hproper object (List.mem_of_getElem? hobject))
      have helapsed : before.meter.Until after.meter := by
        rw [hupdated.stop_eq]
        exact hupdated.refreshes.draws.until
      have hfound := hupdated.found
      rw [hplans.model] at hstores hfound
      have huntaken := h.untaken_of_updated hreads hrooted hfree hobject
        (hplans.action.symm.trans haction)
      rw [h.others _ _ huntaken] at hfound
      refine h.store hfree hobject huntaken hstores ?_ hplaced hfilled helapsed
      unfold InputObject.Makes
      rw [← hplans.action, haction, ← hplans.model]
      rw [← hplans.model] at hfound
      exact ⟨old, hfound,
        hrevises.mono h.elapsed (.refl _) fun _ => touches_of_holds hschema hplan hnode⟩

end Underway

/-! ### The second pass -/

/-- Records that are stored before the second pass are kept by it, but for what links touch. -/
def Keeps (plan : Plan) (written : Written) (before after : Tables) : Prop :=
  ∀ name id old, before.get? name id = some old →
    ∃ record, after.get? name id = some record ∧ old.Kept (plan.Touches written name id) record

theorem Keeps.attached {tables : Tables} (h : plan.Keeps written tables before.tables)
    (hplan : plan.Sound schema) (hfilled : before.tables.Filled schema)
    {link : Link NodeRef} (hlink : link ∈ plan.links) {holder : Identity} {old : Record}
    {value : Value} (hattached : Attached written link before after holder old value) :
    plan.Keeps written tables after.tables := by
  obtain ⟨new, hstores⟩ := hattached.stores
  have hsound := hplan.links link hlink
  obtain ⟨relationship, hmem, hname, hown, -⟩ := hsound.held
  intro name id first hfirst
  obtain ⟨record, hrecord, hkept⟩ := h name id first hfirst
  by_cases hsame : name = link.holderModel.name ∧ id = holder
  · obtain ⟨rfl, rfl⟩ := hsame
    obtain rfl := Option.some.inj (hattached.found.symm.trans hrecord)
    refine ⟨_, hstores.self, hkept.put ?_ ⟨link, hlink, rfl, rfl, hattached.names⟩ new⟩
    rw [(hfilled _ hsound.model id old hattached.found).keys, ← hname]
    exact Model.mem_members_of_own hmem hown
  · exact ⟨record, (hstores.of_ne hsame).trans hrecord, hkept⟩

/-! ### The whole plan -/

/-- What a plan does: each of its objects is stored in a place of its own, nothing else comes to be
stored, and nothing goes; each object has made what it asks for of the record in its place; and all
other records are kept, but for the relationships that links set on them. -/
structure Effect (plan : Plan) (sources : Sources) (objects : List InputObject) (written : Written)
    (origin : Tables) (before : Meter) (tables : Tables) (after : Meter) : Prop where
  placed : plan.Placed origin (List.range objects.length) written tables
  made : ∀ index object id, objects[index]? = some object → written.lookup index = some id →
    ∃ record, tables.get? object.model.name id = some record ∧
      object.Makes sources before after (plan.Touches written object.model.name id)
        (origin.get? object.model.name id) record
  others : ∀ name id old, origin.get? name id = some old → Untaken objects written name id →
    ∃ record, tables.get? name id = some record ∧ old.Kept (plan.Touches written name id) record

theorem Underway.effect {order : List Nat}
    (h : plan.Underway schema sources objects start order written before)
    (hschema : schema.Sound) (hplan : plan.Sound schema)
    (hproper : ∀ object ∈ objects, object.Proper schema)
    (hplaced : plan.Placed start.tables (List.range objects.length) written after.tables)
    (hkeeps : plan.Keeps written before.tables after.tables) (hmeter : after.meter = before.meter) :
    plan.Effect sources objects written start.tables start.meter after.tables after.meter where
  placed := hplaced
  made index object id hobject hid := by
    obtain ⟨made, hmade, hmakes⟩ := h.made index object id hobject hid
    obtain ⟨record, hrecord, hkept⟩ := hkeeps _ _ made hmade
    have hmodel := (hproper object (List.mem_of_getElem? hobject)).model
    rw [hmeter]
    exact ⟨record, hrecord, hmakes.kept hkept
      (fun name hname => not_touches_field hschema hplan hmodel hname) (hschema.model _ hmodel)⟩
  others name id old hold huntaken :=
    hkeeps name id old ((h.others name id huntaken).trans hold)

/-- A plan that is carried out has its effect, if the record to update was stored before. -/
theorem effect_of_apply (hschema : schema.Sound) (hplan : plan.Sound schema)
    (hreads : plan.Reads schema objects) (hproper : ∀ object ∈ objects, object.Proper schema)
    (hrooted : Rooted objects start.tables) (hfilled : start.tables.Filled schema)
    {order : List Nat} (horder : plan.order = .ok order)
    (hrun : plan.apply sources order start = .ok record stop) :
    ∃ written, plan.Effect sources objects written start.tables start.meter stop.tables stop.meter ∧
      ∃ root id, objects.head? = some root ∧ written.lookup 0 = some id ∧
        stop.tables.get? root.model.name id = some record := by
  suffices h : Yields (plan.apply sources order) start fun record stop => ∃ written,
      plan.Effect sources objects written start.tables start.meter stop.tables stop.meter ∧
        ∃ root id, objects.head? = some root ∧ written.lookup 0 = some id ∧
          stop.tables.get? root.model.name id = some record from h.ok hrun
  have hrange : ∀ index, index ∈ order ↔ index ∈ List.range objects.length := by
    intro index
    rw [(order_spec horder).2 index, hreads.length, List.mem_range]
  refine (apply_passes (hplan.models hschema)
    (fun done written stop => plan.Underway schema sources objects start done written stop)
    (fun written _ stop => ∃ between,
      plan.Underway schema sources objects start order written between ∧
      plan.Placed start.tables order written stop.tables ∧ stop.tables.Filled schema ∧
      plan.Keeps written between.tables stop.tables ∧ stop.meter = between.meter)
    (.outset hfilled) ?_ ?_ ?_).mono ?_
  · intro done index written before written' after hpart hunderway hwrote
    exact hunderway.wrote hschema hplan hreads hproper hrooted
      (not_mem_done horder hpart) hwrote
  · intro written between hunderway
    exact ⟨between, hunderway, hunderway.placed, hunderway.filled,
      fun _ _ old hold => ⟨old, hold, .refl _ old⟩, rfl⟩
  · rintro set link written before after holder old value hpart
      ⟨between, hunderway, hplaced, hfilled, hkeeps, hmeter⟩ hattached
    have hlink := plan.lateLinks_subset
      (hpart.subset (List.mem_append_right _ (List.mem_singleton.mpr rfl)))
    refine ⟨between, hunderway, hplaced.attached hattached,
      filled_of_attached hschema (hplan.links link hlink) hattached hfilled,
      hkeeps.attached hplan hfilled hlink hattached, ?_⟩
    rw [← hmeter]
    rcases hattached.stop_eq with ⟨-, rfl⟩ | ⟨-, -, rfl⟩ <;> rfl
  · rintro record stop ⟨written, ⟨between, hunderway, hplaced, -, hkeeps, hmeter⟩, root, id, hroot,
      hid, hrecord⟩
    have heffect := hunderway.effect hschema hplan hproper (hplaced.congr hrange) hkeeps hmeter
    refine ⟨written, heffect, ?_⟩
    rw [List.head?_eq_getElem?] at hroot
    obtain ⟨object, hobject, hplans⟩ := hreads.object hroot
    rw [hplans.model] at hrecord
    exact ⟨object, id, List.head?_eq_getElem?.trans hobject, hid, hrecord⟩

end ModelSurface.Plan
