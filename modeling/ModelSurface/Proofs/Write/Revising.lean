import ModelSurface.Proofs.Write.Applying
import ModelSurface.Proofs.Write.Counting
import ModelSurface.Proofs.Write.Placing

/-!
# Revisions

A field that takes the next number of its sequence whenever its record is saved tells the revisions
of the record apart: a plan that updates the record raises the number. A plan also sets links that
lead to other records from theirs, and to do so it saves nothing: a record that it does not update
keeps its revision, and so all its fields, while its references may change.
-/

namespace ModelSurface

/-- A field that takes the next number of its sequence whenever its record is saved. -/
def Field.Revises (field : Field) : Prop := field.computed = some ⟨.save, .sequence⟩

/-- The revisions of stored records are numbers that the sequence of the field has given. -/
def Tables.Counted (model : Model) (field : Field) (tables : Tables) : Prop :=
  ∀ id record, tables.get? model.name id = some record →
    ∃ number, record.get? field.name = some (.int number) ∧
      number ≤ tables.number (field.sequence model.name)

/-- What becomes of a record: its revision does not go back, and rises when the record is saved. Of
a record that is not saved, nothing but what is `loose` may change. -/
structure Record.Revised (revision : String) (saved : Prop) (loose : String → Prop)
    (before after : Record) : Prop where
  risen : ∃ number number', before.get? revision = some (.int number) ∧
    after.get? revision = some (.int number') ∧ number ≤ number' ∧ (saved → number < number')
  kept : ∀ name, after.get? name = before.get? name ∨ saved ∨ loose name

namespace Record.Revised

variable {revision : String} {saved saved' : Prop} {loose loose' : String → Prop}
  {before between after : Record}

theorem refl {number : Int} (h : before.get? revision = some (.int number)) (hsaved : ¬saved) :
    Revised revision saved loose before before where
  risen := ⟨number, number, h, h, Int.le_refl _, fun hsave => absurd hsave hsaved⟩
  kept _ := .inl rfl

theorem trans (h : Revised revision saved loose before between)
    (h' : Revised revision saved' loose' between after) :
    Revised revision (saved ∨ saved') (fun name => loose name ∨ loose' name) before after where
  risen := by
    obtain ⟨first, second, hfirst, hsecond, hle, hlt⟩ := h.risen
    obtain ⟨third, last, hthird, hlast, hle', hlt'⟩ := h'.risen
    obtain rfl : second = third := Value.int.inj (Option.some.inj (hsecond.symm.trans hthird))
    refine ⟨first, last, hfirst, hlast, Int.le_trans hle hle', ?_⟩
    rintro (hsaved | hsaved)
    · exact Int.lt_of_lt_of_le (hlt hsaved) hle'
    · exact Int.lt_of_le_of_lt hle (hlt' hsaved)
  kept name := by
    rcases h'.kept name with heq | hsaved | hloose
    · rw [heq]
      exact (h.kept name).imp_right (Or.imp .inl .inl)
    · exact .inr (.inl (.inr hsaved))
    · exact .inr (.inr (.inr hloose))

theorem mono (h : Revised revision saved loose before after) (hsaved : saved' ↔ saved)
    (hloose : ¬saved → ∀ name, loose name → loose' name) :
    Revised revision saved' loose' before after where
  risen := by
    obtain ⟨number, number', hbefore, hafter, hle, hlt⟩ := h.risen
    exact ⟨number, number', hbefore, hafter, hle, fun h => hlt (hsaved.mp h)⟩
  kept name := by
    by_cases hsave : saved
    · exact .inr (.inl (hsaved.mpr hsave))
    · exact (h.kept name).imp_right
        (Or.imp (fun h => absurd h hsave) (hloose hsave name))

end Record.Revised

theorem Tables.counted_empty (model : Model) (field : Field) : Counted model field {} := by
  intro id record h
  cases h

/-- A record may be stored with a revision that the sequence has given. -/
theorem Tables.Counted.stores {model : Model} {field : Field} {before after : Tables}
    (h : before.Counted model field) {name : String} {id : Identity} {record : Record}
    (hstores : before.Stores after name id record)
    (hle : before.number (field.sequence model.name) ≤ after.number (field.sequence model.name))
    (hrecord : model.name = name → ∃ number, record.get? field.name = some (.int number) ∧
      number ≤ after.number (field.sequence model.name)) : after.Counted model field := by
  intro other found hfound
  by_cases hsame : model.name = name ∧ other = id
  · rw [hsame.1, hsame.2, hstores.self] at hfound
    rw [← Option.some.inj hfound]
    exact hrecord hsame.1
  · rw [hstores.of_ne hsame] at hfound
    obtain ⟨number, hnumber, hold⟩ := h other found hfound
    exact ⟨number, hnumber, Int.le_trans hold hle⟩

namespace Plan

open Writing (Yields)

variable {schema : Schema} {sources : Sources} {plan : Plan} {written : Written}
  {start stop : Work} {model : Model} {field : Field}

/-! ### Numbers that are drawn -/

/-- A number of a sequence that is drawn between two points of work. -/
theorem number_of_generates {before after earlier later : Work} {name : String} {value : Value}
    (hearlier : before.Draws earlier)
    (h : field.Generates sources name earlier later .sequence value)
    (hlater : later.Draws after) : ∃ number, value = .int number ∧
      before.tables.number (field.sequence name) < number ∧
      number ≤ after.tables.number (field.sequence name) := by
  cases h with
  | number _ hnext =>
      have hbefore : before.tables.number _ ≤ earlier.tables.number _ :=
        hearlier.sequences (field.sequence name)
      have hafter := hlater.sequences (field.sequence name)
      rw [hnext, Tables.get?_sequences_next, if_pos rfl] at hafter
      refine ⟨_, rfl, ?_, hafter⟩
      rw [Tables.next_fst]
      exact Int.lt_add_one_iff.mpr hbefore

/-- A new record has a revision that is drawn for it. -/
theorem revision_of_fill {node : PlanNode} (hfield : field ∈ node.model.fields.values)
    (hrevises : field.Revises) {filled : Record}
    (h : Puts node.model.fields.values Field.name (initialValue sources node) start .empty filled
      stop) : ∃ number, filled.get? field.name = some (.int number) ∧
      start.tables.number (field.sequence node.model.name) < number ∧
      number ≤ stop.tables.number (field.sequence node.model.name) := by
  obtain ⟨value, earlier, later, hvalue, hearlier, hrun, hlater⟩ := h.values field hfield
  obtain ⟨-, hstarts⟩ := (initialValue_yields sources node field).ok hrun
  unfold Field.Starts at hstarts
  rw [hrevises] at hstarts
  obtain ⟨number, rfl, hnew, hold⟩ := number_of_generates hearlier hstarts.2 hlater
  exact ⟨number, hvalue, hnew, hold⟩

/-- A record that is updated has a revision that is drawn for it. -/
theorem revision_of_refresh (hfield : field ∈ model.fields.values) (hrevises : field.Revises)
    {before refreshed : Record}
    (h : Puts (onSave model) (fun entry => entry.1.name)
      (fun entry => entry.1.generate sources model.name entry.2) start before refreshed stop) :
    ∃ number, refreshed.get? field.name = some (.int number) ∧
      start.tables.number (field.sequence model.name) < number ∧
      number ≤ stop.tables.number (field.sequence model.name) := by
  obtain ⟨value, earlier, later, hvalue, hearlier, hrun, hlater⟩ :=
    h.values (field, .sequence) (mem_onSave.mpr ⟨hfield, hrevises⟩)
  obtain ⟨-, -, hgenerates⟩ :=
    (field.generate_yields sources model.name .sequence).ok hrun
  obtain ⟨number, rfl, hnew, hold⟩ := number_of_generates hearlier hgenerates hlater
  exact ⟨number, hvalue, hnew, hold⟩

/-! ### The records of a plan -/

/-- Among the planned records that are done is an update of a stored record. -/
def Saves (plan : Plan) (done : List Nat) (model : Model) (id : Identity) : Prop :=
  ∃ index ∈ done, ∃ node, plan.nodes[index]? = some node ∧ node.model = model ∧
    node.action = .update id

/-- A plan updates a stored record. -/
def Updates (plan : Plan) (model : Model) (id : Identity) : Prop :=
  ∃ node ∈ plan.nodes, node.model = model ∧ node.action = .update id

/-- A plan sets a link of a record that is named by its identity. -/
def Links (plan : Plan) (model : Model) (id : Identity) (name : String) : Prop :=
  ∃ link ∈ plan.links, link.holderModel = model ∧ link.holder = .stored id ∧ link.field = name

theorem saves_iff_updates {order : List Nat} (horder : plan.order = .ok order) {id : Identity} :
    plan.Saves order model id ↔ plan.Updates model id := by
  constructor
  · rintro ⟨index, -, node, hnode, hupdate⟩
    exact ⟨node, List.mem_of_getElem? hnode, hupdate⟩
  · rintro ⟨node, hnode, hupdate⟩
    obtain ⟨index, hindex⟩ := List.mem_iff_getElem?.mp hnode
    obtain ⟨hlt, -⟩ := List.getElem?_eq_some_iff.mp hindex
    exact ⟨index, ((order_spec horder).2 index).mpr hlt, node, hindex, hupdate⟩

theorem saves_append {done : List Nat} {index : Nat} {node : PlanNode}
    (hnode : plan.nodes[index]? = some node) {id : Identity} :
    plan.Saves (done ++ [index]) model id ↔
      plan.Saves done model id ∨ (node.model = model ∧ node.action = .update id) := by
  unfold Saves
  simp only [List.mem_append, List.mem_singleton]
  constructor
  · rintro ⟨other, hdone | rfl, found, hfound, hupdate⟩
    · exact .inl ⟨other, hdone, found, hfound, hupdate⟩
    · obtain rfl := Option.some.inj (hnode.symm.trans hfound)
      exact .inr hupdate
  · rintro (⟨other, hdone, hrest⟩ | hupdate)
    · exact ⟨other, .inl hdone, hrest⟩
    · exact ⟨index, .inr rfl, node, hnode, hupdate⟩

/-- What a plan has made of the records that were stored before it. -/
structure Revising (plan : Plan) (model : Model) (field : Field) (origin : Tables)
    (done : List Nat) (written : Written) (tables : Tables) : Prop where
  placed : plan.Placed origin done written tables
  counted : tables.Counted model field
  records : ∀ id old new, origin.get? model.name id = some old →
    tables.get? model.name id = some new →
    old.Revised field.name (plan.Saves done model id) (plan.Links model id) new

namespace Revising

theorem outset {origin : Tables} (h : origin.Counted model field) :
    plan.Revising model field origin [] [] origin where
  placed := .outset origin
  counted := h
  records id old new hold hnew := by
    obtain rfl := Option.some.inj (hold.symm.trans hnew)
    obtain ⟨number, hnumber, -⟩ := h id old hold
    refine .refl hnumber ?_
    rintro ⟨_, hdone, -⟩
    cases hdone

variable {origin : Tables} {done done' : List Nat} {written' : Written}

/-- A step stores one record. Records at other places stay as they are. -/
theorem stores (h : plan.Revising model field origin done written start.tables) (saved : Prop)
    (loose : String → Prop) (hplaced : plan.Placed origin done' written' stop.tables)
    {name : String} {id : Identity} {record : Record}
    (hstores : start.tables.Stores stop.tables name id record)
    (hle : start.tables.number (field.sequence model.name) ≤
      stop.tables.number (field.sequence model.name))
    (hnumber : model.name = name → ∃ number, record.get? field.name = some (.int number) ∧
      number ≤ stop.tables.number (field.sequence model.name))
    (hsaves : ∀ other, plan.Saves done' model other ↔
      plan.Saves done model other ∨ ((model.name = name ∧ other = id) ∧ saved))
    (hrevised : model.name = name → ∀ current, start.tables.get? model.name id = some current →
      current.Revised field.name saved loose record)
    (hloose : model.name = name → (origin.get? model.name id).isSome →
      ¬plan.Saves done' model id → ∀ name, loose name → plan.Links model id name) :
    plan.Revising model field origin done' written' stop.tables where
  placed := hplaced
  counted := h.counted.stores hstores hle hnumber
  records other old new hold hnew := by
    by_cases hsame : model.name = name ∧ other = id
    · obtain ⟨hname, rfl⟩ := hsame
      have hstored := h.placed.retains _ _ (Option.isSome_of_eq_some hold)
      obtain ⟨current, hcurrent⟩ := Option.isSome_iff_exists.mp hstored
      obtain rfl : record = new := Option.some.inj (hstores.self.symm.trans (hname ▸ hnew))
      have hsaved : plan.Saves done' model other ↔ plan.Saves done model other ∨ saved := by
        rw [hsaves other, and_iff_right ⟨hname, rfl⟩]
      refine ((h.records other old current hold hcurrent).trans
        (hrevised hname current hcurrent)).mono hsaved ?_
      rintro hunsaved found (hlinks | hfound)
      · exact hlinks
      · exact hloose hname (Option.isSome_of_eq_some hold) (mt hsaved.mp hunsaved) found hfound
    · rw [hstores.of_ne hsame] at hnew
      refine (h.records other old new hold hnew).mono ?_ fun _ _ hlinks => hlinks
      rw [hsaves other, or_iff_left fun hstep => hsame hstep.1]

variable (hschema : schema.Sound) (hplan : plan.Sound schema) (hmodel : model ∈ schema.models)
  (hfield : field ∈ model.fields.values)

include hschema hplan hmodel hfield

theorem wrote (h : plan.Revising model field origin done written start.tables)
    (hrevises : field.Revises) {index : Nat} (hnew : index ∉ done)
    (hwrote : Wrote sources plan index written start stop written') :
    plan.Revising model field origin (done ++ [index]) written' stop.tables := by
  have hkey := (hschema.model _ hmodel).mem_fields_keys hfield
  have hplaced := h.placed.wrote hnew hwrote
  cases hwrote with
  | @created node id filled record between hnode haction hcreated =>
      obtain ⟨habsent, hstores⟩ := hcreated.stores
      have hnodes := hplan.nodes node (List.mem_of_getElem? hnode)
      refine h.stores False (fun _ => False) hplaced hstores ?_ ?_ ?_ ?_ ?_
      · rw [hcreated.stop_eq]
        exact hcreated.fills.draws.sequences _
      · intro hname
        obtain rfl := hschema.model_ext hmodel hnodes.model hname.symm
        obtain ⟨number, hnumber, -, hdrawn⟩ := revision_of_fill hfield hrevises hcreated.fills
        rw [hcreated.field hschema hplan hnode hkey, hcreated.stop_eq]
        exact ⟨number, hnumber, hdrawn⟩
      · intro other
        rw [saves_append hnode, haction]
        simp
      · intro hname current hcurrent
        rw [hname, habsent] at hcurrent
        cases hcurrent
      · exact fun _ _ _ _ hnothing => hnothing.elim
  | @updated node id earlier refreshed record between hnode haction hupdated =>
      have hnodes := hplan.nodes node (List.mem_of_getElem? hnode)
      have hrevision : model.name = node.model.name → ∃ number,
          record.get? field.name = some (.int number) ∧
          start.tables.number (field.sequence model.name) < number ∧
          number ≤ stop.tables.number (field.sequence model.name) := by
        intro hname
        obtain rfl := hschema.model_ext hmodel hnodes.model hname.symm
        obtain ⟨number, hnumber, hrest⟩ :=
          revision_of_refresh hfield hrevises hupdated.refreshes
        rw [field_of_assigned hschema hplan hnode hupdated.assigned hkey, hupdated.stop_eq]
        exact ⟨number, hnumber, hrest⟩
      refine h.stores True (fun _ => False) hplaced hupdated.stores ?_ ?_ ?_ ?_
        ?_
      · rw [hupdated.stop_eq]
        exact hupdated.refreshes.draws.sequences _
      · intro hname
        obtain ⟨number, hnumber, -, hdrawn⟩ := hrevision hname
        exact ⟨number, hnumber, hdrawn⟩
      · intro other
        rw [saves_append hnode, haction, and_true]
        refine or_congr_right (and_congr ⟨fun heq => heq ▸ rfl, fun hname => ?_⟩ ?_)
        · exact hschema.model_ext hmodel hnodes.model hname.symm
        · rw [NodeAction.update.injEq, eq_comm]
      · intro hname current hcurrent
        obtain ⟨number, hnumber, hlast⟩ := h.counted id current hcurrent
        obtain ⟨number', hnumber', hnext, -⟩ := hrevision hname
        have hlt := Int.lt_of_le_of_lt hlast hnext
        exact ⟨⟨number, number', hnumber, hnumber', Int.le_of_lt hlt, fun _ => hlt⟩,
          fun _ => .inr (.inl trivial)⟩
      · exact fun _ _ _ _ hnothing => hnothing.elim

theorem attached (h : plan.Revising model field origin done written start.tables)
    {link : Link NodeRef} (hlink : link ∈ plan.links) {holder : Identity} {old : Record}
    {value : Value} (hattached : Attached written link start stop holder old value) :
    plan.Revising model field origin done written stop.tables := by
  have hsound := hplan.links link hlink
  obtain ⟨new, hstores⟩ := hattached.stores
  have hnumber : stop.tables.number (field.sequence model.name) =
      start.tables.number (field.sequence model.name) := by
    rcases hattached.stop_eq with ⟨-, rfl⟩ | ⟨-, -, rfl⟩ <;> rfl
  -- a link is held under the name of a relationship, and a revision is none
  have hrevision : model.name = link.holderModel.name →
      (old.put link.field new).get? field.name = old.get? field.name := by
    intro hname
    obtain rfl := hschema.model_ext hmodel hsound.model hname.symm
    obtain ⟨relationship, hmem, hheld, -⟩ := hsound.held
    refine Keyed.get?_put_of_ne _ _ fun heq => ?_
    have hnot := (hschema.model _ hmodel).not_mem_fields hmem
    rw [hheld, ← heq] at hnot
    exact hnot ((hschema.model _ hmodel).mem_fields_keys hfield)
  refine h.stores False (fun name => name = link.field)
    (h.placed.attached hattached) hstores (Int.le_of_eq hnumber.symm)
    ?_ ?_ ?_ ?_
  · intro hname
    rw [hrevision hname, hnumber]
    exact h.counted holder old (hname ▸ hattached.found)
  · intro other
    rw [and_false, or_false]
  · intro hname current hcurrent
    obtain rfl := Option.some.inj ((hname ▸ hattached.found).symm.trans hcurrent)
    obtain ⟨number, hnumber, -⟩ := h.counted holder old hcurrent
    refine ⟨⟨number, number, hnumber, (hrevision hname).trans hnumber, Int.le_refl _,
      False.elim⟩, fun name => ?_⟩
    by_cases hfound : name = link.field
    · exact .inr (.inr hfound)
    · exact .inl (Keyed.get?_put_of_ne _ _ hfound)
  · rintro hname hstored hunsaved name rfl
    refine ⟨link, hlink, hschema.model_ext hmodel hsound.model hname.symm, ?_, rfl⟩
    rcases hattached.names with hholder | ⟨index, hholder, hindex⟩
    · exact hholder
    · -- the record of a planned object is new, or is the one that the plan updates
      have hleads := hsound.holder
      rw [hholder] at hleads
      obtain ⟨node, hnode, hnode_name⟩ := hleads
      obtain ⟨placed, hplaced, -, hlands⟩ := h.placed.places index holder hindex
      obtain rfl := Option.some.inj (hnode.symm.trans hplaced)
      have hsame : node.model = model := hschema.model_ext hmodel
        (hplan.nodes node (List.mem_of_getElem? hnode)).model (hnode_name.trans hname.symm)
      unfold PlanNode.Lands at hlands
      split at hlands
      · rw [hsame] at hlands
        rw [hlands] at hstored
        cases hstored
      · rename_i named haction
        exact absurd ⟨index, (h.placed.reached index).mpr ⟨holder, hindex⟩, node, hnode, hsame,
          hlands ▸ haction⟩ hunsaved

end Revising

/-- What a plan makes of the records of a model: those that it updates get a greater revision, and
of all others nothing changes but links that it sets. -/
theorem revised_of_apply (hschema : schema.Sound) (hplan : plan.Sound schema)
    (hmodel : model ∈ schema.models) (hfield : field ∈ model.fields.values)
    (hrevises : field.Revises) (hcounted : start.tables.Counted model field) {order : List Nat}
    (horder : plan.order = .ok order) {record : Record}
    (hrun : plan.apply sources order start = .ok record stop) :
    start.tables.Retains stop.tables ∧ stop.tables.Counted model field ∧
      ∀ id old new, start.tables.get? model.name id = some old →
        stop.tables.get? model.name id = some new →
        old.Revised field.name (plan.Updates model id) (plan.Links model id) new := by
  obtain ⟨written, hrevising, -⟩ := (apply_passes (hplan.models hschema)
    (fun done written work => plan.Revising model field start.tables done written work.tables)
    (fun written _ work => plan.Revising model field start.tables order written work.tables)
    (.outset hcounted)
    (fun done index written before written' after hpart h hwrote =>
      h.wrote hschema hplan hmodel hfield hrevises (not_mem_done horder hpart) hwrote)
    (fun _ _ h => h)
    fun set link written before after holder old value hpart h hattached =>
      h.attached hschema hplan hmodel hfield (plan.lateLinks_subset
        (hpart.subset (List.mem_append_right _ (List.mem_singleton.mpr rfl)))) hattached).ok hrun
  refine ⟨hrevising.placed.retains, hrevising.counted, fun id old new hold hnew => ?_⟩
  exact (hrevising.records id old new hold hnew).mono (saves_iff_updates horder).symm
    fun _ _ hlinks => hlinks

end Plan

end ModelSurface
