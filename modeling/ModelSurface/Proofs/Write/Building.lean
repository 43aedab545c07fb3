import ModelSurface.Proofs.Write.Described
import ModelSurface.Proofs.Write.Objects

/-!
# What objects become

The record of an object that is created is made of what is drawn for its computed fields, of what
the object says about the others, and of references. The record of an object that is updated keeps
what the object does not mention and no save computes anew. References are set from many places of
an input, also when the record is stored; all that a record owes to its own object is therefore said
of the fields that no link touches.
-/

namespace ModelSurface

/-! ### Drawn values -/

/-- How far clocks, identifier sources and sequences have been drawn from. -/
structure Meter where
  drawn : Nat
  sequences : Keyed Int

namespace Meter

/-- The number that was drawn last from a sequence. -/
def last (meter : Meter) (sequence : String) : Int := (meter.sequences.get? sequence).getD 0

/-- Nothing that was drawn is drawn again. -/
structure Until (before after : Meter) : Prop where
  drawn : before.drawn ≤ after.drawn
  sequences : ∀ sequence, before.last sequence ≤ after.last sequence

theorem Until.refl (meter : Meter) : meter.Until meter := ⟨Nat.le_refl _, fun _ => Int.le_refl _⟩

theorem Until.trans {before between after : Meter} (h : before.Until between)
    (h' : between.Until after) : before.Until after where
  drawn := Nat.le_trans h.drawn h'.drawn
  sequences sequence := Int.le_trans (h.sequences sequence) (h'.sequences sequence)

end Meter

def Store.meter (store : Store) : Meter := ⟨store.drawn, store.tables.sequences⟩

def Work.meter (work : Work) : Meter := ⟨work.drawn, work.tables.sequences⟩

theorem Work.Draws.until {before after : Work} (h : before.Draws after) :
    before.meter.Until after.meter :=
  ⟨h.drawn, h.sequences⟩

/-- What a generator gives for a field between two points: of an instant or an identifier drawn
there, or a number of the field's sequence. -/
inductive Field.Produces (sources : Sources) (model : String) (field : Field)
    (before after : Meter) : Generator → Value → Prop
  | instant {draw : Nat} (hdraw : before.drawn ≤ draw ∧ draw < after.drawn)
      (hkind : field.kind = .datetime) :
      Produces sources model field before after .now (.instant (sources.instant draw))
  | time {draw : Nat} (hdraw : before.drawn ≤ draw ∧ draw < after.drawn)
      (hkind : field.kind = .time) :
      Produces sources model field before after .now (.time (sources.instant draw).time)
  | date {draw : Nat} (hdraw : before.drawn ≤ draw ∧ draw < after.drawn)
      (hkind : field.kind = .date) :
      Produces sources model field before after .today (.date (sources.instant draw).date)
  | uuid {draw : Nat} (hdraw : before.drawn ≤ draw ∧ draw < after.drawn)
      (hkind : field.kind = .uuid) :
      Produces sources model field before after .uuid (.uuid (sources.uuid draw))
  | text {draw : Nat} (hdraw : before.drawn ≤ draw ∧ draw < after.drawn)
      (hkind : field.kind = .string) :
      Produces sources model field before after .uuid (.str (sources.uuid draw).text)
  | number {number : Int} (hfirst : before.last (field.sequence model) < number)
      (hlast : number ≤ after.last (field.sequence model)) (hkind : field.kind = .integer) :
      Produces sources model field before after .sequence (.int number)

theorem Field.Produces.mono {sources : Sources} {model : String} {field : Field}
    {before before' after after' : Meter} {generator : Generator} {value : Value}
    (h : field.Produces sources model before after generator value)
    (hbefore : before'.Until before) (hafter : after.Until after') :
    field.Produces sources model before' after' generator value := by
  have hdraw : ∀ {draw}, before.drawn ≤ draw ∧ draw < after.drawn →
      before'.drawn ≤ draw ∧ draw < after'.drawn := fun hbetween =>
    ⟨Nat.le_trans hbefore.drawn hbetween.1, Nat.lt_of_lt_of_le hbetween.2 hafter.drawn⟩
  cases h with
  | instant hbetween hkind => exact .instant (hdraw hbetween) hkind
  | time hbetween hkind => exact .time (hdraw hbetween) hkind
  | date hbetween hkind => exact .date (hdraw hbetween) hkind
  | uuid hbetween hkind => exact .uuid (hdraw hbetween) hkind
  | text hbetween hkind => exact .text (hdraw hbetween) hkind
  | number hfirst hlast hkind =>
      exact .number (Int.lt_of_le_of_lt (hbefore.sequences _) hfirst)
        (Int.le_trans hlast (hafter.sequences _)) hkind

/-- What is generated at one point between two others is produced between those. -/
theorem Field.Generates.produces {sources : Sources} {model : String} {field : Field}
    {start before after stop : Work} {generator : Generator} {value : Value}
    (h : field.Generates sources model before after generator value)
    (hdrawn : before.drawn < after.drawn) (hstart : start.meter.Until before.meter)
    (hstop : after.meter.Until stop.meter) :
    field.Produces sources model start.meter stop.meter generator value := by
  have hdraw := And.intro hstart.drawn (Nat.lt_of_lt_of_le hdrawn hstop.drawn)
  cases h with
  | instant hkind => exact .instant hdraw hkind
  | time hkind => exact .time hdraw hkind
  | date hkind => exact .date hdraw hkind
  | uuid hkind => exact .uuid hdraw hkind
  | text hkind => exact .text hdraw hkind
  | number hkind hnext =>
      have hnumber : after.meter.last (field.sequence model) =
          (before.tables.next (field.sequence model)).1 := by
        change (after.tables.sequences.get? _).getD 0 = _
        rw [hnext, Tables.get?_sequences_next, if_pos rfl]
      refine .number ?_ ?_ hkind
      · exact Int.lt_of_le_of_lt (hstart.sequences _) (Int.lt_succ _)
      · exact hnumber ▸ hstop.sequences (field.sequence model)

/-! ### Given values -/

namespace InputObject

variable {schema : Schema} {object : InputObject} {node : PlanNode} {field : Field}

def Mentions (object : InputObject) (name : String) : Prop := name ∈ object.members.map (·.1)

/-- What an object says about a field, as the kind of the field reads it. -/
def Supplies (object : InputObject) (field : Field) (value : Value) : Prop :=
  ∃ json, (field.name, json) ∈ object.members ∧
    Value.ofJson field.kind field.list json = .ok value

/-- An object of which everything can be read, by an input type of its own model. -/
structure Proper (object : InputObject) (schema : Schema) : Prop where
  model : object.model ∈ schema.models
  type : ∃ kind, kind ≠ .delete ∧ object.type = schema.input kind object.model
  readable : object.Readable

/-- The values that are planned are those that the object supplies. -/
theorem Plans.supplied (h : object.Plans node) (hschema : schema.Sound)
    (hproper : object.Proper schema) (hfield : field ∈ object.model.fields.values) {value : Value}
    (hvalue : (field.name, value) ∈ node.values.entries) : object.Supplies field value := by
  have hmodel := hschema.model _ hproper.model
  obtain ⟨kind, hkind, htype⟩ := hproper.type
  rw [h.values] at hvalue
  obtain ⟨json, hmember, hread⟩ := InputEntry.mem_entries_values hvalue
  rw [htype] at hread
  obtain ⟨plain, hplain, hname, -, -, hjson⟩ := InputEntry.plain_of_read hmodel hkind hread
  rw [hmodel.field_ext hfield (List.mem_cons_of_mem _ hplain) hname] at hjson
  exact ⟨json, hmember, hjson⟩

theorem Plans.mentions (h : object.Plans node) {name : String}
    (hkey : name ∈ node.values.keys) : object.Mentions name := by
  obtain ⟨⟨_, value⟩, hentry, rfl⟩ := List.mem_map.mp hkey
  rw [h.values] at hentry
  obtain ⟨json, hmember, -⟩ := InputEntry.mem_entries_values hentry
  exact List.mem_map.mpr ⟨_, hmember, rfl⟩

/-- A value is planned for each field that callers give and the object mentions. -/
theorem Plans.mem_keys (h : object.Plans node) (hschema : schema.Sound)
    (hproper : object.Proper schema) (hfield : field ∈ object.model.fields.values)
    (hcomputed : field.computed = none) (hmentions : object.Mentions field.name) :
    field.name ∈ node.values.keys := by
  have hmodel := hschema.model _ hproper.model
  have hplain := hmodel.plain_of_given hfield hcomputed
  obtain ⟨kind, hkind, htype⟩ := hproper.type
  obtain ⟨⟨name, json⟩, hmember, hname⟩ := List.mem_map.mp hmentions
  dsimp only at hname
  subst hname
  rw [h.values]
  rcases InputEntry.read_plain schema object.linkedBy json hkind hmodel hplain hcomputed with
    ⟨value, hread⟩ | ⟨fault, hwrong⟩
  · rw [← htype] at hread
    exact InputEntry.mem_keys_values hmember hread
  · rw [← htype] at hwrong
    exact absurd hwrong (hproper.readable _ json hmember fault)

end InputObject

/-! ### Records -/

/-- A record that keeps everything but what is touched. -/
structure Record.Kept (touched : String → Prop) (old record : Record) : Prop where
  keys : record.keys = old.keys
  others : ∀ name, ¬ touched name → record.get? name = old.get? name

theorem Record.Kept.refl (touched : String → Prop) (record : Record) : record.Kept touched record :=
  ⟨rfl, fun _ _ => rfl⟩

theorem Record.Kept.put {touched : String → Prop} {old record : Record}
    (h : old.Kept touched record) {name : String} (hkey : name ∈ record.keys)
    (htouched : touched name) (value : Value) : old.Kept touched (record.put name value) where
  keys := (Keyed.keys_put_of_mem value hkey).trans h.keys
  others other hother := by
    rw [Keyed.get?_put_of_ne _ _ (by rintro rfl; exact hother htouched), h.others other hother]

namespace InputObject

/-- The record of an object that is created. Each computed field holds what its generator gives,
whatever the object says; any other field holds what the object supplies, else its default, else
null. A relationship that no link touches leads nowhere. -/
structure Builds (object : InputObject) (sources : Sources) (before after : Meter)
    (touched : String → Prop) (record : Record) : Prop where
  keys : record.keys = object.model.members
  computed : ∀ field ∈ object.model.fields.values, ∀ computed, field.computed = some computed →
    ∃ value, record.get? field.name = some value ∧
      field.Produces sources object.model.name before after computed.generator value
  given : ∀ field ∈ object.model.fields.values, field.computed = none →
    object.Mentions field.name →
      ∃ value, record.get? field.name = some value ∧ object.Supplies field value
  missing : ∀ field ∈ object.model.fields.values, field.computed = none →
    ¬ object.Mentions field.name → record.get? field.name = some (field.default.getD .null)
  references : ∀ relationship ∈ object.model.relationships.values, relationship.isOwn →
    ¬ touched relationship.name →
      record.get? relationship.name = some (if relationship.isMany then .list [] else .null)

/-- The record of an object that is updated. What the object mentions is as it supplies it, what is
computed on each save is computed anew, and everything else is kept, as is the identity. -/
structure Revises (object : InputObject) (sources : Sources) (before after : Meter)
    (touched : String → Prop) (old record : Record) : Prop where
  keys : record.keys = old.keys
  identity : record.get? object.model.identity.name = old.get? object.model.identity.name
  given : ∀ field ∈ object.model.fields.values, field.computed = none →
    object.Mentions field.name →
      ∃ value, record.get? field.name = some value ∧ object.Supplies field value
  saved : ∀ field ∈ object.model.fields.values, ∀ generator,
    field.computed = some ⟨.save, generator⟩ → ∃ value, record.get? field.name = some value ∧
      field.Produces sources object.model.name before after generator value
  kept : ∀ name, ¬ object.Mentions name → ¬ touched name →
    (∀ field ∈ object.model.fields.values, ∀ generator,
      field.computed = some ⟨.save, generator⟩ → field.name ≠ name) →
    record.get? name = old.get? name

/-- What an object makes of the record that was stored in its place. -/
def Makes (object : InputObject) (sources : Sources) (before after : Meter)
    (touched : String → Prop) (origin : Option Record) (record : Record) : Prop :=
  match object.action with
  | .create => object.Builds sources before after touched record
  | .update _ => ∃ old, origin = some old ∧
    object.Revises sources before after touched old record

variable {schema : Schema} {object : InputObject} {sources : Sources}
  {before before' after after' : Meter} {touched touched' : String → Prop} {origin : Option Record}
  {old record record' : Record}

theorem Builds.mono (h : object.Builds sources before after touched record)
    (hbefore : before'.Until before) (hafter : after.Until after')
    (htouched : ∀ name, touched name → touched' name) :
    object.Builds sources before' after' touched' record :=
  { h with
    computed := fun field hfield computed hcomputed => by
      obtain ⟨value, hvalue, hproduces⟩ := h.computed field hfield computed hcomputed
      exact ⟨value, hvalue, hproduces.mono hbefore hafter⟩
    references := fun relationship hmem hown huntouched =>
      h.references relationship hmem hown fun hname => huntouched (htouched _ hname) }

theorem Revises.mono (h : object.Revises sources before after touched old record)
    (hbefore : before'.Until before) (hafter : after.Until after')
    (htouched : ∀ name, touched name → touched' name) :
    object.Revises sources before' after' touched' old record :=
  { h with
    saved := fun field hfield generator hsaved => by
      obtain ⟨value, hvalue, hproduces⟩ := h.saved field hfield generator hsaved
      exact ⟨value, hvalue, hproduces.mono hbefore hafter⟩
    kept := fun name hmentions huntouched hsaved =>
      h.kept name hmentions (fun hname => huntouched (htouched _ hname)) hsaved }

theorem Makes.mono (h : object.Makes sources before after touched origin record)
    (hbefore : before'.Until before) (hafter : after.Until after')
    (htouched : ∀ name, touched name → touched' name) :
    object.Makes sources before' after' touched' origin record := by
  unfold Makes at h ⊢
  split at h
  · exact h.mono hbefore hafter htouched
  · obtain ⟨old, hold, hrevises⟩ := h
    exact ⟨old, hold, hrevises.mono hbefore hafter htouched⟩

/-- Nothing that is said of a record depends on what is touched. -/
theorem Makes.kept (h : object.Makes sources before after touched origin record)
    (hkept : record.Kept touched record')
    (hfields : ∀ name ∈ object.model.fields.keys, ¬ touched name)
    (hmodel : object.model.Sound) :
    object.Makes sources before after touched origin record' := by
  have hfield : ∀ field ∈ object.model.fields.values,
      record'.get? field.name = record.get? field.name := fun field hmem =>
    hkept.others _ (hfields _ (hmodel.mem_fields_keys hmem))
  unfold Makes at h ⊢
  split at h
  · refine ⟨hkept.keys.trans h.keys, ?_, ?_, ?_, ?_⟩
    · intro field hmem computed hcomputed
      rw [hfield field hmem]
      exact h.computed field hmem computed hcomputed
    · intro field hmem hcomputed hmentions
      rw [hfield field hmem]
      exact h.given field hmem hcomputed hmentions
    · intro field hmem hcomputed hmentions
      rw [hfield field hmem]
      exact h.missing field hmem hcomputed hmentions
    · intro relationship hmem hown huntouched
      rw [hkept.others _ huntouched]
      exact h.references relationship hmem hown huntouched
  · obtain ⟨old, hold, hrevises⟩ := h
    refine ⟨old, hold, hkept.keys.trans hrevises.keys, ?_, ?_, ?_, ?_⟩
    · rw [hfield _ List.mem_cons_self]
      exact hrevises.identity
    · intro field hmem hcomputed hmentions
      rw [hfield field hmem]
      exact hrevises.given field hmem hcomputed hmentions
    · intro field hmem generator hsaved
      rw [hfield field hmem]
      exact hrevises.saved field hmem generator hsaved
    · intro name hmentions huntouched hsaved
      rw [hkept.others name huntouched]
      exact hrevises.kept name hmentions huntouched hsaved

end InputObject

/-! ### Steps of plans -/

namespace Plan

variable {schema : Schema} {sources : Sources} {plan : Plan} {written : Written} {start stop : Work}
  {index : Nat} {object : InputObject} {node : PlanNode} {id : Identity} {between : Work}

/-- A planned object holds a single reference under a name. -/
def Holds (plan : Plan) (index : Nat) (name : String) : Prop :=
  ∃ link ∈ plan.heldLinks index, link.field = name

section

variable {filled record : Record}
  (h : Created sources plan written index node start stop id filled record between)
  (hschema : schema.Sound) (hplan : plan.Sound schema) (hnode : plan.nodes[index]? = some node)
  (hobject : object.Plans node) (hproper : object.Proper schema)

include h hschema hplan hnode hobject hproper

/-- What a field of a new record starts with is drawn while the record is created. -/
theorem Created.starts {field : Field} (hfield : field ∈ object.model.fields.values) :
    ∃ value before after, record.get? field.name = some value ∧
      start.meter.Until before.meter ∧ field.Starts sources node before after value ∧
        after.meter.Until stop.meter := by
  have hmodel := hschema.model _ hproper.model
  have hstop : stop.meter = between.meter := by
    rw [h.stop_eq]
    rfl
  rw [← hobject.model] at hfield hmodel
  obtain ⟨value, before, after, hvalue, hbefore, hrun, hafter⟩ := h.fills.values field hfield
  refine ⟨value, before, after, ?_, hbefore.until,
    ((initialValue_yields sources node field).ok hrun).2, hstop ▸ hafter.until⟩
  rw [h.field hschema hplan hnode (hmodel.mem_fields_keys hfield), hvalue]

/-- A field that callers give starts with its planned value, else its default, else null. -/
theorem Created.given {field : Field} (hfield : field ∈ object.model.fields.values)
    (hcomputed : field.computed = none) : record.get? field.name =
      some (((node.values.get? field.name).or field.default).getD .null) := by
  obtain ⟨value, before, after, hvalue, -, hstarts, -⟩ :=
    h.starts hschema hplan hnode hobject hproper hfield
  unfold Field.Starts at hstarts
  rw [hcomputed] at hstarts
  rw [hvalue, hstarts]

theorem Created.builds (hcreate : node.action = .create) :
    object.Builds sources start.meter stop.meter (plan.Holds index) record := by
  have hmodel := hschema.model _ hproper.model
  have hsame := hobject.model
  refine ⟨?_, ?_, ?_, ?_, ?_⟩
  · rw [← hsame]
    exact (h.filled hschema hplan hnode hcreate).keys
  · intro field hmem computed hcomputed
    obtain ⟨value, before, after, hvalue, hbefore, hstarts, hafter⟩ :=
      h.starts hschema hplan hnode hobject hproper hmem
    unfold Field.Starts at hstarts
    rw [hcomputed, hsame] at hstarts
    exact ⟨value, hvalue, hstarts.2.produces hstarts.1 hbefore hafter⟩
  · intro field hmem hcomputed hmentions
    have hkey := hobject.mem_keys hschema hproper hmem hcomputed hmentions
    obtain ⟨value, hvalue⟩ := Option.isSome_iff_exists.mp (Keyed.isSome_get?_iff.mpr hkey)
    refine ⟨value, ?_, hobject.supplied hschema hproper hmem (Keyed.mem_entries_of_get? hvalue)⟩
    rw [h.given hschema hplan hnode hobject hproper hmem hcomputed, hvalue]
    rfl
  · intro field hmem hcomputed hmentions
    have hnone : node.values.get? field.name = none := by
      rw [← Option.not_isSome_iff_eq_none, Keyed.isSome_get?_iff]
      exact fun hkey => hmentions (hobject.mentions hkey)
    rw [h.given hschema hplan hnode hobject hproper hmem hcomputed, hnone]
    rfl
  · intro relationship hmem hown huntouched
    rw [← hsame] at hmem hmodel
    rw [h.assigned.others relationship.name fun link hlink hname => huntouched ⟨link, hlink, hname⟩]
    exact get?_withReferences hmodel hmem hown filled

end

theorem Updated.revises {old refreshed record : Record}
    (h : Updated sources plan written index node start stop id old refreshed record between)
    (hschema : schema.Sound) (hplan : plan.Sound schema) (hnode : plan.nodes[index]? = some node)
    (hfilled : start.tables.Filled schema) (hobject : object.Plans node)
    (hproper : object.Proper schema) :
    object.Revises sources start.meter stop.meter (plan.Holds index) old record := by
  have hmodel := hschema.model _ hproper.model
  have hsame := hobject.model
  have hstop : stop.meter = between.meter := by
    rw [h.stop_eq]
    rfl
  -- references that are set afterwards are no fields
  have hrefreshed : ∀ name ∈ object.model.fields.keys,
      record.get? name = refreshed.get? name := by
    intro name hname
    rw [← hsame] at hname
    exact field_of_assigned hschema hplan hnode h.assigned hname
  refine ⟨?_, ?_, ?_, ?_, ?_⟩
  · rw [(h.filled hschema hplan hnode hfilled).keys]
    have hold := hfilled _ (hsame ▸ hproper.model) id old h.found
    exact hold.keys.symm
  · rw [hrefreshed _ List.mem_cons_self]
    apply h.others hschema hplan hnode
    rw [hsame]
    exact fun hplain => (hmodel.plain_apart hplain).1 rfl
  · intro field hmem hcomputed hmentions
    rw [hrefreshed _ (hmodel.mem_fields_keys hmem)]
    obtain ⟨value, hentry, hvalue⟩ := @get?_foldl_put_mem node.values.entries old field.name
      (hobject.mem_keys hschema hproper hmem hcomputed hmentions)
    refine ⟨value, ?_, hobject.supplied hschema hproper hmem hentry⟩
    rw [h.refreshes.others, hvalue]
    intro hsaved
    obtain ⟨entry, hentry, hname⟩ := List.mem_map.mp hsaved
    rw [hsame] at hentry
    obtain ⟨hsaved_mem, hsave⟩ := mem_onSave.mp hentry
    rw [hmodel.field_ext hmem hsaved_mem hname, hcomputed] at hsave
    cases hsave
  · intro field hmem generator hsaved
    rw [hrefreshed _ (hmodel.mem_fields_keys hmem)]
    have hentry : (field, generator) ∈ onSave node.model :=
      mem_onSave.mpr ⟨hsame ▸ hmem, hsaved⟩
    obtain ⟨value, before, after, hvalue, hbefore, hrun, hafter⟩ :=
      h.refreshes.values _ hentry
    obtain ⟨-, hdrawn, hgenerates⟩ := (field.generate_yields sources _ generator).ok hrun
    rw [hsame] at hgenerates
    exact ⟨value, hvalue,
      hgenerates.produces hdrawn hbefore.until (hstop ▸ hafter.until)⟩
  · intro name hmentions huntouched hsaved
    rw [h.assigned.others name fun link hlink hname => huntouched ⟨link, hlink, hname⟩,
      h.refreshes.others, get?_foldl_put]
    · exact fun hkey => hmentions (hobject.mentions hkey)
    · intro hmem
      obtain ⟨entry, hentry, rfl⟩ := List.mem_map.mp hmem
      rw [hsame] at hentry
      obtain ⟨hfield, hsave⟩ := mem_onSave.mp hentry
      exact hsaved entry.1 hfield entry.2 hsave rfl

end Plan

end ModelSurface
