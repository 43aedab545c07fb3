import ModelSurface.Proofs.Write.Sorting
import ModelSurface.Proofs.Write.Steps

/-!
# Numbers that plans draw

A plan draws from the sequences of the fields that its nodes fill anew, from each once for every
such node. Nothing else that it does moves a sequence.
-/

namespace ModelSurface

/-! ### Sequences -/

namespace Tables

/-- The number that a sequence has given last. -/
def number (tables : Tables) (sequence : String) : Int :=
  (tables.sequences.get? sequence).getD 0

/-- Each sequence has moved on by as many numbers as there are draws from it. -/
def Moved (before after : Tables) (drawn : List String) : Prop :=
  ∀ sequence, after.number sequence = before.number sequence + drawn.count sequence

namespace Moved

variable {before between after : Tables} {drawn drawn' : List String}

theorem of_sequences (h : after.sequences = before.sequences) : before.Moved after [] := by
  intro sequence
  unfold number
  rw [h, List.count_nil, Int.natCast_zero, Int.add_zero]

theorem refl (tables : Tables) : tables.Moved tables [] := of_sequences rfl

theorem trans (h : before.Moved between drawn) (h' : between.Moved after drawn') :
    before.Moved after (drawn ++ drawn') := by
  intro sequence
  rw [h' sequence, h sequence, List.count_append, Int.natCast_add, Int.add_assoc]

theorem next (tables : Tables) (sequence : String) :
    tables.Moved (tables.next sequence).2 [sequence] := by
  intro other
  unfold number
  rw [get?_sequences_next, next_fst, List.count_singleton]
  by_cases hsame : other = sequence
  · rw [if_pos hsame, hsame, if_pos (beq_self_eq_true sequence)]
    rfl
  · rw [if_neg hsame, if_neg (by simpa using Ne.symm hsame), Int.natCast_zero, Int.add_zero]

/-- The order of the draws does not matter. -/
theorem perm (h : before.Moved after drawn) (hperm : drawn.Perm drawn') :
    before.Moved after drawn' := by
  intro sequence
  rw [h sequence, hperm.count_eq]

end Moved

end Tables

/-! ### Nodes -/

/-- Whether a node draws a number for a field: for all that are numbered when it creates a record,
and for those that are numbered on each save when it updates one. -/
def PlanNode.draws (node : PlanNode) (field : Field) : Bool :=
  match field.computed with
  | some computed =>
    computed.generator = .sequence && (node.action = .create || computed.moment = .save)
  | none => false

/-- The sequences from which a node draws. -/
def PlanNode.sequences (node : PlanNode) : List String :=
  (node.model.fields.values.filter node.draws).map fun field => field.sequence node.model.name

/-- The sequences from which a plan draws. -/
def Plan.sequences (plan : Plan) : List String := plan.nodes.flatMap PlanNode.sequences

/-- How often a plan draws from the sequence of a field of a model. -/
def Plan.draws (plan : Plan) (model : String) (field : Field) : ℕ :=
  plan.nodes.countP fun node => node.model.name = model && node.draws field

/-! ### Names of sequences -/

theorem Model.Sound.eq_identity {model : Model} (h : model.Sound) {field : Field}
    (hfield : field ∈ model.fields.values) (hmarked : field.identity = true) :
    field = model.identity := by
  rcases List.mem_cons.mp hfield with rfl | hplain
  · rfl
  · rw [(h.ordinary field hplain).1] at hmarked
    cases hmarked

theorem toList_dotted (owner name : String) :
    (s!"{owner}.{name}").toList = owner.toList ++ '.' :: name.toList := by
  change (owner ++ "." ++ name).toList = _
  rw [String.toList_append, String.toList_append, List.append_assoc]
  rfl

/-- A dot tells the sequences of fields apart from those of identities, and the owners from the
names of fields. -/
theorem eq_of_dotted_lists {front front' rest rest' : List Char} (hfront : '.' ∉ front)
    (hfront' : '.' ∉ front') (h : front ++ '.' :: rest = front' ++ '.' :: rest') :
    front = front' ∧ rest = rest' := by
  have hbefore : ∀ {front : List Char} (rest : List Char), '.' ∉ front →
      (front ++ '.' :: rest).takeWhile (· ≠ '.') = front := by
    intro front rest hdot
    rw [List.takeWhile_append_of_pos fun a ha => decide_eq_true (ne_of_mem_of_not_mem ha hdot),
      List.takeWhile_cons_of_neg (by simp), List.append_nil]
  have hequal := congrArg (List.takeWhile (· ≠ '.')) h
  rw [hbefore rest hfront, hbefore rest' hfront'] at hequal
  subst hequal
  exact ⟨rfl, (List.cons.inj (List.append_cancel_left h)).2⟩

section Names

variable {schema : Schema} (hschema : schema.Sound)
  (hdotless : ∀ model ∈ schema.models, '.' ∉ model.name.toList)

include hschema hdotless

/-- A sequence belongs to one field of one model: the names of models have no dots, so that the
sequence of an identity is told from those of other fields, and those of other fields from each
other. -/
theorem Field.sequence_inj {model other : Model} (hmodel : model ∈ schema.models)
    (hother : other ∈ schema.models) {field field' : Field} (hfield : field ∈ model.fields.values)
    (hfield' : field' ∈ other.fields.values)
    (h : field.sequence model.name = field'.sequence other.name) :
    model = other ∧ field = field' := by
  have hname := hdotless model hmodel
  have hname' := hdotless other hother
  unfold Field.sequence at h
  cases hmarked : field.identity <;> cases hmarked' : field'.identity <;>
    rw [hmarked, hmarked'] at h
  case false.false =>
      rw [if_neg Bool.false_ne_true, if_neg Bool.false_ne_true] at h
      have hlists := congrArg String.toList h
      rw [toList_dotted, toList_dotted] at hlists
      obtain ⟨howner, hrest⟩ := eq_of_dotted_lists hname hname' hlists
      obtain rfl := hschema.model_ext hother hmodel (String.toList_inj.mp howner)
      exact ⟨rfl, (hschema.model _ hmodel).field_ext hfield' hfield (String.toList_inj.mp hrest)⟩
  case true.true =>
      rw [if_pos rfl, if_pos rfl] at h
      obtain rfl := hschema.model_ext hother hmodel h
      have hsound := hschema.model _ hmodel
      exact ⟨rfl, (hsound.eq_identity hfield hmarked).trans
        (hsound.eq_identity hfield' hmarked').symm⟩
  case true.false =>
      rw [if_pos rfl, if_neg Bool.false_ne_true] at h
      refine absurd ?_ hname
      rw [h, toList_dotted]
      exact List.mem_append_right _ List.mem_cons_self
  case false.true =>
      rw [if_neg Bool.false_ne_true, if_pos rfl] at h
      refine absurd ?_ hname'
      rw [← h, toList_dotted]
      exact List.mem_append_right _ List.mem_cons_self

/-- A node draws from the sequence of a field once, if it draws for the field at all. -/
theorem PlanNode.count_sequences {node : PlanNode} (hnode : node.model ∈ schema.models)
    {model : Model} (hmodel : model ∈ schema.models) {field : Field}
    (hfield : field ∈ model.fields.values) :
    node.sequences.count (field.sequence model.name) =
      if node.model.name = model.name && node.draws field then 1 else 0 := by
  have hinj : ∀ other ∈ node.model.fields.values,
      other.sequence node.model.name = field.sequence model.name → node.model = model ∧
        other = field := fun other hmem =>
    Field.sequence_inj hschema hdotless hnode hmodel hmem hfield
  have hmem : field.sequence model.name ∈ node.sequences ↔
      (node.model.name = model.name && node.draws field) = true := by
    rw [Bool.and_eq_true, decide_eq_true_iff]
    constructor
    · intro h
      obtain ⟨other, hother, hsame⟩ := List.mem_map.mp h
      obtain ⟨hmem, hdraws⟩ := List.mem_filter.mp hother
      obtain ⟨hsame_model, rfl⟩ := hinj other hmem hsame
      exact ⟨congrArg Model.name hsame_model, hdraws⟩
    · rintro ⟨hname, hdraws⟩
      obtain rfl := hschema.model_ext hmodel hnode hname
      exact List.mem_map.mpr ⟨field, List.mem_filter.mpr ⟨hfield, hdraws⟩, rfl⟩
  have hnodup : node.sequences.Nodup := by
    have hsound := hschema.model _ hnode
    have hfields : node.model.fields.values.Nodup := .of_map _ hsound.fields_named.nodup_names
    refine (hfields.filter _).map_on fun first hfirst second hsecond hsame => ?_
    exact (Field.sequence_inj hschema hdotless hnode hnode (List.mem_filter.mp hfirst).1
      (List.mem_filter.mp hsecond).1 hsame).2
  by_cases hdraws : (node.model.name = model.name && node.draws field) = true
  · rw [if_pos hdraws, List.count_eq_one_of_mem hnodup (hmem.mpr hdraws)]
  · rw [if_neg hdraws, List.count_eq_zero_of_not_mem fun h => hdraws (hmem.mp h)]

/-- A plan draws from the sequence of a field as often as its nodes draw for the field. -/
theorem Plan.count_sequences {plan : Plan} (hplan : ∀ node ∈ plan.nodes, node.model ∈ schema.models)
    {model : Model} (hmodel : model ∈ schema.models) {field : Field}
    (hfield : field ∈ model.fields.values) :
    plan.sequences.count (field.sequence model.name) = plan.draws model.name field := by
  unfold Plan.sequences Plan.draws
  generalize plan.nodes = nodes at hplan
  induction nodes with
  | nil => rfl
  | cons node nodes ih =>
      obtain ⟨hnode, hnodes⟩ := List.forall_mem_cons.mp hplan
      rw [List.flatMap_cons, List.count_append, ih hnodes, List.countP_cons,
        PlanNode.count_sequences hschema hdotless hnode hmodel hfield, Nat.add_comm]

end Names

namespace Plan

open Writing (Yields)

variable {start stop : Work} {plan : Plan} {written : Written}

/-- Draws add up along a loop. -/
theorem foldlM_moved {α β : Type} {f : β → α → Writing β} (drawn : α → List String)
    (hf : ∀ b item work, Yields (f b item) work fun _ stop =>
      work.tables.Moved stop.tables (drawn item)) (items : List α) (b : β) :
    Yields (items.foldlM f b) start fun _ stop =>
      start.tables.Moved stop.tables (items.flatMap drawn) := by
  refine .foldlM (fun done _ between => start.tables.Moved between.tables (done.flatMap drawn))
    (.refl _) ?_
  intro done item b between _ hdone
  refine (hf b item between).mono fun _ stop hitem => ?_
  rw [List.flatMap_append, List.flatMap_singleton]
  exact hdone.trans hitem

theorem generate_moved (sources : Sources) (model : String) (field : Field)
    (generator : Generator) :
    Yields (field.generate sources model generator) start fun _ stop =>
      start.tables.Moved stop.tables
        (if generator = .sequence then [field.sequence model] else []) := by
  unfold Field.generate
  refine .bind (fun _ between => between.tables = start.tables) (.draw rfl) ?_
  intro drawn between hbetween
  rw [← hbetween]
  split
  case h_6 =>
      refine .bind (fun _ stop => between.tables.Moved stop.tables [field.sequence model])
        (.next (fun _ => trivial) (.next _ _)) fun _ _ h => .pure h
  case h_7 => exact .breach trivial
  all_goals exact .pure (.refl _)

/-- The draws for the fields of a node are those for the fields that it draws for. -/
theorem flatMap_draws (draws : Field → Bool) (model : String) (fields : List Field) :
    (fields.flatMap fun field => if draws field then [field.sequence model] else []) =
      (fields.filter draws).map fun field => field.sequence model := by
  induction fields with
  | nil => rfl
  | cons field fields ih =>
      rw [List.flatMap_cons, ih]
      by_cases hdraws : draws field = true
      · rw [if_pos hdraws, List.filter_cons_of_pos hdraws]
        rfl
      · rw [if_neg hdraws, List.filter_cons_of_neg hdraws]
        rfl

/-- What is assigned on each save are the fields that an update draws for. -/
theorem flatMap_onSave {node : PlanNode} {id : Identity} (haction : node.action = .update id) :
    ((onSave node.model).flatMap fun entry =>
      if entry.2 = .sequence then [entry.1.sequence node.model.name] else []) =
        node.sequences := by
  unfold onSave PlanNode.sequences
  rw [← flatMap_draws]
  induction node.model.fields.values with
  | nil => rfl
  | cons field fields ih =>
      rw [List.flatMap_cons, ← ih]
      unfold PlanNode.draws
      rw [haction]
      cases hcomputed : field.computed with
      | none =>
          rw [List.filterMap_cons_none (by rw [hcomputed]; rfl)]
          rfl
      | some computed =>
          by_cases hsave : computed.moment = .save
          · rw [List.filterMap_cons_some (b := (field, computed.generator))
              (by rw [hcomputed, Option.bind_some, if_pos hsave]), List.flatMap_cons]
            congr 1
            simp [hsave]
          · rw [List.filterMap_cons_none (by rw [hcomputed, Option.bind_some, if_neg hsave])]
            simp [hsave]

theorem setReferences_moved (plan : Plan) (model : Model) (index : ℕ) (holder : Identity)
    (record : Record) :
    Yields (plan.setReferences written model index holder record) start fun _ stop =>
      start.tables.Moved stop.tables [] :=
  (setReferences_yields plan model index holder record).mono fun _ _ h => h.1 ▸ .refl _

theorem create_moved (sources : Sources) (plan : Plan) (written : Written) (index : ℕ)
    {node : PlanNode} (haction : node.action = .create) :
    Yields (plan.create sources written index node) start fun _ stop =>
      start.tables.Moved stop.tables node.sequences := by
  unfold create
  have hfill : Yields (fill sources node) start fun _ stop =>
      start.tables.Moved stop.tables node.sequences := by
    unfold PlanNode.sequences
    rw [← flatMap_draws]
    refine foldlM_moved _ (fun record field work => ?_) _ _
    refine .bind (fun _ stop => work.tables.Moved stop.tables _) ?_ fun _ _ h => .pure h
    unfold initialValue PlanNode.draws
    cases field.computed with
    | none => exact .pure (.refl _)
    | some computed =>
        rw [haction]
        refine (generate_moved sources node.model.name field computed.generator).mono ?_
        intro _ stop h
        simpa using h
  refine .bind _ hfill ?_
  intro record between hbetween
  dsimp only
  split
  · exact .breach trivial
  · refine .bind _ (setReferences_moved plan node.model index _ _) ?_
    intro _ after hafter
    refine .bind (fun _ stop => start.tables.Moved stop.tables node.sequences)
      (.insert (fun _ => trivial) fun _ => ?_) fun _ _ h => .pure h
    have hall := hbetween.trans hafter
    rw [List.append_nil] at hall
    exact hall

theorem update_moved (sources : Sources) (plan : Plan) (written : Written) (index : ℕ)
    {node : PlanNode} {id : Identity} (haction : node.action = .update id) :
    Yields (plan.update sources written index node id) start fun _ stop =>
      start.tables.Moved stop.tables node.sequences := by
  unfold update
  refine .bind (fun _ stop => stop = start) (.get? (fun _ => trivial) rfl) ?_
  rintro found start rfl
  split
  · exact .refuse trivial
  · rename_i old
    have hrefresh : ∀ record, Yields (refresh sources node.model record) start fun _ stop =>
        start.tables.Moved stop.tables node.sequences := by
      intro record
      rw [← flatMap_onSave haction]
      refine foldlM_moved _ (fun record entry work => ?_) _ _
      exact .bind (fun _ stop => work.tables.Moved stop.tables _)
        (generate_moved sources node.model.name entry.1 entry.2) fun _ _ h => .pure h
    refine .bind _ (hrefresh _) ?_
    intro record between hbetween
    refine .bind _ (setReferences_moved plan node.model index id record) ?_
    intro _ after hafter
    refine .replace (fun _ => trivial) ?_
    have hall := hbetween.trans hafter
    rw [List.append_nil] at hall
    exact hall

/-- The draws of the node at an index, none if there is no such node. -/
def sequencesAt (plan : Plan) (index : ℕ) : List String :=
  (plan.nodes[index]?.map PlanNode.sequences).getD []

theorem writeNode_moved (sources : Sources) (plan : Plan) (written : Written) (index : ℕ) :
    Yields (plan.writeNode sources written index) start fun _ stop =>
      start.tables.Moved stop.tables (plan.sequencesAt index) := by
  unfold writeNode sequencesAt
  refine .bind (fun _ stop => stop = start) (.checkpoint (fun _ => trivial) rfl) ?_
  rintro _ _ rfl
  split
  · exact .breach trivial
  · rename_i node hnode
    rw [hnode]
    split
    · rename_i haction
      exact .bind _ (create_moved sources plan written index haction) fun _ _ h => .pure h
    · rename_i id haction
      exact .bind _ (update_moved sources plan written index haction) fun _ _ h => .pure h

theorem attach_moved (written : Written) (link : Link NodeRef) :
    Yields (attach written link) start fun _ stop => start.tables.Moved stop.tables [] := by
  refine (attach_yields written link).mono ?_
  rintro _ stop ⟨holder, old, value, hattached⟩
  rcases hattached.stop_eq with ⟨-, rfl⟩ | ⟨-, -, rfl⟩ <;> exact .of_sequences rfl

/-- The draws of a plan in the order in which it is carried out. -/
theorem flatMap_sequencesAt_perm {order : List ℕ} (horder : plan.order = .ok order) :
    (order.flatMap plan.sequencesAt).Perm plan.sequences := by
  have hall : order.Perm (List.range plan.nodes.length) := by
    refine (List.perm_ext_iff_of_nodup (order_nodup horder) List.nodup_range).mpr fun index => ?_
    rw [(order_spec horder).2 index, List.mem_range]
  have hnodes : (List.range plan.nodes.length).map (fun index => plan.nodes[index]?) =
      plan.nodes.map some := by
    refine List.ext_getElem (by simp) fun index _ _ => ?_
    simp
  refine (hall.flatMap_right plan.sequencesAt).trans (.of_eq ?_)
  have hflat : (List.range plan.nodes.length).flatMap plan.sequencesAt =
      ((List.range plan.nodes.length).map fun index => plan.nodes[index]?).flatMap
        fun node => (node.map PlanNode.sequences).getD [] := by
    rw [List.flatMap_map]
    rfl
  rw [hflat, hnodes, List.flatMap_map]
  rfl

/-- A plan that is carried out moves sequences by what its nodes draw. -/
theorem apply_moved (sources : Sources) {order : List ℕ} (horder : plan.order = .ok order) :
    Yields (plan.apply sources order) start fun _ stop =>
      start.tables.Moved stop.tables plan.sequences := by
  refine (apply_runs
    (fun done _ stop => start.tables.Moved stop.tables (done.flatMap plan.sequencesAt))
    (fun _ _ stop => start.tables.Moved stop.tables plan.sequences) (.refl _) ?_ ?_ ?_).mono
    fun _ _ ⟨_, hmoved, _⟩ => hmoved
  · intro done index written before _ hbefore
    refine (writeNode_moved sources plan written index).mono fun _ after hafter => ?_
    rw [List.flatMap_append, List.flatMap_singleton]
    exact hbefore.trans hafter
  · exact fun _ _ hall => hall.perm (flatMap_sequencesAt_perm horder)
  · intro _ link written before _ hbefore
    refine (attach_moved written link).mono fun _ after hattached => ?_
    have hall := hbefore.trans hattached
    rw [List.append_nil] at hall
    exact hall

end Plan

end ModelSurface
