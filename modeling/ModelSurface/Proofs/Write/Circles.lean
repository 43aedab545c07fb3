import Mathlib.Data.List.Chain
import ModelSurface.Proofs.Write.Finishing
import ModelSurface.Proofs.Write.Sorting

/-!
# Circles of references

A plan has an order unless its objects refer to each other in a circle. Stored records take part in
a plan as well, and a circle may lead through them: it is found only if every record on it goes by
one planned object, both where it refers and where it is referred to.
-/

namespace ModelSurface.Plan

open Relation (ReflTransGen TransGen)

/-! ### Circles of planned objects -/

/-- The stops of a walk along references that leads back to where it starts. -/
def IsCircle (next : Nat → List Nat) (stops : List Nat) : Prop :=
  stops.IsChain (fun index other => other ∈ next index) ∧
    ∃ node between, stops = node :: (between ++ [node])

theorem IsCircle.transGen {next : Nat → List Nat} {stops : List Nat} (h : IsCircle next stops) :
    ∃ node, TransGen (fun index other => other ∈ next index) node node := by
  obtain ⟨hchain, node, between, rfl⟩ := h
  refine ⟨node, ?_⟩
  cases between with
  | nil => exact .single (List.isChain_cons_cons.mp hchain).1
  | cons first rest =>
      obtain ⟨hfirst, hrest⟩ := List.isChain_cons_cons.mp hchain
      refine .head' hfirst ?_
      exact List.relationReflTransGen_of_exists_isChain_cons _ hrest (by simp)

section Visiting

variable {next : Nat → List Nat} {planned : Nat → Prop}

/-- The way back from a node to where it has been met before. -/
theorem isCircle_of_met {path : List Nat} {node : Nat} (hmet : node ∈ path)
    (hway : (node :: path).IsChain fun stop earlier => stop ∈ next earlier) :
    IsCircle next (node :: (path.takeWhile (· ≠ node)).reverse ++ [node]) := by
  obtain ⟨between, behind, rfl, hfirst⟩ := List.eq_append_cons_of_mem hmet
  have hbetween : (between ++ node :: behind).takeWhile (· ≠ node) = between := by
    rw [List.takeWhile_append_of_pos, List.takeWhile_cons_of_neg (by simp), List.append_nil]
    intro other hother
    exact decide_eq_true fun heq => hfirst (heq ▸ hother)
  have hback : ((node :: between) ++ [node]).IsChain fun stop earlier => stop ∈ next earlier := by
    refine hway.prefix ⟨behind, ?_⟩
    simp
  rw [hbetween]
  refine ⟨?_, node, between.reverse, rfl⟩
  have hforth := List.isChain_reverse.mpr hback
  simpa using hforth

mutual

theorem isCircle_of_visit {free path done stops : List Nat} {node : Nat}
    (hclosed : ∀ index, planned index → ∀ other ∈ next index, planned other)
    (hknown : ∀ index, planned index → index ∈ free ∨ index ∈ path)
    (hplanned : planned node)
    (hway : (node :: path).IsChain fun stop earlier => stop ∈ next earlier)
    (h : visit next free path done node = .error stops) : IsCircle next stops := by
  unfold visit at h
  split at h
  · cases h
  · split at h
    · rename_i hfree
      have hshorter : (free.erase node).length < free.length := by
        have hlength := List.length_erase_of_mem hfree
        have hpos := List.length_pos_of_mem hfree
        omega
      cases hbehind : visitAll next (free.erase node) (node :: path) done (next node) with
      | ok reached =>
          rw [hbehind] at h
          cases h
      | error found =>
          rw [hbehind] at h
          obtain rfl := Except.error.inj h
          refine isCircle_of_visitAll hclosed ?_ (hclosed node hplanned) ?_ hbehind
          · intro index hindex
            by_cases hsame : index = node
            · exact .inr (hsame ▸ List.mem_cons_self)
            · exact (hknown index hindex).imp (List.mem_erase_of_ne hsame).mpr
                (List.mem_cons_of_mem _)
          · exact fun other hother => List.isChain_cons_cons.mpr ⟨hother, hway⟩
    · rename_i hfree
      rw [← Except.error.inj h]
      exact isCircle_of_met ((hknown node hplanned).resolve_left hfree) hway
termination_by (free.length, 0)

theorem isCircle_of_visitAll {free path done stops nodes : List Nat}
    (hclosed : ∀ index, planned index → ∀ other ∈ next index, planned other)
    (hknown : ∀ index, planned index → index ∈ free ∨ index ∈ path)
    (hplanned : ∀ node ∈ nodes, planned node)
    (hway : ∀ node ∈ nodes, (node :: path).IsChain fun stop earlier => stop ∈ next earlier)
    (h : visitAll next free path done nodes = .error stops) : IsCircle next stops := by
  cases nodes with
  | nil =>
      unfold visitAll at h
      cases h
  | cons node nodes =>
      unfold visitAll at h
      cases hfirst : visit next free path done node with
      | error found =>
          rw [hfirst] at h
          obtain rfl := Except.error.inj h
          exact isCircle_of_visit hclosed hknown (hplanned node List.mem_cons_self)
            (hway node List.mem_cons_self) hfirst
      | ok reached =>
          rw [hfirst] at h
          exact isCircle_of_visitAll hclosed hknown
            (fun other hother => hplanned other (List.mem_cons_of_mem _ hother))
            (fun other hother => hway other (List.mem_cons_of_mem _ hother)) h
termination_by (free.length, nodes.length + 1)

end

end Visiting

variable {schema : Schema} {plan : Plan}

/-- A planned object refers to another one by a single reference. -/
def Refers (plan : Plan) (index other : Nat) : Prop := other ∈ plan.references index

theorem refers_iff {index other : Nat} : plan.Refers index other ↔
    ∃ link ∈ plan.links, link.many = false ∧ link.holder = .node index ∧
      link.value = some (.node other) := mem_references

/-- Single references between objects that are to be written lead from planned objects to planned
objects. -/
def Closed (plan : Plan) : Prop :=
  ∀ index other, plan.Refers index other → index < plan.nodes.length ∧ other < plan.nodes.length

theorem Sound.closed (hplan : plan.Sound schema) : plan.Closed := by
  intro index other h
  obtain ⟨link, hlink, -, hholder, hvalue⟩ := refers_iff.mp h
  have hsound := hplan.links link hlink
  have hindex := hsound.holder
  rw [hholder] at hindex
  obtain ⟨node, hnode, -⟩ := hindex
  obtain ⟨target, htarget, -⟩ := hsound.value _ hvalue
  exact ⟨(List.getElem?_eq_some_iff.mp hnode).1, (List.getElem?_eq_some_iff.mp htarget).1⟩

/-- What stands in the way of an order is a circle. -/
theorem isCircle_of_order (hclosed : plan.Closed) {stops : List Nat}
    (h : plan.order = .error stops) : IsCircle plan.references stops := by
  unfold Plan.order at h
  have hplanned : ∀ index, index < plan.nodes.length → ∀ other ∈ plan.references index,
      other < plan.nodes.length := fun index _ other hother => (hclosed index other hother).2
  refine isCircle_of_visitAll hplanned ?_ ?_ ?_ h
  · exact fun index hindex => .inl (List.mem_range.mpr hindex)
  · exact fun index hindex => List.mem_range.mp hindex
  · exact fun index _ => .singleton index

/-- Along an order, references only lead back. -/
theorem idxOf_lt_of_sorted {next : Nat → List Nat} {order : List Nat} (h : Sorted next order)
    {index other : Nat} (hindex : index ∈ order) (hother : other ∈ next index) :
    order.idxOf other < order.idxOf index := by
  obtain ⟨before, behind, rfl, hfirst⟩ := List.eq_append_cons_of_mem hindex
  have hpart : before ++ [index] <+: before ++ index :: behind := ⟨behind, by simp⟩
  have hbefore := h before index hpart other hother
  rw [List.idxOf_append_of_mem hbefore, List.idxOf_append_of_notMem hfirst, List.idxOf_cons_self,
    Nat.add_zero]
  exact List.idxOf_lt_length_of_mem hbefore

theorem not_circular_of_order (hclosed : plan.Closed) {order : List Nat}
    (h : plan.order = .ok order) (index : Nat) : ¬ TransGen plan.Refers index index := by
  obtain ⟨hsorted, hnodes⟩ := order_spec h
  have hback : ∀ first last, TransGen plan.Refers first last →
      order.idxOf last < order.idxOf first := by
    intro first last hway
    have hstep : ∀ first last, plan.Refers first last → order.idxOf last < order.idxOf first :=
      fun first last hrefers =>
        idxOf_lt_of_sorted hsorted ((hnodes first).mpr (hclosed first last hrefers).1) hrefers
    induction hway with
    | single hrefers => exact hstep _ _ hrefers
    | tail _ hrefers ih => exact Nat.lt_trans (hstep _ _ hrefers) ih
  exact fun hway => Nat.lt_irrefl _ (hback index index hway)

/-- A plan has no order exactly if its objects refer to each other in a circle. -/
theorem order_error_iff (hclosed : plan.Closed) :
    (∃ stops, plan.order = .error stops) ↔ ∃ index, TransGen plan.Refers index index := by
  constructor
  · rintro ⟨stops, hstops⟩
    exact (isCircle_of_order hclosed hstops).transGen
  · rintro ⟨index, hway⟩
    cases horder : plan.order with
    | ok order => exact absurd hway (not_circular_of_order hclosed horder index)
    | error stops => exact ⟨stops, rfl⟩

/-! ### Circles of records -/

/-- A record that takes part in a plan: one that is to be created, or one that is stored. -/
inductive Participant where
  | created (index : Nat)
  | stored (key : RowKey)
deriving DecidableEq

/-- The record that a reference of a plan stands for. An object to update stands for the record that
it names. -/
def participant (plan : Plan) (model : String) : NodeRef → Participant
  | .stored id => .stored ⟨model, id⟩
  | .node index =>
    match plan.nodes[index]?.map PlanNode.action with
    | some (.update id) => .stored ⟨model, id⟩
    | _ => .created index

/-- A single reference is to lead from one record to another one. -/
def Leads (plan : Plan) (holder value : Participant) : Prop :=
  ∃ link ∈ plan.links, link.many = false ∧
    plan.participant link.holderModel.name link.holder = holder ∧
      ∃ target ∈ link.value, plan.participant link.valueModel.name target = value

instance (plan : Plan) (holder value : Participant) : Decidable (plan.Leads holder value) :=
  inferInstanceAs (Decidable (∃ link ∈ plan.links, link.many = false ∧
    plan.participant link.holderModel.name link.holder = holder ∧
      ∃ target ∈ link.value, plan.participant link.valueModel.name target = value))

/-- The single references that are to be set lead in a circle. -/
def Circular (plan : Plan) : Prop := ∃ record, TransGen plan.Leads record record

/-- Where a single reference leads to a record that is to hold one as well, both name the record by
the same planned object. -/
def NamesPlanned (plan : Plan) : Prop :=
  ∀ link ∈ plan.links, link.many = false → ∀ target, link.value = some target →
    ∀ onward ∈ plan.links, onward.many = false → onward.value.isSome = true →
      plan.participant link.valueModel.name target =
        plan.participant onward.holderModel.name onward.holder →
      ∃ index, target = .node index ∧ onward.holder = .node index

/-- Records that are created go by planned objects. So all records that hold references do, unless
the reference of a stored record is set. -/
theorem namesPlanned_of_created (hcreate : ∀ node ∈ plan.nodes, node.action = .create)
    (hheld : ∀ link ∈ plan.links, link.many = false → link.holder.node?.isSome = true) :
    plan.NamesPlanned := by
  have hcreated : ∀ model index, plan.participant model (.node index) = .created index := by
    intro model index
    unfold participant
    dsimp only
    cases hnode : plan.nodes[index]? with
    | none => rfl
    | some node =>
        rw [Option.map_some, hcreate node (List.mem_of_getElem? hnode)]
  intro link _ _ target _ onward honward hsingle _ hsame
  have hholder := hheld onward honward hsingle
  cases hnode : onward.holder with
  | stored id =>
      rw [hnode] at hholder
      cases hholder
  | node index =>
      rw [hnode, hcreated] at hsame
      cases target with
      | stored id => cases hsame
      | node other =>
          rw [hcreated] at hsame
          obtain rfl := Participant.created.inj hsame
          exact ⟨other, rfl, rfl⟩

/-- The way of single references to a record, taken from the planned object that holds the first of
them. -/
theorem refers_of_leads (hnames : plan.NamesPlanned) {first last : Participant}
    (hway : ReflTransGen plan.Leads first last) {link : Link NodeRef} (hlink : link ∈ plan.links)
    (hsingle : link.many = false)
    (hholder : plan.participant link.holderModel.name link.holder = last) {index : Nat}
    (hvalue : link.value = some (.node index)) :
    ∃ earliest ∈ plan.links, earliest.many = false ∧ earliest.value.isSome = true ∧
      plan.participant earliest.holderModel.name earliest.holder = first ∧
        ∀ start, earliest.holder = .node start → TransGen plan.Refers start index := by
  induction hway using ReflTransGen.head_induction_on with
  | refl =>
      refine ⟨link, hlink, hsingle, Option.isSome_of_eq_some hvalue, hholder, ?_⟩
      exact fun start hstart => .single (refers_iff.mpr ⟨link, hlink, hsingle, hstart, hvalue⟩)
  | head hleads _ ih =>
      obtain ⟨onward, honward, honward_single, hsome, hparticipant, hrest⟩ := ih
      obtain ⟨earliest, hearliest, hearliest_single, hfirst, target, htarget, hmiddle⟩ := hleads
      obtain ⟨middle, rfl, hmiddle_holder⟩ := hnames earliest hearliest hearliest_single target
        htarget onward honward honward_single hsome (hmiddle.trans hparticipant.symm)
      refine ⟨earliest, hearliest, hearliest_single, Option.isSome_of_eq_some htarget, hfirst, ?_⟩
      intro start hstart
      exact .head (refers_iff.mpr ⟨earliest, hearliest, hearliest_single, hstart, htarget⟩)
        (hrest middle hmiddle_holder)

/-- Where records go by planned objects, a circle of records is one of planned objects. -/
theorem refers_of_circular (hnames : plan.NamesPlanned) (h : plan.Circular) :
    ∃ index, TransGen plan.Refers index index := by
  obtain ⟨record, hcircle⟩ := h
  obtain ⟨_, ⟨first, hfirst, hfirst_single, hfirst_holder, _, hfirst_value, -⟩, -⟩ :=
    TransGen.head'_iff.mp hcircle
  obtain ⟨last, hway, link, hlink, hsingle, hholder, target, htarget, hvalue⟩ :=
    TransGen.tail'_iff.mp hcircle
  obtain ⟨index, rfl, -⟩ := hnames link hlink hsingle target htarget first hfirst hfirst_single
    (Option.isSome_of_eq_some hfirst_value) (hvalue.trans hfirst_holder.symm)
  obtain ⟨earliest, hearliest, hearliest_single, hsome, hrecord, hrest⟩ :=
    refers_of_leads hnames hway hlink hsingle hholder htarget
  obtain ⟨start, hstart, hheld⟩ := hnames link hlink hsingle _ htarget earliest hearliest
    hearliest_single hsome (hvalue.trans hrecord.symm)
  obtain rfl := NodeRef.node.inj hstart
  exact ⟨index, hrest index hheld⟩

/-- The record that a planned object stands for. -/
def planned (plan : Plan) (index : Nat) : Participant :=
  plan.participant ((plan.nodes[index]?.map fun node => node.model.name).getD "") (.node index)

theorem participant_node {model : String} {index : Nat} (h : Planned plan.nodes index model) :
    plan.participant model (.node index) = plan.planned index := by
  obtain ⟨node, hnode, rfl⟩ := h
  unfold planned
  rw [hnode]
  rfl

/-- A circle of planned objects is one of records. -/
theorem circular_of_refers (hplan : plan.Sound schema) {index : Nat}
    (h : TransGen plan.Refers index index) : plan.Circular := by
  refine ⟨plan.planned index, h.lift plan.planned ?_⟩
  intro holder value hrefers
  obtain ⟨link, hlink, hsingle, hholder, hvalue⟩ := refers_iff.mp hrefers
  have hsound := hplan.links link hlink
  have hheld := hsound.holder
  rw [hholder] at hheld
  refine ⟨link, hlink, hsingle, ?_, .node value, hvalue, participant_node (hsound.value _ hvalue)⟩
  rw [hholder]
  exact participant_node hheld

end ModelSurface.Plan
