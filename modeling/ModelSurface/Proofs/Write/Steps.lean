import ModelSurface.Proofs.Write.Drawing
import ModelSurface.Proofs.Write.Inputs

/-!
# The steps of a plan

What each step of a plan does when it succeeds. Every property of plans that are carried out is a
consequence of these descriptions, and no later proof opens the steps themselves.
-/

namespace ModelSurface

namespace Plan

open Writing (Yields)

variable {start stop : Work} {plan : Plan} {written : Written}

/-! ### Links -/

/-- What a reference of a plan names, by the records that have been written. -/
def Names (written : Written) (ref : NodeRef) (id : Identity) : Prop :=
  ref = .stored id ∨ ∃ index, ref = .node index ∧ written.lookup index = some id

/-- What a link sets its relationship to: null, or a record that is planned or is there. -/
inductive LinkedTo (written : Written) (tables : Tables) (link : Link NodeRef) : Value → Prop
  | nothing (h : link.value = none) : LinkedTo written tables link .null
  | record {target : NodeRef} {id : Identity} (hvalue : link.value = some target)
      (hnames : Names written target id) (hstored : ∀ other, target = .stored other →
        (tables.get? link.valueModel.name id).isSome) : LinkedTo written tables link id.toValue

/-- No record but its holder has a value under a relationship that leads from one record to one. -/
def Vacant (model : Model) (field : String) (value : Value) (holder : Identity)
    (tables : Tables) : Prop :=
  ∀ relationship, model.relationship? field = some relationship →
    relationship.cardinality = .oneToOne → value.isNull = false →
    ∀ record ∈ tables.scan model.name, (record.get? field).any value.same = true →
      Record.identity? record model.identity.name = some holder

theorem identityOf_yields (ref : NodeRef) :
    Yields (identityOf written ref) start fun id stop => stop = start ∧ Names written ref id := by
  unfold identityOf
  cases ref with
  | stored other => exact .pure ⟨rfl, .inl rfl⟩
  | node index =>
      dsimp only
      split
      · rename_i id hfound
        exact .pure ⟨rfl, .inr ⟨index, rfl, hfound⟩⟩
      · exact .breach trivial

theorem checkExists_yields (link : Link NodeRef) (target : NodeRef) (id : Identity) :
    Yields (checkExists link target id) start fun _ stop =>
      stop = start ∧ ∀ other, target = .stored other →
        (start.tables.get? link.valueModel.name id).isSome := by
  unfold checkExists
  cases target with
  | node index => exact .pure ⟨rfl, fun _ heq => by cases heq⟩
  | stored other =>
      refine .bind (fun found stop => stop = start ∧
        start.tables.get? link.valueModel.name id = found) (.get? (fun _ => trivial) ⟨rfl, rfl⟩) ?_
      rintro found _ ⟨rfl, hfound⟩
      split
      · exact .refuse trivial
      · rename_i hsome
        refine .pure ⟨rfl, fun _ _ => ?_⟩
        rw [hfound, ← Option.not_isNone, Bool.eq_false_iff.mpr hsome]
        rfl

theorem linkValue_yields (link : Link NodeRef) :
    Yields (linkValue written link) start fun value stop =>
      stop = start ∧ LinkedTo written start.tables link value := by
  unfold linkValue
  cases hvalue : link.value with
  | none => exact .pure ⟨rfl, .nothing hvalue⟩
  | some target =>
      refine .bind _ (identityOf_yields target) ?_
      rintro id _ ⟨rfl, hnames⟩
      refine .bind _ (checkExists_yields link target id) ?_
      rintro _ _ ⟨rfl, hexists⟩
      exact .pure ⟨rfl, .record hvalue hnames hexists⟩

theorem checkUnique_yields (model : Model) (link : Link NodeRef) (value : Value)
    (holder : Identity) :
    Yields (checkUnique model link value holder) start fun _ stop =>
      stop = start ∧ Vacant model link.field value holder start.tables := by
  unfold checkUnique
  split
  · rename_i relationship hfound
    by_cases hchecked : relationship.cardinality = .oneToOne ∧ !value.isNull
    · rw [if_pos hchecked]
      refine .bind (fun records stop => stop = start ∧ start.tables.scan model.name = records)
        (.scan (fun _ => trivial) ⟨rfl, rfl⟩) ?_
      rintro records _ ⟨rfl, hrecords⟩
      dsimp only
      split
      · exact .refuse trivial
      · rename_i hfree
        refine .pure ⟨rfl, ?_⟩
        intro other _ _ _ record hrecord hsame
        by_contra hother
        apply hfree
        rw [← hrecords]
        refine List.any_eq_true.mpr ⟨record, hrecord, ?_⟩
        rw [hsame, Bool.true_and]
        exact decide_eq_true hother
    · rw [if_neg hchecked]
      refine .pure ⟨rfl, ?_⟩
      intro other hother hone hnull
      obtain rfl := Option.some.inj (hfound.symm.trans hother)
      exact absurd ⟨hone, by rw [hnull]; rfl⟩ hchecked
  · rename_i hnone
    refine .pure ⟨rfl, ?_⟩
    intro other hother
    rw [hnone] at hother
    cases hother

/-- A value to which a link of a holder may be set. -/
structure Fitting (written : Written) (model : Model) (holder : Identity) (tables : Tables)
    (link : Link NodeRef) (value : Value) : Prop where
  linked : LinkedTo written tables link value
  vacant : Vacant model link.field value holder tables

/-- A record in which single references have been set by links, each to a value to which the link
may be set. Of several links with one relationship, one has its way. -/
structure Assigned (may : Link NodeRef → Value → Prop) (links : List (Link NodeRef))
    (before after : Record) : Prop where
  others : ∀ name, (∀ link ∈ links, link.field ≠ name) → after.get? name = before.get? name
  set : ∀ link ∈ links, ∃ last ∈ links, last.field = link.field ∧
    ∃ value, after.get? link.field = some value ∧ may last value
  kept : (∀ link ∈ links, link.field ∈ before.keys) → after.keys = before.keys

theorem Assigned.nil (may : Link NodeRef → Value → Prop) (record : Record) :
    Assigned may [] record record :=
  ⟨fun _ _ => rfl, fun _ h => absurd h List.not_mem_nil, fun _ => rfl⟩

theorem Assigned.put {may : Link NodeRef → Value → Prop} {links : List (Link NodeRef)}
    {before after : Record} (h : Assigned may links before after) {link : Link NodeRef}
    {value : Value} (hvalue : may link value) :
    Assigned may (links ++ [link]) before (after.put link.field value) := by
  have hlast : link ∈ links ++ [link] := List.mem_append_right _ (List.mem_singleton.mpr rfl)
  refine ⟨?_, ?_, ?_⟩
  · intro name hname
    rw [Keyed.get?_put_of_ne _ _ (hname link hlast).symm]
    exact h.others name fun other hother => hname other (List.mem_append_left _ hother)
  · intro other hother
    by_cases hsame : other.field = link.field
    · refine ⟨link, hlast, hsame.symm, value, ?_, hvalue⟩
      rw [hsame, Keyed.get?_put_self]
    · rcases List.mem_append.mp hother with hold | hnew
      · obtain ⟨last, hmem, hfield, found, hfound, hmay⟩ := h.set other hold
        refine ⟨last, List.mem_append_left _ hmem, hfield, found, ?_, hmay⟩
        rw [Keyed.get?_put_of_ne _ _ hsame, hfound]
      · exact absurd (congrArg Link.field (List.mem_singleton.mp hnew)) hsame
  · intro hkept
    have hkeys := h.kept fun other hother => hkept other (List.mem_append_left _ hother)
    have hmem := hkept link hlast
    rw [← hkeys] at hmem
    rw [Keyed.keys_put_of_mem _ hmem, hkeys]

theorem setReferences_yields (plan : Plan) (model : Model) (index : Nat) (holder : Identity)
    (record : Record) :
    Yields (plan.setReferences written model index holder record) start fun after stop =>
      stop = start ∧ Assigned (Fitting written model holder start.tables) (plan.heldLinks index)
        record after := by
  unfold setReferences
  refine .foldlM (fun done after between => between = start ∧
    Assigned (Fitting written model holder start.tables) done record after)
    ⟨rfl, .nil _ record⟩ ?_
  rintro done link after _ - ⟨rfl, hafter⟩
  refine .bind _ (linkValue_yields link) ?_
  rintro value _ ⟨rfl, hlinked⟩
  refine .bind _ (checkUnique_yields model link value holder) ?_
  rintro _ _ ⟨rfl, hvacant⟩
  exact .pure ⟨rfl, hafter.put ⟨hlinked, hvacant⟩⟩

/-! ### Records -/

/-- A new record before any of its references is set. -/
def withReferences (model : Model) (record : Record) : Record :=
  (emptyReferences model).foldl (fun record entry => record.put entry.1 entry.2) record

/-- A new record is stored: its fields are filled, its references are set, and its identity is not
in use. -/
structure Created (sources : Sources) (plan : Plan) (written : Written) (index : Nat)
    (node : PlanNode) (start stop : Work) (id : Identity) (filled record : Record)
    (between : Work) : Prop where
  fills : Puts node.model.fields.values Field.name (initialValue sources node) start .empty filled
    between
  identity : Record.identity? filled node.model.identity.name = some id
  assigned : Assigned (Fitting written node.model id between.tables) (plan.heldLinks index)
    (withReferences node.model filled) record
  new : between.tables.get? node.model.name id = none
  stop_eq : stop = between.withTables (between.tables.put node.model.name id record)

/-- A stored record is replaced: the values that the caller gives are put into it, what is assigned
on each save, and its references. -/
structure Updated (sources : Sources) (plan : Plan) (written : Written) (index : Nat)
    (node : PlanNode) (start stop : Work) (id : Identity) (old refreshed record : Record)
    (between : Work) : Prop where
  found : start.tables.get? node.model.name id = some old
  refreshes : Puts (onSave node.model) (fun entry => entry.1.name)
    (fun entry => entry.1.generate sources node.model.name entry.2) start
    (node.values.entries.foldl (fun record entry => record.put entry.1 entry.2) old) refreshed
    between
  assigned : Assigned (Fitting written node.model id between.tables) (plan.heldLinks index)
    refreshed record
  stop_eq : stop = between.withTables (between.tables.put node.model.name id record)

/-- A link is set on a stored record: added to a set of links, unless it is there already, or put in
the place of a single reference. -/
structure Attached (written : Written) (link : Link NodeRef) (start stop : Work)
    (holder : Identity) (old : Record) (value : Value) : Prop where
  names : Names written link.holder holder
  found : start.tables.get? link.holderModel.name holder = some old
  linked : LinkedTo written start.tables link value
  stop_eq : (link.many = true ∧ stop = start.withTables
      (start.tables.put link.holderModel.name holder (old.put link.field (.list
        (if value.isNull || (linkSet old link.field).any value.same then linkSet old link.field
        else linkSet old link.field ++ [value]))))) ∨
    (link.many = false ∧ Vacant link.holderModel link.field value holder start.tables ∧
      stop = start.withTables
        (start.tables.put link.holderModel.name holder (old.put link.field value)))

theorem create_yields (sources : Sources) (plan : Plan) (written : Written) (index : Nat)
    {node : PlanNode} (hmodel : node.model.Sound) :
    Yields (plan.create sources written index node) start fun id stop =>
      ∃ filled record between,
        Created sources plan written index node start stop id filled record between := by
  unfold create
  refine .bind _ (fill_yields sources hmodel) ?_
  intro filled between hfilled
  dsimp only
  split
  · exact .breach trivial
  · rename_i id hidentity
    refine .bind _ (setReferences_yields plan node.model index id
      (withReferences node.model filled)) ?_
    rintro record between ⟨rfl, hassigned⟩
    refine .bind (fun _ stop => ∃ filled record between,
      Created sources plan written index node start stop id filled record between)
      (.insert (fun _ => trivial) ?_) fun _ _ h => .pure h
    intro hnew
    exact ⟨filled, record, between, hfilled, hidentity, hassigned, hnew, rfl⟩

theorem update_yields (sources : Sources) (plan : Plan) (written : Written) (index : Nat)
    {node : PlanNode} (hmodel : node.model.Sound) (id : Identity) :
    Yields (plan.update sources written index node id) start fun _ stop =>
      ∃ old refreshed record between,
        Updated sources plan written index node start stop id old refreshed record between := by
  unfold update
  refine .bind (fun found stop => stop = start ∧ start.tables.get? node.model.name id = found)
    (.get? (fun _ => trivial) ⟨rfl, rfl⟩) ?_
  rintro found _ ⟨rfl, hfound⟩
  split
  · exact .refuse trivial
  · rename_i old
    refine .bind _ (refresh_yields sources hmodel _) ?_
    intro refreshed between hrefreshed
    refine .bind _ (setReferences_yields plan node.model index id refreshed) ?_
    rintro record between ⟨rfl, hassigned⟩
    refine .replace (fun _ => trivial) ?_
    exact ⟨old, refreshed, record, between, hfound, hrefreshed, hassigned, rfl⟩

theorem attach_yields (written : Written) (link : Link NodeRef) :
    Yields (attach written link) start fun _ stop =>
      ∃ holder old value, Attached written link start stop holder old value := by
  unfold attach
  refine .bind (fun _ stop => stop = start) (.checkpoint (fun _ => trivial) rfl) ?_
  rintro _ _ rfl
  refine .bind _ (identityOf_yields link.holder) ?_
  rintro holder start ⟨rfl, hnames⟩
  refine .bind (fun found stop => stop = start ∧
    start.tables.get? link.holderModel.name holder = found) (.get? (fun _ => trivial) ⟨rfl, rfl⟩) ?_
  rintro found start ⟨rfl, hfound⟩
  split
  · exact .refuse trivial
  · rename_i old
    refine .bind _ (linkValue_yields link) ?_
    rintro value start ⟨rfl, hlinked⟩
    by_cases hmany : link.many = true
    · rw [if_pos hmany]
      refine .replace (fun _ => trivial) ?_
      exact ⟨holder, old, value, hnames, hfound, hlinked, .inl ⟨hmany, rfl⟩⟩
    · rw [if_neg hmany]
      refine .bind _ (checkUnique_yields link.holderModel link value holder) ?_
      rintro _ start ⟨rfl, hvacant⟩
      refine .replace (fun _ => trivial) ?_
      exact ⟨holder, old, value, hnames, hfound, hlinked,
        .inr ⟨Bool.eq_false_iff.mpr hmany, hvacant, rfl⟩⟩

/-! ### The whole plan -/

theorem heldLinks_subset (plan : Plan) (index : Nat) : plan.heldLinks index ⊆ plan.links :=
  fun _ hlink => (List.mem_filter.mp hlink).1

theorem lateLinks_subset (plan : Plan) : plan.lateLinks ⊆ plan.links :=
  fun _ hlink => (List.mem_filter.mp hlink).1

/-- One record of a plan is written. -/
inductive Wrote (sources : Sources) (plan : Plan) (index : Nat) (written : Written)
    (start stop : Work) : Written → Prop
  | created {node : PlanNode} {id : Identity} {filled record : Record} {between : Work}
      (hnode : plan.nodes[index]? = some node) (haction : node.action = .create)
      (h : Created sources plan written index node start stop id filled record between) :
      Wrote sources plan index written start stop ((index, id) :: written)
  | updated {node : PlanNode} {id : Identity} {old refreshed record : Record} {between : Work}
      (hnode : plan.nodes[index]? = some node) (haction : node.action = .update id)
      (h : Updated sources plan written index node start stop id old refreshed record between) :
      Wrote sources plan index written start stop ((index, id) :: written)

theorem writeNode_yields (sources : Sources) {plan : Plan}
    (hplan : ∀ node ∈ plan.nodes, node.model.Sound) (written : Written) (index : Nat) :
    Yields (plan.writeNode sources written index) start fun written' stop =>
      Wrote sources plan index written start stop written' := by
  unfold writeNode
  refine .bind (fun _ stop => stop = start) (.checkpoint (fun _ => trivial) rfl) ?_
  rintro _ _ rfl
  split
  · exact .breach trivial
  · rename_i node hnode
    have hmodel := hplan node (List.mem_of_getElem? hnode)
    split
    · rename_i haction
      refine .bind _ (create_yields sources plan written index hmodel) ?_
      rintro id stop ⟨filled, record, between, hcreated⟩
      exact .pure (.created hnode haction hcreated)
    · rename_i id haction
      refine .bind _ (update_yields sources plan written index hmodel id) ?_
      rintro _ stop ⟨old, refreshed, record, between, hupdated⟩
      exact .pure (.updated hnode haction hupdated)

/-- A plan is carried out in two passes: its records are written, `done` being those that have been,
and then its late links are set, `set` being those that have been. What a pass begins with, and what
each of its runs keeps, holds behind it. -/
theorem apply_runs {sources : Sources} {plan : Plan} {order : List Nat}
    (writing : List Nat → Written → Work → Prop)
    (linking : Written → List (Link NodeRef) → Work → Prop) (hstart : writing [] [] start)
    (hwrite : ∀ done index written before, done ++ [index] <+: order →
      writing done written before → Yields (plan.writeNode sources written index) before
        fun written' after => writing (done ++ [index]) written' after)
    (hturn : ∀ written between, writing order written between → linking written [] between)
    (hattach : ∀ set link written before, set ++ [link] <+: plan.lateLinks →
      linking written set before → Yields (attach written link) before
        fun _ after => linking written (set ++ [link]) after) :
    Yields (plan.apply sources order) start fun record stop => ∃ written,
      linking written plan.lateLinks stop ∧ ∃ root id, plan.nodes.head? = some root ∧
        written.lookup 0 = some id ∧ stop.tables.get? root.model.name id = some record := by
  unfold apply
  refine .bind (fun written stop => writing order written stop)
    (.foldlM (fun done written stop => writing done written stop) hstart
      fun done index written between hpart hwriting =>
        hwrite done index written between hpart hwriting) ?_
  intro written between hbetween
  refine .bind (fun _ stop => linking written plan.lateLinks stop)
    (.forM (fun set stop => linking written set stop) (hturn written between hbetween)
      fun set link between hpart hlinking => hattach set link written between hpart hlinking) ?_
  intro _ stop hlinking
  split
  · rename_i root id hroot hid
    refine .bind (fun found after => stop = after ∧
      after.tables.get? root.model.name id = found) (.get? (fun _ => trivial) ⟨rfl, rfl⟩) ?_
    rintro found _ ⟨rfl, hfound⟩
    split
    · rename_i record
      exact .pure ⟨written, hlinking, root, id, hroot, hid, hfound⟩
    · exact .breach trivial
  · exact .breach trivial

/-- What each record that is written and each link that is set keeps of the passes of a plan. -/
theorem apply_passes {sources : Sources} {plan : Plan}
    (hplan : ∀ node ∈ plan.nodes, node.model.Sound) {order : List Nat}
    (writing : List Nat → Written → Work → Prop)
    (linking : Written → List (Link NodeRef) → Work → Prop) (hstart : writing [] [] start)
    (hwrote : ∀ done index written before written' after, done ++ [index] <+: order →
      writing done written before → Wrote sources plan index written before after written' →
      writing (done ++ [index]) written' after)
    (hturn : ∀ written between, writing order written between → linking written [] between)
    (hattached : ∀ set link written before after holder old value,
      set ++ [link] <+: plan.lateLinks → linking written set before →
      Attached written link before after holder old value →
      linking written (set ++ [link]) after) :
    Yields (plan.apply sources order) start fun record stop => ∃ written,
      linking written plan.lateLinks stop ∧ ∃ root id, plan.nodes.head? = some root ∧
        written.lookup 0 = some id ∧ stop.tables.get? root.model.name id = some record := by
  refine apply_runs writing linking hstart ?_ hturn ?_
  · intro done index written between hpart hwriting
    exact (writeNode_yields sources hplan written index).mono fun written' stop hwritten =>
      hwrote done index written between written' stop hpart hwriting hwritten
  · intro set link written between hpart hlinking
    refine (attach_yields written link).mono ?_
    rintro _ stop ⟨holder, old, value, hset⟩
    exact hattached set link written between stop holder old value hpart hlinking hset

/-- What holds in front of a plan, is kept by each record that is written and by each link that is
set, holds behind it. `done` are the records that have been written. -/
theorem apply_yields {sources : Sources} {plan : Plan}
    (hplan : ∀ node ∈ plan.nodes, node.model.Sound) {order : List Nat}
    (motive : List Nat → Written → Work → Prop) (hstart : motive [] [] start)
    (hwrote : ∀ done index written before written' after, motive done written before →
      Wrote sources plan index written before after written' →
      motive (done ++ [index]) written' after)
    (hattached : ∀ link ∈ plan.links, ∀ written before after holder old value,
      motive order written before → Attached written link before after holder old value →
      motive order written after) :
    Yields (plan.apply sources order) start fun record stop => ∃ written,
      motive order written stop ∧ ∃ root id, plan.nodes.head? = some root ∧
        written.lookup 0 = some id ∧ stop.tables.get? root.model.name id = some record := by
  refine apply_passes hplan motive (fun written _ stop => motive order written stop) hstart ?_ ?_ ?_
  · intro done index written before written' after _
    exact hwrote done index written before written' after
  · exact fun _ _ hmotive => hmotive
  · intro set link written before after holder old value hpart
    have hlate := hpart.subset (List.mem_append_right _ (List.mem_singleton.mpr rfl))
    exact hattached link (List.mem_filter.mp hlate).1 written before after holder old value

end Plan

end ModelSurface
