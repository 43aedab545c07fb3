import ModelSurface.Proofs.Engine.Orderly
import ModelSurface.Proofs.Write.Described
import ModelSurface.Proofs.Write.Standing

/-!
# Plans carried out again

A plan that creates nothing and has been carried out can be carried out again, and then changes
nothing. While it runs for the second time the tables are as they were left, but for references of
the updated record: those that the plan itself sets, until the late links that took their place the
first time have done so again.
-/

namespace ModelSurface

namespace Writing

theorem failing_of_orderly {α : Type} {work : Writing α} (horderly : Orderly work)
    {start stop : Work} {a : α} (h : work start = .ok a stop) :
    stop.transaction.failing = start.transaction.failing := by
  rw [horderly.ok h]
  rfl

theorem replace_willing {model : String} {id : Identity} {record : Record} {start : Work} :
    Yields (replace model id record) start fun _ _ =>
      start.transaction.failing.contains model = false :=
  .intro (fun _ _ hrun => willing_of_replace hrun) fun _ _ _ => trivial

end Writing

namespace Plan

open Writing (Yields)

variable {schema : Schema} {sources : Sources} {plan : Plan} {node : PlanNode} {id : Identity}
  {written : Written} {start stop : Work} {link : Link NodeRef} {record : Record}

/-! ### The first time -/

theorem attach_willing (written : Written) (link : Link NodeRef) :
    Yields (attach written link) start fun _ _ =>
      start.transaction.failing.contains link.holderModel.name = false := by
  unfold attach
  refine .bind (fun _ stop => stop = start) (.checkpoint (fun _ => trivial) rfl) ?_
  rintro _ _ rfl
  refine .bind _ (identityOf_yields link.holder) ?_
  rintro holder start ⟨rfl, -⟩
  refine .bind (fun _ stop => stop = start) (.get? (fun _ => trivial) rfl) ?_
  rintro found start rfl
  split
  · exact .refuse trivial
  · refine .bind _ (linkValue_yields link) ?_
    rintro value start ⟨rfl, -⟩
    split
    · exact Writing.replace_willing
    · refine .bind _ (checkUnique_yields link.holderModel link value holder) ?_
      rintro _ start ⟨rfl, -⟩
      exact Writing.replace_willing

theorem update_willing (sources : Sources) (plan : Plan) (written : Written) (index : Nat)
    (node : PlanNode) (id : Identity) :
    Yields (plan.update sources written index node id) start fun _ _ =>
      start.transaction.failing.contains node.model.name = false := by
  unfold update
  refine .bind (fun _ stop => stop = start) (.get? (fun _ => trivial) rfl) ?_
  rintro found start rfl
  split
  · exact .refuse trivial
  · refine .bind (fun _ between => between.transaction.failing = start.transaction.failing)
      (.intro (fun _ _ hrun => Writing.failing_of_orderly (Writing.orderly_foldlM (fun _ saved =>
        Writing.orderly_bind (saved.1.orderly_generate _ _ _) fun _ => Writing.orderly_pure _) _ _)
        hrun) fun _ _ _ => trivial) ?_
    intro refreshed between hbetween
    refine .bind _ (setReferences_yields plan node.model index id refreshed) ?_
    rintro record _ ⟨rfl, -⟩
    rw [← hbetween]
    exact Writing.replace_willing

theorem writeNode_willing (sources : Sources) {index : Nat}
    (hnode : plan.nodes[index]? = some node) (haction : node.action = .update id) :
    Yields (plan.writeNode sources written index) start fun _ _ =>
      start.transaction.failing.contains node.model.name = false := by
  unfold writeNode
  refine .bind (fun _ stop => stop = start) (.checkpoint (fun _ => trivial) rfl) ?_
  rintro _ start rfl
  rw [hnode]
  dsimp only
  rw [haction]
  exact .bind _ (update_willing sources plan written index node id) fun _ _ h => .pure h

/-- The models to which a plan writes are not made to fail. -/
structure Willing (node : PlanNode) (links : List (Link NodeRef)) (work : Work) : Prop where
  root : work.transaction.failing.contains node.model.name = false
  late : ∀ link ∈ links, work.transaction.failing.contains link.holderModel.name = false

theorem Willing.step {links : List (Link NodeRef)} (h : Willing node links start)
    (hfailing : stop.transaction.failing = start.transaction.failing)
    (hlink : start.transaction.failing.contains link.holderModel.name = false) :
    Willing node (links ++ [link]) stop where
  root := by rw [hfailing, h.root]
  late other hother := by
    rw [hfailing]
    rcases List.mem_append.mp hother with hold | hnew
    · exact h.late other hold
    · rw [List.mem_singleton.mp hnew, hlink]

theorem eq_of_prefix_singleton {done : List Nat} {index first : Nat}
    (h : done ++ [index] <+: [first]) : done = [] ∧ index = first := by
  cases done with
  | nil => exact ⟨rfl, (List.cons_prefix_cons.mp h).1⟩
  | cons other rest =>
      have hnil := (List.cons_prefix_cons.mp h).2
      rw [List.prefix_nil] at hnil
      exact absurd hnil (List.append_ne_nil_of_right_ne_nil _ (List.cons_ne_nil _ _))

section

variable (hschema : schema.Sound) (hplan : plan.Sound schema) (hflat : plan.Flat node id)

include hschema hplan hflat

theorem Wrote.standing {written' : Written} (hsave : onSave node.model = [])
    (hintact : start.tables.Intact schema)
    (h : Wrote sources plan 0 [] start stop written') :
    written' = [(0, id)] ∧ Standing schema plan node id [] stop.tables := by
  cases h with
  | created hnode haction =>
      obtain rfl := Option.some.inj (hflat.node_zero.symm.trans hnode)
      rw [hflat.action] at haction
      cases haction
  | updated hnode haction hupdated =>
      obtain rfl := Option.some.inj (hflat.node_zero.symm.trans hnode)
      obtain rfl := NodeAction.update.inj (hflat.action.symm.trans haction)
      exact ⟨rfl, hupdated.standing hschema hplan hflat hsave hintact⟩

/-- What has been carried out stands, and nothing makes its writes fail. -/
theorem standing_of_apply (hsave : onSave node.model = []) (hintact : start.tables.Intact schema)
    (hrun : plan.apply sources [0] start = .ok record stop) :
    Standing schema plan node id plan.lateLinks stop.tables ∧ Willing node plan.lateLinks stop ∧
      stop.tables.get? node.model.name id = some record := by
  suffices h : Yields (plan.apply sources [0]) start fun record stop =>
      Standing schema plan node id plan.lateLinks stop.tables ∧
        Willing node plan.lateLinks stop ∧
          stop.tables.get? node.model.name id = some record from h.ok hrun
  refine (apply_runs
    (fun done written work => (done = [] ∧ written = [] ∧ work.tables.Intact schema) ∨
      done = [0] ∧ written = [(0, id)] ∧ Standing schema plan node id [] work.tables ∧
        Willing node [] work)
    (fun written set work => written = [(0, id)] ∧ Standing schema plan node id set work.tables ∧
      Willing node set work) (.inl ⟨rfl, rfl, hintact⟩) ?_ ?_ ?_).mono ?_
  · rintro done index written before hpart hwriting
    obtain ⟨rfl, rfl⟩ := eq_of_prefix_singleton hpart
    obtain ⟨-, rfl, hbefore⟩ | ⟨hnil, -⟩ := hwriting
    · refine .intro ?_ fun _ _ _ => trivial
      intro written' after hrun
      have hwilling := (writeNode_willing sources hflat.node_zero hflat.action).ok hrun
      have hfailing := Writing.failing_of_orderly (plan.orderly_writeNode sources [] 0) hrun
      have hwrote := (writeNode_yields sources (hplan.models hschema) [] 0).ok hrun
      obtain ⟨rfl, hstanding⟩ := hwrote.standing hschema hplan hflat hsave hbefore
      exact .inr ⟨rfl, rfl, hstanding, by rw [hfailing, hwilling],
        fun _ hmem => absurd hmem List.not_mem_nil⟩
    · cases hnil
  · rintro written between (⟨hnil, -⟩ | ⟨-, h⟩)
    · cases hnil
    · exact h
  · rintro set link written before hpart ⟨rfl, hstanding, hwilling⟩
    have hlate := hpart.subset (List.mem_append_right _ (List.mem_singleton.mpr rfl))
    have hset : set ⊆ plan.lateLinks := fun _ hmem => hpart.subset (List.mem_append_left _ hmem)
    refine .intro ?_ fun _ _ _ => trivial
    intro _ after hrun
    obtain ⟨holder, old, value, hattached⟩ := (attach_yields [(0, id)] link).ok hrun
    exact ⟨rfl, hstanding.attached hschema hplan hflat hset hlate hattached,
      hwilling.step (Writing.failing_of_orderly (orderly_attach _ link) hrun)
        ((attach_willing [(0, id)] link).ok hrun)⟩
  · rintro record stop ⟨written, ⟨rfl, hstanding, hwilling⟩, root, found, hroot, hfound, hrecord⟩
    refine ⟨hstanding, hwilling, ?_⟩
    rw [hflat.nodes] at hroot
    obtain rfl := Option.some.inj hroot
    obtain rfl := lookup_updated id 0 found hfound
    exact hrecord

end

/-! ### The second time -/

/-- What a plan puts into the record that it updates for the references which this record holds. -/
def assignments (plan : Plan) (id : Identity) : List (String × Value) :=
  (plan.heldLinks 0).map fun link => (link.field, link.valueAt id)

def assign (plan : Plan) (id : Identity) (record : Record) : Record :=
  (plan.assignments id).foldl (fun record entry => record.put entry.1 entry.2) record

theorem setReferences_run (h : start.Open) {model : Model} {holder : Identity}
    (hlinks : ∀ link ∈ plan.heldLinks 0, LinkedTo written start.tables link (link.valueAt id) ∧
      Vacant model link.field (link.valueAt id) holder start.tables) (record : Record) :
    plan.setReferences written model 0 holder record start =
      .ok (plan.assign id record) start := by
  unfold setReferences assign assignments
  rw [List.foldl_map]
  generalize plan.heldLinks 0 = links at hlinks
  induction links generalizing record with
  | nil => rfl
  | cons link rest ih =>
      obtain ⟨⟨hlinked, hvacant⟩, hrest⟩ := List.forall_mem_cons.mp hlinks
      rw [List.foldlM_cons]
      refine Writing.bind_eq_ok.mpr ⟨record.put link.field (link.valueAt id), start, ?_,
        ih _ hrest⟩
      refine Writing.bind_eq_ok.mpr ⟨_, start, linkValue_run h hlinked, ?_⟩
      exact Writing.bind_eq_ok.mpr ⟨(), start, checkUnique_run h hvacant, rfl⟩

/-- The updated record while the plan is carried out again: as it was left, but for references that
the plan sets on it and that no late link has set so far. -/
structure Trails (plan : Plan) (node : PlanNode) (id : Identity) (set : List (Link NodeRef))
    (record current : Record) : Prop where
  keys : current.keys = record.keys
  fields : ∀ name, current.get? name = record.get? name ∨
    ∃ link ∈ plan.heldLinks 0, link.field = name ∧ current.get? name = some (link.valueAt id) ∧
      ∀ later ∈ set, later.many = false → later.holderModel.name = node.model.name →
        later.holderAt id = id → later.field ≠ name

/-- One more late link is set. Of the references that are not as they were left, it sets none. -/
theorem Trails.step {set : List (Link NodeRef)} {current next : Record}
    (h : plan.Trails node id set record current) (hkeys : next.keys = record.keys)
    (hfields : ∀ name, next.get? name = record.get? name ∨ next.get? name = current.get? name ∧
      (link.many = false → link.holderModel.name = node.model.name → link.holderAt id = id →
        link.field ≠ name)) : plan.Trails node id (set ++ [link]) record next where
  keys := hkeys
  fields name := by
    rcases hfields name with hsame | ⟨hcurrent, hlink⟩
    · exact .inl hsame
    · rw [hcurrent]
      refine (h.fields name).imp_right ?_
      rintro ⟨held, hheld, hfield, hvalue, hlast⟩
      refine ⟨held, hheld, hfield, hvalue, fun later hlater => ?_⟩
      rcases List.mem_append.mp hlater with hold | hnew
      · exact hlast later hold
      · rw [List.mem_singleton.mp hnew]
        exact hlink

section

variable (hschema : schema.Sound) (hplan : plan.Sound schema) (hflat : plan.Flat node id)
  {base : Work} (h : Standing schema plan node id plan.lateLinks base.tables)
  (hrecord : base.tables.get? node.model.name id = some record)

include hschema hplan hflat h hrecord

/-- A reference that the plan sets on the updated record is there, or it leads to this record
itself. -/
theorem held_cases (hlink : link ∈ plan.heldLinks 0) :
    record.get? link.field = some (link.valueAt id) ∨ record.get? link.field = some id.toValue := by
  obtain ⟨found, hfound, hstands⟩ := h.stands hschema hplan hflat (List.Subset.refl _)
    (List.mem_append_left _ hlink) (mem_heldLinks.mp hlink).2.1
  obtain ⟨hmodel, hholder⟩ := holder_of_held hschema hplan hflat hlink
  rw [hmodel, hholder, hrecord] at hfound
  obtain rfl := Option.some.inj hfound
  exact hstands

theorem Trails.outset : plan.Trails node id [] record (plan.assign id record) where
  keys := by
    refine Keyed.keys_foldl_put_of_mem fun entry hentry => ?_
    obtain ⟨link, hlink, rfl⟩ := List.mem_map.mp hentry
    apply Keyed.isSome_get?_iff.mp
    rcases held_cases hschema hplan hflat h hrecord hlink with hheld | hheld <;>
      exact Option.isSome_of_eq_some hheld
  fields name := by
    by_cases hname : name ∈ (plan.assignments id).map (·.1)
    · obtain ⟨value, hmem, hvalue⟩ := @get?_foldl_put_mem _ record _ hname
      obtain ⟨link, hlink, heq⟩ := List.mem_map.mp hmem
      obtain ⟨rfl, rfl⟩ := Prod.mk.inj heq
      exact .inr ⟨link, hlink, rfl, hvalue, fun _ h => absurd h List.not_mem_nil⟩
    · exact .inl (get?_foldl_put hname)

omit hschema hplan hflat in
/-- When all late links have been set, the record is as it was left. -/
theorem Trails.eq {current : Record} (htrails : plan.Trails node id plan.lateLinks record current)
    (hdistinct : record.keys.Nodup) : current = record := by
  refine Keyed.ext_get? hdistinct htrails.keys fun name => ?_
  rcases htrails.fields name with hsame | ⟨link, hlink, rfl, hvalue, hlast⟩
  · exact hsame
  · rcases h.held link hlink record hrecord with hheld | ⟨later, hlater, hsingle, hname, hholder,
      hfield⟩
    · rw [hvalue, hheld]
    · exact absurd hfield (hlast later hlater hsingle hname hholder)

section

variable {set : List (Link NodeRef)} {current : Record}
  (htrails : plan.Trails node id set record current)

include htrails

theorem Trails.identified : (base.tables.put node.model.name id current).Identified schema := by
  have hnode := (hplan.nodes node hflat.node_mem).model
  have hidentified := h.carried.intact.identified
  refine hidentified.put fun model hmodel hname => ?_
  obtain rfl := hschema.model_ext hnode hmodel hname
  have hidentity := hidentified node.model hnode id record hrecord
  unfold Record.identity? at hidentity ⊢
  rcases htrails.fields node.model.identity.name with hsame | ⟨link, hlink, hfield, -⟩
  · rw [hsame, hidentity]
  · -- the identity is no reference
    obtain ⟨-, relationship, hmem, hname, -⟩ :=
      held_of_heldLinks hschema hplan hflat.node_zero hlink
    refine absurd ?_ ((hschema.model _ hnode).not_mem_fields hmem)
    rw [hname, hfield]
    exact List.mem_cons_self

theorem Trails.sole (hlink : link ∈ plan.lateLinks) (hsingle : link.many = false) :
    Sole link.holderModel link.field (link.valueAt id) (link.holderAt id)
      (base.tables.put node.model.name id current) := by
  have hsole := h.sole link (List.mem_append_right _ hlink) hsingle
  refine hsole.put fun relationship hfound hone hnull hname hvalue => ?_
  have hthere : record.get? link.field = some (link.valueAt id) := by
    rcases htrails.fields link.field with hsame | ⟨held, hheld, hfield, hheld_value, -⟩
    · rw [← hsame, hvalue]
    · -- the reference is to the updated record, so that it is there if a late link has set it, too
      have hupdated := (hflat.late_single hlink hsingle).2
      have hcases := held_cases hschema hplan hflat h hrecord hheld
      rw [hvalue] at hheld_value
      rw [← Option.some.inj hheld_value, hupdated, or_self, ← hupdated, hfield] at hcases
      exact hcases
  exact hsole relationship hfound hone hnull id record (hname ▸ hrecord) hthere

/-- A late link that is set on the updated record. -/
theorem Trails.withLink (hlink : link ∈ plan.lateLinks)
    (hname : link.holderModel.name = node.model.name) (hholder : link.holderAt id = id) :
    plan.Trails node id (set ++ [link]) record
      (withLink current link.field link.many (link.valueAt id)) := by
  have hlink_mem := plan.lateLinks_subset hlink
  obtain ⟨found, hfound, hshown⟩ := h.shown link hlink
  rw [hname, hholder, hrecord] at hfound
  obtain rfl := Option.some.inj hfound
  cases hmany : link.many with
  | true =>
      -- the set of links has it already
      have hcurrent : Shown id link current := by
        rcases htrails.fields link.field with hsame | ⟨held, hheld, hfield, -⟩
        · exact hshown.congr hsame
        · obtain ⟨hheld_mem, hheld_single, -⟩ := mem_heldLinks.mp hheld
          obtain ⟨hmodel, -⟩ := holder_of_held hschema hplan hflat hheld
          have hkind := many_eq hschema hplan hlink_mem hheld_mem (by rw [hmodel, hname]) hfield
          rw [hmany, hheld_single] at hkind
          cases hkind
      rw [← hmany, hcurrent.withLink_eq (hplan.links link hlink_mem)]
      refine htrails.step htrails.keys fun name => .inr ⟨rfl, fun hsingle => ?_⟩
      rw [hmany] at hsingle
      cases hsingle
  | false =>
      have hthere := (shown_of_single hmany).mp hshown
      have hkey : link.field ∈ current.keys := by
        rw [htrails.keys]
        exact Keyed.isSome_get?_iff.mp (Option.isSome_of_eq_some hthere)
      refine htrails.step ((Keyed.keys_put_of_mem _ hkey).trans htrails.keys) fun name => ?_
      by_cases hfield : name = link.field
      · left
        rw [hfield, get?_withLink_single, hthere]
      · exact .inr ⟨get?_withLink_of_ne hfield _ _ _, fun _ _ _ => Ne.symm hfield⟩

/-- A late link is set again: on the updated record, or on a record that has it already. -/
theorem attach_again (hopen : base.Open) (hwilling : Willing node plan.lateLinks base)
    (hlink : link ∈ plan.lateLinks) :
    ∃ next, plan.Trails node id (set ++ [link]) record next ∧
      attach [(0, id)] link
        (base.withTables (base.tables.put node.model.name id current)) =
          .ok () (base.withTables (base.tables.put node.model.name id next)) := by
  have hlink_mem := plan.lateLinks_subset hlink
  have hsound := hplan.links link hlink_mem
  obtain ⟨hholder, hnames⟩ := hflat.names hlink_mem
  obtain ⟨found, hfound, hshown⟩ := h.shown link hlink
  have hlinked : LinkedTo [(0, id)] (base.tables.put node.model.name id current) link
      (link.valueAt id) := linkedTo_valueAt hnames fun other hvalue =>
    Tables.retains_put _ _ _ _ _ _ (h.targets link (List.mem_append_right _ hlink) other hvalue)
  have hvacant : link.many = false → Vacant link.holderModel link.field (link.valueAt id)
      (link.holderAt id) (base.tables.put node.model.name id current) := fun hsingle =>
    (vacant_iff_sole (htrails.identified hschema hplan hflat h hrecord _ hsound.model) link id
      _).mpr (htrails.sole hschema hplan hflat h hrecord hlink hsingle)
  have hrun : ∀ {old : Record}, (base.tables.put node.model.name id current).get?
      link.holderModel.name (link.holderAt id) = some old → _ := fun hold =>
    attach_run (hopen.withTables (base.tables.put node.model.name id current))
      (hwilling.late link hlink) hholder hold hlinked hvacant
  by_cases hsame : link.holderModel.name = node.model.name ∧ link.holderAt id = id
  · obtain ⟨hname, hid⟩ := hsame
    refine ⟨_, htrails.withLink hschema hplan hflat h hrecord hlink hname hid, ?_⟩
    rw [hrun (by rw [hname, hid, Tables.get?_put, if_pos ⟨rfl, rfl⟩]), hname, hid,
      Work.tables_withTables, Tables.put_put]
    rfl
  · refine ⟨current, htrails.step htrails.keys fun name =>
      .inr ⟨rfl, fun _ hname hid => absurd ⟨hname, hid⟩ hsame⟩, ?_⟩
    have hold : (base.tables.put node.model.name id current).get? link.holderModel.name
        (link.holderAt id) = some found := by
      rw [Tables.get?_put, if_neg hsame, hfound]
    rw [hrun hold, hshown.withLink_eq hsound, Work.tables_withTables, Tables.put_of_get? hold]
    rfl

end

/-- The record is updated again. -/
theorem update_again (hsave : onSave node.model = []) (hopen : base.Open)
    (hwilling : Willing node plan.lateLinks base) (sources : Sources) :
    plan.update sources [] 0 node id base = .ok ()
      (base.withTables (base.tables.put node.model.name id (plan.assign id record))) := by
  have hnode := (hplan.nodes node hflat.node_mem).model
  unfold update
  refine Writing.bind_eq_ok.mpr ⟨some record, base, by rw [hopen.run_get?, hrecord], ?_⟩
  dsimp only
  rw [Keyed.foldl_put_of_get? (h.values record hrecord), hsave, List.foldlM_nil, pure_bind]
  refine Writing.bind_eq_ok.mpr ⟨_, base, setReferences_run hopen ?_ record,
    hopen.run_replace hwilling.root hrecord _⟩
  intro link hlink
  obtain ⟨hmodel, hholder⟩ := holder_of_held hschema hplan hflat hlink
  have hsole := h.sole link (List.mem_append_left _ hlink) (mem_heldLinks.mp hlink).2.1
  rw [hmodel, hholder] at hsole
  refine ⟨linkedTo_valueAt (fun _ => hflat.names_of_held hlink []) fun other hvalue =>
    h.targets link (List.mem_append_left _ hlink) other hvalue, ?_⟩
  exact (vacant_iff_sole (h.carried.intact.identified _ hnode) link id _).mpr hsole

theorem writeNode_again (hsave : onSave node.model = []) (hopen : base.Open)
    (hwilling : Willing node plan.lateLinks base) (sources : Sources) :
    plan.writeNode sources [] 0 base = .ok [(0, id)]
      (base.withTables (base.tables.put node.model.name id (plan.assign id record))) := by
  unfold writeNode
  refine Writing.bind_eq_ok.mpr ⟨(), base, hopen.run_checkpoint, ?_⟩
  rw [hflat.node_zero]
  dsimp only
  rw [hflat.action]
  exact Writing.bind_eq_ok.mpr
    ⟨(), _, update_again hschema hplan hflat h hrecord hsave hopen hwilling sources, rfl⟩

/-- The late links are set again, and leave the tables as they were before the update. -/
theorem forM_attach_again (hdistinct : record.keys.Nodup) (hopen : base.Open)
    (hwilling : Willing node plan.lateLinks base) :
    plan.lateLinks.forM (attach [(0, id)])
      (base.withTables (base.tables.put node.model.name id (plan.assign id record))) =
        .ok () base := by
  have hends : Writing.Ends (plan.lateLinks.forM (attach [(0, id)]))
      (base.withTables (base.tables.put node.model.name id (plan.assign id record)))
      (fun _ stop => stop = base) fun _ => False := by
    refine (Writing.Ends.forM (fun set stop => ∃ current,
      plan.Trails node id set record current ∧
        stop = base.withTables (base.tables.put node.model.name id current))
      ⟨_, Trails.outset hschema hplan hflat h hrecord, rfl⟩ ?_).mono ?_
    · rintro set link _ hpart ⟨current, htrails, rfl⟩
      obtain ⟨next, hnext, hrun⟩ := attach_again hschema hplan hflat h hrecord htrails hopen
        hwilling (hpart.subset (List.mem_append_right _ (List.mem_singleton.mpr rfl)))
      unfold Writing.Ends
      rw [hrun]
      exact ⟨next, hnext, rfl⟩
    · rintro _ stop ⟨current, htrails, rfl⟩
      rw [htrails.eq h hrecord hdistinct, Tables.put_of_get? hrecord]
      rfl
  cases hrun : plan.lateLinks.forM (attach [(0, id)])
    (base.withTables (base.tables.put node.model.name id (plan.assign id record))) with
  | ok _ stop => rw [hends.ok hrun]
  | error failure stop => exact (hends.error hrun).elim

/-- What stands is carried out again without any change. -/
theorem apply_again (hsave : onSave node.model = []) (hdistinct : record.keys.Nodup)
    (hopen : base.Open) (hwilling : Willing node plan.lateLinks base) (sources : Sources) :
    plan.apply sources [0] base = .ok record base := by
  have hwrite := writeNode_again hschema hplan hflat h hrecord hsave hopen hwilling sources
  have hlate := forM_attach_again hschema hplan hflat h hrecord hdistinct hopen hwilling
  unfold apply
  rw [List.foldlM_cons]
  refine Writing.bind_eq_ok.mpr ⟨_, _, Writing.bind_eq_ok.mpr ⟨_, _, hwrite, rfl⟩, ?_⟩
  refine Writing.bind_eq_ok.mpr ⟨(), base, hlate, ?_⟩
  rw [hflat.nodes]
  exact Writing.bind_eq_ok.mpr ⟨some record, base, by rw [hopen.run_get?, hrecord], rfl⟩

end

end Plan

end ModelSurface
