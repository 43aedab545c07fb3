import ModelSurface.Proofs.Write.Applying
import ModelSurface.Proofs.Write.Deciding
import ModelSurface.Proofs.Write.Fresh
import ModelSurface.Proofs.Write.Sorting

/-!
# Plans that are refused

When nothing from outside makes it fail, a plan that is not carried out is refused, and callers are
told why. All records that a step refers to have been written before it, generators only stand
behind fields they give values for, records are replaced where they are stored, and the identities
of new ones are fresh.
-/

namespace ModelSurface

variable {start : Work} {bad : Failure → Work → Prop}

/-- A generator that gives values of the kind of a field never fails. -/
theorem Field.generate_safe (sources : Sources) (model : String) {field : Field}
    {generator : Generator} (h : generator.produces field.kind = true) :
    Writing.Safe (field.generate sources model generator) start (fun _ _ => True) bad := by
  unfold generate
  refine .bind (fun _ _ => True) (.draw trivial) ?_
  intro drawn between _
  split
  case h_6 => exact .bind (fun _ _ => True) (.next trivial) fun _ _ _ => .pure trivial
  case h_7 hinstant htime hdate huuid htext hnumber =>
      unfold Generator.produces at h
      split at h
      case h_1 hkind => exact (hinstant rfl hkind).elim
      case h_2 hkind => exact (htime rfl hkind).elim
      case h_3 hkind => exact (hdate rfl hkind).elim
      case h_4 hkind => exact (huuid rfl hkind).elim
      case h_5 hkind => exact (htext rfl hkind).elim
      case h_6 hkind => exact (hnumber rfl hkind).elim
      case h_7 => cases h
  all_goals exact .pure trivial

namespace Plan

open Writing (Safe)

variable {schema : Schema} {sources : Sources} {plan : Plan} {written : Written} {origin : Work}

/-! ### Values of fields -/

theorem initialValue_safe (sources : Sources) (node : PlanNode) {field : Field}
    (h : field.Typed) :
    Safe (initialValue sources node field) start (fun _ _ => True) bad := by
  unfold initialValue
  split
  · rename_i computed hcomputed
    exact field.generate_safe sources node.model.name (h.computed computed hcomputed).2
  · exact .pure trivial

theorem fill_safe (sources : Sources) {node : PlanNode} (hmodel : node.model.Sound) :
    Safe (fill sources node) start (Puts node.model.fields.values Field.name
      (initialValue sources node) start .empty) bad := by
  refine Safe.yields ?_ (fill_yields sources hmodel)
  refine .foldlM (fun _ _ _ => True) trivial ?_
  intro done field record between hpart _
  have hfield : field ∈ node.model.fields.values := hpart.subset (by simp)
  exact .bind (fun _ _ => True) (initialValue_safe sources node (hmodel.typed field hfield))
    fun _ _ _ => .pure trivial

theorem refresh_safe (sources : Sources) {model : Model} (hmodel : model.Sound)
    (record : Record) :
    Safe (refresh sources model record) start (Puts (onSave model) (fun entry => entry.1.name)
      (fun entry => entry.1.generate sources model.name entry.2) start record) bad := by
  refine Safe.yields ?_ (refresh_yields sources hmodel record)
  refine .foldlM (fun _ _ _ => True) trivial ?_
  rintro done entry record between hpart -
  obtain ⟨hfield, hcomputed⟩ := mem_onSave.mp (hpart.subset (by simp) : entry ∈ onSave model)
  exact .bind (fun _ _ => True)
    (entry.1.generate_safe sources model.name ((hmodel.typed _ hfield).computed _ hcomputed).2)
    fun _ _ _ => .pure trivial

/-! ### Links -/

/-- If a reference names a planned record, that record has been written. -/
def Covers (written : Written) (ref : NodeRef) : Prop :=
  ∀ index, ref = .node index → (written.lookup index).isSome

/-- The records that a link leads to have been written. -/
def CoversValue (written : Written) (link : Link NodeRef) : Prop :=
  ∀ target, link.value = some target → Covers written target

theorem Covers.names {ref : NodeRef} (h : Covers written ref) : ∃ id, Names written ref id := by
  cases ref with
  | stored id => exact ⟨id, .inl rfl⟩
  | node index =>
      obtain ⟨id, hid⟩ := Option.isSome_iff_exists.mp (h index rfl)
      exact ⟨id, .inr ⟨index, rfl, hid⟩⟩

section

variable (htold : ∀ failure stop, failure.IsTold → bad failure stop)

include htold

theorem linkValue_safe {link : Link NodeRef} (h : CoversValue written link) :
    Safe (linkValue written link) start (fun _ stop => stop = start) bad := by
  cases hvalue : link.value with
  | none =>
      unfold linkValue
      rw [hvalue]
      exact .pure rfl
  | some target =>
      obtain ⟨id, hid⟩ := (h target hvalue).names
      refine (linkValue_decided hvalue hid fun _ _ _ => ?_).mono (fun _ _ h => h.1) fun _ _ h => h
      exact htold _ _ (Failure.isTold_refused fun h => by cases h)

theorem checkUnique_safe (model : Model) (link : Link NodeRef) (value : Value)
    (holder : Identity) :
    Safe (checkUnique model link value holder) start (fun _ stop => stop = start) bad := by
  refine (checkUnique_decided fun _ => ?_).mono (fun _ _ h => h.1) fun _ _ h => h
  exact htold _ _ (Failure.isTold_refused fun h => by cases h)

theorem setReferences_safe {model : Model} {index : Nat} (holder : Identity) (record : Record)
    (h : ∀ link ∈ plan.heldLinks index, CoversValue written link) :
    Safe (plan.setReferences written model index holder record) start
      (fun _ stop => stop = start) bad := by
  unfold setReferences
  refine .foldlM (fun _ _ stop => stop = start) rfl ?_
  rintro done link record _ hpart rfl
  refine .bind _ (linkValue_safe htold (h link (hpart.subset (by simp)))) ?_
  rintro value _ rfl
  refine .bind _ (checkUnique_safe htold model link value holder) ?_
  rintro _ _ rfl
  exact .pure rfl

/-! ### Records -/

/-- A record is created unless its identity is in use, which a fresh one is not. -/
theorem create_safe {index : Nat} {node : PlanNode} (hmodel : node.model.Sound)
    (hmem : node.model ∈ schema.models) (haccounted : Accounted sources origin start)
    (hcovers : ∀ link ∈ plan.heldLinks index, CoversValue written link)
    (hfresh : ∀ failure stop, ¬ sources.Fresh schema origin.tables origin.drawn stop.drawn →
      bad failure stop) :
    Safe (plan.create sources written index node) start (fun _ _ => True) bad := by
  unfold create
  refine .bind _ (fill_safe sources hmodel) ?_
  intro filled between hfilled
  obtain ⟨id, hid, hdrawn⟩ := drawn_of_fill hmodel hfilled
  dsimp only
  rw [hid]
  dsimp only
  refine .bind _ (setReferences_safe htold id _ hcovers) ?_
  rintro record _ rfl
  refine .bind (fun _ _ => True) (.insert ?_ trivial) fun _ _ _ => .pure trivial
  intro hstored
  exact hfresh _ _ (haccounted.not_fresh hfilled.draws hmem hdrawn hstored)

theorem update_safe {index : Nat} {node : PlanNode} (hmodel : node.model.Sound) (id : Identity)
    (hcovers : ∀ link ∈ plan.heldLinks index, CoversValue written link) :
    Safe (plan.update sources written index node id) start (fun _ _ => True) bad := by
  unfold update
  refine .bind (fun found stop => stop = start ∧ start.tables.get? node.model.name id = found)
    (.get? ⟨rfl, rfl⟩) ?_
  rintro found _ ⟨rfl, hfound⟩
  cases found with
  | none => exact .refuse (htold _ _ (Failure.isTold_refused fun h => by cases h))
  | some old =>
      refine .bind _ (refresh_safe sources hmodel _) ?_
      intro refreshed between hrefreshed
      refine .bind _ (setReferences_safe htold id refreshed hcovers) ?_
      rintro record _ rfl
      refine .replace ?_ trivial
      rw [hrefreshed.draws.records, hfound]
      rfl

/-! ### The whole plan -/

/-- What holds between two steps of a plan. `done` are the records that have been written. -/
structure Going (schema : Schema) (sources : Sources) (plan : Plan) (origin : Work)
    (done : List Nat) (written : Written) (work : Work) : Prop where
  carried : Carried schema plan written work.tables
  accounted : Accounted sources origin work
  covers : ∀ index ∈ done, (written.lookup index).isSome

omit htold

theorem covers_wrote {done : List Nat} {index : Nat} {written' : Written} {stop : Work}
    (h : ∀ other ∈ done, (written.lookup other).isSome)
    (hwrote : Wrote sources plan index written start stop written') :
    ∀ other ∈ done ++ [index], (written'.lookup other).isSome := by
  obtain ⟨id, rfl⟩ : ∃ id, written' = (index, id) :: written := by
    cases hwrote with
    | created | updated => exact ⟨_, rfl⟩
  intro other hother
  rw [List.lookup_cons]
  split
  · rfl
  · rename_i hne
    rcases List.mem_append.mp hother with hdone | hlast
    · exact h other hdone
    · exact absurd (List.mem_singleton.mp hlast) (beq_eq_false_iff_ne.mp hne)

theorem Going.wrote {done : List Nat} (h : Going schema sources plan origin done written start)
    (hschema : schema.Sound) (hplan : plan.Sound schema) {index : Nat} {written' : Written}
    {stop : Work} (hwrote : Wrote sources plan index written start stop written') :
    Going schema sources plan origin (done ++ [index]) written' stop where
  carried := h.carried.wrote hschema hplan hwrote
  accounted := h.accounted.wrote (hplan.models hschema) hwrote
  covers := covers_wrote h.covers hwrote

/-- All that a record refers to by single references stands before it in the order. -/
theorem coversValue_of_sorted {order done : List Nat} {index : Nat}
    (hsorted : Sorted plan.references order) (hpart : done ++ [index] <+: order)
    (hdone : ∀ other ∈ done, (written.lookup other).isSome) :
    ∀ link ∈ plan.heldLinks index, CoversValue written link := by
  rintro link hlink target htarget other rfl
  obtain ⟨hmem, hsingle, hholder⟩ := mem_heldLinks.mp hlink
  exact hdone other (hsorted done index hpart other
    (mem_references.mpr ⟨link, hmem, hsingle, hholder, htarget⟩))

theorem covers_of_leadsTo (hall : ∀ index < plan.nodes.length, (written.lookup index).isSome)
    {model : String} {ref : NodeRef} (h : ref.LeadsTo plan.nodes model) : Covers written ref := by
  rintro index rfl
  obtain ⟨node, hnode, -⟩ := h
  exact hall index (List.getElem?_eq_some_iff.mp hnode).1

include htold

theorem writeNode_safe (hschema : schema.Sound) (hplan : plan.Sound schema)
    {order done : List Nat} (horder : plan.order = .ok order) {index : Nat}
    (hpart : done ++ [index] <+: order)
    (hgoing : Going schema sources plan origin done written start)
    (hfresh : ∀ failure stop, ¬ sources.Fresh schema origin.tables origin.drawn stop.drawn →
      bad failure stop) :
    Safe (plan.writeNode sources written index) start
      (Going schema sources plan origin (done ++ [index])) bad := by
  obtain ⟨hsorted, hnodes⟩ := order_spec horder
  have hindex : index < plan.nodes.length := (hnodes index).mp (hpart.subset (by simp))
  have hnode : plan.nodes[index]? = some plan.nodes[index] := List.getElem?_eq_getElem hindex
  have hmem := (hplan.nodes _ (List.mem_of_getElem? hnode)).model
  have hmodel := hschema.model _ hmem
  have hcovers := coversValue_of_sorted hsorted hpart hgoing.covers
  refine Safe.yields ?_
    ((writeNode_yields sources (hplan.models hschema) written index).mono fun _ _ hwrote =>
      hgoing.wrote hschema hplan hwrote)
  unfold writeNode
  refine .bind (fun _ stop => stop = start) (.checkpoint rfl) ?_
  rintro _ _ rfl
  rw [hnode]
  dsimp only
  split
  · exact .bind _ (create_safe htold hmodel hmem hgoing.accounted hcovers hfresh)
      fun _ _ _ => .pure trivial
  · rename_i id _
    exact .bind _ (update_safe htold hmodel id hcovers) fun _ _ _ => .pure trivial

theorem attach_safe {link : Link NodeRef} (hholder : Covers written link.holder)
    (hvalue : CoversValue written link) :
    Safe (attach written link) start (fun _ _ => True) bad := by
  obtain ⟨holder, hnames⟩ := hholder.names
  refine (attach_decided hnames (fun _ => True) (fun _ => ?_) ?_ fun _ _ _ _ => ?_).mono
    (fun _ _ _ => trivial) fun _ _ h => h
  · exact htold _ _ (Failure.isTold_refused fun h => by cases h)
  · exact (linkValue_safe htold hvalue).mono (fun _ _ h => ⟨h, trivial⟩) fun _ _ h => h
  · exact htold _ _ (Failure.isTold_refused fun h => by cases h)

/-- A plan with an order is carried out, or refused, unless an identifier clashes. -/
theorem apply_safe (hschema : schema.Sound) (hplan : plan.Sound schema) {order : List Nat}
    (horder : plan.order = .ok order) {name : String} (hroot : Planned plan.nodes 0 name)
    (hintact : start.tables.Intact schema) (hahead : start.tables.Ahead)
    (hfresh : ∀ failure stop, ¬ sources.Fresh schema start.tables start.drawn stop.drawn →
      bad failure stop) :
    Safe (plan.apply sources order) start (fun _ _ => True) bad := by
  unfold apply
  refine .bind (Going schema sources plan start order) (.foldlM _
    ⟨.outset hintact, .refl hahead, fun _ hmem => absurd hmem List.not_mem_nil⟩ ?_) ?_
  · intro done index written between hpart hgoing
    exact writeNode_safe htold hschema hplan horder hpart hgoing hfresh
  · intro written between hgoing
    have hall : ∀ index < plan.nodes.length, (written.lookup index).isSome :=
      fun index hindex => hgoing.covers index ((order_spec horder).2 index |>.mpr hindex)
    refine .bind (fun _ stop => Carried schema plan written stop.tables)
      (.forM (fun _ stop => Carried schema plan written stop.tables) hgoing.carried ?_) ?_
    · intro done link between hpart hcarried
      have hlate : link ∈ plan.lateLinks := hpart.subset (by simp)
      have hlink := hplan.links link (List.mem_filter.mp hlate).1
      refine (attach_safe htold (covers_of_leadsTo hall hlink.holder) fun target htarget =>
        covers_of_leadsTo hall (hlink.value target htarget)).yields ?_
      refine (attach_yields written link).mono ?_
      rintro _ stop ⟨holder, old, value, hattached⟩
      exact hcarried.attached hschema hlink hattached
    · intro _ stop hcarried
      obtain ⟨root, hfirst, -⟩ := hroot
      obtain ⟨hindex, -⟩ := List.getElem?_eq_some_iff.mp hfirst
      obtain ⟨id, hid⟩ := Option.isSome_iff_exists.mp (hall 0 hindex)
      have hstored := hcarried.stored.lookup hid hfirst
      obtain ⟨record, hrecord⟩ := Option.isSome_iff_exists.mp hstored
      rw [List.head?_eq_getElem?, hfirst, hid]
      refine .bind (fun found _ => found = some record) (.get? hrecord) ?_
      rintro _ _ rfl
      exact .pure trivial

end

end Plan

end ModelSurface
