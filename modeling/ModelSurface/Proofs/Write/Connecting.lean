import ModelSurface.Proofs.Linked
import ModelSurface.Proofs.Write.Deciding
import ModelSurface.Proofs.Write.Pairs

/-!
# Two records linked

Whether a link between two stored records can be set, and what the tables are then, does not depend
on the record from which it is set. From the side that holds the link it is set while the record is
written, unless it joins a set of links; from the other side it is always set afterwards.
-/

namespace ModelSurface.Plan

open Writing (Safe)

variable {sources : Sources} {start : Work} {written : Written} {plan : Plan} {node : PlanNode}
  {link : Link NodeRef} {id other : Identity}

/-- A record of a model comes to refer to one of another: both are stored, no third record has the
place if only one may have it, and of all tables that one record changes. -/
structure Connects (holder target : Model) (field : String) (many : Bool) (id other : Identity)
    (before after : Tables) : Prop where
  target : (before.get? target.name other).isSome
  vacant : many = false → Vacant holder field other.toValue id before
  replaced : ∃ old, before.get? holder.name id = some old ∧
    after = before.put holder.name id (withLink old field many other.toValue)

namespace Connects

variable {holder target : Model} {field : String} {many : Bool} {before after after' : Tables}

theorem unique (h : Connects holder target field many id other before after)
    (h' : Connects holder target field many id other before after') : after = after' := by
  obtain ⟨old, hold, rfl⟩ := h.replaced
  obtain ⟨old', hold', rfl⟩ := h'.replaced
  rw [Option.some.inj (hold.symm.trans hold')]

theorem ne_none_holder (h : Connects holder target field many id other before after) :
    before.get? holder.name id ≠ none := by
  obtain ⟨old, hold, -⟩ := h.replaced
  rw [hold]
  exact Option.some_ne_none old

theorem stored {name : String} {found : Identity}
    (h : Connects holder target field many id other before after)
    (hstored : (before.get? name found).isSome) : (after.get? name found).isSome := by
  obtain ⟨old, -, rfl⟩ := h.replaced
  exact before.retains_put _ _ _ name found hstored

theorem ne_none_target (h : Connects holder target field many id other before after) :
    before.get? target.name other ≠ none := Option.isSome_iff_ne_none.mp h.target

end Connects

/-- Work that connects two records as a link says, if they can be connected so. -/
def Connecting {α : Type} (link : Link NodeRef) (id other : Identity) (work : Writing α)
    (start : Work) : Prop :=
  work.Decides start (Connects link.holderModel link.valueModel link.field link.many id other
    start.tables)

/-! ### Setting the link -/

/-- A link whose ends are known is set on a stored record if it can be. -/
theorem attach_connects (hholder : Names written link.holder id) {target : NodeRef}
    (hvalue : link.value = some target) (hother : Names written target other)
    (hplanned : ∀ index, target = .node index →
      (start.tables.get? link.valueModel.name other).isSome) :
    Connecting link id other (attach written link) start := by
  refine (attach_decided hholder (fun value => value = other.toValue ∧
    (start.tables.get? link.valueModel.name other).isSome) ?_ ?_ ?_).mono ?_ fun _ _ h => h
  · exact fun habsent after h => h.ne_none_holder habsent
  · refine (linkValue_decided hvalue hother ?_).mono ?_ fun _ _ h => h
    · exact fun _ _ hmissing after h => h.ne_none_target hmissing
    · rintro value _ ⟨rfl, rfl, hstored⟩
      refine ⟨rfl, rfl, ?_⟩
      cases target with
      | node index => exact hplanned index rfl
      | stored found => exact hstored found rfl
  · rintro _ ⟨rfl, -⟩ hsingle htaken after h
    exact htaken (h.vacant hsingle)
  · rintro _ stop ⟨old, _, hold, ⟨rfl, htarget⟩, hvacant, htables⟩
    exact ⟨htarget, hvacant, old, hold, htables⟩

section Update

variable {index : Nat} {bad : Failure → Work → Prop}

/-- A record is saved again for which an input gives no values and nothing is assigned by itself:
only its references change. -/
theorem update_decided (hsave : onSave node.model = []) (hvalues : node.values = .empty)
    (good : Work → Prop)
    (habsent : start.tables.get? node.model.name id = none →
      bad (.refused [.ofCause .notFound]) start)
    (hset : ∀ old, start.tables.get? node.model.name id = some old →
      Safe (plan.setReferences written node.model index id old) start (fun record stop =>
        stop = start ∧ good (start.withTables (start.tables.put node.model.name id record))) bad) :
    Safe (plan.update sources written index node id) start (fun _ stop => good stop) bad := by
  unfold update
  refine .bind (fun found stop => stop = start ∧ start.tables.get? node.model.name id = found)
    (.get? ⟨rfl, rfl⟩) ?_
  rintro found start ⟨rfl, hfound⟩
  cases found with
  | none => exact .refuse (habsent hfound)
  | some old =>
      dsimp only
      rw [hsave, List.foldlM_nil, pure_bind, hvalues]
      refine .bind _ (hset old hfound) ?_
      rintro record start ⟨rfl, hgood⟩
      exact .replace (Option.isSome_of_eq_some hfound) hgood

/-- A record that holds none of the links of a plan is saved as it was. -/
theorem update_idle (hsave : onSave node.model = []) (hvalues : node.values = .empty)
    (hheld : plan.heldLinks index = [])
    (habsent : start.tables.get? node.model.name id = none →
      bad (.refused [.ofCause .notFound]) start) :
    Safe (plan.update sources written index node id) start (fun _ stop =>
      stop.tables = start.tables ∧ (start.tables.get? node.model.name id).isSome) bad := by
  refine update_decided hsave hvalues (fun stop =>
    stop.tables = start.tables ∧ (start.tables.get? node.model.name id).isSome) habsent ?_
  intro old hold
  unfold setReferences
  rw [hheld]
  exact .pure ⟨rfl, Tables.put_of_get? hold, Option.isSome_of_eq_some hold⟩

/-- The single reference that a record holds is set while the record is saved. -/
theorem update_connects (hsave : onSave node.model = []) (hvalues : node.values = .empty)
    (hheld : plan.heldLinks index = [link]) (hmodel : link.holderModel = node.model)
    (hsingle : link.many = false) (hvalue : link.value = some (.stored other)) :
    Connecting link id other (plan.update sources written index node id) start := by
  unfold Connecting Writing.Decides
  rw [hmodel, hsingle]
  refine update_decided hsave hvalues (fun stop => Connects node.model link.valueModel link.field
    false id other start.tables stop.tables) (fun habsent after h => h.ne_none_holder habsent) ?_
  intro old hold
  unfold setReferences
  rw [hheld, List.foldlM_cons]
  refine .bind (fun record stop => stop = start ∧ Connects node.model link.valueModel link.field
    false id other start.tables (start.tables.put node.model.name id record)) ?_
    fun record stop h => .pure h
  refine .bind _ (linkValue_decided hvalue (.inl rfl)
    fun _ _ hmissing after h => h.ne_none_target hmissing) ?_
  rintro _ start ⟨rfl, rfl, hstored⟩
  refine .bind _ (checkUnique_decided fun htaken after h => htaken (h.vacant rfl)) ?_
  rintro _ start ⟨rfl, hvacant⟩
  refine .pure ⟨rfl, hstored other rfl, fun _ => hvacant, old, hold, ?_⟩
  rw [withLink, if_neg Bool.false_ne_true]

end Update

/-! ### Plans with one link -/

section Apply

variable {bad : Failure → Work → Prop} (hnodes : plan.nodes = [node])
  (haction : node.action = .update id)

include hnodes haction

/-- The only record of a plan is saved, and what is set afterwards keeps it stored. -/
theorem apply_single (between good : Work → Prop)
    (hupdate : Safe (plan.update sources [] 0 node id) start (fun _ stop => between stop) bad)
    (hlate : ∀ stop, between stop → Safe (plan.lateLinks.forM (attach [(0, id)])) stop
      (fun _ stop => good stop ∧ (stop.tables.get? node.model.name id).isSome) bad) :
    Safe (plan.apply sources [0]) start (fun _ stop => good stop) bad := by
  unfold apply
  refine .bind (fun written stop => written = [(0, id)] ∧ between stop) ?_ ?_
  · rw [List.foldlM_cons]
    refine .bind (fun written stop => written = [(0, id)] ∧ between stop) ?_ fun _ _ h => .pure h
    unfold writeNode
    refine .bind (fun _ stop => stop = start) (.checkpoint rfl) ?_
    rintro _ start rfl
    rw [hnodes, List.getElem?_cons_zero]
    dsimp only
    rw [haction]
    exact .bind _ hupdate fun _ _ h => .pure ⟨rfl, h⟩
  · rintro _ stop ⟨rfl, hbetween⟩
    refine .bind _ (hlate stop hbetween) ?_
    rintro _ stop ⟨hgood, hstored⟩
    obtain ⟨record, hrecord⟩ := Option.isSome_iff_exists.mp hstored
    rw [hnodes, List.head?_cons, List.lookup_cons_self]
    refine .bind (fun found stop => found = some record ∧ good stop) (.get? ⟨hrecord, hgood⟩) ?_
    rintro _ stop ⟨rfl, hgood⟩
    exact .pure hgood

variable (hsave : onSave node.model = []) (hvalues : node.values = .empty)

include hsave hvalues

theorem apply_held (hheld : plan.heldLinks 0 = [link]) (hlate : plan.lateLinks = [])
    (hmodel : link.holderModel = node.model) (hsingle : link.many = false)
    (hvalue : link.value = some (.stored other)) :
    Connecting link id other (plan.apply sources [0]) start := by
  refine apply_single hnodes haction _ _
    (update_connects hsave hvalues hheld hmodel hsingle hvalue) ?_
  intro stop h
  rw [hlate]
  refine .pure ⟨h, ?_⟩
  obtain ⟨old, hold, -⟩ := h.replaced
  rw [← hmodel]
  exact h.stored (Option.isSome_of_eq_some hold)

/-- A link that is set when all records are written is set on the tables as they were. -/
theorem apply_late {holder target : Identity} (hheld : plan.heldLinks 0 = [])
    (hlate : plan.lateLinks = [link])
    (habsent : start.tables.get? node.model.name id = none → ∀ after, ¬ Connects link.holderModel
      link.valueModel link.field link.many holder target start.tables after)
    (hattach : ∀ stop, stop.tables = start.tables → (start.tables.get? node.model.name id).isSome →
      Connecting link holder target (attach [(0, id)] link) stop) :
    Connecting link holder target (plan.apply sources [0]) start := by
  refine apply_single hnodes haction _ _ (update_idle hsave hvalues hheld habsent) ?_
  rintro stop ⟨htables, hstored⟩
  have hconnecting := hattach stop htables hstored
  unfold Connecting Writing.Decides at hconnecting
  rw [htables] at hconnecting
  rw [hlate]
  refine .bind _ hconnecting fun _ after h => .pure ⟨h, h.stored hstored⟩

end Apply

section OfLink

variable {model target : Model} {relationship : Relationship} (hsave : onSave model = [])

include hsave

/-- From the side that holds the link, it is set between the two records. -/
theorem apply_own (hown : relationship.ownership = .own) (id other : Identity) :
    ((ofLink model target relationship id other).apply sources [0]).Decides start
      (Connects model target relationship.name relationship.isMany id other start.tables) := by
  have hlink : linkBetween model target relationship other =
      ⟨.node 0, model, relationship.name, some (.stored other), target, relationship.isMany,
        linkPath relationship⟩ := by
    unfold linkBetween
    rw [hown]
  suffices h : Connecting (linkBetween model target relationship other) id other
      ((ofLink model target relationship id other).apply sources [0]) start by
    rwa [hlink] at h
  cases hmany : relationship.isMany with
  | false =>
      refine apply_held rfl rfl hsave rfl ?_ ?_ ?_ ?_ ?_ <;>
        simp [ofLink, heldLinks, lateLinks, hlink, hmany]
  | true =>
      refine apply_late rfl rfl hsave rfl ?_ ?_ ?_ ?_
      · simp [ofLink, heldLinks, hlink, hmany]
      · simp [ofLink, lateLinks, hlink, hmany]
      · rw [hlink]
        exact fun habsent after h => h.ne_none_holder habsent
      · intro stop _ _
        rw [hlink]
        exact attach_connects (.inr ⟨0, rfl, rfl⟩) rfl (.inl rfl) nofun

/-- From the other side, the link is set between the same records. -/
theorem apply_remote {field : String} (hremote : relationship.ownership = .remote field)
    (id other : Identity) :
    ((ofLink model target relationship id other).apply sources [0]).Decides start
      (Connects target model field (relationship.cardinality = .manyToMany) other id
        start.tables) := by
  have hlink : linkBetween model target relationship other =
      ⟨.stored other, target, field, some (.node 0), model,
        relationship.cardinality = .manyToMany, linkPath relationship⟩ := by
    unfold linkBetween
    rw [hremote]
  suffices h : Connecting (linkBetween model target relationship other) other id
      ((ofLink model target relationship id other).apply sources [0]) start by
    rwa [hlink] at h
  refine apply_late rfl rfl hsave rfl ?_ ?_ ?_ ?_
  · simp [ofLink, heldLinks, hlink]
  · simp [ofLink, lateLinks, hlink]
  · rw [hlink]
    exact fun habsent after h => h.ne_none_target habsent
  · intro stop htables hstored
    rw [hlink]
    refine attach_connects (.inl rfl) rfl (.inr ⟨0, rfl, rfl⟩) fun _ _ => ?_
    rw [htables]
    exact hstored

end OfLink

end ModelSurface.Plan
