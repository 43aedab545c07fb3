import ModelSurface.Proofs.Write.Sorting
import ModelSurface.Proofs.Write.Steps

/-!
# Where planned objects are stored

Each step of a plan stores one record and leaves all others alone. An object to create is stored
under an identity that was not in use before the plan, and no two of them under the same one;
nothing else comes to be stored, and nothing goes.
-/

namespace ModelSurface

/-- One record is stored, in the place of an earlier one if there is any; all others stay. -/
def Tables.Stores (before after : Tables) (name : String) (id : Identity) (record : Record) :
    Prop :=
  ∀ other id', after.get? other id' =
    if other = name ∧ id' = id then some record else before.get? other id'

namespace Tables.Stores

variable {before after : Tables} {name other : String} {id id' : Identity} {record found : Record}

theorem of_put {between : Tables} (hsame : before.SameRecords between) (name : String)
    (id : Identity) (record : Record) :
    before.Stores (between.put name id record) name id record := by
  intro other id'
  rw [get?_put, hsame]

theorem self (h : before.Stores after name id record) : after.get? name id = some record := by
  rw [h, if_pos ⟨rfl, rfl⟩]

theorem of_ne (h : before.Stores after name id record) (hne : ¬(other = name ∧ id' = id)) :
    after.get? other id' = before.get? other id' := by
  rw [h, if_neg hne]

theorem retains (h : before.Stores after name id record) : before.Retains after := by
  intro other id' hstored
  rw [h]
  split
  · rfl
  · exact hstored

/-- What is stored behind a step was stored before it, or is what the step stores. -/
theorem stored (h : before.Stores after name id record) (hstored : (after.get? other id').isSome) :
    other = name ∧ id' = id ∨ (before.get? other id').isSome := by
  by_cases hsame : other = name ∧ id' = id
  · exact .inl hsame
  · rw [h.of_ne hsame] at hstored
    exact .inr hstored

end Tables.Stores

/-- An object that is created goes where nothing was stored, and one that is updated goes where it
says. -/
def PlanNode.Lands (node : PlanNode) (origin : Tables) (id : Identity) : Prop :=
  match node.action with
  | .create => origin.get? node.model.name id = none
  | .update named => id = named

namespace Plan

variable {sources : Sources} {plan : Plan} {written : Written} {start stop : Work}

theorem Created.stores {index : Nat} {node : PlanNode} {id : Identity} {filled record : Record}
    {between : Work}
    (h : Created sources plan written index node start stop id filled record between) :
    start.tables.get? node.model.name id = none ∧
      start.tables.Stores stop.tables node.model.name id record := by
  have hsame := h.fills.draws.records
  refine ⟨(hsame _ _).symm.trans h.new, ?_⟩
  rw [h.stop_eq]
  exact .of_put hsame _ _ _

theorem Updated.stores {index : Nat} {node : PlanNode} {id : Identity}
    {old refreshed record : Record} {between : Work}
    (h : Updated sources plan written index node start stop id old refreshed record between) :
    start.tables.Stores stop.tables node.model.name id record := by
  rw [h.stop_eq]
  exact .of_put h.refreshes.draws.records _ _ _

theorem Attached.stores {link : Link NodeRef} {holder : Identity} {old : Record} {value : Value}
    (h : Attached written link start stop holder old value) : ∃ new,
      start.tables.Stores stop.tables link.holderModel.name holder (old.put link.field new) := by
  rcases h.stop_eq with ⟨-, rfl⟩ | ⟨-, -, rfl⟩
  · exact ⟨_, .of_put (fun _ _ => rfl) _ _ _⟩
  · exact ⟨_, .of_put (fun _ _ => rfl) _ _ _⟩

theorem lookup_cons (index other : Nat) (id : Identity) (written : Written) :
    List.lookup other ((index, id) :: written) =
      if other = index then some id else written.lookup other := by
  rw [List.lookup_cons]
  by_cases hsame : other = index
  · rw [if_pos hsame, beq_iff_eq.mpr hsame]
  · rw [if_neg hsame, beq_eq_false_iff_ne.mpr hsame]

/-- Places that have been given stay. -/
theorem lookup_mono {index other : Nat} {id found : Identity}
    (hnew : written.lookup index = none) (h : written.lookup other = some found) :
    List.lookup other ((index, id) :: written) = some found := by
  rw [lookup_cons, if_neg, h]
  rintro rfl
  rw [hnew] at h
  cases h

/-- Where the planned objects that are done are stored, in tables that came of the original ones. -/
structure Placed (plan : Plan) (origin : Tables) (done : List Nat) (written : Written)
    (tables : Tables) : Prop where
  reached : ∀ index, index ∈ done ↔ ∃ id, written.lookup index = some id
  places : ∀ index id, written.lookup index = some id → ∃ node, plan.nodes[index]? = some node ∧
    (tables.get? node.model.name id).isSome ∧ node.Lands origin id
  apart : ∀ first last node other id, plan.nodes[first]? = some node →
    plan.nodes[last]? = some other → node.action = .create → other.action = .create →
    node.model.name = other.model.name → written.lookup first = some id →
    written.lookup last = some id → first = last
  stored : ∀ name id, (tables.get? name id).isSome → (origin.get? name id).isSome ∨
    ∃ index node, plan.nodes[index]? = some node ∧ node.action = .create ∧
      node.model.name = name ∧ written.lookup index = some id
  retains : origin.Retains tables

namespace Placed

variable {origin : Tables} {done : List Nat}

theorem outset (origin : Tables) : plan.Placed origin [] [] origin where
  reached _ := ⟨fun h => absurd h List.not_mem_nil, fun ⟨_, h⟩ => by cases h⟩
  places _ _ h := by cases h
  apart _ _ _ _ _ _ _ _ _ _ h := by cases h
  stored _ _ h := .inl h
  retains _ _ h := h

theorem congr {tables : Tables} {done' : List Nat} (h : plan.Placed origin done written tables)
    (hsame : ∀ index, index ∈ done ↔ index ∈ done') : plan.Placed origin done' written tables :=
  { h with reached := fun index => (hsame index).symm.trans (h.reached index) }

/-- An object that is not done has not been given a place. -/
theorem lookup_none (h : plan.Placed origin done written start.tables) {index : Nat}
    (hnew : index ∉ done) : written.lookup index = none := by
  rw [Option.eq_none_iff_forall_not_mem]
  exact fun id hid => hnew ((h.reached index).mpr ⟨id, hid⟩)

/-- What is stored under an identity that is not in use lies apart from all objects so far. -/
theorem ne_of_absent (h : plan.Placed origin done written start.tables) {index : Nat}
    {node : PlanNode} {id found : Identity} (hnode : plan.nodes[index]? = some node)
    (habsent : start.tables.get? node.model.name id = none)
    (hfound : written.lookup index = some found) : found ≠ id := by
  rintro rfl
  obtain ⟨_, hplaced, hstored, -⟩ := h.places index found hfound
  obtain rfl := Option.some.inj (hnode.symm.trans hplaced)
  rw [habsent] at hstored
  cases hstored

/-- One more object is stored in its place. -/
theorem place (h : plan.Placed origin done written start.tables) {index : Nat}
    (hnew : index ∉ done) {node : PlanNode} (hnode : plan.nodes[index]? = some node)
    {id : Identity} {record : Record}
    (hstores : start.tables.Stores stop.tables node.model.name id record)
    (hlands : node.Lands origin id)
    (hcreate : node.action = .create → start.tables.get? node.model.name id = none)
    (hupdate : node.action ≠ .create → (start.tables.get? node.model.name id).isSome) :
    plan.Placed origin (done ++ [index]) ((index, id) :: written) stop.tables where
  reached other := by
    rw [List.mem_append, List.mem_singleton, h.reached, lookup_cons]
    by_cases hsame : other = index
    · rw [if_pos hsame]
      exact ⟨fun _ => ⟨id, rfl⟩, fun _ => .inr hsame⟩
    · rw [if_neg hsame]
      exact ⟨fun hor => hor.resolve_right hsame, .inl⟩
  places other found hfound := by
    rw [lookup_cons] at hfound
    by_cases hsame : other = index
    · rw [if_pos hsame] at hfound
      obtain rfl := Option.some.inj hfound
      rw [hsame]
      exact ⟨node, hnode, Option.isSome_of_eq_some hstores.self, hlands⟩
    · rw [if_neg hsame] at hfound
      obtain ⟨earlier, hearlier, hstored, hearlier_lands⟩ := h.places other found hfound
      exact ⟨earlier, hearlier, hstores.retains _ _ hstored, hearlier_lands⟩
  apart := by
    intro first last left right found hleft hright hleft_create hright_create hname hfirst hlast
    rw [lookup_cons] at hfirst hlast
    by_cases hleft_new : first = index
    · by_cases hright_new : last = index
      · rw [hleft_new, hright_new]
      · rw [if_pos hleft_new] at hfirst
        rw [if_neg hright_new] at hlast
        rw [hleft_new, hnode] at hleft
        obtain rfl := Option.some.inj hleft
        exact absurd (Option.some.inj hfirst).symm
          (h.ne_of_absent hright (hname ▸ hcreate hleft_create) hlast)
    · rw [if_neg hleft_new] at hfirst
      by_cases hright_new : last = index
      · rw [if_pos hright_new] at hlast
        rw [hright_new, hnode] at hright
        obtain rfl := Option.some.inj hright
        exact absurd (Option.some.inj hlast).symm
          (h.ne_of_absent hleft (hname ▸ hcreate hright_create) hfirst)
      · rw [if_neg hright_new] at hlast
        exact h.apart first last left right found hleft hright hleft_create hright_create hname
          hfirst hlast
  stored name found hfound := by
    have hearlier : ∀ name found, (start.tables.get? name found).isSome →
        (origin.get? name found).isSome ∨ ∃ other earlier, plan.nodes[other]? = some earlier ∧
          earlier.action = .create ∧ earlier.model.name = name ∧
            List.lookup other ((index, id) :: written) = some found := by
      intro name found hbefore
      refine (h.stored name found hbefore).imp_right ?_
      rintro ⟨other, earlier, hother, hcreated, hname, hplace⟩
      exact ⟨other, earlier, hother, hcreated, hname, lookup_mono (h.lookup_none hnew) hplace⟩
    rcases hstores.stored hfound with ⟨rfl, rfl⟩ | hbefore
    · by_cases haction : node.action = .create
      · exact .inr ⟨index, node, hnode, haction, rfl, by rw [lookup_cons, if_pos rfl]⟩
      · exact hearlier _ _ (hupdate haction)
    · exact hearlier name found hbefore
  retains := h.retains.trans hstores.retains

theorem wrote (h : plan.Placed origin done written start.tables) {index : Nat}
    (hnew : index ∉ done) {written' : Written}
    (hwrote : Wrote sources plan index written start stop written') :
    plan.Placed origin (done ++ [index]) written' stop.tables := by
  cases hwrote with
  | @created node id filled record between hnode haction hcreated =>
      obtain ⟨habsent, hstores⟩ := hcreated.stores
      refine h.place hnew hnode hstores ?_ (fun _ => habsent) fun hother => absurd haction hother
      unfold PlanNode.Lands
      rw [haction]
      -- what was stored before the plan is stored still
      cases horigin : origin.get? node.model.name id with
      | none => rfl
      | some old =>
          have hstored := h.retains _ _ (Option.isSome_of_eq_some horigin)
          rw [habsent] at hstored
          cases hstored
  | @updated node id old refreshed record between hnode haction hupdated =>
      refine h.place hnew hnode hupdated.stores ?_ ?_
        fun _ => Option.isSome_of_eq_some hupdated.found
      · unfold PlanNode.Lands
        rw [haction]
      · intro hcreate
        rw [haction] at hcreate
        cases hcreate

theorem attached (h : plan.Placed origin done written start.tables) {link : Link NodeRef}
    {holder : Identity} {old : Record} {value : Value}
    (hattached : Attached written link start stop holder old value) :
    plan.Placed origin done written stop.tables := by
  obtain ⟨new, hstores⟩ := hattached.stores
  refine ⟨h.reached, ?_, h.apart, ?_, h.retains.trans hstores.retains⟩
  · intro index id hid
    obtain ⟨node, hnode, hstored, hlands⟩ := h.places index id hid
    exact ⟨node, hnode, hstores.retains _ _ hstored, hlands⟩
  · intro name id hstored
    rcases hstores.stored hstored with ⟨rfl, rfl⟩ | hbefore
    · exact h.stored _ _ (Option.isSome_of_eq_some hattached.found)
    · exact h.stored name id hbefore

end Placed

end Plan

end ModelSurface
