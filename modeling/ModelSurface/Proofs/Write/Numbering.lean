import Mathlib.Data.List.Sort
import ModelSurface.Proofs.Write.Counting
import ModelSurface.Proofs.Write.Finishing
import ModelSurface.Proofs.Write.Fresh

/-!
# Numbered records

Where records are identified by numbers, a plan stores those that it creates under the next numbers
of their sequence, and leaves none of the numbers out.
-/

namespace ModelSurface

/-! ### Tables that grow -/

namespace Tables

theorem isSome_get?_put {tables : Tables} {model other : String} {id id' : Identity}
    {record : Record} : ((tables.put model id record).get? other id').isSome ↔
      (other = model ∧ id' = id) ∨ (tables.get? other id').isSome := by
  rw [get?_put]
  by_cases hsame : other = model ∧ id' = id
  · rw [if_pos hsame]
    exact iff_of_true rfl (.inl hsame)
  · rw [if_neg hsame, or_iff_right hsame]

/-- The records of a model that come to be stored are those with the numbers that its sequence has
given since, and none goes. -/
structure Grows (model : String) (before after : Tables) : Prop where
  le : before.number model ≤ after.number model
  stored : ∀ id, (after.get? model id).isSome ↔ (before.get? model id).isSome ∨
    ∃ number, before.number model < number ∧ number ≤ after.number model ∧ id = .int number
  unused : ∀ number, before.number model < number → number ≤ after.number model →
    before.get? model (.int number) = none

namespace Grows

variable {model : String} {before between after : Tables}

/-- Nothing comes to be stored, and nothing goes. -/
theorem of_same (hnumber : after.number model = before.number model)
    (hstored : ∀ id, (after.get? model id).isSome ↔ (before.get? model id).isSome) :
    Grows model before after where
  le := hnumber.ge
  stored id := by
    rw [hstored id]
    refine (or_iff_left ?_).symm
    rintro ⟨number, hnew, hold, -⟩
    omega
  unused number hnew hold := by omega

theorem refl (model : String) (tables : Tables) : Grows model tables tables :=
  of_same rfl fun _ => Iff.rfl

theorem trans (h : Grows model before between) (h' : Grows model between after) :
    Grows model before after where
  le := Int.le_trans h.le h'.le
  stored id := by
    rw [h'.stored id, h.stored id, or_assoc]
    refine or_congr_right ⟨?_, ?_⟩
    · rintro (⟨number, hnew, hold, rfl⟩ | ⟨number, hnew, hold, rfl⟩)
      · exact ⟨number, hnew, Int.le_trans hold h'.le, rfl⟩
      · exact ⟨number, Int.lt_of_le_of_lt h.le hnew, hold, rfl⟩
    · rintro ⟨number, hnew, hold, rfl⟩
      rcases le_or_gt number (between.number model) with hfirst | hsecond
      · exact .inl ⟨number, hnew, hfirst, rfl⟩
      · exact .inr ⟨number, hsecond, hold, rfl⟩
  unused number hnew hold := by
    rcases le_or_gt number (between.number model) with hfirst | hsecond
    · exact h.unused number hnew hfirst
    · have hfree := h'.unused number hsecond hold
      rw [← Option.not_isSome_iff_eq_none] at hfree ⊢
      exact fun hstored => hfree ((h.stored _).mpr (.inl hstored))

/-- A record of the model is stored anew, under the next number. -/
theorem put_next {record : Record}
    (hnew : before.get? model (.int (before.number model + 1)) = none)
    (hrecords : before.SameRecords between)
    (hnumber : between.number model = before.number model + 1) :
    Grows model before (between.put model (.int (before.number model + 1)) record) where
  le := by
    change before.number model ≤ between.number model
    omega
  stored id := by
    change _ ↔ _ ∨ ∃ number, _ ∧ number ≤ between.number model ∧ _
    rw [isSome_get?_put, hrecords, or_comm, hnumber]
    refine or_congr_right ⟨?_, ?_⟩
    · rintro ⟨-, rfl⟩
      exact ⟨_, by omega, Int.le_refl _, rfl⟩
    · rintro ⟨number, hnew, hold, rfl⟩
      exact ⟨rfl, congrArg Identity.int (by omega)⟩
  unused number hafter hlast := by
    change number ≤ between.number model at hlast
    obtain rfl : number = before.number model + 1 := by omega
    exact hnew

/-- A record is put where one is stored already, or where one of another model belongs. -/
theorem put_other {record : Record} {name : String} {id : Identity}
    (hother : name = model → (before.get? model id).isSome)
    (hrecords : before.SameRecords between) (hnumber : between.number model = before.number model) :
    Grows model before (between.put name id record) := by
  refine .of_same hnumber fun other => ?_
  rw [isSome_get?_put, hrecords]
  refine or_iff_right_of_imp ?_
  rintro ⟨rfl, rfl⟩
  exact hother rfl

end Grows

end Tables

/-! ### Plans -/

/-- A field whose values are the numbers of a sequence. -/
def Field.Numbered (field : Field) : Prop :=
  ∃ moment, field.computed = some ⟨moment, .sequence⟩

theorem Model.Sound.computed_numbered {model : Model} (h : model.Sound)
    (hnumbered : model.identity.Numbered) :
    model.identity.computed = some ⟨.create, .sequence⟩ := by
  obtain ⟨moment, hmoment⟩ := hnumbered
  obtain ⟨generator, hcreate⟩ := h.identity.computed
  rw [hcreate] at hmoment ⊢
  cases hmoment
  rfl

theorem PlanNode.draws_identity {node : PlanNode} {model : Model} (h : model.Sound)
    (hnumbered : model.identity.Numbered) :
    node.draws model.identity = decide (node.action = .create) := by
  unfold draws
  rw [h.computed_numbered hnumbered]
  simp

namespace Plan

open Writing (Yields)

variable {schema : Schema} {sources : Sources} {plan : Plan} {written written' : Written}
  {start stop : Work} {model : Model}

/-- The number under which a new record of a model is stored is the next one. -/
theorem Drawn.eq_next {before after : Work} {id : Identity}
    (h : Drawn sources model before after id)
    (hmodel : model.Sound) (hnumbered : model.identity.Numbered)
    (hnumber : after.tables.number model.name = before.tables.number model.name + 1) :
    id = .int (before.tables.number model.name + 1) := by
  unfold Tables.number at hnumber ⊢
  cases h with
  | int hnew hold => exact congrArg Identity.int (by omega)
  | uuid hkind =>
      have hproduces := ((hmodel.typed _ List.mem_cons_self).computed _
        (hmodel.computed_numbered hnumbered)).2
      rw [hkind] at hproduces
      cases hproduces

section Steps

variable (hschema : schema.Sound) (hdotless : ∀ model ∈ schema.models, '.' ∉ model.name.toList)
  (hplan : plan.Sound schema) (hmodel : model ∈ schema.models)
  (hnumbered : model.identity.Numbered)

include hschema hdotless hplan hmodel hnumbered

theorem Wrote.grows {index : ℕ} (hwrote : Wrote sources plan index written start stop written')
    (hmoved : start.tables.Moved stop.tables (plan.sequencesAt index)) :
    Tables.Grows model.name start.tables stop.tables := by
  have hsound := hschema.model _ hmodel
  have hsequence : model.identity.sequence model.name = model.name := by
    unfold Field.sequence
    rw [if_pos hsound.identity.identity]
  have hcount : ∀ node, plan.nodes[index]? = some node →
      stop.tables.number model.name = start.tables.number model.name +
        if node.model.name = model.name ∧ node.action = .create then 1 else 0 := by
    intro node hnode
    have hnodes := hplan.nodes node (List.mem_of_getElem? hnode)
    have hidentity : model.identity ∈ model.fields.values := List.mem_cons_self
    have hdrawn := PlanNode.count_sequences hschema hdotless hnodes.model hmodel hidentity
    simp only [hsequence, PlanNode.draws_identity hsound hnumbered, Bool.and_eq_true,
      decide_eq_true_eq] at hdrawn
    rw [hmoved model.name, sequencesAt, hnode, Option.map_some, Option.getD_some, hdrawn]
    split <;> rfl
  cases hwrote with
  | @created node id filled record between hnode haction hcreated =>
      have hnumber := hcount node hnode
      rw [hcreated.stop_eq] at hnumber ⊢
      have hrecords := hcreated.fills.draws.records
      by_cases hsame : node.model.name = model.name
      · have hnodes := hplan.nodes node (List.mem_of_getElem? hnode)
        obtain rfl := hschema.model_ext hmodel hnodes.model hsame
        rw [if_pos ⟨rfl, haction⟩] at hnumber
        obtain ⟨found, hfound, hdrawn⟩ := drawn_of_fill hsound hcreated.fills
        obtain rfl := Option.some.inj (hcreated.identity.symm.trans hfound)
        have hnew := hcreated.new
        rw [hrecords, hdrawn.eq_next hsound hnumbered hnumber] at hnew
        rw [hdrawn.eq_next hsound hnumbered hnumber]
        exact .put_next hnew hrecords hnumber
      · rw [if_neg fun h => hsame h.1, Int.add_zero] at hnumber
        exact .put_other (fun h => absurd h hsame) hrecords hnumber
  | @updated node id old refreshed record between hnode haction hupdated =>
      have hnumber := hcount node hnode
      rw [hupdated.stop_eq] at hnumber ⊢
      rw [if_neg (by rw [haction]; rintro ⟨-, h⟩; cases h), Int.add_zero] at hnumber
      refine .put_other ?_ hupdated.refreshes.draws.records hnumber
      intro hsame
      rw [← hsame]
      exact Option.isSome_of_eq_some hupdated.found

omit hschema hdotless hplan hmodel hnumbered in
theorem Attached.grows (name : String) {link : Link NodeRef} {holder : Identity} {old : Record}
    {value : Value} (h : Attached written link start stop holder old value) :
    Tables.Grows name start.tables stop.tables := by
  have hfound : link.holderModel.name = name → (start.tables.get? name holder).isSome := by
    rintro rfl
    exact Option.isSome_of_eq_some h.found
  rcases h.stop_eq with ⟨-, rfl⟩ | ⟨-, -, rfl⟩ <;>
    exact .put_other hfound (fun _ _ => rfl) rfl

/-- What a plan creates is numbered on from what is there. -/
theorem apply_grows {order : List ℕ} : Yields (plan.apply sources order) start fun _ stop =>
    Tables.Grows model.name start.tables stop.tables := by
  have hmodels : ∀ node ∈ plan.nodes, node.model.Sound :=
    fun node hnode => hschema.model _ (hplan.nodes node hnode).model
  refine (apply_runs (fun _ _ stop => Tables.Grows model.name start.tables stop.tables)
    (fun _ _ stop => Tables.Grows model.name start.tables stop.tables) (.refl _ _) ?_
    (fun _ _ h => h) ?_).mono fun _ _ ⟨_, hgrows, _⟩ => hgrows
  · intro done index written before _ hbefore
    refine .intro (fun written' after hrun => ?_) fun _ _ _ => trivial
    have hwrote := (writeNode_yields sources hmodels written index).ok hrun
    have hmoved := (writeNode_moved sources plan written index).ok hrun
    exact hbefore.trans (hwrote.grows hschema hdotless hplan hmodel hnumbered hmoved)
  · intro _ link written before _ hbefore
    refine (attach_yields written link).mono ?_
    rintro _ after ⟨holder, old, value, hattached⟩
    exact hbefore.trans (hattached.grows model.name)

end Steps

end Plan

end ModelSurface
