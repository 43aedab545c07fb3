import ModelSurface.Proofs.Write.Steps

/-!
# Fresh identities

The identity of a new record is drawn from the sequence of its model, or from the source of
identifiers. A sequence stays ahead of the integers that it has given. Identifiers clash only if the
source gives one that is in use, or gives one twice.
-/

namespace ModelSurface

/-- The sequence of each model is ahead of the integers that identify its records. -/
def Tables.Ahead (tables : Tables) : Prop :=
  ∀ model number, (tables.get? model (.int number)).isSome →
    number ≤ (tables.sequences.get? model).getD 0

theorem Tables.ahead_empty : Ahead {} := by
  intro model number h
  cases h

/-- Where records of a model are identified by generated identifiers, none of those with the numbers
from `first` up to `last` is in use, and no two of them are the same. -/
structure Sources.Fresh (sources : Sources) (schema : Schema) (tables : Tables)
    (first last : Nat) : Prop where
  unused : ∀ model ∈ schema.models, model.identity.kind = .uuid → ∀ k, first ≤ k → k < last →
    tables.get? model.name (.uuid (sources.uuid k)) = none
  distinct : ∀ model ∈ schema.models, model.identity.kind = .uuid → ∀ j k, first ≤ j → j < k →
    k < last → sources.uuid j ≠ sources.uuid k

namespace Plan

variable {schema : Schema} {sources : Sources} {plan : Plan} {written : Written}
  {origin start stop : Work}

/-- An identity that is drawn for a record of a model between two points of work. -/
inductive Drawn (sources : Sources) (model : Model) (before after : Work) : Identity → Prop
  | int {number : Int} (hnew : (before.tables.sequences.get? model.name).getD 0 < number)
      (hold : number ≤ (after.tables.sequences.get? model.name).getD 0) :
      Drawn sources model before after (.int number)
  | uuid {k : Nat} (hkind : model.identity.kind = .uuid) (hnew : before.drawn ≤ k)
      (hold : k < after.drawn) : Drawn sources model before after (.uuid (sources.uuid k))

/-- What identifies the records that are stored since some point of work: integers that sequences
have given, and identifiers that were in use then or have been drawn since. -/
structure Accounted (sources : Sources) (origin work : Work) : Prop where
  drawn : origin.drawn ≤ work.drawn
  ahead : work.tables.Ahead
  uuids : ∀ model uuid, (work.tables.get? model (.uuid uuid)).isSome →
    (origin.tables.get? model (.uuid uuid)).isSome ∨
      ∃ k, origin.drawn ≤ k ∧ k < work.drawn ∧ uuid = sources.uuid k

/-- A new record has an identity, which is drawn while its fields are filled. -/
theorem drawn_of_fill {node : PlanNode} (hmodel : node.model.Sound) {filled : Record}
    (h : Puts node.model.fields.values Field.name (initialValue sources node) start .empty filled
      stop) :
    ∃ id, Record.identity? filled node.model.identity.name = some id ∧
      Drawn sources node.model start stop id := by
  obtain ⟨value, earlier, later, hvalue, hearlier, hrun, hlater⟩ :=
    h.values node.model.identity List.mem_cons_self
  obtain ⟨-, hstarts⟩ := (initialValue_yields sources node node.model.identity).ok hrun
  obtain ⟨generator, hcomputed⟩ := hmodel.identity.computed
  unfold Field.Starts at hstarts
  rw [hcomputed] at hstarts
  obtain ⟨hdrawn, hgenerates⟩ := hstarts
  have hidentity : Record.identity? filled node.model.identity.name = Identity.ofValue? value := by
    unfold Record.identity?
    rw [hvalue]
    rfl
  rw [hidentity]
  have hkind := hmodel.identity.kind
  cases hgenerates with
  | instant h | time h | date h | text h =>
      rw [h] at hkind
      cases hkind
  | uuid h =>
      refine ⟨_, rfl, .uuid h hearlier.drawn ?_⟩
      exact Nat.lt_of_lt_of_le hdrawn hlater.drawn
  | number _ hnext =>
      have hsequence : node.model.identity.sequence node.model.name = node.model.name := by
        unfold Field.sequence
        rw [if_pos hmodel.identity.identity]
      rw [hsequence] at hnext ⊢
      have hstart := hearlier.sequences node.model.name
      have hstop := hlater.sequences node.model.name
      rw [hnext, Tables.get?_sequences_next, if_pos rfl] at hstop
      refine ⟨_, rfl, .int ?_ hstop⟩
      rw [Tables.next_fst]
      omega

namespace Accounted

theorem refl (h : origin.tables.Ahead) : Accounted sources origin origin :=
  ⟨Nat.le_refl _, h, fun _ _ hstored => .inl hstored⟩

/-- Neither a sequence nor the count of draws goes back, and no record is stored under an identity
that is neither in use nor drawn. -/
theorem mono (h : Accounted sources origin start) (hdrawn : start.drawn ≤ stop.drawn)
    (hsequences : ∀ name, (start.tables.sequences.get? name).getD 0 ≤
      (stop.tables.sequences.get? name).getD 0)
    (hstored : ∀ name id, (stop.tables.get? name id).isSome →
      (start.tables.get? name id).isSome ∨
        ∃ model, Model.name model = name ∧ Drawn sources model start stop id) :
    Accounted sources origin stop where
  drawn := Nat.le_trans h.drawn hdrawn
  ahead name number hnumber := by
    rcases hstored name (.int number) hnumber with hold | ⟨model, rfl, hnew⟩
    · exact Int.le_trans (h.ahead name number hold) (hsequences name)
    · cases hnew with
      | int _ hnumber => exact hnumber
  uuids name uuid huuid := by
    rcases hstored name (.uuid uuid) huuid with hold | ⟨model, -, hnew⟩
    · rcases h.uuids name uuid hold with horigin | ⟨k, hfirst, hlast, heq⟩
      · exact .inl horigin
      · exact .inr ⟨k, hfirst, Nat.lt_of_lt_of_le hlast hdrawn, heq⟩
    · cases hnew with
      | uuid _ hfirst hlast => exact .inr ⟨_, Nat.le_trans h.drawn hfirst, hlast, rfl⟩

/-- A record is put where one is stored, or under an identity that has been drawn for it. -/
theorem put {between : Work} (h : Accounted sources origin start) (hdraws : start.Draws between)
    {model : Model} {id : Identity} {record : Record}
    (hid : (start.tables.get? model.name id).isSome ∨ Drawn sources model start between id) :
    Accounted sources origin (between.withTables (between.tables.put model.name id record)) := by
  refine h.mono hdraws.drawn hdraws.sequences ?_
  intro other id' hstored
  rw [Work.tables_withTables, Tables.get?_put] at hstored
  split at hstored
  · rename_i hsame
    rw [hsame.1, hsame.2]
    refine hid.imp_right fun hdrawn => ⟨model, rfl, ?_⟩
    cases hdrawn with
    | int hnew hold => exact .int hnew hold
    | uuid hkind hnew hold => exact .uuid hkind hnew hold
  · rw [hdraws.records] at hstored
    exact .inl hstored

/-- An identity that has been drawn is in use only if the source of identifiers gives one that is,
or gives one twice. -/
theorem not_fresh {between : Work} (h : Accounted sources origin start)
    (hdraws : start.Draws between) {model : Model} (hmodel : model ∈ schema.models) {id : Identity}
    (hid : Drawn sources model start between id)
    (hstored : (between.tables.get? model.name id).isSome) :
    ¬ sources.Fresh schema origin.tables origin.drawn between.drawn := by
  intro hfresh
  rw [hdraws.records] at hstored
  cases hid with
  | int hnew =>
      have hbehind := h.ahead model.name _ hstored
      omega
  | @uuid k hkind hnew hold =>
      have hfirst := Nat.le_trans h.drawn hnew
      rcases h.uuids model.name _ hstored with horigin | ⟨j, hj, hbefore, heq⟩
      · rw [hfresh.unused model hmodel hkind k hfirst hold] at horigin
        cases horigin
      · exact hfresh.distinct model hmodel hkind j k hj (Nat.lt_of_lt_of_le hbefore hnew) hold
          heq.symm

theorem wrote (h : Accounted sources origin start)
    (hplan : ∀ node ∈ plan.nodes, node.model.Sound) {index : Nat} {written' : Written}
    (hwrote : Wrote sources plan index written start stop written') :
    Accounted sources origin stop := by
  cases hwrote with
  | @created node id filled record between hnode _ hcreated =>
      have hmodel := hplan node (List.mem_of_getElem? hnode)
      obtain ⟨found, hfound, hdrawn⟩ := drawn_of_fill hmodel hcreated.fills
      obtain rfl := Option.some.inj (hcreated.identity.symm.trans hfound)
      rw [hcreated.stop_eq]
      exact h.put hcreated.fills.draws (.inr hdrawn)
  | updated _ _ hupdated =>
      rw [hupdated.stop_eq]
      exact h.put hupdated.refreshes.draws (.inl (Option.isSome_of_eq_some hupdated.found))

theorem attached (h : Accounted sources origin start) {link : Link NodeRef} {holder : Identity}
    {old : Record} {value : Value} (hattached : Attached written link start stop holder old value) :
    Accounted sources origin stop := by
  have hfound := Option.isSome_of_eq_some hattached.found
  rcases hattached.stop_eq with ⟨-, rfl⟩ | ⟨-, -, rfl⟩
  · exact h.put (.refl start) (.inl hfound)
  · exact h.put (.refl start) (.inl hfound)

end Accounted

/-- Plans that are carried out leave sequences ahead. -/
theorem ahead_of_apply (hplan : ∀ node ∈ plan.nodes, node.model.Sound)
    (hstart : start.tables.Ahead) {order : List Nat} {record : Record}
    (hrun : plan.apply sources order start = .ok record stop) : stop.tables.Ahead := by
  obtain ⟨written, haccounted, -⟩ :=
    (apply_yields hplan (fun _ _ stop => Accounted sources start stop) (.refl hstart)
      (fun _ _ _ _ _ _ h hwrote => h.wrote hplan hwrote)
      fun _ _ _ _ _ _ _ _ h hattached => h.attached hattached).ok hrun
  exact haccounted.ahead

end Plan

end ModelSurface
