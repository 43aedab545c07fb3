import ModelSurface.Proofs.Engine.Calm
import ModelSurface.Proofs.Write.Steps

/-!
# When links can be set

Calm work that sets a link succeeds unless one of its checks fails: the record that is linked to and
the one that is to hold the link are stored, and the place is free where only one record may have
it. What follows from such a failure is left open here.
-/

namespace ModelSurface

/-- Calm work leads to tables that it is to reach, and fails only if there are no such tables. -/
def Writing.Decides {α : Type} (work : Writing α) (start : Work) (reaches : Tables → Prop) : Prop :=
  Safe work start (fun _ stop => reaches stop.tables) fun _ _ => ∀ after, ¬ reaches after

theorem Writing.Decides.congr {α : Type} {work : Writing α} {start : Work}
    {reaches reaches' : Tables → Prop} (h : work.Decides start reaches)
    (hsame : ∀ after, reaches after ↔ reaches' after) : work.Decides start reaches' :=
  h.mono (fun _ stop => (hsame stop.tables).mp) fun _ _ hnone after hafter =>
    hnone after ((hsame after).mpr hafter)

namespace Plan

open Writing (Safe)

variable {start : Work} {bad : Failure → Work → Prop} {written : Written} {link : Link NodeRef}
  {holder id : Identity}

theorem identityOf_of_names {ref : NodeRef} (h : Names written ref id) :
    identityOf written ref = pure id := by
  obtain rfl | ⟨index, rfl, hid⟩ := h
  · rfl
  · unfold identityOf
    dsimp only
    rw [hid]

/-! ### Checks -/

theorem checkExists_decided {target : NodeRef}
    (hmissing : ∀ other, target = .stored other →
      start.tables.get? link.valueModel.name id = none →
      bad (.refused [.ofField link.path (.link (.missing link.valueModel.name id))]) start) :
    Safe (checkExists link target id) start (fun _ stop => stop = start ∧
      ∀ other, target = .stored other → (start.tables.get? link.valueModel.name id).isSome)
      bad := by
  refine .yields ?_ (checkExists_yields link target id)
  unfold checkExists
  cases target with
  | node index => exact .pure trivial
  | stored other =>
      refine .bind (fun found stop => stop = start ∧
        start.tables.get? link.valueModel.name id = found) (.get? ⟨rfl, rfl⟩) ?_
      rintro found _ ⟨rfl, hfound⟩
      split
      · rename_i hnone
        refine .refuse (hmissing other rfl ?_)
        rw [hfound, Option.isNone_iff_eq_none.mp hnone]
      · exact .pure trivial

theorem linkValue_decided {target : NodeRef} (hvalue : link.value = some target)
    (hnames : Names written target id)
    (hmissing : ∀ other, target = .stored other →
      start.tables.get? link.valueModel.name id = none →
      bad (.refused [.ofField link.path (.link (.missing link.valueModel.name id))]) start) :
    Safe (linkValue written link) start (fun value stop => stop = start ∧ value = id.toValue ∧
      ∀ other, target = .stored other → (start.tables.get? link.valueModel.name id).isSome)
      bad := by
  unfold linkValue
  rw [hvalue]
  dsimp only
  rw [identityOf_of_names hnames, pure_bind]
  refine .bind _ (checkExists_decided hmissing) ?_
  rintro _ _ ⟨rfl, hexists⟩
  exact .pure ⟨rfl, rfl, hexists⟩

theorem checkUnique_decided {model : Model} {value : Value}
    (htaken : ¬ Vacant model link.field value holder start.tables →
      bad (.refused [.ofField link.path (.link (.taken value model.name))]) start) :
    Safe (checkUnique model link value holder) start
      (fun _ stop => stop = start ∧ Vacant model link.field value holder start.tables) bad := by
  refine .yields ?_ (checkUnique_yields model link value holder)
  unfold checkUnique
  split
  · rename_i relationship hfound
    split
    · rename_i hone
      refine .bind (fun records stop => stop = start ∧ start.tables.scan model.name = records)
        (.scan ⟨rfl, rfl⟩) ?_
      rintro records _ ⟨rfl, hrecords⟩
      dsimp only
      split
      · rename_i hany
        refine .refuse (htaken fun hvacant => ?_)
        obtain ⟨record, hrecord, hboth⟩ := List.any_eq_true.mp hany
        obtain ⟨hsame, hother⟩ := Bool.and_eq_true_iff.mp hboth
        rw [← hrecords] at hrecord
        have hnull : value.isNull = false := Bool.not_eq_true' _ |>.mp hone.2
        exact of_decide_eq_true hother
          (hvacant relationship hfound hone.1 hnull record hrecord hsame)
      · exact .pure trivial
    · exact .pure trivial
  · exact .pure trivial

/-! ### Links of stored records -/

/-- A record with one more link: behind the others of a set of links, unless it is there already, or
in the place of a single reference. -/
def withLink (record : Record) (field : String) (many : Bool) (value : Value) : Record :=
  record.put field <|
    if many then
      .list (if value.isNull || (linkSet record field).any value.same then linkSet record field
        else linkSet record field ++ [value])
    else value

/-- A link is set on a stored record if a value for it is found, and the place is free. -/
theorem attach_decided (hholder : Names written link.holder holder) (values : Value → Prop)
    (habsent : start.tables.get? link.holderModel.name holder = none →
      bad (.refused [.ofField link.path (.link (.missing link.holderModel.name holder))]) start)
    (hvalue : Safe (linkValue written link) start
      (fun value stop => stop = start ∧ values value) bad)
    (htaken : ∀ value, values value → link.many = false →
      ¬ Vacant link.holderModel link.field value holder start.tables →
      bad (.refused [.ofField link.path (.link (.taken value link.holderModel.name))]) start) :
    Safe (attach written link) start (fun _ stop => ∃ old value,
      start.tables.get? link.holderModel.name holder = some old ∧ values value ∧
      (link.many = false → Vacant link.holderModel link.field value holder start.tables) ∧
      stop.tables = start.tables.put link.holderModel.name holder
        (withLink old link.field link.many value)) bad := by
  unfold attach
  refine .bind (fun _ stop => stop = start) (.checkpoint rfl) ?_
  rintro _ start rfl
  rw [identityOf_of_names hholder, pure_bind]
  refine .bind (fun found stop => stop = start ∧
    start.tables.get? link.holderModel.name holder = found) (.get? ⟨rfl, rfl⟩) ?_
  rintro found start ⟨rfl, hfound⟩
  cases found with
  | none => exact .refuse (habsent hfound)
  | some old =>
      have hstored := Option.isSome_of_eq_some hfound
      refine .bind _ hvalue ?_
      rintro value start ⟨rfl, hgiven⟩
      cases hmany : link.many with
      | true =>
          refine .replace hstored ⟨old, value, hfound, hgiven, nofun, ?_⟩
          rw [Work.tables_withTables, withLink, if_pos rfl]
      | false =>
          refine .bind _ (checkUnique_decided (htaken value hgiven hmany)) ?_
          rintro _ start ⟨rfl, hvacant⟩
          refine .replace hstored ⟨old, value, hfound, hgiven, fun _ => hvacant, ?_⟩
          rw [Work.tables_withTables, withLink, if_neg Bool.false_ne_true]

/-! ### Links that can be set -/

theorem linkValue_run (h : start.Open) {value : Value}
    (hlinked : LinkedTo written start.tables link value) :
    linkValue written link start = .ok value start := by
  unfold linkValue
  cases hlinked with
  | nothing hnone =>
      rw [hnone]
      rfl
  | @record target id hvalue hnames hstored =>
      rw [hvalue]
      dsimp only
      rw [identityOf_of_names hnames, pure_bind]
      refine Writing.bind_eq_ok.mpr ⟨(), start, ?_, rfl⟩
      unfold checkExists
      cases target with
      | node index => rfl
      | stored other =>
          obtain ⟨record, hrecord⟩ := Option.isSome_iff_exists.mp (hstored other rfl)
          refine Writing.bind_eq_ok.mpr ⟨some record, start, ?_, rfl⟩
          rw [h.run_get?, hrecord]

theorem checkUnique_run (h : start.Open) {model : Model} {value : Value}
    (hvacant : Vacant model link.field value holder start.tables) :
    checkUnique model link value holder start = .ok () start := by
  unfold checkUnique
  cases hfound : model.relationship? link.field with
  | none => rfl
  | some relationship =>
      dsimp only
      by_cases hone : relationship.cardinality = .oneToOne ∧ !value.isNull
      · rw [if_pos hone]
        refine Writing.bind_eq_ok.mpr ⟨_, start, h.run_scan model.name, ?_⟩
        rw [if_neg]
        · rfl
        · intro hany
          obtain ⟨record, hrecord, hboth⟩ := List.any_eq_true.mp hany
          obtain ⟨hsame, hother⟩ := Bool.and_eq_true_iff.mp hboth
          have hnull : value.isNull = false := Bool.not_eq_true' _ |>.mp hone.2
          exact of_decide_eq_true hother
            (hvacant relationship hfound hone.1 hnull record hrecord hsame)
      · rw [if_neg hone]
        rfl

/-- A link is set on a stored record whose model can be written, where the place is free. -/
theorem attach_run (h : start.Open)
    (hwilling : start.transaction.failing.contains link.holderModel.name = false)
    (hholder : Names written link.holder holder) {old : Record}
    (hfound : start.tables.get? link.holderModel.name holder = some old) {value : Value}
    (hlinked : LinkedTo written start.tables link value)
    (hvacant : link.many = false → Vacant link.holderModel link.field value holder start.tables) :
    attach written link start = .ok () (start.withTables
      (start.tables.put link.holderModel.name holder
        (withLink old link.field link.many value))) := by
  unfold attach
  refine Writing.bind_eq_ok.mpr ⟨(), start, h.run_checkpoint, ?_⟩
  rw [identityOf_of_names hholder, pure_bind]
  refine Writing.bind_eq_ok.mpr ⟨some old, start, by rw [h.run_get?, hfound], ?_⟩
  refine Writing.bind_eq_ok.mpr ⟨value, start, linkValue_run h hlinked, ?_⟩
  unfold withLink
  cases hmany : link.many with
  | true =>
      rw [if_pos rfl, if_pos rfl]
      exact h.run_replace hwilling hfound _
  | false =>
      rw [if_neg Bool.false_ne_true, if_neg Bool.false_ne_true]
      refine Writing.bind_eq_ok.mpr ⟨(), start, checkUnique_run h (hvacant hmany), ?_⟩
      exact h.run_replace hwilling hfound _

end Plan

end ModelSurface
