import ModelSurface.Proofs.Filter.Grammar

/-!
# Everything that is wrong with a filter

The reader of filter expressions accepts the grammar of the type, and of any other expression it
reports each offence once, in the order of their places. It goes on behind what is wrong, so that no
report depends on another one.
-/

namespace ModelSurface

open ModelSurface.Filter (Place)

/-! ### Checks that report by place -/

namespace Checked

variable {α β γ δ : Type}

/-- A check passes exactly what is fine, and of all else it reports what offends: each offence once,
in the order of their places. -/
structure Settles (checked : Checked α) (fine : Prop) (offends : Place → Violation → Prop) :
    Prop where
  ok_iff : (∃ a, checked = .ok a) ↔ fine
  told : ∃ offences : List (Place × Violation), checked.violations = offences.map Prod.snd ∧
    (offences.map Prod.fst).Pairwise (· < ·) ∧
      (∀ place violation, (place, violation) ∈ offences ↔ offends place violation) ∧
        (fine ↔ offences = [])

namespace Settles

variable {checked : Checked α} {fine fine' : Prop} {offends offends' : Place → Violation → Prop}

theorem congr (h : Settles checked fine offends) (hfine : fine ↔ fine')
    (hoffends : ∀ place violation, offends place violation ↔ offends' place violation) :
    Settles checked fine' offends' := by
  obtain ⟨offences, htold, hordered, hcomplete, hnone⟩ := h.told
  refine ⟨h.ok_iff.trans hfine, offences, htold, hordered, ?_, hfine.symm.trans hnone⟩
  exact fun place violation => (hcomplete place violation).trans (hoffends place violation)

theorem of_ok (a : α) : Settles (.ok a) True fun _ _ => False where
  ok_iff := iff_of_true ⟨a, rfl⟩ trivial
  told := ⟨[], rfl, .nil, fun _ _ => iff_of_false List.not_mem_nil id, iff_of_true trivial rfl⟩

theorem of_fault (field : String) (cause : Cause) :
    Settles (fault field cause : Checked α) False
      fun place violation => place = [] ∧ violation = .ofField field cause where
  ok_iff := iff_of_false (fun ⟨_, h⟩ => nomatch h) id
  told := by
    refine ⟨[([], .ofField field cause)], rfl, List.pairwise_singleton _ _, ?_, ?_⟩
    · intro place violation
      rw [List.mem_singleton, Prod.mk.injEq]
    · exact iff_of_false id (List.cons_ne_nil _ _)

theorem map (h : Settles checked fine offends) (f : α → β) :
    Settles (checked.map f) fine offends := by
  cases checked with
  | ok a => exact ⟨iff_of_true ⟨f a, rfl⟩ (h.ok_iff.mp ⟨a, rfl⟩), h.told⟩
  | error violations =>
      refine ⟨iff_of_false (fun ⟨_, h⟩ => nomatch h) ?_, h.told⟩
      intro hfine
      obtain ⟨a, ha⟩ := h.ok_iff.mpr hfine
      cases ha

/-- Two checks, the second one at places behind those of the first one. -/
theorem both {other : Checked β} (h : Settles checked fine offends)
    (h' : Settles other fine' offends')
    (hbehind : ∀ place violation place' violation', offends place violation →
      offends' place' violation' → place < place') (f : α → β → γ) :
    Settles (Checked.both f checked other) (fine ∧ fine')
      fun place violation => offends place violation ∨ offends' place violation := by
  obtain ⟨first, hfirst_told, hfirst_ordered, hfirst, hfirst_none⟩ := h.told
  obtain ⟨second, hsecond_told, hsecond_ordered, hsecond, hsecond_none⟩ := h'.told
  refine ⟨?_, first ++ second, ?_, ?_, ?_, ?_⟩
  · rw [← h.ok_iff, ← h'.ok_iff]
    constructor
    · rintro ⟨c, hc⟩
      obtain ⟨a, b, ha, hb, -⟩ := both_eq_ok_iff.mp hc
      exact ⟨⟨a, ha⟩, b, hb⟩
    · rintro ⟨⟨a, ha⟩, b, hb⟩
      exact ⟨f a b, both_eq_ok_iff.mpr ⟨a, b, ha, hb, rfl⟩⟩
  · rw [violations_both, hfirst_told, hsecond_told, List.map_append]
  · rw [List.map_append]
    refine List.pairwise_append.mpr ⟨hfirst_ordered, hsecond_ordered, ?_⟩
    intro place hplace place' hplace'
    obtain ⟨⟨_, violation⟩, hmem, rfl⟩ := List.mem_map.mp hplace
    obtain ⟨⟨_, violation'⟩, hmem', rfl⟩ := List.mem_map.mp hplace'
    exact hbehind _ _ _ _ ((hfirst _ _).mp hmem) ((hsecond _ _).mp hmem')
  · intro place violation
    rw [List.mem_append, hfirst, hsecond]
  · rw [hfirst_none, hsecond_none, List.append_eq_nil_iff]

/-- A check of a part of a document. -/
theorem inside (h : Settles checked fine offends) (position : ℕ) :
    Settles checked fine
      fun place violation => ∃ rest, place = position :: rest ∧ offends rest violation := by
  obtain ⟨offences, htold, hordered, hcomplete, hnone⟩ := h.told
  refine ⟨h.ok_iff, offences.map fun offence => (position :: offence.1, offence.2), ?_, ?_, ?_,
    ?_⟩
  · rw [htold, List.map_map]
    rfl
  · rw [List.map_map]
    have hshifted := hordered.map (S := (· < ·)) (position :: ·) fun _ _ hless =>
      List.Lex.cons hless
    rwa [List.map_map] at hshifted
  · intro place violation
    rw [List.mem_map]
    constructor
    · rintro ⟨⟨rest, found⟩, hmem, heq⟩
      obtain ⟨rfl, rfl⟩ := Prod.mk.inj heq
      exact ⟨rest, rfl, (hcomplete _ _).mp hmem⟩
    · rintro ⟨rest, rfl, hoffends⟩
      exact ⟨(rest, violation), (hcomplete _ _).mpr hoffends, rfl⟩
  · rw [hnone, List.map_eq_nil_iff]

end Settles

/-- What offends in the parts of a document, the first of which has the given position. -/
def Among (first : ℕ) (parts : List δ) (offends : ℕ → δ → Place → Violation → Prop)
    (place : Place) (violation : Violation) : Prop :=
  ∃ index part rest, parts[index]? = some part ∧ place = (first + index) :: rest ∧
    offends (first + index) part rest violation

theorem among_zero {parts : List δ} {offends : ℕ → δ → Place → Violation → Prop} {place : Place}
    {violation : Violation} : Among 0 parts offends place violation ↔
      ∃ position part rest, parts[position]? = some part ∧ place = position :: rest ∧
        offends position part rest violation := by
  simp only [Among, Nat.zero_add]

theorem among_cons {first : ℕ} {part : δ} {parts : List δ}
    {offends : ℕ → δ → Place → Violation → Prop} {place : Place} {violation : Violation} :
    Among first (part :: parts) offends place violation ↔
      (∃ rest, place = first :: rest ∧ offends first part rest violation) ∨
        Among (first + 1) parts offends place violation := by
  constructor
  · rintro ⟨index, found, rest, hpart, rfl, hoffends⟩
    cases index with
    | zero =>
        obtain rfl := Option.some.inj hpart
        exact .inl ⟨rest, rfl, hoffends⟩
    | succ index =>
        rw [← Nat.add_assoc, Nat.add_right_comm] at hoffends ⊢
        exact .inr ⟨index, found, rest, hpart, rfl, hoffends⟩
  · rintro (⟨rest, rfl, hoffends⟩ | ⟨index, found, rest, hpart, rfl, hoffends⟩)
    · exact ⟨0, part, rest, rfl, rfl, hoffends⟩
    · refine ⟨index + 1, found, rest, hpart, ?_, ?_⟩ <;>
        rw [← Nat.add_assoc, Nat.add_right_comm]
      exact hoffends

/-- The parts of a document are checked one behind the other. -/
theorem Settles.cons {checked : Checked α} {others : Checked β} {fine fine' : Prop} {first : ℕ}
    {part : δ} {parts : List δ} {offends : ℕ → δ → Place → Violation → Prop}
    (h : Settles checked fine (offends first part))
    (h' : Settles others fine' (Among (first + 1) parts offends)) (f : α → β → γ) :
    Settles (Checked.both f checked others) (fine ∧ fine')
      (Among first (part :: parts) offends) := by
  refine ((h.inside first).both h' ?_ f).congr Iff.rfl fun place violation => among_cons.symm
  rintro _ _ _ _ ⟨rest, rfl, -⟩ ⟨index, _, other, -, rfl, -⟩
  exact List.Lex.rel (by omega)

end Checked

theorem FilterOp.ofName?_eq_some {name : String} {op : FilterOp} :
    ofName? name = some op ↔ op.name = name := by
  constructor
  · intro h
    have hname := List.find?_some h
    exact beq_iff_eq.mp hname
  · rintro rfl
    exact ofName?_name op

namespace Filter

/-! ### Operators -/

theorem readPredicate_settles (field : String) (type : OperatorType) (path name : String)
    (json : Json) :
    (readPredicate field type path name json).Settles (type.Takes name json) fun place violation =>
      place = [] ∧ ∃ fault, violation = .ofField path (.filter fault) ∧
        type.Refuses name json fault := by
  unfold readPredicate
  split
  · rename_i hnone
    have hunknown : ∀ op ∈ type.operators, op.name ≠ name := by
      rintro op hop rfl
      have hlisted := List.contains_iff_mem.mpr hop
      rw [FilterOp.ofName?_name, Option.filter_some, if_pos hlisted] at hnone
      cases hnone
    refine (Checked.Settles.of_fault _ _).congr ?_ fun place violation =>
      and_congr_right fun _ => ?_
    · exact iff_of_false id fun ⟨op, hop, hname, _⟩ => hunknown op hop hname
    · constructor
      · rintro rfl
        exact ⟨_, rfl, .operator hunknown⟩
      · rintro ⟨fault, rfl, hrefuses⟩
        cases hrefuses with
        | operator => rfl
        | operand hop => exact absurd rfl (hunknown _ hop)
  · rename_i op hsome
    obtain ⟨hfound, hlisted⟩ := Option.filter_eq_some_iff.mp hsome
    have hop := List.contains_iff_mem.mp hlisted
    obtain rfl := FilterOp.ofName?_eq_some.mp hfound
    have hsame : ∀ other : FilterOp, other.name = op.name → other = op := by
      intro other hname
      exact Option.some.inj ((FilterOp.ofName?_name other).symm.trans
        (hname ▸ FilterOp.ofName?_name op))
    have htakes : type.Takes op.name json ↔
        Operand.Conforms type.kind type.list op.form json := by
      constructor
      · rintro ⟨other, -, hname, hconforms⟩
        exact hsame other hname ▸ hconforms
      · exact fun h => ⟨op, hop, rfl, h⟩
    have hrefuses : ∀ fault, type.Refuses op.name json fault ↔
        Operand.Wrong type.kind type.list op.form json fault := by
      intro fault
      constructor
      · generalize hname : op.name = name
        intro h
        cases h with
        | operator hunknown => exact absurd hname (hunknown op hop)
        | operand _ hwrong => exact hsame _ hname.symm ▸ hwrong
      · exact .operand hop
    have hreads := Operand.reads_operand op type.kind type.list json
    split
    · rename_i operand hread
      refine (Checked.Settles.of_ok _).congr ?_ fun place violation => iff_of_false id ?_
      · exact iff_of_true trivial (htakes.mpr (hreads.ok_iff.mp ⟨operand, hread⟩))
      · rintro ⟨-, fault, -, hfault⟩
        rw [(hreads.error_iff fault).mpr ((hrefuses fault).mp hfault)] at hread
        cases hread
    · rename_i fault hread
      refine (Checked.Settles.of_fault _ _).congr (iff_of_false id ?_) fun place violation =>
        and_congr_right fun _ => ?_
      · intro h
        obtain ⟨operand, hok⟩ := hreads.ok_iff.mpr (htakes.mp h)
        rw [hread] at hok
        cases hok
      · constructor
        · rintro rfl
          exact ⟨fault, rfl, (hrefuses fault).mpr ((hreads.error_iff fault).mp hread)⟩
        · rintro ⟨other, rfl, hother⟩
          have hfault := (hreads.error_iff other).mpr ((hrefuses other).mp hother)
          rw [Except.error.inj (hread.symm.trans hfault)]

theorem readPredicates_settles (field : String) (type : OperatorType) (path : String) (first : ℕ)
    (operators : List (String × Json)) :
    (readPredicates field type path operators).Settles
      (∀ name json, (name, json) ∈ operators → type.Takes name json)
      (Checked.Among first operators fun _ operator place violation => place = [] ∧ ∃ fault,
        violation = .ofField s!"{path}.{operator.1}" (.filter fault) ∧
          type.Refuses operator.1 operator.2 fault) := by
  induction operators generalizing first with
  | nil =>
      refine (Checked.Settles.of_ok []).congr (by simp) fun place violation => ?_
      exact iff_of_false id fun ⟨_, _, _, hnone, _⟩ => nomatch hnone
  | cons operator operators ih =>
      obtain ⟨name, json⟩ := operator
      have hfirst := readPredicate_settles field type s!"{path}.{name}" name json
      refine (hfirst.cons (ih (first + 1)) List.cons).congr ?_ fun place violation => Iff.rfl
      simp only [List.mem_cons, Prod.mk.injEq]
      constructor
      · rintro ⟨hhere, hbehind⟩ other found (⟨rfl, rfl⟩ | hmem)
        · exact hhere
        · exact hbehind other found hmem
      · intro h
        exact ⟨h name json (.inl ⟨rfl, rfl⟩), fun other found hmem => h other found (.inr hmem)⟩

/-! ### Members -/

variable {type : FilterType} {path name : String} {json : Json}

theorem not_combined_not : ¬ ("not" = "and" ∨ "not" = "or") := by decide

theorem mem_combinators_of_combined (hname : name = "and" ∨ name = "or") : name ∈ combinators := by
  rcases hname with rfl | rfl <;> decide

/-- Expressions that are to be combined are checked one by one. -/
theorem combined_settles (hname : name = "and" ∨ name = "or") (f : List Filter → List Filter)
    (hitems : ∀ items, json = .arr items → (readItems type path 0 items).Settles
      (∀ item ∈ items, Conforms type item)
      (Checked.Among 0 items fun index item => Offends type s!"{path}[{index}]" item)) :
    Checked.Settles
      (match json with
        | .arr items => (readItems type path 0 items).map f
        | _ => Checked.fault path (.filter .list))
      (MemberConforms type name json) (MemberOffends type path name json) := by
  have hnamed := mem_combinators_of_combined hname
  have hform : (∀ items, json ≠ .arr items) → Checked.Settles
      (Checked.fault path (.filter .list) : Checked (List Filter))
      (MemberConforms type name json) (MemberOffends type path name json) := by
    intro hjson
    refine (Checked.Settles.of_fault _ _).congr (iff_of_false id ?_) fun place violation => ?_
    · intro h
      cases h with
      | combined => exact hjson _ rfl
      | negated | negatedItem => exact not_combined_not hname
      | relation hother | scalar hother => exact hother hnamed
    · constructor
      · rintro ⟨rfl, rfl⟩
        exact .list hname hjson
      · intro h
        cases h with
        | list => exact ⟨rfl, rfl⟩
        | item => exact absurd rfl (hjson _)
        | negation | negatedItem | negated => exact absurd hname not_combined_not
        | unknown hother | relation hother | operators hother | operator hother =>
            exact absurd hnamed hother
  cases json with
  | arr items =>
      refine ((hitems items rfl).map f).congr ?_ fun place violation => ?_
      · constructor
        · exact .combined hname
        · intro h
          cases h with
          | combined _ h => exact h
          | negated | negatedItem => exact absurd hname not_combined_not
          | relation hother => exact absurd hnamed hother
      · rw [Checked.among_zero]
        constructor
        · rintro ⟨position, item, rest, hitem, rfl, hoffends⟩
          exact .item hname hitem hoffends
        · intro h
          cases h with
          | list _ hjson => exact absurd rfl (hjson items)
          | item _ hitem hoffends => exact ⟨_, _, _, hitem, rfl, hoffends⟩
          | negation | negatedItem | negated => exact absurd hname not_combined_not
          | unknown hother | relation hother | operators hother => exact absurd hnamed hother
  | null | bool | num | str | obj => exact hform nofun

theorem not_not_combinator : ¬ "not" ∉ combinators := by decide

/-- The expression that is to be negated is the member itself, or the only item of it. -/
theorem negated_settles (f : Filter → List Filter)
    (hread : ∀ inner, json = .arr [inner] ∨ json = inner → (read type path inner).Settles
      (Conforms type inner) (Offends type path inner)) :
    Checked.Settles
      (match json with
        | .arr [item] => (read type path item).map f
        | .arr _ => Checked.fault path (.filter .negation)
        | json => (read type path json).map f)
      (MemberConforms type "not" json) (MemberOffends type path "not" json) := by
  have hitself : (∀ items, json ≠ .arr items) →
      Checked.Settles ((read type path json).map f : Checked (List Filter))
        (MemberConforms type "not" json) (MemberOffends type path "not" json) := by
    intro hjson
    refine ((hread json (.inr rfl)).map f).congr ?_ fun place violation => ?_
    · constructor
      · exact .negated
      · intro h
        cases h with
        | combined | negatedItem => exact absurd rfl (hjson _)
        | negated h => exact h
        | relation hother | scalar hother => exact absurd hother not_not_combinator
    · constructor
      · exact .negated hjson
      · intro h
        cases h with
        | list hother => exact absurd hother not_combined_not
        | item | negation | negatedItem => exact absurd rfl (hjson _)
        | negated _ h => exact h
        | unknown hother | relation hother | operators hother | operator hother =>
            exact absurd hother not_not_combinator
  cases json with
  | arr items =>
      by_cases hsingle : ∃ item, items = [item]
      · obtain ⟨item, rfl⟩ := hsingle
        refine (((hread item (.inl rfl)).inside 0).map f).congr ?_ fun place violation => ?_
        · constructor
          · exact .negatedItem
          · intro h
            cases h with
            | combined hother => exact absurd hother not_combined_not
            | negated h => cases h
            | negatedItem h => exact h
            | relation hother => exact absurd hother not_not_combinator
        · constructor
          · rintro ⟨rest, rfl, hoffends⟩
            exact .negatedItem hoffends
          · intro h
            cases h with
            | list hother | item hother => exact absurd hother not_combined_not
            | negation hlength => exact absurd rfl hlength
            | negatedItem h => exact ⟨_, rfl, h⟩
            | negated hjson => exact absurd rfl (hjson _)
            | unknown hother | relation hother | operators hother =>
                exact absurd hother not_not_combinator
      · have hlength : items.length ≠ 1 := fun h => hsingle (List.length_eq_one_iff.mp h)
        have hform : (match Json.arr items with
            | .arr [item] => (read type path item).map f
            | .arr _ => Checked.fault path (.filter .negation)
            | json => (read type path json).map f) =
              (Checked.fault path (.filter .negation) : Checked (List Filter)) := by
          rcases items with _ | ⟨first, _ | ⟨second, items⟩⟩
          · rfl
          · exact absurd rfl hlength
          · rfl
        rw [hform]
        refine (Checked.Settles.of_fault _ _).congr (iff_of_false id ?_) fun place violation => ?_
        · intro h
          cases h with
          | combined hother => exact not_combined_not hother
          | negated h => cases h
          | negatedItem => exact hlength rfl
          | relation hother => exact not_not_combinator hother
        · constructor
          · rintro ⟨rfl, rfl⟩
            exact .negation hlength
          · intro h
            cases h with
            | list hother | item hother => exact absurd hother not_combined_not
            | negation => exact ⟨rfl, rfl⟩
            | negatedItem => exact absurd rfl hlength
            | negated hjson => exact absurd rfl (hjson items)
            | unknown hother | relation hother | operators hother =>
                exact absurd hother not_not_combinator
  | null | bool | num | str | obj => exact hitself nofun

theorem unknown_settles (hname : name ∉ combinators) (hfield : type.field? name = none) :
    Checked.Settles (Checked.fault path (.filter (.unknownField type.name)) : Checked (List Filter))
      (MemberConforms type name json) (MemberOffends type path name json) := by
  refine (Checked.Settles.of_fault _ _).congr (iff_of_false id ?_) fun place violation => ?_
  · intro h
    cases h with
    | combined hother => exact hname (mem_combinators_of_combined hother)
    | negated | negatedItem => exact not_not_combinator hname
    | relation _ hother | scalar _ hother =>
        rw [hfield] at hother
        cases hother
  · constructor
    · rintro ⟨rfl, rfl⟩
      exact .unknown hname hfield
    · intro h
      cases h with
      | list hother | item hother => exact absurd (mem_combinators_of_combined hother) hname
      | negation | negatedItem | negated => exact absurd hname not_not_combinator
      | unknown => exact ⟨rfl, rfl⟩
      | relation _ hother | operators _ hother | operator _ hother =>
          rw [hfield] at hother
          cases hother

theorem relation_settles {inner : FilterType} {relation target : String} {many : Bool}
    (f : Filter → List Filter) (hname : name ∉ combinators)
    (hfield : type.field? name = some (.relation relation target many inner))
    (hread : (read inner path json).Settles (Conforms inner json) (Offends inner path json)) :
    Checked.Settles ((read inner path json).map f : Checked (List Filter))
      (MemberConforms type name json) (MemberOffends type path name json) := by
  refine (hread.map f).congr ?_ fun place violation => ?_
  · constructor
    · exact .relation hname hfield
    · intro h
      cases h with
      | combined hother => exact absurd (mem_combinators_of_combined hother) hname
      | negated | negatedItem => exact absurd hname not_not_combinator
      | relation _ hother h =>
          cases hfield.symm.trans hother
          exact h
      | scalar _ hother => cases hfield.symm.trans hother
  · constructor
    · exact .relation hname hfield
    · intro h
      cases h with
      | list hother | item hother => exact absurd (mem_combinators_of_combined hother) hname
      | negation | negatedItem | negated => exact absurd hname not_not_combinator
      | relation _ hother h =>
          cases hfield.symm.trans hother
          exact h
      | unknown _ hother | operators _ hother | operator _ hother =>
          cases hfield.symm.trans hother

theorem scalar_settles {field : String} {kind : Kind} {list nullable : Bool}
    (hname : name ∉ combinators)
    (hfield : type.field? name = some (.scalar field kind list nullable)) :
    Checked.Settles
      (match json with
        | .obj members => readPredicates name ⟨kind, list, nullable⟩ path members
        | _ => Checked.fault path (.filter .operators))
      (MemberConforms type name json) (MemberOffends type path name json) := by
  have hform : (∀ operators, json ≠ .obj operators) → Checked.Settles
      (Checked.fault path (.filter .operators) : Checked (List Filter))
      (MemberConforms type name json) (MemberOffends type path name json) := by
    intro hjson
    refine (Checked.Settles.of_fault _ _).congr (iff_of_false id ?_) fun place violation => ?_
    · intro h
      cases h with
      | combined hother => exact hname (mem_combinators_of_combined hother)
      | negated | negatedItem => exact not_not_combinator hname
      | relation _ hother => cases hfield.symm.trans hother
      | scalar => exact hjson _ rfl
    · constructor
      · rintro ⟨rfl, rfl⟩
        exact .operators hname hfield hjson
      · intro h
        cases h with
        | list hother | item hother => exact absurd (mem_combinators_of_combined hother) hname
        | negation | negatedItem | negated => exact absurd hname not_not_combinator
        | unknown _ hother | relation _ hother => cases hfield.symm.trans hother
        | operators => exact ⟨rfl, rfl⟩
        | operator => exact absurd rfl (hjson _)
  cases json with
  | obj operators =>
      refine (readPredicates_settles name ⟨kind, list, nullable⟩ path 0 operators).congr ?_
        fun place violation => ?_
      · constructor
        · exact .scalar hname hfield
        · intro h
          cases h with
          | negated => exact absurd hname not_not_combinator
          | relation _ hother => cases hfield.symm.trans hother
          | scalar _ hother h =>
              cases hfield.symm.trans hother
              exact h
      · rw [Checked.among_zero]
        constructor
        · rintro ⟨position, ⟨operator, json⟩, rest, hoperator, rfl, rfl, fault, rfl, hrefuses⟩
          exact .operator hname hfield hoperator hrefuses
        · intro h
          cases h with
          | list hother => exact absurd (mem_combinators_of_combined hother) hname
          | negated => exact absurd hname not_not_combinator
          | unknown _ hother | relation _ hother => cases hfield.symm.trans hother
          | operators _ _ hjson => exact absurd rfl (hjson operators)
          | operator _ hother hoperator hrefuses =>
              cases hfield.symm.trans hother
              exact ⟨_, _, _, hoperator, rfl, rfl, _, rfl, hrefuses⟩
  | null | bool | num | str | arr => exact hform nofun

theorem settles_nil {α : Type} {first : ℕ} {β : Type} {fine : Prop}
    {offends : ℕ → β → Place → Violation → Prop} (hfine : fine) :
    Checked.Settles (.ok [] : Checked (List α)) fine (Checked.Among first [] offends) :=
  (Checked.Settles.of_ok []).congr (iff_of_true trivial hfine) fun _ _ =>
    iff_of_false id fun ⟨_, _, _, hnone, _⟩ => nomatch hnone

/-! ### Expressions -/

mutual

theorem read_settles (type : FilterType) (path : String) (json : Json) :
    (read type path json).Settles (Conforms type json) (Offends type path json) := by
  cases json with
  | obj members =>
      have hmembers := readMembers_settles type path 0 members
      refine (hmembers.map conjunction).congr ?_ fun place violation => ?_
      · constructor
        · exact .intro
        · intro h
          cases h with
          | intro h => exact h
      · rw [Checked.among_zero]
        constructor
        · rintro ⟨position, ⟨name, json⟩, rest, hmember, rfl, hoffends⟩
          exact .member hmember hoffends
        · intro h
          cases h with
          | object hjson => exact absurd rfl (hjson members)
          | member hmember hoffends => exact ⟨_, _, _, hmember, rfl, hoffends⟩
  | null | bool | num | str | arr =>
      refine (Checked.Settles.of_fault _ _).congr (iff_of_false id nofun) fun place violation => ?_
      constructor
      · rintro ⟨rfl, rfl⟩
        exact .object nofun
      · intro h
        cases h with
        | object => exact ⟨rfl, rfl⟩
termination_by (sizeOf json, 0)

theorem readMembers_settles (type : FilterType) (path : String) (first : ℕ)
    (members : List (String × Json)) :
    (readMembers type path members).Settles
      (∀ name json, (name, json) ∈ members → MemberConforms type name json)
      (Checked.Among first members fun _ member =>
        MemberOffends type s!"{path}.{member.1}" member.1 member.2) := by
  match members with
  | [] => exact settles_nil fun _ _ h => absurd h List.not_mem_nil
  | (name, json) :: rest =>
      rw [readMembers_cons]
      have hfirst := readMember_settles type s!"{path}.{name}" name json
      have hrest := readMembers_settles type path (first + 1) rest
      refine (hfirst.cons hrest List.append).congr ?_ fun place violation => Iff.rfl
      simp only [← Prod.forall (p := fun member => member ∈ (name, json) :: rest →
        MemberConforms type member.1 member.2), List.forall_mem_cons, Prod.forall]
termination_by (sizeOf members, 0)

theorem readMember_settles (type : FilterType) (path name : String) (json : Json) :
    (readMember type path name json).Settles (MemberConforms type name json)
      (MemberOffends type path name json) := by
  unfold readMember
  by_cases hand : name = "and"
  · rw [if_pos hand]
    refine combined_settles (.inl hand) (fun filters => [.all filters]) ?_
    rintro items rfl
    exact readItems_settles type path 0 items
  rw [if_neg hand]
  by_cases hor : name = "or"
  · rw [if_pos hor]
    refine combined_settles (.inr hor) (fun filters => [.any filters]) ?_
    rintro items rfl
    exact readItems_settles type path 0 items
  rw [if_neg hor]
  by_cases hnot : name = "not"
  · rw [if_pos hnot]
    obtain rfl := hnot
    refine negated_settles (fun filter => [.not filter]) ?_
    rintro inner hinner
    rcases hinner with rfl | rfl
    · exact read_settles type path inner
    · exact read_settles type path json
  rw [if_neg hnot]
  have hname : name ∉ combinators := not_mem_combinators.mpr ⟨hand, hor, hnot⟩
  split
  · rename_i hfield
    exact unknown_settles hname hfield
  · rename_i hfield
    exact relation_settles _ hname hfield (read_settles _ path json)
  · rename_i hfield
    exact scalar_settles hname hfield
termination_by (sizeOf json, 1)

theorem readItems_settles (type : FilterType) (path : String) (index : ℕ) (items : List Json) :
    (readItems type path index items).Settles (∀ item ∈ items, Conforms type item)
      (Checked.Among index items fun index item => Offends type s!"{path}[{index}]" item) := by
  match items with
  | [] => exact settles_nil fun _ h => absurd h List.not_mem_nil
  | item :: items =>
      have hfirst := read_settles type s!"{path}[{index}]" item
      have hrest := readItems_settles type path (index + 1) items
      refine (hfirst.cons hrest List.cons).congr ?_ fun place violation => Iff.rfl
      rw [List.forall_mem_cons]
termination_by (sizeOf items, 0)

end

/-- A document is read as a filter exactly when it is an expression of the type. Of any other
document all that offends is reported, once each and in the order of the places, under the path of
its place. -/
theorem ofJson_reports (type : FilterType) (json : Json) :
    ((∃ filter, ofJson type json = .ok filter) ↔ Conforms type json) ∧
      ∀ violations, ofJson type json = .error violations →
        ∃ offences : List (Place × Violation), offences ≠ [] ∧
          violations = offences.map Prod.snd ∧ (offences.map Prod.fst).Pairwise (· < ·) ∧
            ∀ place violation, (place, violation) ∈ offences ↔
              Offends type "filter" json place violation := by
  obtain ⟨hok, offences, htold, hordered, hcomplete, hnone⟩ := read_settles type "filter" json
  refine ⟨hok, fun violations herror => ⟨offences, ?_, ?_, hordered, hcomplete⟩⟩
  · -- an expression of the type would have been read
    intro hnil
    obtain ⟨filter, hfilter⟩ := hok.mpr (hnone.mpr hnil)
    rw [ofJson, hfilter] at herror
    cases herror
  · rw [ofJson] at herror
    rwa [herror] at htold

end Filter

end ModelSurface
