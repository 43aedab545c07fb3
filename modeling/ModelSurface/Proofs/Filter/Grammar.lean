import ModelSurface.Proofs.Filter.Shape

/-!
# The grammar of filter expressions

Which expressions can be written in a filter type, and what is wrong with the others, at which
places. Both are told by the form of the expression alone: whether something is wrong at a place
depends on what stands there and on the names that lead there, and on nothing beside them.
-/

namespace ModelSurface

/-! ### Operands -/

namespace Operand

/-- A document that stands for a value to compare with: one of the kind, and not null. -/
def Comparable (kind : Kind) (list : Bool) (json : Json) : Prop :=
  json ≠ .null ∧ ∃ value, Value.ofJson kind list json = .ok value

/-- What keeps a document from standing for a value to compare with. -/
inductive WrongValue (kind : Kind) (list : Bool) : Json → FilterFault → Prop
  | null : WrongValue kind list .null .nullOperand
  | value {json : Json} {fault : CoercionFault} (hjson : json ≠ .null)
      (h : Value.ofJson kind list json = .error fault) : WrongValue kind list json (.operand fault)

/-- The forms of operands. -/
inductive Form where
  | flag
  | values
  | range
  | value

/-- The documents that stand for operands of a form: a flag, a list of values, a pair of values, or
one value. -/
inductive Conforms (kind : Kind) (list : Bool) : Form → Json → Prop
  | flag (flag : Bool) : Conforms kind list .flag (.bool flag)
  | values {items : List Json} (h : ∀ item ∈ items, Comparable kind list item) :
      Conforms kind list .values (.arr items)
  | range {low high : Json} (hlow : Comparable kind list low) (hhigh : Comparable kind list high) :
      Conforms kind list .range (.arr [low, high])
  | value {json : Json} (h : Comparable kind list json) : Conforms kind list .value json

/-- What is wrong with an operand: its form, or the first of its values that is wrong. -/
inductive Wrong (kind : Kind) (list : Bool) : Form → Json → FilterFault → Prop
  | flag {json : Json} (h : ∀ flag, json ≠ .bool flag) : Wrong kind list .flag json .flag
  | values {json : Json} (h : ∀ items, json ≠ .arr items) : Wrong kind list .values json .values
  | item {before behind : List Json} {item : Json} {fault : FilterFault}
      (hbefore : ∀ earlier ∈ before, Comparable kind list earlier)
      (h : WrongValue kind list item fault) :
      Wrong kind list .values (.arr (before ++ item :: behind)) fault
  | range {json : Json} (h : ∀ low high, json ≠ .arr [low, high]) :
      Wrong kind list .range json .range
  | low {low high : Json} {fault : FilterFault} (h : WrongValue kind list low fault) :
      Wrong kind list .range (.arr [low, high]) fault
  | high {low high : Json} {fault : FilterFault} (hlow : Comparable kind list low)
      (h : WrongValue kind list high fault) : Wrong kind list .range (.arr [low, high]) fault
  | value {json : Json} {fault : FilterFault} (h : WrongValue kind list json fault) :
      Wrong kind list .value json fault

end Operand

/-- The form of the operands that an operator takes. -/
def FilterOp.form : FilterOp → Operand.Form
  | .isNull => .flag
  | .isIn | .notIn => .values
  | .range => .range
  | _ => .value

namespace OperatorType

/-- A field takes an operator: one of its own, with an operand for it. -/
def Takes (type : OperatorType) (name : String) (json : Json) : Prop :=
  ∃ op ∈ type.operators, op.name = name ∧ Operand.Conforms type.kind type.list op.form json

/-- What is wrong with an operator: the field does not have it, or its operand is wrong. -/
inductive Refuses (type : OperatorType) : String → Json → FilterFault → Prop
  | operator {name : String} {json : Json} (h : ∀ op ∈ type.operators, op.name ≠ name) :
      Refuses type name json (.operator name)
  | operand {op : FilterOp} {json : Json} {fault : FilterFault} (hop : op ∈ type.operators)
      (h : Operand.Wrong type.kind type.list op.form json fault) : Refuses type op.name json fault

end OperatorType

/-! ### Expressions -/

namespace Filter

mutual

/-- The expressions that can be written in a filter type. -/
inductive Conforms : FilterType → Json → Prop
  | intro {type : FilterType} {members : List (String × Json)}
      (h : ∀ name json, (name, json) ∈ members → MemberConforms type name json) :
      Conforms type (.obj members)

/-- The members that such an expression may have: a list of expressions to combine, one to negate,
and fields and relations of the type by their names. -/
inductive MemberConforms : FilterType → String → Json → Prop
  | combined {type : FilterType} {name : String} {items : List Json}
      (hname : name = "and" ∨ name = "or") (h : ∀ item ∈ items, Conforms type item) :
      MemberConforms type name (.arr items)
  | negated {type : FilterType} {json : Json} (h : Conforms type json) :
      MemberConforms type "not" json
  | negatedItem {type : FilterType} {item : Json} (h : Conforms type item) :
      MemberConforms type "not" (.arr [item])
  | relation {type inner : FilterType} {name relation target : String} {many : Bool} {json : Json}
      (hname : name ∉ combinators)
      (hfield : type.field? name = some (.relation relation target many inner))
      (h : Conforms inner json) : MemberConforms type name json
  | scalar {type : FilterType} {name field : String} {kind : Kind} {list nullable : Bool}
      {operators : List (String × Json)} (hname : name ∉ combinators)
      (hfield : type.field? name = some (.scalar field kind list nullable))
      (h : ∀ operator json, (operator, json) ∈ operators →
        OperatorType.Takes ⟨kind, list, nullable⟩ operator json) :
      MemberConforms type name (.obj operators)

end

/-- A place in a document: which member or item to follow, from the outside inwards. Smaller places
come first in the document. -/
abbrev Place := List ℕ

mutual

/-- What is wrong with an expression that stands at a path, and at which place in it. -/
inductive Offends : FilterType → String → Json → Place → Violation → Prop
  | object {type : FilterType} {path : String} {json : Json} (h : ∀ members, json ≠ .obj members) :
      Offends type path json [] (.ofField path (.filter .object))
  | member {type : FilterType} {path name : String} {json : Json} {members : List (String × Json)}
      {position : ℕ} {place : Place} {violation : Violation}
      (hmember : members[position]? = some (name, json))
      (h : MemberOffends type s!"{path}.{name}" name json place violation) :
      Offends type path (.obj members) (position :: place) violation

/-- What is wrong with a member of an expression. -/
inductive MemberOffends : FilterType → String → String → Json → Place → Violation → Prop
  | list {type : FilterType} {path name : String} {json : Json}
      (hname : name = "and" ∨ name = "or") (h : ∀ items, json ≠ .arr items) :
      MemberOffends type path name json [] (.ofField path (.filter .list))
  | item {type : FilterType} {path name : String} {item : Json} {items : List Json} {position : ℕ}
      {place : Place} {violation : Violation} (hname : name = "and" ∨ name = "or")
      (hitem : items[position]? = some item)
      (h : Offends type s!"{path}[{position}]" item place violation) :
      MemberOffends type path name (.arr items) (position :: place) violation
  | negation {type : FilterType} {path : String} {items : List Json} (h : items.length ≠ 1) :
      MemberOffends type path "not" (.arr items) [] (.ofField path (.filter .negation))
  | negatedItem {type : FilterType} {path : String} {item : Json} {place : Place}
      {violation : Violation} (h : Offends type path item place violation) :
      MemberOffends type path "not" (.arr [item]) (0 :: place) violation
  | negated {type : FilterType} {path : String} {json : Json} {place : Place}
      {violation : Violation} (hjson : ∀ items, json ≠ .arr items)
      (h : Offends type path json place violation) :
      MemberOffends type path "not" json place violation
  | unknown {type : FilterType} {path name : String} {json : Json} (hname : name ∉ combinators)
      (hfield : type.field? name = none) :
      MemberOffends type path name json [] (.ofField path (.filter (.unknownField type.name)))
  | relation {type inner : FilterType} {path name relation target : String} {many : Bool}
      {json : Json} {place : Place} {violation : Violation} (hname : name ∉ combinators)
      (hfield : type.field? name = some (.relation relation target many inner))
      (h : Offends inner path json place violation) :
      MemberOffends type path name json place violation
  | operators {type : FilterType} {path name field : String} {kind : Kind} {list nullable : Bool}
      {json : Json} (hname : name ∉ combinators)
      (hfield : type.field? name = some (.scalar field kind list nullable))
      (h : ∀ operators, json ≠ .obj operators) :
      MemberOffends type path name json [] (.ofField path (.filter .operators))
  | operator {type : FilterType} {path name field operator : String} {kind : Kind}
      {list nullable : Bool} {json : Json} {operators : List (String × Json)} {position : ℕ}
      {fault : FilterFault} (hname : name ∉ combinators)
      (hfield : type.field? name = some (.scalar field kind list nullable))
      (hoperator : operators[position]? = some (operator, json))
      (h : OperatorType.Refuses ⟨kind, list, nullable⟩ operator json fault) :
      MemberOffends type path name (.obj operators) [position]
        (.ofField s!"{path}.{operator}" (.filter fault))

end

end Filter

/-! ### Reading operands -/

namespace Operand

variable {α β : Type} {kind : Kind} {list : Bool}

/-- A reader reads exactly what is fine, and of all else it tells what is wrong. -/
structure Reads (result : Except FilterFault α) (fine : Prop) (wrong : FilterFault → Prop) :
    Prop where
  ok_iff : (∃ a, result = .ok a) ↔ fine
  error_iff : ∀ fault, result = .error fault ↔ wrong fault

namespace Reads

variable {result : Except FilterFault α} {fine fine' : Prop} {wrong wrong' : FilterFault → Prop}

theorem congr (h : Reads result fine wrong) (hfine : fine ↔ fine')
    (hwrong : ∀ fault, wrong fault ↔ wrong' fault) : Reads result fine' wrong' :=
  ⟨h.ok_iff.trans hfine, fun fault => (h.error_iff fault).trans (hwrong fault)⟩

theorem of_ok (a : α) : Reads (.ok a) True fun _ => False :=
  ⟨iff_of_true ⟨a, rfl⟩ trivial, fun _ => iff_of_false nofun id⟩

theorem of_error (fault : FilterFault) :
    Reads (.error fault : Except FilterFault α) False (· = fault) :=
  ⟨iff_of_false (fun ⟨_, h⟩ => nomatch h) id, fun _ => by rw [Except.error.injEq, eq_comm]⟩

theorem map (h : Reads result fine wrong) (f : α → β) : Reads (result.map f) fine wrong := by
  refine ⟨Iff.trans ?_ h.ok_iff, fun fault => Iff.trans ?_ (h.error_iff fault)⟩ <;>
    cases result <;> simp [Except.map]

theorem bind (h : Reads result fine wrong) {next : α → Except FilterFault β}
    (hnext : ∀ a, Reads (next a) fine' wrong') :
    Reads (result >>= next) (fine ∧ fine') fun fault => wrong fault ∨ fine ∧ wrong' fault := by
  refine ⟨?_, fun fault => ?_⟩
  · simp only [except_bind_eq_ok, ← h.ok_iff]
    constructor
    · rintro ⟨b, a, ha, hb⟩
      exact ⟨⟨a, ha⟩, (hnext a).ok_iff.mp ⟨b, hb⟩⟩
    · rintro ⟨⟨a, ha⟩, hfine⟩
      obtain ⟨b, hb⟩ := (hnext a).ok_iff.mpr hfine
      exact ⟨b, a, ha, hb⟩
  · rw [except_bind_eq_error, h.error_iff, ← h.ok_iff]
    refine or_congr_right ?_
    constructor
    · rintro ⟨a, ha, hfault⟩
      exact ⟨⟨a, ha⟩, ((hnext a).error_iff fault).mp hfault⟩
    · rintro ⟨⟨a, ha⟩, hwrong⟩
      exact ⟨a, ha, ((hnext a).error_iff fault).mpr hwrong⟩

end Reads

theorem reads_value (kind : Kind) (list : Bool) (json : Json) :
    Reads (readValue kind list json) (Comparable kind list json) (WrongValue kind list json) := by
  unfold readValue
  by_cases hnull : json = .null
  · rw [hnull]
    refine (Reads.of_error _).congr ?_ fun fault => ?_
    · exact iff_of_false id fun h => h.1 rfl
    · constructor
      · rintro rfl
        exact .null
      · rintro (_ | ⟨hjson, -⟩)
        · rfl
        · exact absurd rfl hjson
  · have hgiven : json.isNull = false := by
      cases json with
      | null => exact absurd rfl hnull
      | bool | num | str | arr | obj => rfl
    rw [hgiven, if_neg Bool.false_ne_true]
    cases hread : Value.ofJson kind list json with
    | ok value =>
        refine (Reads.of_ok value).congr (iff_of_true trivial ⟨hnull, value, hread⟩) fun fault => ?_
        refine iff_of_false id fun h => ?_
        cases h with
        | null => exact hnull rfl
        | value _ hfault =>
            rw [hread] at hfault
            cases hfault
    | error fault =>
        refine (Reads.of_error _).congr (iff_of_false id fun h => ?_) fun other => ?_
        · obtain ⟨-, value, hvalue⟩ := h
          rw [hread] at hvalue
          cases hvalue
        · constructor
          · rintro rfl
            exact .value hnull hread
          · rintro (_ | ⟨-, hfault⟩)
            · exact absurd rfl hnull
            · rw [Except.error.inj (hread.symm.trans hfault)]

/-- Of several values the first one that is wrong is told. -/
theorem reads_values (kind : Kind) (list : Bool) (items : List Json) :
    Reads (items.mapM (readValue kind list)) (∀ item ∈ items, Comparable kind list item)
      fun fault => ∃ before item behind, items = before ++ item :: behind ∧
        (∀ earlier ∈ before, Comparable kind list earlier) ∧ WrongValue kind list item fault := by
  induction items with
  | nil => exact (Reads.of_ok []).congr (by simp) (by simp)
  | cons first items ih =>
      rw [List.mapM_cons]
      refine ((reads_value kind list first).bind fun value =>
        ih.bind fun values => .of_ok (value :: values)).congr ?_ fun fault => ?_
      · rw [and_true, List.forall_mem_cons]
      · constructor
        · rintro (hfirst | ⟨hfirst, ⟨before, item, behind, rfl, hbefore, hitem⟩ | ⟨-, hfalse⟩⟩)
          · exact ⟨[], first, items, rfl, fun _ h => absurd h List.not_mem_nil, hfirst⟩
          · exact ⟨first :: before, item, behind, rfl,
              List.forall_mem_cons.mpr ⟨hfirst, hbefore⟩, hitem⟩
          · exact hfalse.elim
        · rintro ⟨before, item, behind, hsplit, hbefore, hitem⟩
          cases before with
          | nil =>
              obtain ⟨rfl, -⟩ := List.cons.inj hsplit
              exact .inl hitem
          | cons earlier before =>
              obtain ⟨rfl, rfl⟩ := List.cons.inj hsplit
              obtain ⟨hfirst, hbefore⟩ := List.forall_mem_cons.mp hbefore
              exact .inr ⟨hfirst, .inl ⟨before, item, behind, rfl, hbefore, hitem⟩⟩

theorem reads_flag (json : Json) :
    Reads (Operand.read .isNull kind list json) (Conforms kind list .flag json)
      (Wrong kind list .flag json) := by
  cases json with
  | bool flag =>
      refine (Reads.of_ok _).congr (iff_of_true trivial (.flag flag)) fun fault => ?_
      refine iff_of_false id fun h => ?_
      cases h with
      | flag h => exact h flag rfl
  | null | num | str | arr | obj =>
      refine (Reads.of_error _).congr (iff_of_false id nofun) fun fault => ?_
      constructor
      · rintro rfl
        exact .flag nofun
      · rintro ⟨-⟩
        rfl

theorem reads_list (json : Json) :
    Reads (Operand.read .isIn kind list json) (Conforms kind list .values json)
      (Wrong kind list .values json) := by
  cases json with
  | arr items =>
      refine ((reads_values kind list items).map Operand.values).congr ?_ fun fault => ?_
      · constructor
        · exact .values
        · intro h
          cases h with
          | values h => exact h
      · constructor
        · rintro ⟨before, item, behind, rfl, hbefore, hitem⟩
          exact .item hbefore hitem
        · intro h
          cases h with
          | values h => exact absurd rfl (h items)
          | item hbefore hitem => exact ⟨_, _, _, rfl, hbefore, hitem⟩
  | null | bool | num | str | obj =>
      refine (Reads.of_error _).congr (iff_of_false id nofun) fun fault => ?_
      constructor
      · rintro rfl
        exact .values nofun
      · rintro ⟨-⟩
        rfl

theorem reads_pair (low high : Json) :
    Reads (Operand.read .range kind list (.arr [low, high]))
      (Conforms kind list .range (.arr [low, high]))
      (Wrong kind list .range (.arr [low, high])) := by
  refine ((reads_value kind list low).bind fun least =>
    (reads_value kind list high).bind fun greatest =>
      .of_ok (Operand.range least greatest)).congr ?_ fun fault => ?_
  · rw [and_true]
    constructor
    · rintro ⟨hlow, hhigh⟩
      exact .range hlow hhigh
    · intro h
      cases h with
      | range hlow hhigh => exact ⟨hlow, hhigh⟩
  · constructor
    · rintro (hlow | ⟨hlow, hhigh | ⟨-, hfalse⟩⟩)
      · exact .low hlow
      · exact .high hlow hhigh
      · exact hfalse.elim
    · intro h
      cases h with
      | range h => exact absurd rfl (h low high)
      | low h => exact .inl h
      | high hlow h => exact .inr ⟨hlow, .inl h⟩

theorem reads_range (json : Json) :
    Reads (Operand.read .range kind list json) (Conforms kind list .range json)
      (Wrong kind list .range json) := by
  by_cases hpair : ∃ low high, json = .arr [low, high]
  · obtain ⟨low, high, rfl⟩ := hpair
    exact reads_pair low high
  · push Not at hpair
    have hread : Operand.read .range kind list json = .error .range := by
      unfold Operand.read
      dsimp only
      split
      · rename_i low high
        exact absurd rfl (hpair low high)
      · rfl
    rw [hread]
    refine (Reads.of_error _).congr (iff_of_false id ?_) fun fault => ?_
    · rintro ⟨-⟩
      exact hpair _ _ rfl
    · constructor
      · rintro rfl
        exact .range hpair
      · intro h
        cases h with
        | range => rfl
        | low | high => exact absurd rfl (hpair _ _)

theorem reads_single (json : Json) :
    Reads ((readValue kind list json).map Operand.value) (Conforms kind list .value json)
      (Wrong kind list .value json) := by
  refine ((reads_value kind list json).map _).congr ?_ fun fault => ?_
  · constructor
    · exact .value
    · intro h
      cases h with
      | value h => exact h
  · constructor
    · exact .value
    · intro h
      cases h with
      | value h => exact h

/-- Operands are read by the form that their operator asks for. -/
theorem reads_operand (op : FilterOp) (kind : Kind) (list : Bool) (json : Json) :
    Reads (Operand.read op kind list json) (Conforms kind list op.form json)
      (Wrong kind list op.form json) := by
  cases op with
  | isNull => exact reads_flag json
  | isIn | notIn => exact reads_list json
  | range => exact reads_range json
  | eq | ne | lt | lte | gt | gte | contains | icontains | startsWith | istartsWith | endsWith
  | iendsWith | iexact => exact reads_single json

end Operand

end ModelSurface
