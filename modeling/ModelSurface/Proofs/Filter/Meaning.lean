import ModelSurface.Filter.Reader
import ModelSurface.Proofs.Engine.Call
import ModelSurface.Proofs.Schema.Fields

/-!
# What filter expressions say

The meaning of a filter is read off the document in which it is written: one clause for each form
of member, and none for the form that the reader gives to zero, one or several of them.
-/

namespace ModelSurface

theorem Checked.map_eq_ok {α β : Type} {f : α → β} {a : Checked α} {b : β}
    (h : a.map f = .ok b) : ∃ x, a = .ok x ∧ b = f x := by
  cases a with
  | error violations => cases h
  | ok x => exact ⟨x, rfl, (Except.ok.inj h).symm⟩

/-! ### Operators -/

namespace FilterOp

/-- What an operator on texts says, where those that begin with an `i` pass over case. -/
def MeansOfText (op : FilterOp) (text needle : List Char) : Prop :=
  match op with
  | .contains => needle <:+: text
  | .startsWith => needle <+: text
  | .endsWith => needle <:+ text
  | .icontains => Text.lowercase needle <:+: Text.lowercase text
  | .istartsWith => Text.lowercase needle <+: Text.lowercase text
  | .iendsWith => Text.lowercase needle <:+ Text.lowercase text
  | .iexact => Text.lowercase text = Text.lowercase needle
  | _ => False

/-- What an operator with a single operand says of a value. -/
def MeansOf (op : FilterOp) (value operand : Value) : Prop :=
  match op with
  | .eq => value.same operand
  | .ne => ¬value.same operand
  | .lt => value.compare? operand = some .lt
  | .lte => ∃ order, value.compare? operand = some order ∧ order.isLE
  | .gt => value.compare? operand = some .gt
  | .gte => ∃ order, value.compare? operand = some order ∧ order.isGE
  | op =>
    ∃ text needle, value = .str text ∧ operand = .str needle ∧
      op.MeansOfText text.toList needle.toList

/-- What an operator says of a value of a kind, with the operand as the caller writes it. -/
def Means (op : FilterOp) (kind : Kind) (list : Bool) (value : Value) (json : Json) : Prop :=
  match op with
  | .isNull => json = .bool value.isNull
  | .isIn =>
    ∃ items, json = .arr items ∧
      ∃ item ∈ items, ∃ operand, Value.ofJson kind list item = .ok operand ∧ operand.same value
  | .notIn =>
    ∃ items, json = .arr items ∧
      ∀ item ∈ items, ∀ operand, Value.ofJson kind list item = .ok operand → ¬operand.same value
  | .range =>
    ∃ low high least greatest, json = .arr [low, high] ∧
      Value.ofJson kind list low = .ok least ∧ Value.ofJson kind list high = .ok greatest ∧
      FilterOp.gte.MeansOf value least ∧ FilterOp.lte.MeansOf value greatest
  | op => ∃ operand, Value.ofJson kind list json = .ok operand ∧ op.MeansOf value operand

end FilterOp

/-! ### Expressions -/

namespace Filter

mutual

/-- What an expression says of a record: all that its members say. -/
def Means (related : RelatedRecords) (type : FilterType) (model : String) (record : Record) :
    Json → Prop
  | .obj members => ∀ member ∈ members, MemberMeans related type model record member.1 member.2
  | _ => False
termination_by json => (sizeOf json, 0)
decreasing_by
  rename_i hmem
  have hmember := List.sizeOf_lt_of_mem hmem
  obtain ⟨name, json⟩ := member
  simp only [Prod.mk.sizeOf_spec, Json.obj.sizeOf_spec] at hmember ⊢
  exact Prod.Lex.left _ _ (by omega)

/-- What one member of an expression says of a record. -/
def MemberMeans (related : RelatedRecords) (type : FilterType) (model : String) (record : Record)
    (name : String) (json : Json) : Prop :=
  if name = "and" then
    match json with
    | .arr items => ∀ item ∈ items, Means related type model record item
    | _ => False
  else if name = "or" then
    match json with
    | .arr items => ∃ item, ∃ _ : item ∈ items, Means related type model record item
    | _ => False
  else if name = "not" then
    match json with
    | .arr [item] => ¬Means related type model record item
    | json => ¬Means related type model record json
  else
    match type.field? name with
    | none => False
    | some (.relation _ target _ inner) =>
      ∃ other ∈ related model record name, Means related inner target other json
    | some (.scalar _ kind list _) =>
      match json with
      | .obj operators =>
        ∀ operator ∈ operators, ∃ op, FilterOp.ofName? operator.1 = some op ∧
          op.Means kind list ((record.get? name).getD .null) operator.2
      | _ => False
termination_by (sizeOf json, 1)
decreasing_by
  case _ | _ =>
    rename_i hmem
    have hitem := List.sizeOf_lt_of_mem hmem
    exact Prod.Lex.left _ _ (by simp only [Json.arr.sizeOf_spec]; omega)
  · exact Prod.Lex.left _ _ (by
      simp only [Json.arr.sizeOf_spec, List.cons.sizeOf_spec]
      omega)
  · exact Prod.Lex.right _ Nat.zero_lt_one
  · exact Prod.Lex.right _ Nat.zero_lt_one

end

/-! ### Reading keeps the meaning -/

theorem occursIn_iff {needle text : List Char} :
    occursIn needle text = true ↔ needle <:+: text := by
  induction text with
  | nil => simp [occursIn]
  | cons c rest ih => simp [occursIn, List.infix_cons_iff, ih]

theorem textMatches_iff {op : FilterOp} {text needle : List Char} :
    textMatches op text needle = true ↔ op.MeansOfText text needle := by
  cases op <;> simp [textMatches, FilterOp.MeansOfText, occursIn_iff]

theorem isAtMost_iff {a b : Value} :
    isAtMost a b = true ↔ ∃ order, a.compare? b = some order ∧ order.isLE := by
  unfold isAtMost
  cases a.compare? b with
  | none => simp
  | some order => cases order <;> simp

theorem isAtLeast_iff {a b : Value} :
    isAtLeast a b = true ↔ ∃ order, a.compare? b = some order ∧ order.isGE := by
  unfold isAtLeast
  cases a.compare? b with
  | none => simp
  | some order => cases order <;> simp

theorem str?_eq_some {value : Value} {text : String} :
    value.str? = some text ↔ value = .str text := by
  cases value <;> simp [Value.str?]

theorem leafMatches_value {op : FilterOp} {value operand : Value} :
    leafMatches value op (.value operand) = true ↔ op.MeansOf value operand := by
  cases op with
  | lte => exact isAtMost_iff
  | gte => exact isAtLeast_iff
  | eq | ne | lt | gt => simp [leafMatches, FilterOp.MeansOf, isBelow, isAbove]
  | contains | icontains | startsWith | istartsWith | endsWith | iendsWith | iexact | isIn | notIn
  | isNull | range =>
      unfold leafMatches FilterOp.MeansOf
      dsimp only
      split
      · rename_i text needle hvalue hoperand
        rw [textMatches_iff, str?_eq_some.mp hvalue, str?_eq_some.mp hoperand]
        simp
      · rename_i hother
        refine iff_of_false Bool.false_ne_true ?_
        rintro ⟨text, needle, rfl, rfl, -⟩
        exact hother text needle rfl rfl

theorem readValue_ok {kind : Kind} {list : Bool} {json : Json} {value : Value}
    (h : Operand.readValue kind list json = .ok value) :
    Value.ofJson kind list json = .ok value := by
  unfold Operand.readValue at h
  split at h
  · cases h
  · split at h
    · rename_i read hread
      injection h with heq
      rwa [← heq]
    · cases h

theorem any_same_iff {kind : Kind} {list : Bool} {items : List Json} {operands : List Value}
    (hread : items.mapM (Operand.readValue kind list) = .ok operands) (value : Value) :
    operands.any (·.same value) = true ↔
      ∃ item ∈ items, ∃ operand, Value.ofJson kind list item = .ok operand ∧
        operand.same value := by
  have hall := forall₂_of_mapM_ok hread
  clear hread
  induction hall with
  | nil => simp
  | cons hitem _ ih => simp [ih, readValue_ok hitem]

theorem read_flag {kind : Kind} {list : Bool} {json : Json} {operand : Operand}
    (h : Operand.read .isNull kind list json = .ok operand) :
    ∃ flag, json = .bool flag ∧ operand = .flag flag := by
  cases json with
  | bool flag => exact ⟨flag, rfl, (Except.ok.inj h).symm⟩
  | null | num | str | arr | obj => cases h

theorem read_values {op : FilterOp} {kind : Kind} {list : Bool} {json : Json} {operand : Operand}
    (hop : op = .isIn ∨ op = .notIn) (h : Operand.read op kind list json = .ok operand) :
    ∃ items operands, json = .arr items ∧
      items.mapM (Operand.readValue kind list) = .ok operands ∧ operand = .values operands := by
  cases json with
  | arr items =>
      have hmap : (items.mapM (Operand.readValue kind list)).map Operand.values = .ok operand := by
        rcases hop with rfl | rfl <;> exact h
      cases hitems : items.mapM (Operand.readValue kind list) with
      | error fault => rw [hitems] at hmap; cases hmap
      | ok operands =>
          rw [hitems] at hmap
          exact ⟨items, operands, rfl, hitems, (Except.ok.inj hmap).symm⟩
  | null | bool | num | str | obj => rcases hop with rfl | rfl <;> cases h

theorem read_range {kind : Kind} {list : Bool} {json : Json} {operand : Operand}
    (h : Operand.read .range kind list json = .ok operand) :
    ∃ low high least greatest, json = .arr [low, high] ∧
      Operand.readValue kind list low = .ok least ∧
      Operand.readValue kind list high = .ok greatest ∧ operand = .range least greatest := by
  unfold Operand.read at h
  dsimp only at h
  split at h
  · rename_i low high
    cases hleast : Operand.readValue kind list low with
    | error fault => rw [hleast] at h; cases h
    | ok least =>
        cases hgreatest : Operand.readValue kind list high with
        | error fault => rw [hleast, hgreatest] at h; cases h
        | ok greatest =>
            rw [hleast, hgreatest] at h
            exact ⟨low, high, least, greatest, rfl, hleast, hgreatest, (Except.ok.inj h).symm⟩
  · cases h

theorem read_single {kind : Kind} {list : Bool} {json : Json} {operand : Operand}
    (h : (Operand.readValue kind list json).map Operand.value = .ok operand) :
    ∃ single, Operand.readValue kind list json = .ok single ∧ operand = .value single := by
  cases hvalue : Operand.readValue kind list json with
  | error fault => rw [hvalue] at h; cases h
  | ok single =>
      rw [hvalue] at h
      exact ⟨single, rfl, (Except.ok.inj h).symm⟩

/-- An operand that is read means what the caller wrote. -/
theorem leafMatches_iff {op : FilterOp} {kind : Kind} {list : Bool} {json : Json}
    {operand : Operand} (hread : Operand.read op kind list json = .ok operand) {value : Value} :
    leafMatches value op operand = true ↔ op.Means kind list value json := by
  cases op with
  | isNull =>
      obtain ⟨flag, rfl, rfl⟩ := read_flag hread
      change (value.isNull == flag) = true ↔ Json.bool flag = .bool value.isNull
      rw [beq_iff_eq, Json.bool.injEq, eq_comm]
  | isIn =>
      obtain ⟨items, operands, rfl, hitems, rfl⟩ := read_values (.inl rfl) hread
      have hany := any_same_iff hitems value
      simpa [leafMatches, FilterOp.Means] using hany
  | notIn =>
      obtain ⟨items, operands, rfl, hitems, rfl⟩ := read_values (.inr rfl) hread
      have hnone := not_congr (any_same_iff hitems value)
      simpa [leafMatches, FilterOp.Means] using hnone
  | range =>
      obtain ⟨low, high, least, greatest, rfl, hleast, hgreatest, rfl⟩ := read_range hread
      simp [leafMatches, FilterOp.Means, FilterOp.MeansOf, isAtLeast_iff, isAtMost_iff,
        readValue_ok hleast, readValue_ok hgreatest]
  | eq | ne | lt | lte | gt | gte | contains | icontains | startsWith | istartsWith | endsWith
  | iendsWith | iexact =>
      obtain ⟨single, hsingle, rfl⟩ := read_single hread
      simp [FilterOp.Means, leafMatches_value, readValue_ok hsingle]

/-! ### Expressions keep their meaning -/

theorem allHold_append {related : RelatedRecords} {model : String} {record : Record}
    {front behind : List Filter} :
    allHold related model record (front ++ behind) =
      (allHold related model record front && allHold related model record behind) := by
  induction front with
  | nil => rfl
  | cons filter filters ih => simp [allHold, ih, Bool.and_assoc]

theorem holds_conjunction {related : RelatedRecords} {model : String} {record : Record}
    {filters : List Filter} :
    holds related model record (conjunction filters) = allHold related model record filters := by
  unfold conjunction
  split <;> simp [holds, allHold]

theorem readPredicate_iff {related : RelatedRecords} {model : String} {record : Record}
    {field : String} {type : OperatorType} {path name : String} {json : Json} {filter : Filter}
    (h : readPredicate field type path name json = .ok filter) :
    filter.holds related model record = true ↔
      ∃ op, FilterOp.ofName? name = some op ∧
        op.Means type.kind type.list ((record.get? field).getD .null) json := by
  unfold readPredicate at h
  split at h
  · cases h
  · rename_i op hop
    have hname : FilterOp.ofName? name = some op := (Option.filter_eq_some_iff.mp hop).1
    split at h
    · rename_i operand hread
      obtain rfl : Filter.leaf field op operand = filter := Except.ok.inj h
      simp [holds, leafMatches_iff hread, hname]
    · cases h

theorem readPredicates_iff {related : RelatedRecords} {model : String} {record : Record}
    {field : String} {type : OperatorType} {path : String} {operators : List (String × Json)}
    {filters : List Filter} (h : readPredicates field type path operators = .ok filters) :
    allHold related model record filters = true ↔
      ∀ operator ∈ operators, ∃ op, FilterOp.ofName? operator.1 = some op ∧
        op.Means type.kind type.list ((record.get? field).getD .null) operator.2 := by
  induction operators generalizing filters with
  | nil =>
      obtain rfl : [] = filters := Except.ok.inj h
      simp [allHold]
  | cons operator operators ih =>
      obtain ⟨filter, others, hfirst, hrest, rfl⟩ := Checked.both_eq_ok_iff.mp h
      simp [allHold, readPredicate_iff hfirst, ih hrest]

/-- What the reader makes of one member. -/
def readMember (type : FilterType) (path name : String) (json : Json) : Checked (List Filter) :=
  if name = "and" then
    match json with
    | .arr items => (readItems type path 0 items).map fun filters => [.all filters]
    | _ => Checked.fault path (.filter .list)
  else if name = "or" then
    match json with
    | .arr items => (readItems type path 0 items).map fun filters => [.any filters]
    | _ => Checked.fault path (.filter .list)
  else if name = "not" then
    match json with
    | .arr [item] => (read type path item).map fun filter => [.not filter]
    | .arr _ => Checked.fault path (.filter .negation)
    | json => (read type path json).map fun filter => [.not filter]
  else
    match type.field? name with
    | none => Checked.fault path (.filter (.unknownField type.name))
    | some (.relation _ target _ inner) =>
      (read inner path json).map fun filter => [.related name target filter]
    | some (.scalar _ kind list nullable) =>
      match json with
      | .obj members => readPredicates name ⟨kind, list, nullable⟩ path members
      | _ => Checked.fault path (.filter .operators)

theorem readMembers_cons (type : FilterType) (path name : String) (json : Json)
    (rest : List (String × Json)) :
    readMembers type path ((name, json) :: rest) =
      Checked.both List.append (readMember type s!"{path}.{name}" name json)
        (readMembers type path rest) := by
  cases json with
  | arr items => rcases items with _ | ⟨first, _ | ⟨second, items⟩⟩ <;> rfl
  | null | bool | num | str | obj => rfl

variable {related : RelatedRecords}

mutual

theorem read_means {type : FilterType} {path : String} {json : Json} {filter : Filter}
    (h : read type path json = .ok filter) (model : String) (record : Record) :
    filter.holds related model record = true ↔ Means related type model record json := by
  cases json with
  | obj members =>
      obtain ⟨filters, hfilters, rfl⟩ := Checked.map_eq_ok h
      rw [holds_conjunction, Means]
      exact readMembers_means hfilters model record
  | null | bool | num | str | arr => cases h
termination_by (sizeOf json, 0)

theorem readMembers_means {type : FilterType} {path : String} {members : List (String × Json)}
    {filters : List Filter} (h : readMembers type path members = .ok filters) (model : String)
    (record : Record) :
    allHold related model record filters = true ↔
      ∀ member ∈ members, MemberMeans related type model record member.1 member.2 := by
  match members with
  | [] =>
      obtain rfl : [] = filters := Except.ok.inj h
      simp [allHold]
  | (name, json) :: rest =>
      rw [readMembers_cons] at h
      obtain ⟨first, others, hfirst, hrest, rfl⟩ := Checked.both_eq_ok_iff.mp h
      have hmember := readMember_means hfirst model record
      have hothers := readMembers_means hrest model record
      change allHold related model record (first ++ others) = true ↔ _
      simp [allHold_append, hmember, hothers]
termination_by (sizeOf members, 0)

theorem readMember_means {type : FilterType} {path name : String} {json : Json}
    {filters : List Filter} (h : readMember type path name json = .ok filters) (model : String)
    (record : Record) :
    allHold related model record filters = true ↔
      MemberMeans related type model record name json := by
  unfold readMember at h
  unfold MemberMeans
  by_cases hand : name = "and"
  · rw [if_pos hand] at h ⊢
    cases json with
    | arr items =>
        obtain ⟨read, hread, rfl⟩ := Checked.map_eq_ok h
        simp [allHold, holds, (readItems_means hread model record).1]
    | null | bool | num | str | obj => cases h
  rw [if_neg hand] at h ⊢
  by_cases hor : name = "or"
  · rw [if_pos hor] at h ⊢
    cases json with
    | arr items =>
        obtain ⟨read, hread, rfl⟩ := Checked.map_eq_ok h
        simp [allHold, holds, (readItems_means hread model record).2]
    | null | bool | num | str | obj => cases h
  rw [if_neg hor] at h ⊢
  by_cases hnot : name = "not"
  · rw [if_pos hnot] at h ⊢
    split at h
    · obtain ⟨read, hread, rfl⟩ := Checked.map_eq_ok h
      simp [allHold, holds, ← read_means hread model record]
    · cases h
    · obtain ⟨read, hread, rfl⟩ := Checked.map_eq_ok h
      simp [allHold, holds, ← read_means hread model record]
  rw [if_neg hnot] at h ⊢
  split at h
  · cases h
  · rename_i target many inner hfield
    obtain ⟨read, hread, rfl⟩ := Checked.map_eq_ok h
    simp [allHold, holds, ← read_means hread target]
  · split at h
    · exact readPredicates_iff h
    · cases h
termination_by (sizeOf json, 1)

theorem readItems_means {type : FilterType} {path : String} {index : Nat} {items : List Json}
    {filters : List Filter} (h : readItems type path index items = .ok filters) (model : String)
    (record : Record) :
    (allHold related model record filters = true ↔
        ∀ item ∈ items, Means related type model record item) ∧
      (anyHolds related model record filters = true ↔
        ∃ item ∈ items, Means related type model record item) := by
  match items with
  | [] =>
      obtain rfl : [] = filters := Except.ok.inj h
      simp [allHold, anyHolds]
  | item :: items =>
      obtain ⟨first, others, hfirst, hrest, rfl⟩ := Checked.both_eq_ok_iff.mp h
      have hitem := read_means hfirst model record
      obtain ⟨hall, hany⟩ := readItems_means hrest model record
      simp [allHold, anyHolds, hitem, hall, hany]
termination_by (sizeOf items, 0)

end

/-- A filter holds of the records of which the expression says so that it was read from. -/
theorem holds_iff_means {type : FilterType} {json : Json} {filter : Filter}
    (hread : ofJson type json = .ok filter) (model : String) (record : Record) :
    filter.holds related model record = true ↔ Means related type model record json :=
  read_means hread model record

/-- Expressions with no operator, with several ones, and with an empty disjunction. -/
def chainExpression : Json := .obj [
  ("id", .obj []),
  ("next", .obj [
    ("id", .obj [("gt", .num (.int 1)), ("in", .arr [.num (.int 2), .num (.int 3)])]),
    ("not", .arr [.obj [("or", .arr [])]])])]

theorem holds_iff_means_chain : ∃ model ∈ chainSchema.models, ∃ filter,
    ofJson (chainSchema.filter model) chainExpression = .ok filter ∧
      filter.holds (fun _ _ _ => [chainNode 2 .null]) "Node" (chainNode 1 (.int 2)) = true ∧
      Means (fun _ _ _ => [chainNode 2 .null]) (chainSchema.filter model) "Node"
        (chainNode 1 (.int 2)) chainExpression := by
  have hread : ∃ model ∈ chainSchema.models,
      (ofJson (chainSchema.filter model) chainExpression).value?.any
        (·.holds (fun _ _ _ => [chainNode 2 .null]) "Node" (chainNode 1 (.int 2))) = true := by
    decide +kernel
  obtain ⟨model, hmodel, hany⟩ := hread
  obtain ⟨filter, hfilter, hholds⟩ := Option.any_eq_true _ _ |>.mp hany
  have hok : ofJson (chainSchema.filter model) chainExpression = .ok filter := by
    cases h : ofJson (chainSchema.filter model) chainExpression with
    | error violations => rw [h] at hfilter; cases hfilter
    | ok read => rw [h] at hfilter; exact congrArg Except.ok (Option.some.inj hfilter)
  exact ⟨model, hmodel, filter, hok, hholds, (holds_iff_means hok _ _).mp hholds⟩

end Filter

end ModelSurface
