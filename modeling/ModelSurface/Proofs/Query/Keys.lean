import ModelSurface.Proofs.Filter.Offences
import ModelSurface.Proofs.Query.Paging
import ModelSurface.Proofs.Schema.WellFormed

/-!
# The order that a caller asks for

The entries of an order are read by a grammar of their own. The reader heeds only the members of an
entry that it knows, and a direction only if it is a text; what it heeds is accepted exactly if it
is of the grammar. Every other entry is reported at its place, and neither the reports nor the keys
depend on the other entries and arguments.
-/

namespace ModelSurface

/-! ### Names of fields -/

namespace Registry

variable {registry : Registry} {schema : Schema} {model : Model}

theorem isValid_sortable (hschema : registry.schema = .ok schema) (hmodel : model ∈ schema.models)
    {field : String} (hfield : field ∈ model.sortableFields) : Naming.isValid field := by
  obtain ⟨found, hfound, rfl⟩ := exists_introspection hschema
  have hsound := (registry.sound_schema hschema).model model hmodel
  obtain ⟨held, hheld, rfl⟩ := List.mem_map.mp hfield
  exact isValid_member hfound (List.mem_filter.mp hmodel).1
    (.inl (hsound.mem_fields_keys (List.mem_filter.mp hheld).1))

end Registry

/-! ### The grammar of entries -/

namespace OrderKey

/-- The words for a direction, and what it is without one. -/
inductive Directs : Option String → Direction → Prop
  | absent : Directs none .ascending
  | upward {word : String} (hword : word = "ASC" ∨ word = "asc") : Directs (some word) .ascending
  | downward {word : String} (hword : word = "DESC" ∨ word = "desc") :
      Directs (some word) .descending

/-- The grammar of entries: the key that an entry names, with one of the fields. -/
inductive Names (fields : List String) : Json → OrderKey → Prop
  | ascending {field : String} (hfield : field ∈ fields) :
      Names fields (.str field) ⟨field, .ascending⟩
  | descending {field : String} (hfield : field ∈ fields) :
      Names fields (.str ("-" ++ field)) ⟨field, .descending⟩
  | members {members : List (String × Json)} {field : String} {word : Option String}
      {direction : Direction} (hfield : field ∈ fields)
      (hknown : ∀ member ∈ members, member.1 = "field" ∨ member.1 = "direction")
      (hnamed : members.lookup "field" = some (.str field))
      (hgiven : members.lookup "direction" = word.map .str) (hdirects : Directs word direction) :
      Names fields (.obj members) ⟨field, direction⟩

/-- What is wrong with an entry that names no key. -/
inductive Refuses (fields : List String) : Json → ArgumentFault → Prop
  | shape {json : Json} (hstr : json.str? = none) (hobj : json.obj? = none) :
      Refuses fields json .orderName
  | unnamed {members : List (String × Json)}
      (hnamed : ∀ field, members.lookup "field" ≠ some (.str field)) :
      Refuses fields (.obj members) .orderField
  | undirected {members : List (String × Json)} {field word : String}
      (hnamed : members.lookup "field" = some (.str field))
      (hgiven : members.lookup "direction" = some (.str word))
      (hword : ∀ direction, ¬Directs (some word) direction) :
      Refuses fields (.obj members) (.orderDirection word)
  | ascending {field : String} (hfield : field ∉ fields) (hplain : ∀ rest, field ≠ "-" ++ rest) :
      Refuses fields (.str field) (.unsortable field)
  | descending {field : String} (hfield : field ∉ fields) :
      Refuses fields (.str ("-" ++ field)) (.unsortable field)
  | members {members : List (String × Json)} {field : String} {word : Option String}
      {direction : Direction} (hfield : field ∉ fields)
      (hnamed : members.lookup "field" = some (.str field))
      (hgiven : members.lookup "direction" = word.map .str) (hdirects : Directs word direction) :
      Refuses fields (.obj members) (.unsortable field)

/-- The part of an entry that is heeded. -/
def heeded : Json → Json
  | .obj members =>
    .obj ((((members.lookup "direction").bind Json.str?).map (("direction", .str ·))).toList ++
      ((members.lookup "field").map ("field", ·)).toList)
  | json => json

/-- Nothing of an entry is passed over. -/
def AllHeeded : Json → Prop
  | .obj members =>
    (∀ member ∈ members, member.1 = "field" ∨ member.1 = "direction") ∧
      ∀ json, members.lookup "direction" = some json → json.str?.isSome = true
  | _ => True

variable {fields : List String} {entry : Json} {key : OrderKey}

theorem heeded_obj (members : List (String × Json)) :
    ∃ kept, heeded (.obj members) = .obj kept ∧
      (∀ member ∈ kept, member.1 = "field" ∨ member.1 = "direction") ∧
        kept.lookup "field" = members.lookup "field" ∧
          kept.lookup "direction" = ((members.lookup "direction").bind Json.str?).map .str := by
  refine ⟨_, rfl, ?_, ?_, ?_⟩
  · intro member hmember
    rcases List.mem_append.mp hmember with hdirection | hfield
    · obtain ⟨_, -, rfl⟩ := Option.map_eq_some_iff.mp (Option.mem_toList.mp hdirection)
      exact .inr rfl
    · obtain ⟨_, -, rfl⟩ := Option.map_eq_some_iff.mp (Option.mem_toList.mp hfield)
      exact .inl rfl
  · cases (members.lookup "direction").bind Json.str? <;> cases members.lookup "field" <;> rfl
  · cases (members.lookup "direction").bind Json.str? <;> cases members.lookup "field" <;> rfl

theorem eq_map_str_iff {given : Option Json} {word : Option String} :
    given = word.map .str ↔
      (∀ json, given = some json → json.str?.isSome = true) ∧ given.bind Json.str? = word := by
  cases given with
  | none => cases word <;> simp
  | some json => cases word <;> cases json <;> simp [Json.str?]

/-- An entry is of the grammar exactly if nothing of it is passed over and what is heeded is. -/
theorem names_iff_heeded :
    Names fields entry key ↔ AllHeeded entry ∧ Names fields (heeded entry) key := by
  cases entry with
  | obj members =>
      obtain ⟨kept, hkept, hknown, hfield, hdirection⟩ := heeded_obj members
      rw [hkept]
      constructor
      · intro h
        cases h with
        | members hsortable hall hnamed hgiven hdirects =>
            obtain ⟨htext, hword⟩ := eq_map_str_iff.mp hgiven
            exact ⟨⟨hall, htext⟩, .members hsortable hknown (hfield.trans hnamed)
              (hdirection.trans (congrArg _ hword)) hdirects⟩
      · rintro ⟨⟨hall, htext⟩, h⟩
        cases h with
        | members hsortable _ hnamed hgiven hdirects =>
            have hword := Option.map_injective (fun _ _ => Json.str.inj)
              (hdirection.symm.trans hgiven)
            exact .members hsortable hall (hfield.symm.trans hnamed)
              (eq_map_str_iff.mpr ⟨htext, hword⟩) hdirects
  | null | bool | num | str | arr => exact (and_iff_right trivial).symm

/-! ### Reading entries -/

theorem read_sign (rest : String) : read (.str ("-" ++ rest)) = .ok ⟨rest, .descending⟩ := by
  unfold read
  dsimp only
  rw [String.toList_append]
  change Except.ok (OrderKey.mk (String.ofList rest.toList) .descending) = _
  rw [String.ofList_toList]

theorem sign_ne_of_valid {field : String} (h : Naming.isValid field) (rest : String) :
    field ≠ "-" ++ rest := by
  rintro rfl
  obtain ⟨c, hfirst, hletter⟩ := (Naming.isValid_iff.mp h).first
  rw [String.toList_append] at hfirst
  obtain rfl : '-' = c := Option.some.inj hfirst
  cases hletter

theorem read_plain {spec : String} (h : ∀ rest, spec ≠ "-" ++ rest) :
    read (.str spec) = .ok ⟨spec, .ascending⟩ := by
  unfold read
  dsimp only
  split
  · rename_i rest hspec
    refine absurd ?_ (h (String.ofList rest))
    apply String.ext
    rw [hspec, String.toList_append, @String.toList_ofList rest]
    rfl
  · rfl

theorem read_unnamed {members : List (String × Json)}
    (h : ∀ field, members.lookup "field" ≠ some (.str field)) :
    read (.obj members) = .error .orderField := by
  have hnone : (members.lookup "field").bind Json.str? = none := by
    refine Option.bind_eq_none_iff.mpr fun json hjson => ?_
    cases json with
    | str field => exact absurd hjson (h field)
    | _ => rfl
  unfold read
  dsimp only
  rw [hnone]

section Members

variable {members : List (String × Json)} {field : String}
  (hnamed : members.lookup "field" = some (.str field))

include hnamed

theorem read_directed {direction : Direction}
    (hdirects : Directs ((members.lookup "direction").bind Json.str?) direction) :
    read (.obj members) = .ok ⟨field, direction⟩ := by
  unfold read
  dsimp only
  rw [hnamed, Option.bind_some]
  generalize (members.lookup "direction").bind Json.str? = word at hdirects ⊢
  cases hdirects with
  | absent => rfl
  | upward hword => exact if_pos hword
  | downward hword =>
      rcases hword with rfl | rfl <;> rfl

theorem read_undirected {word : String}
    (hword : (members.lookup "direction").bind Json.str? = some word)
    (hnone : ∀ direction, ¬Directs (some word) direction) :
    read (.obj members) = .error (.orderDirection word) := by
  unfold read
  dsimp only
  rw [hnamed, Option.bind_some, hword]
  dsimp only [Json.str?]
  rw [if_neg fun hup => hnone _ (.upward hup), if_neg fun hdown => hnone _ (.downward hdown)]

end Members

theorem read_heeded (entry : Json) : read (heeded entry) = read entry := by
  cases entry with
  | obj members =>
      obtain ⟨kept, hkept, -, hfield, hdirection⟩ := heeded_obj members
      have hword : (kept.lookup "direction").bind Json.str? =
          (members.lookup "direction").bind Json.str? := (eq_map_str_iff.mp hdirection).2
      rw [hkept]
      unfold read
      dsimp only
      rw [hfield, hword]
  | null | bool | num | str | arr => rfl

theorem ofJson_heeded (fields : List String) (path : String) (entry : Json) :
    ofJson fields path (heeded entry) = ofJson fields path entry := by
  unfold ofJson
  rw [read_heeded]

section Judged

variable {path : String}

theorem ofJson_of_read (hread : read entry = .ok key) :
    ofJson fields path entry =
      if key.field ∈ fields then .ok key
      else Checked.fault path (.argument (.unsortable key.field)) := by
  unfold ofJson
  rw [hread]
  dsimp only
  simp only [List.contains_iff_mem]

theorem ofJson_of_names (hvalid : ∀ field ∈ fields, Naming.isValid field)
    (h : Names fields entry key) : ofJson fields path entry = .ok key := by
  cases h with
  | ascending hfield =>
      -- a name that began with the sign would be read as the descending order of another one
      have hplain : ∀ rest, _ ≠ "-" ++ rest := sign_ne_of_valid (hvalid _ hfield)
      exact (ofJson_of_read (read_plain hplain)).trans (if_pos hfield)
  | descending hfield => exact (ofJson_of_read (read_sign _)).trans (if_pos hfield)
  | members hfield _ hnamed hgiven hdirects =>
      obtain ⟨-, hword⟩ := eq_map_str_iff.mp hgiven
      exact (ofJson_of_read (read_directed hnamed (hword ▸ hdirects))).trans (if_pos hfield)

theorem ofJson_of_refuses {fault : ArgumentFault} (h : Refuses fields entry fault) :
    ofJson fields path entry = Checked.fault path (.argument fault) := by
  have hunread : ∀ {fault}, read entry = .error fault →
      ofJson fields path entry = Checked.fault path (.argument fault) := by
    intro fault hread
    unfold ofJson
    rw [hread]
  cases h with
  | shape hstr hobj =>
      cases entry with
      | str => cases hstr
      | obj => cases hobj
      | null | bool | num | arr => exact hunread rfl
  | unnamed hnamed => exact hunread (read_unnamed hnamed)
  | undirected hnamed hgiven hword =>
      exact hunread (read_undirected hnamed (congrArg (·.bind Json.str?) hgiven) hword)
  | ascending hfield hplain => exact (ofJson_of_read (read_plain hplain)).trans (if_neg hfield)
  | descending hfield => exact (ofJson_of_read (read_sign _)).trans (if_neg hfield)
  | members hfield hnamed hgiven hdirects =>
      obtain ⟨-, hword⟩ := eq_map_str_iff.mp hgiven
      exact (ofJson_of_read (read_directed hnamed (hword ▸ hdirects))).trans (if_neg hfield)

theorem ofJson_of_refuses_heeded {fault : ArgumentFault}
    (h : Refuses fields (heeded entry) fault) :
    ofJson fields path entry = Checked.fault path (.argument fault) := by
  rw [← ofJson_heeded]
  exact ofJson_of_refuses h

theorem refuses_unique {fault other : ArgumentFault} (h : Refuses fields (heeded entry) fault)
    (hother : Refuses fields (heeded entry) other) : fault = other := by
  have hfault : ofJson fields "" entry = Checked.fault "" (.argument fault) :=
    ofJson_of_refuses_heeded h
  have hsame := hfault.symm.trans (ofJson_of_refuses_heeded hother)
  have hviolation := List.head_eq_of_cons_eq (Except.error.inj hsame)
  exact Cause.argument.inj (congrArg Violation.cause hviolation)

/-- What is heeded of an entry names a key, or something is wrong with it. -/
theorem names_or_refuses (fields : List String) (entry : Json) :
    (∃ key, Names fields (heeded entry) key) ∨ ∃ fault, Refuses fields (heeded entry) fault := by
  cases entry with
  | str spec =>
      by_cases hsign : ∃ rest, spec = "-" ++ rest
      · obtain ⟨rest, rfl⟩ := hsign
        by_cases hfield : rest ∈ fields
        · exact .inl ⟨_, .descending hfield⟩
        · exact .inr ⟨_, .descending hfield⟩
      · by_cases hfield : spec ∈ fields
        · exact .inl ⟨_, .ascending hfield⟩
        · exact .inr ⟨_, .ascending hfield fun rest heq => hsign ⟨rest, heq⟩⟩
  | obj members =>
      obtain ⟨kept, hkept, hknown, -, hdirection⟩ := heeded_obj members
      rw [hkept]
      by_cases hnamed : ∃ field, kept.lookup "field" = some (.str field)
      · obtain ⟨field, hfield⟩ := hnamed
        by_cases hdirects : ∃ direction, Directs ((members.lookup "direction").bind Json.str?)
            direction
        · obtain ⟨direction, hdirects⟩ := hdirects
          by_cases hsortable : field ∈ fields
          · exact .inl ⟨_, .members hsortable hknown hfield hdirection hdirects⟩
          · exact .inr ⟨_, .members hsortable hfield hdirection hdirects⟩
        · have hnone := not_exists.mp hdirects
          cases hword : (members.lookup "direction").bind Json.str? with
          | none => exact absurd .absent (hword ▸ hnone .ascending)
          | some word =>
              rw [hword] at hdirection hnone
              exact .inr ⟨_, .undirected hfield hdirection hnone⟩
      · exact .inr ⟨_, .unnamed (not_exists.mp hnamed)⟩
  | null | bool | num | arr => exact .inr ⟨_, .shape rfl rfl⟩

variable (hvalid : ∀ field ∈ fields, Naming.isValid field)

include hvalid

theorem ofJson_eq_ok_iff : ofJson fields path entry = .ok key ↔ Names fields (heeded entry) key := by
  rw [← ofJson_heeded]
  constructor
  · intro h
    rcases names_or_refuses fields entry with ⟨other, hnames⟩ | ⟨fault, hrefuses⟩
    · rw [ofJson_of_names hvalid hnames] at h
      exact Except.ok.inj h ▸ hnames
    · rw [ofJson_of_refuses hrefuses] at h
      cases h
  · exact ofJson_of_names hvalid

/-- What is heeded of an entry names no key exactly if something is wrong with it. -/
theorem refuses_iff_not_names : (∃ fault, Refuses fields (heeded entry) fault) ↔
    ∀ key, ¬Names fields (heeded entry) key := by
  constructor
  · rintro ⟨fault, hrefuses⟩ key hnames
    have hok : ofJson fields "" entry = .ok key := (ofJson_eq_ok_iff hvalid).mpr hnames
    rw [ofJson_of_refuses_heeded hrefuses] at hok
    cases hok
  · intro hnone
    exact (names_or_refuses fields entry).resolve_left fun ⟨key, hnames⟩ => hnone key hnames

theorem ofJson_settles : (ofJson fields path entry).Settles (∃ key, Names fields (heeded entry) key)
    fun place violation => place = [] ∧ ∃ fault,
      Refuses fields (heeded entry) fault ∧ violation = .ofField path (.argument fault) := by
  rcases names_or_refuses fields entry with ⟨key, hnames⟩ | ⟨fault, hrefuses⟩
  · rw [(ofJson_eq_ok_iff hvalid).mpr hnames]
    refine (Checked.Settles.of_ok key).congr (iff_of_true trivial ⟨key, hnames⟩) ?_
    intro place violation
    refine iff_of_false id ?_
    rintro ⟨-, fault, hrefuses, -⟩
    exact (refuses_iff_not_names hvalid).mp ⟨fault, hrefuses⟩ key hnames
  · have hfault : ofJson fields path entry = _ := ofJson_of_refuses_heeded hrefuses
    rw [hfault]
    refine (Checked.Settles.of_fault _ _).congr (iff_of_false id ?_) ?_
    · rintro ⟨key, hnames⟩
      exact (refuses_iff_not_names hvalid).mp ⟨fault, hrefuses⟩ key hnames
    · intro place violation
      refine and_congr_right fun _ => ?_
      constructor
      · intro heq
        exact ⟨fault, hrefuses, heq⟩
      · rintro ⟨other, hother, rfl⟩
        obtain rfl := refuses_unique hother hrefuses
        rfl

/-- An entry at a place of the order that names no key. -/
def Offends (fields : List String) (index : ℕ) (entry : Json) (place : Filter.Place)
    (violation : Violation) : Prop :=
  place = [] ∧ ∃ fault, Refuses fields (heeded entry) fault ∧
    violation = .ofField s!"order_by[{index}]" (.argument fault)

theorem listOfJson_eq_ok_iff {first : ℕ} {entries : List Json} {keys : List OrderKey} :
    listOfJson fields first entries = .ok keys ↔
      List.Forall₂ (fun entry key => Names fields (heeded entry) key) entries keys := by
  induction entries generalizing first keys with
  | nil =>
      rw [List.forall₂_nil_left_iff]
      exact ⟨fun h => (Except.ok.inj h).symm, fun h => h ▸ rfl⟩
  | cons entry rest ih =>
      rw [listOfJson, Checked.both_eq_ok_iff, List.forall₂_cons_left_iff]
      constructor
      · rintro ⟨key, keys, hkey, hkeys, rfl⟩
        exact ⟨key, keys, (ofJson_eq_ok_iff hvalid).mp hkey, ih.mp hkeys, rfl⟩
      · rintro ⟨key, keys, hkey, hkeys, rfl⟩
        exact ⟨key, keys, (ofJson_eq_ok_iff hvalid).mpr hkey, ih.mpr hkeys, rfl⟩

theorem listOfJson_settles (first : ℕ) (entries : List Json) :
    (listOfJson fields first entries).Settles
      (∀ entry ∈ entries, ∃ key, Names fields (heeded entry) key)
      (Checked.Among first entries (Offends fields)) := by
  induction entries generalizing first with
  | nil =>
      refine (Checked.Settles.of_ok _).congr (by simp) fun place violation => ?_
      refine iff_of_false id ?_
      rintro ⟨_, _, _, hpart, -⟩
      cases hpart
  | cons entry rest ih =>
      refine ((ofJson_settles hvalid).cons (ih (first + 1)) _).congr ?_ fun _ _ => Iff.rfl
      rw [List.forall_mem_cons]

end Judged

end OrderKey

/-! ### Arguments with and without an order -/

namespace Arguments

/-- The arguments without one of them. -/
def without (name : String) : Json → Json
  | .obj members => .obj (members.filter fun member => member.1 != name)
  | json => json

/-- The entries of the order that a caller asks for. -/
def orderEntries (arguments : Json) : List Json :=
  match value? arguments "order_by" with
  | none => []
  | some (.arr entries) => entries
  | some entry => [entry]

variable {arguments : Json} {name : String}

theorem value?_without_self (name : String) (arguments : Json) :
    value? (without name arguments) name = none := by
  cases arguments with
  | obj members =>
      have hlookup : (members.filter fun member => member.1 != name).lookup name = none := by
        refine List.lookup_eq_none_iff.mpr fun member hmember => ?_
        exact bne_comm.trans (List.mem_filter.mp hmember).2
      exact congrArg (Option.filter _) hlookup
  | null | bool | num | str | arr => rfl

theorem value?_without_of_ne {other : String} (hne : other ≠ name) (arguments : Json) :
    value? (without name arguments) other = value? arguments other := by
  cases arguments with
  | obj members =>
      have hlookup : (members.filter fun member => member.1 != name).lookup other =
          members.lookup other := by
        induction members with
        | nil => rfl
        | cons member rest ih =>
            by_cases hname : member.1 = name
            · rw [List.filter_cons_of_neg (by simp [hname]), ih, List.lookup_cons,
                beq_false_of_ne (hname ▸ hne)]
            · rw [List.filter_cons_of_pos (by simp [hname]), List.lookup_cons, List.lookup_cons, ih]
      exact congrArg (Option.filter _) hlookup
  | null | bool | num | str | arr => rfl

theorem members_without {known : List String} (hname : name ∈ known) (arguments : Json) :
    (members known (without name arguments)).2 = (members known arguments).2 := by
  cases arguments with
  | obj given =>
      have hunknown : ((given.filter fun member => member.1 != name).map (·.1)).filter
          (fun other => !known.contains other) =
          (given.map (·.1)).filter fun other => !known.contains other := by
        induction given with
        | nil => rfl
        | cons member rest ih =>
            by_cases hmember : member.1 = name
            · rw [List.filter_cons_of_neg (by simp [hmember]), ih, List.map_cons,
                List.filter_cons_of_neg (by simpa [hmember] using hname)]
            · rw [List.filter_cons_of_pos (by simp [hmember]), List.map_cons, List.map_cons,
                List.filter_cons, List.filter_cons, ih]
      exact congrArg (List.map _) hunknown
  | null | bool | num | str | arr => rfl

theorem optional_without {α : Type} (name other : String) (arguments : Json)
    (read : Json → Checked α) :
    optional ((without name arguments).obj?.getD []) other read =
      if other = name then .ok none else optional (arguments.obj?.getD []) other read := by
  split
  · rename_i hsame
    exact optional_none (hsame ▸ value?_without_self name arguments) read
  · rename_i hne
    exact optional_congr (value?_without_of_ne hne arguments) read

/-- What is read as the order, or as none, are the entries one by one. -/
theorem optional_order (fields : List String) (arguments : Json) :
    (optional (arguments.obj?.getD []) "order_by" (OrderKey.keysOfJson fields)).map (·.getD []) =
      OrderKey.listOfJson fields 0 (orderEntries arguments) := by
  have hread : ∀ keys : Checked (List OrderKey), (keys.map some).map (·.getD []) = keys := by
    intro keys
    cases keys <;> rfl
  unfold orderEntries
  cases hgiven : value? arguments "order_by" with
  | none =>
      rw [optional_none hgiven]
      rfl
  | some json =>
      rw [optional_some hgiven]
      cases json <;> exact hread _

end Arguments

theorem Checked.violations_map {α β : Type} (checked : Checked α) (f : α → β) :
    violations (checked.map f) = checked.violations := by
  cases checked <;> rfl

/-- What arguments are read as, and what they are read as without a part of them that is read by
itself. -/
structure Checked.Apart {α β : Type} (part : Checked β) (put : β → α → α)
    (whole others : Checked α) : Prop where
  ok_iff : ∀ args, whole = .ok args ↔
    ∃ given plain, part = .ok given ∧ others = .ok plain ∧ args = put given plain
  told : ∃ front back, others.violations = front ++ back ∧
    whole.violations = front ++ part.violations ++ back

namespace ListArgs

/-- The arguments that a request for a list may have. -/
def known : List String := ["filter", "order_by", "limit", "offset"]

/-- What the arguments of a request for a list are read as, one by one. -/
structure Given (schema : Schema) (model : Model) (arguments : Json) (args : ListArgs) : Prop where
  known : (Arguments.members known arguments).2 = []
  filter : Arguments.optional (arguments.obj?.getD []) "filter"
    (Filter.ofJson (schema.filter model)) = .ok args.filter
  orderBy : (Arguments.optional (arguments.obj?.getD []) "order_by"
    (OrderKey.keysOfJson model.sortableFields)).map (·.getD []) = .ok args.orderBy
  limit : Arguments.optional (arguments.obj?.getD []) "limit" (Arguments.count "limit") =
    .ok args.limit
  offset : (Arguments.optional (arguments.obj?.getD []) "offset" (Arguments.count "offset")).map
    (·.getD 0) = .ok args.offset

variable {schema : Schema} {model : Model} {arguments : Json} {args : ListArgs}

theorem ofJson_eq_ok_iff :
    ofJson schema model arguments = .ok args ↔ Given schema model arguments args := by
  unfold ofJson
  dsimp only
  rw [Arguments.members_fst]
  constructor
  · intro h
    split at h
    · rename_i filter orderBy limit offset hnone hfilter horderBy hlimit hoffset
      rw [hfilter, horderBy, hlimit, hoffset] at hnone
      simp only [List.append_eq_nil_iff] at hnone
      obtain rfl := Except.ok.inj h
      refine ⟨hnone.1.1.1.1, hfilter, ?_, hlimit, ?_⟩
      · rw [horderBy]
        rfl
      · rw [hoffset]
        rfl
    · cases h
  · intro hgiven
    obtain ⟨orderBy, horderBy, hkeys⟩ := Checked.map_eq_ok hgiven.orderBy
    obtain ⟨offset, hoffset, hstart⟩ := Checked.map_eq_ok hgiven.offset
    have hknown : (Arguments.members ["filter", "order_by", "limit", "offset"] arguments).2 = [] :=
      hgiven.known
    rw [hgiven.filter, horderBy, hgiven.limit, hoffset, hknown]
    change Except.ok (ListArgs.mk args.filter (orderBy.getD []) args.limit (offset.getD 0)) = _
    rw [← hkeys, ← hstart]

theorem violations_ofJson (schema : Schema) (model : Model) (arguments : Json) :
    (ofJson schema model arguments).violations =
      (Arguments.members known arguments).2 ++
      (Arguments.optional (arguments.obj?.getD []) "filter"
        (Filter.ofJson (schema.filter model))).violations ++
      (Arguments.optional (arguments.obj?.getD []) "order_by"
        (OrderKey.keysOfJson model.sortableFields)).violations ++
      (Arguments.optional (arguments.obj?.getD []) "limit" (Arguments.count "limit")).violations ++
      (Arguments.optional (arguments.obj?.getD []) "offset"
        (Arguments.count "offset")).violations := by
  unfold ofJson
  dsimp only
  rw [Arguments.members_fst]
  split
  · rename_i hnone _ _ _ _
    exact hnone.symm
  · rfl

theorem ofJson_apart (schema : Schema) (model : Model) (arguments : Json) :
    Checked.Apart
      (OrderKey.listOfJson model.sortableFields 0 (Arguments.orderEntries arguments))
      (fun keys args => { args with orderBy := keys }) (ofJson schema model arguments)
      (ofJson schema model (Arguments.without "order_by" arguments)) := by
  have hknown : (Arguments.members known (Arguments.without "order_by" arguments)).2 =
      (Arguments.members known arguments).2 := Arguments.members_without (by decide) arguments
  constructor
  · intro args
    constructor
    · intro h
      have hgiven := ofJson_eq_ok_iff.mp h
      refine ⟨args.orderBy, { args with orderBy := [] }, ?_, ofJson_eq_ok_iff.mpr ?_, rfl⟩
      · exact (Arguments.optional_order ..).symm.trans hgiven.orderBy
      · constructor
        · exact hknown.trans hgiven.known
        · exact (Arguments.optional_without ..).trans hgiven.filter
        · exact congrArg _ (Arguments.optional_without ..)
        · exact (Arguments.optional_without ..).trans hgiven.limit
        · exact (congrArg _ (Arguments.optional_without ..)).trans hgiven.offset
    · rintro ⟨keys, plain, hkeys, hplain, rfl⟩
      have hgiven := ofJson_eq_ok_iff.mp hplain
      refine ofJson_eq_ok_iff.mpr ?_
      constructor
      · exact hknown.symm.trans hgiven.known
      · exact (Arguments.optional_without ..).symm.trans hgiven.filter
      · exact (Arguments.optional_order ..).trans hkeys
      · exact (Arguments.optional_without ..).symm.trans hgiven.limit
      · exact (congrArg _ (Arguments.optional_without ..)).symm.trans hgiven.offset
  · rw [violations_ofJson, violations_ofJson, hknown, ← Arguments.optional_order,
      Checked.violations_map]
    refine ⟨_, _, ?_, List.append_assoc ..⟩
    simp [Arguments.optional_without, Checked.violations]

end ListArgs

namespace PageArgs

theorem violations_ofJson (schema : Schema) (model : Model) (arguments : Json) :
    (ofJson schema model arguments).violations =
      (Arguments.members known arguments).2 ++
      (Arguments.optional (arguments.obj?.getD []) "filter"
        (Filter.ofJson (schema.filter model))).violations ++
      (Arguments.optional (arguments.obj?.getD []) "order_by"
        (OrderKey.keysOfJson model.sortableFields)).violations ++
      ((Arguments.optional (arguments.obj?.getD []) "page_size"
        (Arguments.count "page_size")).violations ++
      (Arguments.optional (arguments.obj?.getD []) "offset"
        (Arguments.count "offset")).violations ++
      (Arguments.optional (arguments.obj?.getD []) "after" after).violations ++
      jointViolations
        (Arguments.optional (arguments.obj?.getD []) "page_size" (Arguments.count "page_size"))
        (Arguments.optional (arguments.obj?.getD []) "after" after)
        (Arguments.optional (arguments.obj?.getD []) "offset" (Arguments.count "offset"))) := by
  unfold ofJson
  dsimp only
  rw [Arguments.members_fst, ← List.append_assoc, ← List.append_assoc, ← List.append_assoc]
  split
  · rename_i hnone _ _ _ _ _
    exact hnone.symm
  · rfl

theorem ofJson_apart (schema : Schema) (model : Model) (arguments : Json) :
    Checked.Apart
      (OrderKey.listOfJson model.sortableFields 0 (Arguments.orderEntries arguments))
      (fun keys args => { args with orderBy := keys }) (ofJson schema model arguments)
      (ofJson schema model (Arguments.without "order_by" arguments)) := by
  have hknown : (Arguments.members known (Arguments.without "order_by" arguments)).2 =
      (Arguments.members known arguments).2 := Arguments.members_without (by decide) arguments
  constructor
  · intro args
    constructor
    · intro h
      obtain ⟨after, offset, hgiven⟩ := ofJson_eq_ok_iff.mp h
      obtain ⟨orderBy, horderBy, hkeys⟩ := hgiven.orderBy
      refine ⟨args.orderBy, { args with orderBy := [] }, ?_,
        ofJson_eq_ok_iff.mpr ⟨after, offset, ?_⟩, rfl⟩
      · rw [← Arguments.optional_order, horderBy, hkeys]
        rfl
      · constructor
        · exact hknown.trans hgiven.known
        · exact (Arguments.optional_without ..).trans hgiven.filter
        · exact ⟨none, Arguments.optional_without .., rfl⟩
        · exact (Arguments.optional_without ..).trans hgiven.pageSize
        · exact hgiven.joint
        · exact hgiven.start
        · exact (Arguments.optional_without ..).trans hgiven.offset
        · exact (Arguments.optional_without ..).trans hgiven.after
    · rintro ⟨keys, plain, hkeys, hplain, rfl⟩
      obtain ⟨after, offset, hgiven⟩ := ofJson_eq_ok_iff.mp hplain
      rw [← Arguments.optional_order] at hkeys
      obtain ⟨orderBy, horderBy, rfl⟩ := Checked.map_eq_ok hkeys
      refine ofJson_eq_ok_iff.mpr ⟨after, offset, ?_⟩
      constructor
      · exact hknown.symm.trans hgiven.known
      · exact (Arguments.optional_without ..).symm.trans hgiven.filter
      · exact ⟨orderBy, horderBy, rfl⟩
      · exact (Arguments.optional_without ..).symm.trans hgiven.pageSize
      · exact hgiven.joint
      · exact hgiven.start
      · exact (Arguments.optional_without ..).symm.trans hgiven.offset
      · exact (Arguments.optional_without ..).symm.trans hgiven.after
  · rw [violations_ofJson, violations_ofJson, hknown, ← Arguments.optional_order,
      Checked.violations_map]
    refine ⟨_, _, ?_, rfl⟩
    simp [Arguments.optional_without, Checked.violations]

end PageArgs

/-! ### What an order is read as -/

namespace OrderKey

/-- What arguments are read as whose order has the given entries, if `others` is what they are read
as without it: the keys are those that are named by what is heeded of the entries, and each entry
that names none is reported, in order, amid what is wrong with the other arguments. -/
structure ReadsOrder {α : Type} (fields : List String) (entries : List Json)
    (put : List OrderKey → α → α) (whole others : Checked α) : Prop where
  ok_iff : ∀ args, whole = .ok args ↔ ∃ keys plain,
    List.Forall₂ (fun entry key => Names fields (heeded entry) key) entries keys ∧
      others = .ok plain ∧ args = put keys plain
  told : ∃ front back, ∃ offences : List (Filter.Place × Violation),
    others.violations = front ++ back ∧
      whole.violations = front ++ offences.map Prod.snd ++ back ∧
      (offences.map Prod.fst).Pairwise (· < ·) ∧
      ∀ place violation, (place, violation) ∈ offences ↔
        ∃ index entry fault, entries[index]? = some entry ∧ place = [index] ∧
          Refuses fields (heeded entry) fault ∧
            violation = .ofField s!"order_by[{index}]" (.argument fault)

theorem readsOrder {α : Type} {fields : List String} {entries : List Json}
    {put : List OrderKey → α → α} {whole others : Checked α}
    (hvalid : ∀ field ∈ fields, Naming.isValid field)
    (h : Checked.Apart (listOfJson fields 0 entries) put whole others) :
    ReadsOrder fields entries put whole others := by
  constructor
  · intro args
    simp only [h.ok_iff, listOfJson_eq_ok_iff hvalid]
  · obtain ⟨front, back, hothers, hwhole⟩ := h.told
    obtain ⟨offences, htold, hordered, hcomplete, -⟩ :=
      (listOfJson_settles hvalid 0 entries).told
    refine ⟨front, back, offences, hothers, htold ▸ hwhole, hordered, ?_⟩
    intro place violation
    rw [hcomplete, Checked.among_zero]
    constructor
    · rintro ⟨index, entry, rest, hentry, rfl, rfl, fault, hrefuses, rfl⟩
      exact ⟨index, entry, fault, hentry, rfl, hrefuses, rfl⟩
    · rintro ⟨index, entry, fault, hentry, rfl, hrefuses, rfl⟩
      exact ⟨index, entry, [], hentry, rfl, rfl, fault, hrefuses, rfl⟩

/-- **An order is read by its grammar, but for what is passed over.** For every model and all
arguments, with and without pages: the keys are those that the entries name, in their order, where
of an entry with members only its field is heeded and a direction that is a text. An entry is of the
grammar as it stands exactly if it names a key so and nothing of it is passed over. Each entry that
names none has one fault, which is reported once at its place; what is read of the other arguments,
and what is told of them, is the same as without the order. -/
theorem order_read_by_grammar {registry : Registry} {schema : Schema}
    (hschema : registry.schema = .ok schema) {model : Model} (hmodel : model ∈ schema.models)
    (arguments : Json) :
    ReadsOrder model.sortableFields (Arguments.orderEntries arguments)
        (fun keys args => { args with orderBy := keys }) (ListArgs.ofJson schema model arguments)
        (ListArgs.ofJson schema model (Arguments.without "order_by" arguments)) ∧
      ReadsOrder model.sortableFields (Arguments.orderEntries arguments)
        (fun keys args => { args with orderBy := keys }) (PageArgs.ofJson schema model arguments)
        (PageArgs.ofJson schema model (Arguments.without "order_by" arguments)) ∧
      ∀ entry,
        (∀ key, Names model.sortableFields entry key ↔
          AllHeeded entry ∧ Names model.sortableFields (heeded entry) key) ∧
        ((∃! fault, Refuses model.sortableFields (heeded entry) fault) ↔
          ∀ key, ¬Names model.sortableFields (heeded entry) key) := by
  have hvalid : ∀ field ∈ model.sortableFields, Naming.isValid field := fun _ =>
    Registry.isValid_sortable hschema hmodel
  refine ⟨readsOrder hvalid (ListArgs.ofJson_apart schema model arguments),
    readsOrder hvalid (PageArgs.ofJson_apart schema model arguments), fun entry => ⟨?_, ?_⟩⟩
  · exact fun key => names_iff_heeded
  · rw [← refuses_iff_not_names hvalid]
    constructor
    · exact ExistsUnique.exists
    · rintro ⟨fault, hrefuses⟩
      exact ⟨fault, hrefuses, fun other hother => refuses_unique hother hrefuses⟩

/-- Of a node, an identity is all that can be sorted by. -/
theorem exists_chainNode : ∃ model, chainSchema.model? "Node" = some model ∧
    model ∈ chainSchema.models ∧ model.sortableFields = ["id"] := by
  have hsome : (chainSchema.model? "Node").isSome = true := by decide +kernel
  have hfields : (chainSchema.model? "Node").map Model.sortableFields = some ["id"] := by
    decide +kernel
  obtain ⟨model, hmodel⟩ := Option.isSome_iff_exists.mp hsome
  rw [hmodel] at hfields
  have hsound := Registry.sound_schema schema_chainRegistry
  exact ⟨model, hmodel, (hsound.model?_eq_some.mp hmodel).1, Option.some.inj hfields⟩

/-- An order that is given as a text and as members, among other arguments. -/
theorem order_read_by_grammar_chain : ∃ model, chainSchema.model? "Node" = some model ∧
    ListArgs.ofJson chainSchema model (.obj [("limit", .num (.int 1)), ("order_by", .arr
      [.str "-id", .obj [("direction", .str "ASC"), ("field", .str "id")]])]) =
        .ok { orderBy := [⟨"id", .descending⟩, ⟨"id", .ascending⟩], limit := some 1 } := by
  obtain ⟨model, hmodel, hmem, hfields⟩ := exists_chainNode
  have hid : "id" ∈ model.sortableFields := hfields ▸ List.mem_singleton_self _
  obtain ⟨hlist, -, -⟩ := order_read_by_grammar schema_chainRegistry hmem
    (.obj [("limit", .num (.int 1)), ("order_by", .arr
      [.str "-id", .obj [("direction", .str "ASC"), ("field", .str "id")]])])
  refine ⟨model, hmodel, (hlist.ok_iff _).mpr ⟨_, { limit := some 1 }, ?_, rfl, rfl⟩⟩
  have hmembers : Names model.sortableFields
      (heeded (.obj [("direction", .str "ASC"), ("field", .str "id")])) ⟨"id", .ascending⟩ :=
    @Names.members _ _ _ (some "ASC") _ hid (by decide) rfl rfl (.upward (.inl rfl))
  exact .cons (.descending hid) (.cons hmembers .nil)

/-- A direction that is no text and a member that no entry has: neither entry is of the grammar, and
both are read as the field in ascending order. -/
theorem order_accepts_more : ∃ model, chainSchema.model? "Node" = some model ∧
    ListArgs.ofJson chainSchema model (.obj [("order_by", .arr
      [.obj [("direction", .num (.int 1)), ("field", .str "id")],
        .obj [("dir", .str "DESC"), ("field", .str "id")]])]) =
        .ok { orderBy := [⟨"id", .ascending⟩, ⟨"id", .ascending⟩] } ∧
      ∀ key,
        ¬Names model.sortableFields (.obj [("direction", .num (.int 1)), ("field", .str "id")])
          key ∧
        ¬Names model.sortableFields (.obj [("dir", .str "DESC"), ("field", .str "id")]) key := by
  obtain ⟨model, hmodel, -, hfields⟩ := exists_chainNode
  refine ⟨model, hmodel, ?_, fun key => ⟨fun h => ?_, fun h => ?_⟩⟩
  · unfold ListArgs.ofJson
    rw [hfields]
    rfl
  · obtain ⟨⟨-, htext⟩, -⟩ := names_iff_heeded.mp h
    have hnumber := htext (.num (.int 1)) rfl
    cases hnumber
  · obtain ⟨⟨hknown, -⟩, -⟩ := names_iff_heeded.mp h
    have hdir := hknown ("dir", .str "DESC") List.mem_cons_self
    revert hdir
    decide

end OrderKey

end ModelSurface
