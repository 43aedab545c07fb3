import ModelSurface.Proofs.Schema.Members

/-!
# What a model inherits

Inheritance told without the order in which members are put together. Under each name a model has
what it declares itself, or else what the first of its bases that has the name has there. Inherited
names come first, base by base; a declaration that replaces a member of its own kind takes its
place, and all others stand behind.
-/

namespace ModelSurface

/-- What the name of a member stands for. -/
inductive MemberDef where
  | field (definition : FieldDef)
  | relation (definition : RelationDef)

namespace MemberDef

def field? : MemberDef → Option FieldDef
  | field definition => some definition
  | relation _ => none

def relation? : MemberDef → Option RelationDef
  | field _ => none
  | relation definition => some definition

end MemberDef

namespace ModelDef

/-- What a model itself declares under a name. -/
def member? (model : ModelDef) (name : String) : Option MemberDef :=
  ((model.fields.find? (·.name == name)).map .field).or
    ((model.relations.find? (·.name == name)).map .relation)

def method? (model : ModelDef) (name : String) : Option MethodDef :=
  model.methods.find? (·.name == name)

/-- What a model must keep to on its own: all names that it gives are valid, and neither two of its
fields and relations nor two of its methods share one. -/
structure Proper (model : ModelDef) : Prop where
  valid : ∀ name ∈ model.givenNames, Naming.isValid name
  members : (model.fields.map (·.name) ++ model.relations.map (·.name)).Nodup
  methods : (model.methods.map (·.name)).Nodup

end ModelDef

theorem ModelDef.ownIssue?_eq_none_iff {model : ModelDef} :
    model.ownIssue? = none ↔ model.Proper := by
  unfold ownIssue?
  cases hinvalid : model.givenNames.find? fun name => !Naming.isValid name with
  | some name =>
      refine iff_of_false nofun fun h => ?_
      have hvalid := h.valid name (List.mem_of_find?_eq_some hinvalid)
      simpa [hvalid] using List.find?_some hinvalid
  | none =>
      have hvalid : ∀ name ∈ model.givenNames, Naming.isValid name := by
        simpa using hinvalid
      dsimp only
      cases hmembers : Naming.firstRepeated
          (model.fields.map (·.name) ++ model.relations.map (·.name)) with
      | some name =>
          refine iff_of_false nofun fun h => ?_
          rw [Naming.firstRepeated_eq_none_iff.mpr h.members] at hmembers
          cases hmembers
      | none =>
          dsimp only
          rw [Option.map_eq_none_iff, Naming.firstRepeated_eq_none_iff]
          exact ⟨fun h => ⟨hvalid, Naming.firstRepeated_eq_none_iff.mp hmembers, h⟩,
            fun h => h.methods⟩

theorem ModelDef.ownIssue?_cases {model : ModelDef} {issue : Issue}
    (h : model.ownIssue? = some issue) :
    ∃ name, issue = .invalidName model.name name ∨ issue = .duplicateMember model.name name := by
  unfold ownIssue? at h
  split at h
  · exact ⟨_, .inl (Option.some.inj h).symm⟩
  · split at h
    · exact ⟨_, .inr (Option.some.inj h).symm⟩
    · obtain ⟨name, -, rfl⟩ := Option.map_eq_some_iff.mp h
      exact ⟨name, .inr rfl⟩

namespace Members

def member? (members : Members) (name : String) : Option MemberDef :=
  ((members.fields.get? name).map .field).or ((members.relations.get? name).map .relation)

theorem has_eq (members : Members) (name : String) :
    members.has name = (members.member? name).isSome := by
  unfold has member? Keyed.contains
  cases members.fields.get? name <;> cases members.relations.get? name <;> rfl

/-- The names that a list of bases hands down, base by base: of each one those that no base before
it has. -/
def handedDown (names : Members → List String) (has : Members → String → Bool) :
    List Members → List String
  | [] => []
  | base :: bases => names base ++ (handedDown names has bases).filter fun name => !has base name

/-- The order of names when some are declared: inherited ones keep their places unless they stand
for something else now, and new ones follow. -/
def renewed (inherited replaced declared : List String) : List String :=
  inherited.filter (fun name => name ∉ replaced) ++
    declared.filter fun name => name ∉ inherited

def hasMethod (members : Members) (name : String) : Bool := members.methods.contains name

/-- The members of a model are those that its declaration and the members of its bases make. -/
structure Merges (bases : List Members) (model : ModelDef) (members : Members) : Prop where
  member : ∀ name,
    members.member? name = (model.member? name).or (bases.findSome? (·.member? name))
  method : ∀ name, members.methods.get? name =
    (model.method? name).or (bases.findSome? (·.methods.get? name))
  /-- No name is both a field and a relation. -/
  apart : ∀ name ∈ members.relations.keys, name ∉ members.fields.keys
  fields : members.fields.keys = renewed (handedDown (·.fields.keys) has bases)
    (model.relations.map (·.name)) (model.fields.map (·.name))
  relations : members.relations.keys = renewed (handedDown (·.relations.keys) has bases)
    (model.fields.map (·.name)) (model.relations.map (·.name))
  methods : members.methods.keys = renewed (handedDown (·.methods.keys) hasMethod bases) []
    (model.methods.map (·.name))

/-! ### Names of a base -/

section Inheriting

variable (members base : Members) (name : String)

theorem member?_inheritField (entry : String × FieldDef) :
    (members.inheritField entry).member? name =
      (members.member? name).or (if name = entry.1 then some (.field entry.2) else none) := by
  by_cases hname : name = entry.1
  · subst hname
    unfold inheritField
    rw [has_eq]
    cases hfound : members.member? entry.1 with
    | some member => simp [hfound]
    | none => simp [member?]
  · rw [if_neg hname, Option.or_none]
    unfold inheritField
    split
    · rfl
    · simp [member?, Keyed.get?_put_of_ne _ _ hname]

theorem member?_inheritRelation (entry : String × RelationDef) :
    (members.inheritRelation entry).member? name =
      (members.member? name).or (if name = entry.1 then some (.relation entry.2) else none) := by
  by_cases hname : name = entry.1
  · subst hname
    unfold inheritRelation
    rw [has_eq]
    cases hfound : members.member? entry.1 with
    | some member => simp [hfound]
    | none =>
        have hfield : members.fields.get? entry.1 = none := by
          simp only [member?, Option.or_eq_none_iff, Option.map_eq_none_iff] at hfound
          exact hfound.1
        simp [member?, hfield]
  · rw [if_neg hname, Option.or_none]
    unfold inheritRelation
    split
    · rfl
    · simp [member?, Keyed.get?_put_of_ne _ _ hname]

theorem method?_inheritMethod (entry : String × MethodDef) :
    (members.inheritMethod entry).methods.get? name =
      (members.methods.get? name).or (if name = entry.1 then some entry.2 else none) := by
  by_cases hname : name = entry.1
  · subst hname
    unfold inheritMethod Keyed.contains
    cases hfound : members.methods.get? entry.1 <;> simp [hfound]
  · rw [if_neg hname, Option.or_none]
    unfold inheritMethod
    split
    · rfl
    · exact Keyed.get?_put_of_ne _ _ hname

theorem methods_inheritField (entry : String × FieldDef) :
    (members.inheritField entry).methods = members.methods := by
  unfold inheritField
  split <;> rfl

theorem methods_inheritRelation (entry : String × RelationDef) :
    (members.inheritRelation entry).methods = members.methods := by
  unfold inheritRelation
  split <;> rfl

theorem relations_inheritField (entry : String × FieldDef) :
    (members.inheritField entry).relations = members.relations := by
  unfold inheritField
  split <;> rfl

theorem fields_inheritRelation (entry : String × RelationDef) :
    (members.inheritRelation entry).fields = members.fields := by
  unfold inheritRelation
  split <;> rfl

theorem fields_inheritMethod (entry : String × MethodDef) :
    (members.inheritMethod entry).fields = members.fields := by
  unfold inheritMethod
  split <;> rfl

theorem relations_inheritMethod (entry : String × MethodDef) :
    (members.inheritMethod entry).relations = members.relations := by
  unfold inheritMethod
  split <;> rfl

end Inheriting

/-- Of entries that only fill free names, the first one under a name counts. -/
theorem find_foldl {α β : Type} (find : Members → String → Option β)
    {add : Members → String × α → Members} (tag : α → β)
    (hadd : ∀ members entry name, find (add members entry) name =
      (find members name).or (if name = entry.1 then some (tag entry.2) else none))
    (entries : List (String × α)) (members : Members) (name : String) :
    find (entries.foldl add members) name =
      (find members name).or ((entries.lookup name).map tag) := by
  induction entries generalizing members with
  | nil => simp
  | cons entry rest ih =>
      rw [List.foldl_cons, ih, hadd, Option.or_assoc, List.lookup_cons]
      by_cases hname : name = entry.1
      · simp [hname]
      · have hne : (name == entry.1) = false := by simpa using hname
        simp [hname, hne]

theorem view_foldl {α β : Type} (view : Members → β) {add : Members → String × α → Members}
    (hadd : ∀ members entry, view (add members entry) = view members)
    (entries : List (String × α)) (members : Members) :
    view (entries.foldl add members) = view members := by
  induction entries generalizing members with
  | nil => rfl
  | cons entry rest ih => rw [List.foldl_cons, ih, hadd]

theorem fields_inherit (members base : Members) :
    (members.inherit base).fields = (base.fields.entries.foldl inheritField members).fields := by
  unfold inherit
  dsimp only
  rw [view_foldl Members.fields fields_inheritMethod,
    view_foldl Members.fields fields_inheritRelation]

theorem relations_inherit (members base : Members) : (members.inherit base).relations =
    (base.relations.entries.foldl inheritRelation
      (base.fields.entries.foldl inheritField members)).relations := by
  unfold inherit
  dsimp only
  rw [view_foldl Members.relations relations_inheritMethod]

theorem member?_inherit (members base : Members) (name : String) :
    (members.inherit base).member? name = (members.member? name).or (base.member? name) := by
  have hmethods : ∀ (found : Members) entry,
      (found.inheritMethod entry).member? name = found.member? name := by
    intro found entry
    unfold member?
    rw [fields_inheritMethod, relations_inheritMethod]
  unfold inherit
  dsimp only
  rw [view_foldl (·.member? name) hmethods,
    find_foldl member? .relation fun found entry name => found.member?_inheritRelation name entry,
    find_foldl member? .field fun found entry name => found.member?_inheritField name entry,
    Option.or_assoc]
  rfl

theorem method?_inherit (members base : Members) (name : String) :
    (members.inherit base).methods.get? name =
      (members.methods.get? name).or (base.methods.get? name) := by
  unfold inherit
  dsimp only
  rw [find_foldl (fun found name => found.methods.get? name) id
    (fun found entry name => found.method?_inheritMethod name entry),
    view_foldl Members.methods methods_inheritRelation,
    view_foldl Members.methods methods_inheritField, Option.map_id_fun, id_eq]
  rfl

theorem member?_foldl_inherit (bases : List Members) (members : Members) (name : String) :
    (bases.foldl inherit members).member? name =
      (members.member? name).or (bases.findSome? (·.member? name)) := by
  induction bases generalizing members with
  | nil => simp
  | cons base bases ih =>
      rw [List.foldl_cons, ih, member?_inherit, Option.or_assoc, List.findSome?_cons]
      cases base.member? name <;> rfl

theorem method?_foldl_inherit (bases : List Members) (members : Members) (name : String) :
    (bases.foldl inherit members).methods.get? name =
      (members.methods.get? name).or (bases.findSome? (·.methods.get? name)) := by
  induction bases generalizing members with
  | nil => simp
  | cons base bases ih =>
      rw [List.foldl_cons, ih, method?_inherit, Option.or_assoc, List.findSome?_cons]
      cases base.methods.get? name <;> rfl

/-! ### The order of inherited names -/

/-- What is added goes behind the names that are there, unless its own name is taken. -/
structure Appends {α : Type} (names : Members → List String) (has : Members → String → Bool)
    (add : Members → String × α → Members) : Prop where
  names : ∀ members entry, names (add members entry) =
    if has members entry.1 then names members else names members ++ [entry.1]
  has : ∀ members entry name, has (add members entry) name = (has members name || name == entry.1)

namespace Appends

variable {α : Type} {names : Members → List String} {has : Members → String → Bool}
  {add : Members → String × α → Members}

theorem has_foldl (h : Appends names has add) (entries : List (String × α)) (members : Members)
    (name : String) : has (entries.foldl add members) name =
      (has members name || (entries.map (·.1)).contains name) := by
  induction entries generalizing members with
  | nil => simp
  | cons entry rest ih => simp [ih, h.has, Bool.or_assoc]

theorem names_foldl (h : Appends names has add) {entries : List (String × α)}
    (hdistinct : (entries.map (·.1)).Nodup) (members : Members) :
    names (entries.foldl add members) =
      names members ++ (entries.map (·.1)).filter fun name => !has members name := by
  induction entries generalizing members with
  | nil => simp
  | cons entry rest ih =>
      obtain ⟨hfirst, hrest⟩ := List.nodup_cons.mp hdistinct
      have hbehind : ((rest.map (·.1)).filter fun name => !has (add members entry) name) =
          (rest.map (·.1)).filter fun name => !has members name := by
        refine List.filter_congr fun name hname => ?_
        have hne : name ≠ entry.1 := by
          rintro rfl
          exact hfirst hname
        simp [h.has, hne]
      rw [List.foldl_cons, ih hrest, h.names, hbehind, List.map_cons]
      by_cases htaken : has members entry.1 <;> simp [htaken]

end Appends

theorem appends_inheritField : Appends (·.fields.keys) has inheritField where
  names members entry := by
    by_cases htaken : members.has entry.1
    · simp [inheritField, htaken]
    · simp [inheritField, htaken, Keyed.keys_put_of_new _ (not_mem_of_not_has htaken).1]
  has members entry name := by
    rw [has_eq, has_eq, member?_inheritField]
    by_cases hname : name = entry.1 <;> simp [hname]

theorem appends_inheritRelation : Appends (·.relations.keys) has inheritRelation where
  names members entry := by
    by_cases htaken : members.has entry.1
    · simp [inheritRelation, htaken]
    · simp [inheritRelation, htaken, Keyed.keys_put_of_new _ (not_mem_of_not_has htaken).2]
  has members entry name := by
    rw [has_eq, has_eq, member?_inheritRelation]
    by_cases hname : name = entry.1 <;> simp [hname]

theorem appends_inheritMethod : Appends (·.methods.keys) hasMethod inheritMethod where
  names members entry := by
    by_cases htaken : members.hasMethod entry.1
    · have hcontains : members.methods.contains entry.1 = true := htaken
      simp [inheritMethod, htaken, hcontains]
    · have hcontains : ¬ members.methods.contains entry.1 := htaken
      have hnew : entry.1 ∉ members.methods.keys :=
        fun hmem => htaken (Keyed.isSome_get?_iff.mpr hmem)
      simp [inheritMethod, htaken, hcontains, Keyed.keys_put_of_new _ hnew]
  has members entry name := by
    unfold hasMethod Keyed.contains
    rw [method?_inheritMethod]
    by_cases hname : name = entry.1 <;> simp [hname]

/-- What inheriting from a base does to names of one kind. -/
structure HandsDown (names : Members → List String) (has : Members → String → Bool)
    (base : Members) : Prop where
  names : ∀ members, names (members.inherit base) =
    names members ++ (names base).filter fun name => !has members name
  has : ∀ members name, has (members.inherit base) name = (has members name || has base name)

theorem names_foldl_inherit {names : Members → List String} {has : Members → String → Bool}
    {bases : List Members} (h : ∀ base ∈ bases, HandsDown names has base) (members : Members) :
    names (bases.foldl inherit members) =
      names members ++ (handedDown names has bases).filter fun name => !has members name := by
  induction bases generalizing members with
  | nil => simp [handedDown]
  | cons base bases ih =>
      obtain ⟨hbase, hbases⟩ := List.forall_mem_cons.mp h
      rw [List.foldl_cons, ih hbases, hbase.names, handedDown, List.filter_append,
        List.filter_filter, List.append_assoc]
      simp [hbase.has]

theorem names_inherited (names : Members → List String) {has : Members → String → Bool}
    {bases : List Members} (h : ∀ base ∈ bases, HandsDown names has base) (hnames : names {} = [])
    (hhas : ∀ name, has {} name = false) :
    names (bases.foldl inherit {}) = handedDown names has bases := by
  rw [names_foldl_inherit h, hnames]
  simp [hhas]

theorem has_inherit (members base : Members) (name : String) :
    (members.inherit base).has name = (members.has name || base.has name) := by
  simp only [has_eq, member?_inherit, Option.isSome_or]

theorem Sound.handsDown_fields {base : Members} (h : base.Sound) :
    HandsDown (·.fields.keys) has base where
  names members := by
    rw [fields_inherit]
    exact appends_inheritField.names_foldl h.fields.distinct members
  has members := has_inherit members base

/-- The fields of a base are inherited first, but none of its relations has the name of one. -/
theorem Sound.handsDown_relations {base : Members} (h : base.Sound) :
    HandsDown (·.relations.keys) has base where
  names members := by
    have hfree : (base.relations.keys.filter fun name =>
        !(base.fields.entries.foldl Members.inheritField members).has name) =
        base.relations.keys.filter fun name => !members.has name := by
      refine List.filter_congr fun name hname => ?_
      have hother : name ∉ base.fields.entries.map (·.1) := h.apart name hname
      rw [appends_inheritField.has_foldl, List.contains_eq_mem, decide_eq_false hother,
        Bool.or_false]
    rw [relations_inherit, appends_inheritRelation.names_foldl h.relations.distinct]
    change _ ++ base.relations.keys.filter _ = _
    rw [hfree, view_foldl (fun found : Members => found.relations.keys)
      fun found entry => by rw [relations_inheritField]]
  has members := has_inherit members base

theorem handsDown_methods {base : Members} (h : base.methods.keys.Nodup) :
    HandsDown (·.methods.keys) hasMethod base where
  names members := by
    unfold inherit hasMethod
    dsimp only
    rw [appends_inheritMethod.names_foldl h]
    unfold hasMethod
    rw [view_foldl Members.methods methods_inheritRelation,
      view_foldl Members.methods methods_inheritField]
    rfl
  has members name := by
    unfold hasMethod Keyed.contains
    rw [method?_inherit, Option.isSome_or]

/-! ### Names that a model declares -/

section Declaring

variable (members : Members) (name : String)

theorem member?_declareField (field : FieldDef) : (members.declareField field).member? name =
    if name = field.name then some (.field field) else members.member? name := by
  unfold declareField member?
  dsimp only
  rw [Keyed.get?_put, Keyed.get?_erase]
  split <;> rfl

theorem member?_declareRelation (relation : RelationDef) :
    (members.declareRelation relation).member? name =
      if name = relation.name then some (.relation relation) else members.member? name := by
  unfold declareRelation member?
  dsimp only
  rw [Keyed.get?_put, Keyed.get?_erase]
  split <;> rfl

theorem method?_declareMethod (method : MethodDef) :
    (members.declareMethod method).methods.get? name =
      if name = method.name then some method else members.methods.get? name :=
  Keyed.get?_put _ _ _ _

end Declaring

/-- Of declarations with distinct names, each counts under its own name. -/
theorem find_foldl_declare {α β : Type} (find : Members → String → Option β)
    {declare : Members → α → Members} {key : α → String} (tag : α → β)
    (hdeclare : ∀ members value name, find (declare members value) name =
      if name = key value then some (tag value) else find members name)
    {values : List α} (hdistinct : (values.map key).Nodup) (members : Members) (name : String) :
    find (values.foldl declare members) name =
      ((values.find? fun value => key value == name).map tag).or (find members name) := by
  induction values generalizing members with
  | nil => simp
  | cons value rest ih =>
      obtain ⟨hfirst, hrest⟩ := List.nodup_cons.mp hdistinct
      rw [List.foldl_cons, ih hrest, hdeclare]
      by_cases hname : name = key value
      · have hnone : rest.find? (fun other => key other == name) = none := by
          refine List.find?_eq_none.mpr fun other hother heq => hfirst ?_
          exact List.mem_map.mpr ⟨other, hother, (beq_iff_eq.mp heq).trans hname⟩
        rw [hnone, if_pos hname]
        simp [hname]
      · have hother : (key value == name) = false := beq_eq_false_iff_ne.mpr (Ne.symm hname)
        simp [hother, hname]

theorem declareFields_eq (members : Members) (fields : List FieldDef) :
    (fields.foldl declareField members).fields =
        fields.foldl (fun t field => t.put field.name field) members.fields ∧
      (fields.foldl declareField members).relations =
        (fields.map (·.name)).foldl (fun t name => t.erase name) members.relations ∧
      (fields.foldl declareField members).methods = members.methods := by
  induction fields generalizing members with
  | nil => exact ⟨rfl, rfl, rfl⟩
  | cons field rest ih => exact ih (members.declareField field)

theorem declareRelations_eq (members : Members) (relations : List RelationDef) :
    (relations.foldl declareRelation members).fields =
        (relations.map (·.name)).foldl (fun t name => t.erase name) members.fields ∧
      (relations.foldl declareRelation members).relations =
        relations.foldl (fun t relation => t.put relation.name relation) members.relations ∧
      (relations.foldl declareRelation members).methods = members.methods := by
  induction relations generalizing members with
  | nil => exact ⟨rfl, rfl, rfl⟩
  | cons relation rest ih => exact ih (members.declareRelation relation)

theorem declareMethods_eq (members : Members) (methods : List MethodDef) :
    (methods.foldl declareMethod members).fields = members.fields ∧
      (methods.foldl declareMethod members).relations = members.relations ∧
      (methods.foldl declareMethod members).methods =
        methods.foldl (fun t method => t.put method.name method) members.methods := by
  induction methods generalizing members with
  | nil => exact ⟨rfl, rfl, rfl⟩
  | cons method rest ih => exact ih (members.declareMethod method)

section Proper

variable {model : ModelDef} (h : model.Proper)

include h

/-- Fields and relations of one declaration do not share a name, so it does not matter in which
order they are looked through. -/
theorem member?_of_proper (name : String) : model.member? name =
    ((model.relations.find? (·.name == name)).map .relation).or
      ((model.fields.find? (·.name == name)).map .field) := by
  unfold ModelDef.member?
  cases hfield : model.fields.find? (·.name == name) with
  | none => simp
  | some field =>
      have hnone : model.relations.find? (·.name == name) = none := by
        refine List.find?_eq_none.mpr fun relation hrelation heq => ?_
        have hname : field.name = name := by simpa using List.find?_some hfield
        refine (List.nodup_append.mp h.members).2.2 field.name ?_ relation.name ?_
          (hname.trans (beq_iff_eq.mp heq).symm)
        · exact List.mem_map.mpr ⟨field, List.mem_of_find?_eq_some hfield, rfl⟩
        · exact List.mem_map.mpr ⟨relation, hrelation, rfl⟩
      rw [hnone]
      rfl

theorem member?_declare (members : Members) (name : String) :
    (members.declare model).member? name = (model.member? name).or (members.member? name) := by
  obtain ⟨hfields, hrelations, -⟩ := List.nodup_append.mp h.members
  have hmethods := declareMethods_eq
    (model.relations.foldl declareRelation (model.fields.foldl declareField members)) model.methods
  unfold declare
  dsimp only
  rw [member?_of_proper h, Option.or_assoc, member?, hmethods.1, hmethods.2.1]
  change member? _ name = _
  rw [find_foldl_declare member? .relation
      (fun found relation name => found.member?_declareRelation name relation) hrelations,
    find_foldl_declare member? .field
      (fun found field name => found.member?_declareField name field) hfields]

theorem method?_declare (members : Members) (name : String) :
    (members.declare model).methods.get? name =
      (model.method? name).or (members.methods.get? name) := by
  have hdeclare := find_foldl_declare (fun found : Members => found.methods.get?) id
    (fun found method name => found.method?_declareMethod name method) h.methods
  unfold declare ModelDef.method?
  dsimp only
  rw [hdeclare, Option.map_id_fun, id_eq, (declareRelations_eq _ _).2.2,
    (declareFields_eq _ _).2.2]

theorem fields_declare (members : Members) : (members.declare model).fields.keys =
    renewed members.fields.keys (model.relations.map (·.name)) (model.fields.map (·.name)) := by
  obtain ⟨hfields, -, hapart⟩ := List.nodup_append.mp h.members
  unfold declare
  dsimp only
  rw [(declareMethods_eq _ _).1, (declareRelations_eq _ _).1, (declareFields_eq _ _).1,
    Keyed.keys_foldl_erase, Keyed.keys_foldl_put hfields, List.filter_append, List.filter_filter]
  unfold renewed
  congr 1
  refine List.filter_congr fun name hname => ?_
  have hother : name ∉ model.relations.map (·.name) :=
    fun hmem => hapart name hname name hmem rfl
  simp [hother]

theorem relations_declare (members : Members) : (members.declare model).relations.keys =
    renewed members.relations.keys (model.fields.map (·.name)) (model.relations.map (·.name)) := by
  obtain ⟨-, hrelations, hapart⟩ := List.nodup_append.mp h.members
  unfold declare
  dsimp only
  rw [(declareMethods_eq _ _).2.1, (declareRelations_eq _ _).2.1, (declareFields_eq _ _).2.1,
    Keyed.keys_foldl_put hrelations, Keyed.keys_foldl_erase]
  unfold renewed
  congr 1
  refine List.filter_congr fun name hname => ?_
  have hother : name ∉ model.fields.map (·.name) := fun hmem => hapart name hmem name hname rfl
  refine decide_eq_decide.mpr (not_congr ?_)
  rw [List.mem_filter]
  exact and_iff_left (decide_eq_true hother)

theorem methods_declare (members : Members) : (members.declare model).methods.keys =
    renewed members.methods.keys [] (model.methods.map (·.name)) := by
  unfold declare
  dsimp only
  rw [(declareMethods_eq _ _).2.2, (declareRelations_eq _ _).2.2, (declareFields_eq _ _).2.2,
    Keyed.keys_foldl_put h.methods]
  simp [renewed]

/-- Members that are put together base by base, and then with what the model declares, are what its
declaration and its bases make. -/
theorem merges_declare {bases : List Members} (hbases : ∀ base ∈ bases, base.Sound)
    (hmethods : ∀ base ∈ bases, base.methods.keys.Nodup) :
    Merges bases model ((bases.foldl inherit {}).declare model) where
  member name := by
    rw [member?_declare h, member?_foldl_inherit]
    rfl
  method name := by
    rw [method?_declare h, method?_foldl_inherit]
    rfl
  apart := by
    have hinherited : (bases.foldl inherit {}).Sound :=
      List.foldlRecOn bases inherit sound_empty fun _ hsound base hbase =>
        hsound.inherit (hbases base hbase)
    exact (hinherited.declare (valid_of_ownIssue? (ModelDef.ownIssue?_eq_none_iff.mpr h))).apart
  fields := by
    rw [fields_declare h]
    congr 1
    exact names_inherited (fun found => found.fields.keys)
      (fun base hbase => (hbases base hbase).handsDown_fields) rfl fun _ => rfl
  relations := by
    rw [relations_declare h]
    congr 1
    exact names_inherited (fun found => found.relations.keys)
      (fun base hbase => (hbases base hbase).handsDown_relations) rfl fun _ => rfl
  methods := by
    rw [methods_declare h]
    congr 1
    exact names_inherited (fun found => found.methods.keys)
      (fun base hbase => handsDown_methods (hmethods base hbase)) rfl fun _ => rfl

end Proper

/-! ### Methods under their names -/

theorem named_inheritMethods {members base : Members}
    (h : members.methods.NamedBy MethodDef.name) (hbase : base.methods.NamedBy MethodDef.name) :
    (members.inherit base).methods.NamedBy MethodDef.name := by
  unfold inherit
  dsimp only
  refine List.foldlRecOn (motive := fun found : Members => found.methods.NamedBy MethodDef.name)
    base.methods.entries inheritMethod ?_ fun found hfound entry hentry => ?_
  · rwa [view_foldl Members.methods methods_inheritRelation,
      view_foldl Members.methods methods_inheritField]
  · unfold inheritMethod
    split
    · exact hfound
    · exact hfound.put (hbase.named entry hentry)

theorem named_methods {bases : List Members} {model : ModelDef}
    (h : ∀ base ∈ bases, base.methods.NamedBy MethodDef.name) :
    ((bases.foldl inherit {}).declare model).methods.NamedBy MethodDef.name := by
  unfold declare
  dsimp only
  rw [(declareMethods_eq _ _).2.2, (declareRelations_eq _ _).2.2, (declareFields_eq _ _).2.2]
  refine Keyed.NamedBy.foldl_put ?_ model.methods
  exact List.foldlRecOn (motive := fun found : Members => found.methods.NamedBy MethodDef.name)
    bases inherit .empty fun _ hfound base hbase => named_inheritMethods hfound (h base hbase)

/-! ### One meaning -/

theorem get?_fields (members : Members) (name : String) :
    members.fields.get? name = (members.member? name).bind MemberDef.field? := by
  unfold member?
  cases members.fields.get? name <;> cases members.relations.get? name <;> rfl

theorem get?_relations {members : Members}
    (hapart : ∀ name ∈ members.relations.keys, name ∉ members.fields.keys) (name : String) :
    members.relations.get? name = (members.member? name).bind MemberDef.relation? := by
  unfold member?
  cases hrelation : members.relations.get? name with
  | none => cases members.fields.get? name <;> rfl
  | some relation =>
      have hkey : name ∈ members.relations.keys :=
        Keyed.isSome_get?_iff.mp (Option.isSome_of_eq_some hrelation)
      have hfield : members.fields.get? name = none :=
        Option.not_isSome_iff_eq_none.mp fun h => hapart name hkey (Keyed.isSome_get?_iff.mp h)
      rw [hfield]
      rfl

/-- A declaration and the members of its bases leave no choice. -/
theorem Merges.eq {bases : List Members} {model : ModelDef} {members members' : Members}
    (h : Merges bases model members) (h' : Merges bases model members') (hsound : members.Sound)
    (hmethods : members.methods.keys.Nodup) : members' = members := by
  have hsame : ∀ name, members'.member? name = members.member? name := fun name =>
    (h'.member name).trans (h.member name).symm
  obtain ⟨fields, relations, methods⟩ := members
  obtain ⟨fields', relations', methods'⟩ := members'
  rw [Members.mk.injEq]
  refine ⟨?_, ?_, ?_⟩
  · refine Keyed.ext_get? hsound.fields.distinct (h'.fields.trans h.fields.symm) fun name => ?_
    have hget := get?_fields ⟨fields, relations, methods⟩ name
    rw [← hsame, ← get?_fields] at hget
    exact hget.symm
  · refine Keyed.ext_get? hsound.relations.distinct (h'.relations.trans h.relations.symm)
      fun name => ?_
    have hget := get?_relations h.apart name
    rw [← hsame, ← get?_relations h'.apart] at hget
    exact hget.symm
  · exact Keyed.ext_get? hmethods (h'.methods.trans h.methods.symm) fun name =>
      (h'.method name).trans (h.method name).symm

end Members

end ModelSurface
