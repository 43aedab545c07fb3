import ModelSurface.Proofs.Filter.Listed
import ModelSurface.Proofs.Schema.WellFormed

/-!
# Names of a surface

All types and operations of a surface share one table of names. What a name belongs to is said by
its origin, and a registry has a schema exactly if its models have different names and no name has
two origins. One origin may have several names, and may come with the same name again: the filters
of a model are met at every place that leads to the model, and operator inputs in every filter. So
what remains is that an origin and a name of it say which type or operation is meant.
-/

namespace ModelSurface

/-! ### Claims -/

namespace NameClaim

/-- Each name has one origin only. -/
def Agree (claims : List NameClaim) : Prop :=
  ∀ claim ∈ claims, ∀ other ∈ claims, claim.name = other.name → claim.origin = other.origin

/-- What is claimed has the origin that the names claimed before have. -/
def Respects (owners : List (String × Origin)) (claims : List NameClaim) : Prop :=
  ∀ claim ∈ claims, ∀ owner, owners.lookup claim.name = some owner → claim.origin = owner

theorem agree_cons {claim : NameClaim} {claims : List NameClaim} :
    Agree (claim :: claims) ↔
      (∀ other ∈ claims, other.name = claim.name → other.origin = claim.origin) ∧
        Agree claims := by
  constructor
  · intro h
    exact ⟨fun other hother => h other (List.mem_cons_of_mem _ hother) claim List.mem_cons_self,
      fun first hfirst second hsecond => h first (List.mem_cons_of_mem _ hfirst) second
        (List.mem_cons_of_mem _ hsecond)⟩
  · rintro ⟨hclaim, hrest⟩ first hfirst second hsecond hname
    rcases List.mem_cons.mp hfirst with rfl | hfirst_rest <;>
      rcases List.mem_cons.mp hsecond with rfl | hsecond_rest
    · rfl
    · exact (hclaim second hsecond_rest hname.symm).symm
    · exact hclaim first hfirst_rest hname
    · exact hrest first hfirst_rest second hsecond_rest hname

theorem respects_cons {owners : List (String × Origin)} {claim : NameClaim}
    {claims : List NameClaim} : Respects owners (claim :: claims) ↔
      (∀ owner, owners.lookup claim.name = some owner → claim.origin = owner) ∧
        Respects owners claims :=
  List.forall_mem_cons

theorem respects_claimed {owners : List (String × Origin)} {claim : NameClaim}
    {claims : List NameClaim} (hnew : owners.lookup claim.name = none) :
    Respects ((claim.name, claim.origin) :: owners) claims ↔
      (∀ other ∈ claims, other.name = claim.name → other.origin = claim.origin) ∧
        Respects owners claims := by
  have hlookup : ∀ name, ((claim.name, claim.origin) :: owners).lookup name =
      if name = claim.name then some claim.origin else owners.lookup name := by
    intro name
    rw [List.lookup_cons]
    split <;> rename_i h
    · rw [if_pos (beq_iff_eq.mp h)]
    · rw [if_neg (beq_eq_false_iff_ne.mp h)]
  unfold Respects
  constructor
  · intro h
    refine ⟨fun other hother hname => h other hother _ (by rw [hlookup, if_pos hname]),
      fun other hother owner howner => h other hother owner ?_⟩
    rw [hlookup, if_neg, howner]
    rintro hname
    rw [hname, hnew] at howner
    cases howner
  · rintro ⟨hsame, hrest⟩ other hother owner howner
    rw [hlookup] at howner
    split at howner
    · rename_i hname
      rw [hsame other hother hname, Option.some.inj howner]
    · exact hrest other hother owner howner

theorem conflictFrom?_eq_none_iff {owners : List (String × Origin)} {claims : List NameClaim} :
    conflictFrom? owners claims = none ↔ Respects owners claims ∧ Agree claims := by
  induction claims generalizing owners with
  | nil => exact iff_of_true rfl ⟨List.forall_mem_nil _, List.forall_mem_nil _⟩
  | cons claim claims ih =>
      unfold conflictFrom?
      rw [respects_cons, agree_cons]
      split
      · rename_i hnew
        rw [ih, respects_claimed hnew, hnew]
        exact ⟨fun ⟨⟨hsame, hrest⟩, hagree⟩ => ⟨⟨nofun, hrest⟩, hsame, hagree⟩,
          fun ⟨⟨_, hrest⟩, hsame, hagree⟩ => ⟨⟨hsame, hrest⟩, hagree⟩⟩
      · rename_i owner howner
        rw [howner]
        split
        · rename_i hsame
          rw [ih]
          refine ⟨fun ⟨hrest, hagree⟩ => ⟨⟨fun _ h => ?_, hrest⟩, fun other hother hname => ?_,
            hagree⟩, fun ⟨⟨_, hrest⟩, _, hagree⟩ => ⟨hrest, hagree⟩⟩
          · rw [← hsame, Option.some.inj h]
          · rw [← hsame]
            exact hrest other hother owner (hname ▸ howner)
        · rename_i hother
          exact iff_of_false nofun fun h => hother (h.1.1 owner rfl).symm

theorem conflict?_eq_none_iff {claims : List NameClaim} :
    conflict? claims = none ↔ Agree claims := by
  have hfirst : Respects [] claims := fun _ _ owner howner =>
    absurd (List.lookup_nil.symm.trans howner) (Option.some_ne_none owner).symm
  unfold conflict?
  rw [conflictFrom?_eq_none_iff]
  exact and_iff_right hfirst

end NameClaim

/-! ### Origins -/

namespace OperationKind

/-- The kind without the name in it. -/
def blank : OperationKind → OperationKind
  | .method _ => .method ""
  | kind => kind

theorem eq_of_blank {kind other : OperationKind} (h : kind.blank = other.blank) :
    kind = other ∨ ∃ name otherName, kind = .method name ∧ other = .method otherName := by
  cases kind <;> cases other <;> simp_all [blank]

end OperationKind

namespace Origin

/-- The origin without the names in it. -/
def blank : Origin → Origin
  | .model _ => .model ""
  | .builtIn => .builtIn
  | .output _ => .output ""
  | .input _ => .input ""
  | .reference _ => .reference ""
  | .filter _ => .filter ""
  | .ordering _ => .ordering ""
  | .page _ => .page ""
  | .operation _ kind => .operation "" kind.blank

def blanks : List Origin :=
  [.model "", .builtIn, .output "", .input "", .reference "", .filter "", .ordering "",
    .page ""] ++ (OperationKind.common ++ [OperationKind.method ""]).map (.operation "")

theorem blank_mem (origin : Origin) : origin.blank ∈ blanks := by
  unfold blanks
  cases origin with
  | operation owner kind => cases kind <;> simp [blank, OperationKind.blank, OperationKind.common]
  | _ => simp [blank]

/-- What the text of an origin says before the names in it. -/
def wording : Origin → String
  | .model _ => "model "
  | .builtIn => "built-in type"
  | .output _ => "output type of model "
  | .input _ => "input type of model "
  | .reference _ => "reference input of model "
  | .filter _ => "filter of model "
  | .ordering _ => "ordering of model "
  | .page _ => "page type of model "
  | .operation _ (.method _) => "method "
  | .operation _ kind => kind.description ++ " of model "

/-- The names in the text of an origin, quoted. -/
def quotedNames : Origin → String
  | .builtIn => ""
  | .model name | .output name | .input name | .reference name | .filter name | .ordering name
  | .page name => "`" ++ (name ++ "`")
  | .operation owner (.method name) => "`" ++ (owner ++ ("." ++ (name ++ "`")))
  | .operation owner _ => "`" ++ (owner ++ "`")

theorem append_quoted (start name : String) :
    start ++ "`" ++ name ++ "`" = start ++ ("`" ++ (name ++ "`")) := by
  simp only [String.append_assoc]

theorem text_eq (origin : Origin) : origin.text = origin.wording ++ origin.quotedNames := by
  cases origin with
  | operation owner kind =>
      cases kind with
      | method name =>
          change "method " ++ "`" ++ owner ++ "." ++ name ++ "`" = "method " ++ _
          simp only [String.append_assoc, quotedNames]
      | _ =>
          change _ ++ (" of model " ++ "`") ++ owner ++ "`" = _
          rw [← String.append_assoc]
          exact append_quoted _ owner
  | builtIn => rfl
  | model name => exact append_quoted "model " name
  | output name => exact append_quoted "output type of model " name
  | input name => exact append_quoted "input type of model " name
  | reference name => exact append_quoted "reference input of model " name
  | filter name => exact append_quoted "filter of model " name
  | ordering name => exact append_quoted "ordering of model " name
  | page name => exact append_quoted "page type of model " name

theorem wording_blank (origin : Origin) : origin.blank.wording = origin.wording := by
  cases origin with
  | operation owner kind => cases kind <;> rfl
  | _ => rfl

theorem wording_unquoted : ∀ origin ∈ blanks, '`' ∉ origin.wording.toList := by decide +kernel

theorem eq_of_wording_blanks : ∀ origin ∈ blanks, ∀ other ∈ blanks,
    origin.wording = other.wording → origin = other := by decide +kernel

theorem takeWhile_before {c : Char} {front : List Char} (rest : List Char) (h : c ∉ front) :
    (front ++ c :: rest).takeWhile (· ≠ c) = front := by
  rw [List.takeWhile_append_of_pos fun a ha => decide_eq_true (ne_of_mem_of_not_mem ha h),
    List.takeWhile_cons_of_neg (by simp), List.append_nil]

/-- The quoted names begin with the first quotation mark of a text. -/
theorem toList_wording (origin : Origin) :
    origin.wording.toList = origin.text.toList.takeWhile (· ≠ '`') := by
  have hunquoted : '`' ∉ origin.wording.toList :=
    wording_blank origin ▸ wording_unquoted _ origin.blank_mem
  have hquoted : origin = .builtIn ∨ ∃ rest, origin.quotedNames.toList = '`' :: rest := by
    cases origin with
    | operation owner kind => cases kind <;> simp [quotedNames]
    | _ => simp [quotedNames]
  rcases hquoted with rfl | ⟨rest, hrest⟩
  · decide
  · rw [text_eq, String.toList_append, hrest, takeWhile_before _ hunquoted]

/-- Whether the names in an origin can be told from the dot between them. -/
def Dotless : Origin → Prop
  | .operation owner _ => '.' ∉ owner.toList
  | _ => True

theorem eq_of_quoted {name other : String} (h : "`" ++ (name ++ "`") = "`" ++ (other ++ "`")) :
    name = other :=
  (String.append_left_inj _).mp ((String.append_right_inj _).mp h)

theorem eq_of_dotted {owner other name otherName : String} (howner : '.' ∉ owner.toList)
    (hother : '.' ∉ other.toList)
    (h : "`" ++ (owner ++ ("." ++ (name ++ "`"))) = "`" ++ (other ++ ("." ++ (otherName ++ "`")))) :
    owner = other ∧ name = otherName := by
  have hdots := (String.append_right_inj _).mp h
  have hlist : owner.toList ++ '.' :: (name.toList ++ ['`']) =
      other.toList ++ '.' :: (otherName.toList ++ ['`']) := by
    simpa using congrArg String.toList hdots
  have hfront := congrArg (List.takeWhile (· ≠ '.')) hlist
  rw [takeWhile_before _ howner, takeWhile_before _ hother] at hfront
  obtain rfl := String.toList_inj.mp hfront
  have hnames := (String.append_right_inj _).mp ((String.append_right_inj _).mp hdots)
  exact ⟨rfl, (String.append_left_inj _).mp hnames⟩

theorem eq_of_names {origin other : Origin} (horigin : origin.Dotless) (hother : other.Dotless)
    (hblank : origin.blank = other.blank) (hnames : origin.quotedNames = other.quotedNames) :
    origin = other := by
  cases origin <;> cases other <;> try cases hblank
  case operation.operation owner kind otherOwner otherKind =>
    have hkind : kind.blank = otherKind.blank := by injection hblank
    rcases OperationKind.eq_of_blank hkind with rfl | ⟨name, otherName, rfl, rfl⟩
    · cases kind with
      | method name => rw [(eq_of_dotted horigin hother hnames).1]
      | _ => rw [eq_of_quoted hnames]
    · obtain ⟨rfl, rfl⟩ := eq_of_dotted horigin hother hnames
      rfl
  case builtIn.builtIn => rfl
  all_goals rw [eq_of_quoted hnames]

/-- The text of an origin says which one it is. -/
theorem eq_of_text {origin other : Origin} (horigin : origin.Dotless) (hother : other.Dotless)
    (h : origin.text = other.text) : origin = other := by
  have hwording : origin.wording = other.wording := by
    rw [String.ext_iff, toList_wording, toList_wording, h]
  have hblank : origin.blank = other.blank := by
    refine eq_of_wording_blanks _ origin.blank_mem _ other.blank_mem ?_
    rw [wording_blank, wording_blank, hwording]
  refine eq_of_names horigin hother hblank ?_
  rw [text_eq, text_eq, hwording] at h
  exact (String.append_right_inj _).mp h

end Origin

/-! ### What has a name -/

namespace Schema

/-- All filter types, also those that filters lead to. -/
def filters (schema : Schema) : List FilterType :=
  schema.models.flatMap fun model => (schema.filter model).walk

/-- All operator inputs that filters use. -/
def operatorInputs (schema : Schema) : List OperatorType :=
  schema.filters.flatMap fun filter => filter.fields.filterMap OperatorType.ofField?

/-- The names that a surface uses, each with what it belongs to. -/
inductive Names (schema : Schema) : Origin → String → Prop where
  | builtIn {name : String} (h : name ∈ BuiltIn.all) : Names schema .builtIn name
  | operators {type : OperatorType} (h : type ∈ schema.operatorInputs) :
    Names schema .builtIn type.name
  | output {model : Model} (h : model ∈ schema.models) :
    Names schema (.output model.name) (OutputType.ofModel model).name
  | input {model : Model} (h : model ∈ schema.models) (kind : InputKind) :
    Names schema (.input model.name) (schema.input kind model).name
  | reference {model : Model} (h : model ∈ schema.models) :
    Names schema (.reference model.name) (Naming.reference model.name)
  | filter {filter : FilterType} (h : filter ∈ schema.filters) :
    Names schema (.filter filter.model.name) filter.name
  | orderField {model : Model} (h : model ∈ schema.models) :
    Names schema (.ordering model.name) (Naming.orderField model.name)
  | orderBy {model : Model} (h : model ∈ schema.models) :
    Names schema (.ordering model.name) (Naming.orderBy model.name)
  | page {model : Model} (h : model ∈ schema.models) :
    Names schema (.page model.name) (Naming.page model.name)
  | operation {operation : Operation} (h : operation ∈ schema.operations) :
    Names schema (.operation operation.model operation.kind) operation.name

variable {schema : Schema}

theorem mem_filterClaims {filter : FilterType} {claim : NameClaim} :
    claim ∈ filterClaims filter ↔
      claim = ⟨filter.name, .filter filter.model.name⟩ ∨
        ∃ type ∈ filter.fields.filterMap OperatorType.ofField?,
          claim = ⟨type.name, .builtIn⟩ := by
  unfold filterClaims
  rw [List.mem_cons, List.mem_map]
  simp only [eq_comm]

theorem mem_operations {operation : Operation} :
    operation ∈ schema.operations ↔
      ∃ model ∈ schema.models, operation ∈ Operation.ofModel model :=
  List.mem_flatMap

theorem model_of_mem_ofModel {model : Model} {operation : Operation}
    (h : operation ∈ Operation.ofModel model) : operation.model = model.name := by
  unfold Operation.ofModel at h
  rcases List.mem_append.mp h with hcommon | hmethod
  · simp only [Operation.queries, Operation.mutations, List.mem_append, List.mem_cons,
      List.not_mem_nil, or_false] at hcommon
    rcases hcommon with (rfl | rfl | rfl) | rfl | rfl | rfl | rfl | rfl | rfl <;> rfl
  · obtain ⟨method, -, rfl⟩ := List.mem_map.mp hmethod
    rfl

theorem mem_modelClaims {model : Model} {claim : NameClaim} :
    claim ∈ schema.modelClaims model ↔
      claim = ⟨Naming.output model.name, .output model.name⟩ ∨
      (∃ kind, claim = ⟨InputType.nameOf kind model.name, .input model.name⟩) ∨
      claim = ⟨Naming.reference model.name, .reference model.name⟩ ∨
      (∃ filter ∈ (schema.filter model).walk, claim ∈ filterClaims filter) ∨
      claim = ⟨Naming.orderField model.name, .ordering model.name⟩ ∨
      claim = ⟨Naming.orderBy model.name, .ordering model.name⟩ ∨
      claim = ⟨Naming.page model.name, .page model.name⟩ ∨
      ∃ operation ∈ Operation.ofModel model,
        claim = ⟨operation.name, .operation model.name operation.kind⟩ := by
  have hkinds : (∃ kind, claim = ⟨InputType.nameOf kind model.name, .input model.name⟩) ↔
      claim = ⟨Naming.createInput model.name, .input model.name⟩ ∨
      claim = ⟨Naming.updateInput model.name, .input model.name⟩ ∨
      claim = ⟨Naming.deleteInput model.name, .input model.name⟩ :=
    ⟨fun ⟨kind, h⟩ => by cases kind <;> simp [h, InputType.nameOf], fun h => by
      rcases h with h | h | h
      exacts [⟨.create, h⟩, ⟨.update, h⟩, ⟨.delete, h⟩]⟩
  rw [hkinds]
  unfold modelClaims
  simp only [List.mem_append, List.mem_cons, List.not_mem_nil, or_false, List.mem_flatMap,
    List.mem_map, eq_comm (b := claim), or_assoc]

theorem names_of_mem_claims {claim : NameClaim} (h : claim ∈ schema.claims) :
    schema.Names claim.origin claim.name := by
  unfold claims at h
  rcases List.mem_append.mp h with hbuiltIn | hmodels
  · obtain ⟨name, hname, rfl⟩ := List.mem_map.mp hbuiltIn
    exact .builtIn hname
  obtain ⟨model, hmodel, hclaim⟩ := List.mem_flatMap.mp hmodels
  rcases mem_modelClaims.mp hclaim with
    rfl | ⟨kind, rfl⟩ | rfl | ⟨filter, hwalk, hfilter⟩ | rfl | rfl | rfl | ⟨operation, hop, rfl⟩
  · exact .output hmodel
  · exact .input hmodel kind
  · exact .reference hmodel
  · have hmem : filter ∈ schema.filters := List.mem_flatMap.mpr ⟨model, hmodel, hwalk⟩
    rcases mem_filterClaims.mp hfilter with rfl | ⟨type, htype, rfl⟩
    · exact .filter hmem
    · exact .operators (List.mem_flatMap.mpr ⟨filter, hmem, htype⟩)
  · exact .orderField hmodel
  · exact .orderBy hmodel
  · exact .page hmodel
  · rw [← model_of_mem_ofModel hop]
    exact .operation (mem_operations.mpr ⟨model, hmodel, hop⟩)

theorem mem_claims_of_names {origin : Origin} {name : String} (h : schema.Names origin name) :
    ⟨name, origin⟩ ∈ schema.claims := by
  have hmodels : ∀ model ∈ schema.models, ∀ claim ∈ schema.modelClaims model,
      claim ∈ schema.claims := fun model hmodel claim hclaim =>
    List.mem_append_right _ (List.mem_flatMap.mpr ⟨model, hmodel, hclaim⟩)
  have hfilters : ∀ filter ∈ schema.filters, ∀ claim ∈ filterClaims filter,
      claim ∈ schema.claims := by
    intro filter hfilter claim hclaim
    obtain ⟨model, hmodel, hwalk⟩ := List.mem_flatMap.mp hfilter
    refine hmodels model hmodel claim (mem_modelClaims.mpr ?_)
    exact .inr (.inr (.inr (.inl ⟨filter, hwalk, hclaim⟩)))
  cases h with
  | builtIn hname => exact List.mem_append_left _ (List.mem_map.mpr ⟨name, hname, rfl⟩)
  | operators htype =>
      obtain ⟨filter, hfilter, hfield⟩ := List.mem_flatMap.mp htype
      exact hfilters filter hfilter _ (mem_filterClaims.mpr (.inr ⟨_, hfield, rfl⟩))
  | filter hfilter => exact hfilters _ hfilter _ (mem_filterClaims.mpr (.inl rfl))
  | output hmodel => exact hmodels _ hmodel _ (mem_modelClaims.mpr (.inl rfl))
  | input hmodel kind => exact hmodels _ hmodel _ (mem_modelClaims.mpr (.inr (.inl ⟨kind, rfl⟩)))
  | reference hmodel | orderField hmodel | orderBy hmodel | page hmodel =>
      exact hmodels _ hmodel _ (by simp [mem_modelClaims])
  | operation hoperation =>
      obtain ⟨model, hmodel, hop⟩ := mem_operations.mp hoperation
      refine hmodels model hmodel _ (mem_modelClaims.mpr ?_)
      rw [model_of_mem_ofModel hop]
      exact .inr (.inr (.inr (.inr (.inr (.inr (.inr ⟨_, hop, rfl⟩))))))

/-- No name of a surface belongs to two things. -/
def Unambiguous (schema : Schema) : Prop :=
  ∀ name first second, schema.Names first name → schema.Names second name → first = second

/-- The table of names holds what the surface names, and nothing else. -/
theorem agree_claims_iff : NameClaim.Agree schema.claims ↔ schema.Unambiguous := by
  constructor
  · intro h name first second hfirst hsecond
    exact h _ (mem_claims_of_names hfirst) _ (mem_claims_of_names hsecond) rfl
  · intro h claim hclaim other hother hname
    exact h claim.name _ _ (names_of_mem_claims hclaim) (hname ▸ names_of_mem_claims hother)

end Schema

end ModelSurface
