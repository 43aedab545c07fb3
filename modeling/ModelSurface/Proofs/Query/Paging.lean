import ModelSurface.Engine.Queries
import ModelSurface.Proofs.Engine.Call
import ModelSurface.Proofs.Query.Slices
import ModelSurface.Text.Base62

/-!
# Reading a result page by page

A caller reads a result by asking for a page and then, as long as there is a next one, for the page
behind the last record that it got. The pages are those into which the whole result falls apart.
-/

namespace ModelSurface

/-! ### Arguments -/

namespace Json

theorem lookup_insertMember_self (name : String) (value : Json) (members : List (String × Json)) :
    (insertMember name value members).lookup name = some value := by
  induction members with
  | nil => exact List.lookup_cons_self
  | cons member rest ih =>
      obtain ⟨other, old⟩ := member
      unfold insertMember
      split
      · exact List.lookup_cons_self
      · exact List.lookup_cons_self
      · rename_i hbehind
        have hne : (name == other) = false := by
          refine beq_eq_false_iff_ne.mpr ?_
          rintro rfl
          have hself : compare name name = .eq := Std.ReflCmp.compare_self
          rw [hself] at hbehind
          cases hbehind
        rw [List.lookup_cons, hne]
        exact ih

theorem lookup_insertMember_of_ne {name other : String} (hne : other ≠ name) (value : Json)
    (members : List (String × Json)) :
    (insertMember name value members).lookup other = members.lookup other := by
  have hmissed : (other == name) = false := beq_eq_false_iff_ne.mpr hne
  induction members with
  | nil => rw [insertMember, List.lookup_cons, hmissed]
  | cons member rest ih =>
      obtain ⟨here, old⟩ := member
      unfold insertMember
      split
      · rw [List.lookup_cons, hmissed]
      · rename_i hsame
        obtain rfl : name = here := Std.LawfulEqOrd.eq_of_compare hsame
        rw [List.lookup_cons, List.lookup_cons, hmissed]
      · rw [List.lookup_cons, List.lookup_cons, ih]

theorem mem_insertMember {name : String} {value : Json} {members : List (String × Json)}
    {member : String × Json} (h : member ∈ insertMember name value members) :
    member = (name, value) ∨ member ∈ members := by
  induction members with
  | nil => exact .inl (List.mem_singleton.mp h)
  | cons first rest ih =>
      obtain ⟨other, old⟩ := first
      unfold insertMember at h
      split at h
      · exact List.mem_cons.mp h
      · exact (List.mem_cons.mp h).imp_right (List.mem_cons_of_mem _)
      · rcases List.mem_cons.mp h with rfl | hrest
        · exact .inr List.mem_cons_self
        · exact (ih hrest).imp_right (List.mem_cons_of_mem _)

end Json

namespace Arguments

/-- The value of an argument that is given and not null. -/
def value? (arguments : Json) (name : String) : Option Json :=
  given? (arguments.obj?.getD []) name

/-- The arguments with one of them set to a value. -/
def set (arguments : Json) (name : String) (value : Json) : Json :=
  .obj (Json.insertMember name value (arguments.obj?.getD []))

theorem members_fst (known : List String) (arguments : Json) :
    (members known arguments).1 = arguments.obj?.getD [] := by
  cases arguments <;> rfl

theorem value?_set_self (arguments : Json) (name : String) {value : Json}
    (hvalue : value.isNull = false) : value? (set arguments name value) name = some value := by
  change ((Json.insertMember name value _).lookup name).filter _ = _
  rw [Json.lookup_insertMember_self]
  exact Option.filter_some_pos (by rw [hvalue]; rfl)

theorem value?_set_of_ne (arguments : Json) {name other : String} (hne : other ≠ name)
    (value : Json) : value? (set arguments name value) other = value? arguments other := by
  change ((Json.insertMember name value _).lookup other).filter _ = _
  rw [Json.lookup_insertMember_of_ne hne]
  rfl

theorem members_set {known : List String} {arguments : Json} {name : String} (value : Json)
    (hname : name ∈ known) (h : (members known arguments).2 = []) :
    (members known (set arguments name value)).2 = [] := by
  have hold : ∀ member ∈ arguments.obj?.getD [], member.1 ∈ known := by
    cases arguments with
    | null => exact fun _ hmem => absurd hmem List.not_mem_nil
    | obj old =>
        intro member hmem
        change (((old.map (·.1)).filter fun name => !known.contains name).map _ : List _) = [] at h
        have hunknown := List.filter_eq_nil_iff.mp (List.map_eq_nil_iff.mp h) member.1
          (List.mem_map.mpr ⟨member, hmem, rfl⟩)
        simpa using hunknown
    | bool | num | str | arr => exact fun _ hmem => absurd hmem List.not_mem_nil
  change (((Json.insertMember name value (arguments.obj?.getD [])).map (·.1)).filter
    fun name => !known.contains name).map _ = []
  rw [List.map_eq_nil_iff, List.filter_eq_nil_iff]
  intro other hother
  obtain ⟨member, hmember, rfl⟩ := List.mem_map.mp hother
  rcases Json.mem_insertMember hmember with rfl | hmem
  · simpa using hname
  · simpa using hold member hmem

theorem optional_congr {α : Type} {members others : List (String × Json)} {name : String}
    (h : given? members name = given? others name) (read : Json → Checked α) :
    optional members name read = optional others name read := by
  unfold optional
  rw [h]

theorem optional_none {α : Type} {members : List (String × Json)} {name : String}
    (h : given? members name = none) (read : Json → Checked α) :
    optional members name read = .ok none := by
  unfold optional
  rw [h]

theorem optional_some {α : Type} {members : List (String × Json)} {name : String} {json : Json}
    (h : given? members name = some json) (read : Json → Checked α) :
    optional members name read = ((read json).map some : Checked (Option α)) := by
  unfold optional
  rw [h]

end Arguments

namespace PageArgs

/-- The arguments that a request for a page may have. -/
def known : List String := ["filter", "order_by", "page_size", "after", "offset"]

/-- What the arguments of a request for a page are read as, one by one. -/
structure Given (schema : Schema) (model : Model) (arguments : Json) (args : PageArgs)
    (after offset : Option Nat) : Prop where
  known : (Arguments.members known arguments).2 = []
  filter : Arguments.optional (arguments.obj?.getD []) "filter"
    (Filter.ofJson (schema.filter model)) = .ok args.filter
  orderBy : ∃ orderBy, Arguments.optional (arguments.obj?.getD []) "order_by"
    (OrderKey.keysOfJson model.sortableFields) = .ok orderBy ∧ args.orderBy = orderBy.getD []
  pageSize : Arguments.optional (arguments.obj?.getD []) "page_size"
    (Arguments.count "page_size") = .ok args.pageSize
  joint : jointViolations (.ok args.pageSize) (.ok after) (.ok offset) = []
  start : args.offset = (after.or offset).getD 0
  offset : Arguments.optional (arguments.obj?.getD []) "offset" (Arguments.count "offset") =
    .ok offset
  after : Arguments.optional (arguments.obj?.getD []) "after" PageArgs.after = .ok after

variable {schema : Schema} {model : Model} {arguments : Json} {args : PageArgs}

theorem ofJson_eq_ok_iff :
    ofJson schema model arguments = .ok args ↔
      ∃ after offset, Given schema model arguments args after offset := by
  unfold ofJson
  rcases hall : Arguments.members ["filter", "order_by", "page_size", "after", "offset"] arguments
    with ⟨members, violations⟩
  have hmembers : members = arguments.obj?.getD [] := by
    rw [← Arguments.members_fst known, known, hall]
  have hviolations : (Arguments.members known arguments).2 = violations := by
    rw [known, hall]
  dsimp only
  rw [hmembers]
  constructor
  · intro h
    split at h
    · rename_i filter orderBy pageSize offset after hnone hfilter horderBy hpageSize hoffset hafter
      rw [hfilter, horderBy, hpageSize, hoffset, hafter] at hnone
      simp only [List.append_eq_nil_iff] at hnone
      obtain ⟨⟨⟨⟨⟨⟨hknown, -⟩, -⟩, -⟩, -⟩, -⟩, hjoint⟩ := hnone
      obtain rfl := Except.ok.inj h
      exact ⟨after, offset, hviolations.trans hknown, hfilter, ⟨orderBy, horderBy, rfl⟩,
        hpageSize, hjoint, rfl, hoffset, hafter⟩
    · cases h
  · rintro ⟨after, offset, hgiven⟩
    obtain ⟨orderBy, horderBy, hkeys⟩ := hgiven.orderBy
    have hknown : violations = [] := hviolations.symm.trans hgiven.known
    rw [hgiven.filter, horderBy, hgiven.pageSize, hgiven.offset, hgiven.after]
    dsimp only [Checked.violations]
    rw [hgiven.joint, hknown]
    change Except.ok
      (PageArgs.mk args.filter (orderBy.getD []) args.pageSize ((after.or offset).getD 0)) = _
    rw [← hkeys, ← hgiven.start]

theorem after_encode {position : Nat} (h : position + 1 < Nat.pow 2 64) :
    after (.str (Text.Base62.encode position)) = .ok (position + 1) := by
  unfold after
  dsimp only
  rw [Text.Base62.decode?_encode (Nat.lt_of_succ_lt h)]
  exact if_pos h

/-- A request that gives no offset is continued behind a record by the cursor of the record. -/
theorem Given.continue {after : Option Nat} (h : Given schema model arguments args after none)
    {position : Nat} (hposition : position + 1 < Nat.pow 2 64) :
    Given schema model (Arguments.set arguments "after" (.str (Text.Base62.encode position)))
      { args with offset := position + 1 } (some (position + 1)) none := by
  have hkept : ∀ name ≠ "after", Arguments.given?
      (Json.insertMember "after" (.str (Text.Base62.encode position)) (arguments.obj?.getD []))
        name = Arguments.given? (arguments.obj?.getD []) name := fun name hname =>
    Arguments.value?_set_of_ne arguments hname _
  obtain ⟨orderBy, horderBy, hkeys⟩ := h.orderBy
  constructor
  · exact Arguments.members_set _ (by decide) h.known
  · exact (Arguments.optional_congr (hkept "filter" (by decide)) _).trans h.filter
  · exact ⟨orderBy, (Arguments.optional_congr (hkept "order_by" (by decide)) _).trans horderBy,
      hkeys⟩
  · exact (Arguments.optional_congr (hkept "page_size" (by decide)) _).trans h.pageSize
  · rw [← h.joint]
    cases after <;> rfl
  · rfl
  · exact (Arguments.optional_congr (hkept "offset" (by decide)) _).trans h.offset
  · have hcursor : Json.isNull (.str (Text.Base62.encode position)) = false := rfl
    have hafter := Arguments.value?_set_self arguments "after" hcursor
    refine (Arguments.optional_some hafter _).trans ?_
    rw [after_encode hposition]
    rfl

end PageArgs

/-! ### Reading on -/

namespace Query

/-- The page that a caller gets who asks for one. -/
def page (schema : Schema) (tables : Tables) (name : String) (arguments : Json) : Checked Page := do
  let model ← schema.findModel name
  let args ← PageArgs.ofJson schema model arguments
  pages schema tables name args

/-- The pages that a caller gets who asks for one, and as long as there is a next one, for the page
behind the end of the last. -/
inductive Paged (schema : Schema) (tables : Tables) (name : String) : Json → List Page → Prop
  | last {arguments : Json} {shown : Page} (hpage : page schema tables name arguments = .ok shown)
      (hlast : shown.info.hasNextPage = false) : Paged schema tables name arguments [shown]
  | next {arguments : Json} {shown : Page} {cursor : String} {rest : List Page}
      (hpage : page schema tables name arguments = .ok shown)
      (hmore : shown.info.hasNextPage = true) (hcursor : shown.info.endCursor = some cursor)
      (hrest : Paged schema tables name (Arguments.set arguments "after" (.str cursor)) rest) :
      Paged schema tables name arguments (shown :: rest)

/-- The records of a model that match a filter, or all of them. -/
def matching (schema : Schema) (tables : Tables) (model : Model) (filter : Option Filter) :
    List Record :=
  (tables.scan model.name).filter fun record =>
    filter.all fun filter => filter.holds (tables.related schema) model.name record

variable {schema : Schema} {tables : Tables} {name : String} {model : Model}

theorem perm_select (schema : Schema) (tables : Tables) (model : Model) (filter : Option Filter)
    (orderBy : List OrderKey) :
    (select schema tables model filter orderBy).Perm (matching schema tables model filter) := by
  refine (Record.perm_sort _ _ _).trans (.of_eq ?_)
  cases filter with
  | none => exact (List.filter_eq_self.mpr fun _ _ => rfl).symm
  | some filter => rfl

theorem length_select_le (schema : Schema) (tables : Tables) (model : Model)
    (filter : Option Filter) (orderBy : List OrderKey) :
    (select schema tables model filter orderBy).length ≤ tables.count model.name := by
  rw [(perm_select schema tables model filter orderBy).length_eq]
  exact List.length_filter_le _ _

theorem page_of_given (tables : Tables) (hmodel : schema.model? name = some model)
    {arguments : Json} {args : PageArgs} {after offset : Option Nat}
    (hgiven : PageArgs.Given schema model arguments args after offset) :
    page schema tables name arguments =
      .ok (Page.slice (select schema tables model args.filter args.orderBy) args.offset
        (args.effectiveSize schema.options)) := by
  have hfound := Engine.findModel_of_model? hmodel
  have hargs := PageArgs.ofJson_eq_ok_iff.mpr ⟨after, offset, hgiven⟩
  unfold page pages
  rw [hfound]
  change (PageArgs.ofJson schema model arguments >>= _) = _
  rw [hargs]
  rfl

theorem list_eq (hmodel : schema.model? name = some model) (args : ListArgs) :
    list schema tables name args =
      .ok (match args.limit with
        | some limit =>
          ((select schema tables model args.filter args.orderBy).drop args.offset).take limit
        | none => (select schema tables model args.filter args.orderBy).drop args.offset) := by
  unfold list
  rw [Engine.findModel_of_model? hmodel]
  change (match args.limit with
    | some limit => Except.ok (List.take limit _)
    | none => Except.ok _) = _
  cases args.limit <;> rfl

theorem effectiveSize_pos (args : PageArgs) (options : Options) : 0 < args.effectiveSize options :=
  Nat.lt_of_lt_of_le Nat.zero_lt_one (Nat.le_max_right _ _)

/-- A caller who reads on gets the pages of the result behind the place from which it starts. -/
theorem paged_iff (hmodel : schema.model? name = some model) {arguments : Json} {args : PageArgs}
    {after : Option Nat} (hgiven : PageArgs.Given schema model arguments args after none)
    (hcount : tables.count model.name < Nat.pow 2 64) (shown : List Page) :
    Paged schema tables name arguments shown ↔
      shown = Page.all (select schema tables model args.filter args.orderBy)
        (args.effectiveSize schema.options) args.offset := by
  have hsize := effectiveSize_pos args schema.options
  have hlength := length_select_le schema tables model args.filter args.orderBy
  have hfirst := page_of_given tables hmodel hgiven
  have hnext := Page.hasNextPage_slice (select schema tables model args.filter args.orderBy)
    args.offset (args.effectiveSize schema.options)
  by_cases hmore : args.offset + args.effectiveSize schema.options <
      (select schema tables model args.filter args.orderBy).length
  · rw [decide_eq_true hmore] at hnext
    have hend := Page.endCursor_slice hsize hmore
    have hword : args.offset + args.effectiveSize schema.options - 1 + 1 < Nat.pow 2 64 := by omega
    have hcontinue := hgiven.continue hword
    rw [Nat.sub_add_cancel (by omega)] at hcontinue
    have hrest := fun rest => paged_iff hmodel hcontinue hcount rest
    rw [Page.all_of_more hsize hmore]
    constructor
    · intro hpaged
      cases hpaged with
      | last hpage hlast =>
          obtain rfl := Except.ok.inj (hfirst.symm.trans hpage)
          rw [hnext] at hlast
          cases hlast
      | next hpage _ hcursor hbehind =>
          obtain rfl := Except.ok.inj (hfirst.symm.trans hpage)
          obtain rfl := Option.some.inj (hend.symm.trans hcursor)
          exact congrArg _ ((hrest _).mp hbehind)
    · rintro rfl
      exact .next hfirst hnext hend ((hrest _).mpr rfl)
  · rw [decide_eq_false hmore] at hnext
    rw [Page.all_of_last hmore]
    constructor
    · intro hpaged
      cases hpaged with
      | last hpage _ => exact congrArg (fun page => [page]) (Except.ok.inj (hpage.symm.trans hfirst))
      | next hpage hsome _ _ =>
          obtain rfl := Except.ok.inj (hfirst.symm.trans hpage)
          rw [hnext] at hsome
          cases hsome
    · rintro rfl
      exact .last hfirst hnext
termination_by (select schema tables model args.filter args.orderBy).length - args.offset

/-- A caller who asks for pages from the front and reads on as long as there is a next one comes to
an end, and its pages are the result in pieces: together they are the list of all matching records,
and each of them is the list with its place as the offset and the size of the pages as the limit.
A model has fewer records than a word of the machine counts. -/
theorem paged_partition {schema : Schema} {tables : Tables} {name : String} {model : Model}
    (hmodel : schema.model? name = some model) {arguments : Json} {args : PageArgs}
    (hargs : PageArgs.ofJson schema model arguments = .ok args)
    (hstart : Arguments.value? arguments "after" = none ∧
      Arguments.value? arguments "offset" = none)
    (hcount : tables.count model.name < Nat.pow 2 64) :
    ∃ records shown,
      list schema tables name { filter := args.filter, orderBy := args.orderBy } = .ok records ∧
        records.Perm (matching schema tables model args.filter) ∧
        (∀ pages, Paged schema tables name arguments pages ↔ pages = shown) ∧
        shown.flatMap Page.items = records ∧
        ∀ index page, shown[index]? = some page →
          page.totalCount = records.length ∧
          (page.info.hasNextPage = false ↔ index + 1 = shown.length) ∧
          (page.info.hasPreviousPage = false ↔ index = 0) ∧
          list schema tables name
            { filter := args.filter, orderBy := args.orderBy
              limit := some (args.effectiveSize schema.options)
              offset := index * args.effectiveSize schema.options } = .ok page.items := by
  obtain ⟨after, offset, hgiven⟩ := PageArgs.ofJson_eq_ok_iff.mp hargs
  obtain rfl : none = after :=
    Except.ok.inj ((Arguments.optional_none hstart.1 _).symm.trans hgiven.after)
  obtain rfl : none = offset :=
    Except.ok.inj ((Arguments.optional_none hstart.2 _).symm.trans hgiven.offset)
  have hfront : args.offset = 0 := hgiven.start
  have hsize := effectiveSize_pos args schema.options
  refine ⟨select schema tables model args.filter args.orderBy,
    Page.all (select schema tables model args.filter args.orderBy)
      (args.effectiveSize schema.options) 0,
    list_eq hmodel _, perm_select .., ?_, Page.items_all hsize _ 0, ?_⟩
  · intro pages
    rw [paged_iff hmodel hgiven hcount, hfront]
  · intro index page hpage
    obtain ⟨hitems, htotal, hnext, hprevious⟩ := Page.all_page hsize hpage
    exact ⟨htotal, hnext, hprevious, by rw [list_eq hmodel, hitems]⟩

/-- Three nodes, none of which refers to another one. -/
def chainTables : Tables :=
  [1, 2, 3].foldl (fun tables id => tables.put "Node" (.int id) (chainNode id .null)) {}

theorem paged_partition_chain : ∃ records shown,
    list chainSchema chainTables "Node" {} = .ok records ∧ records.length = 3 ∧
      (∀ pages, Paged chainSchema chainTables "Node" (.obj [("page_size", .num (.int 2))]) pages ↔
        pages = shown) ∧
      shown.flatMap Page.items = records ∧
      ∀ (index : Nat) (page : Page), shown[index]? = some page → page.totalCount = 3 := by
  have hsome : (chainSchema.model? "Node").isSome = true := by decide +kernel
  have hname : (chainSchema.model? "Node").all (·.name == "Node") = true := by decide +kernel
  have hthree : ((list chainSchema chainTables "Node" {}).value?.map List.length) = some 3 := by
    decide +kernel
  obtain ⟨model, hmodel⟩ := Option.isSome_iff_exists.mp hsome
  rw [hmodel] at hname
  have hargs : PageArgs.ofJson chainSchema model (.obj [("page_size", .num (.int 2))]) =
      .ok { pageSize := some 2 } := rfl
  have hcount : chainTables.count model.name < Nat.pow 2 64 := by
    rw [beq_iff_eq.mp hname]
    decide +kernel
  obtain ⟨records, shown, hlist, -, hpaged, hitems, hpages⟩ :=
    paged_partition hmodel hargs ⟨rfl, rfl⟩ hcount
  have hlength : records.length = 3 := by
    rw [hlist] at hthree
    exact Option.some.inj hthree
  refine ⟨records, shown, hlist, hlength, hpaged, hitems, fun index page hpage => ?_⟩
  rw [← hlength]
  exact (hpages index page hpage).1

end Query

end ModelSurface
