import ModelSurface.Proofs.Registry.Accepted
import ModelSurface.Registry.Merge

/-!
# Registries that are put together

A document gives options under their name, or as the first part of an array. Where each document
that gives options does so under their name, all models are kept in order, and so are the options,
on which all that give some have to agree. Options that are given by position are read, but not
noticed when documents are put together.
-/

namespace ModelSurface

open Json

namespace Registry

/-- Whether a text is an array, the first part of which are options. -/
def optionsByPosition (text : String) : Bool :=
  match (Document.ofText text).1 with
  | .arr (_ :: _) _ => true
  | _ => false

/-- Whether a text gives options, under their name or by position. -/
def givesOptions (text : String) : Bool :=
  match (Document.ofText text).1 with
  | .obj members _ => members.any fun member => member.1 == "options"
  | .arr items _ => !items.isEmpty
  | _ => false

/-- The options that documents give, in order, with the document that gives them. -/
def given (documents : List (String × String)) (registries : List Registry) :
    List (String × Options) :=
  (documents.zip registries).filterMap fun (document, registry) =>
    if givesOptions document.2 then some (document.1, registry.options) else none

variable {text : String} {registry : Registry}

/-! ### One document -/

theorem jsonOfText_eq {document : Document} {json : Json}
    (hdocument : Document.ofText text = (document, false)) (hjson : document.toJson = .ok json) :
    Json.ofText text = .ok json := by
  unfold Json.ofText
  rw [hdocument]
  change (document.toJson >>= fun json => .ok json) = _
  rw [hjson]
  rfl

/-- What is looked up by name is what is given, unless it is given by position. -/
theorem declaresOptions_eq (h : ofText text = .ok registry)
    (hnamed : optionsByPosition text = false) : declaresOptions text = givesOptions text := by
  obtain ⟨hread, hmore⟩ := ofText_eq_ok.mp h
  obtain ⟨⟨json, hjson⟩, -⟩ := writable_of_ofText h
  have hdeclares : declaresOptions text = (json.get? "options").isSome := by
    unfold declaresOptions
    rw [jsonOfText_eq (Prod.ext rfl hmore) hjson]
  unfold givesOptions
  rw [hdeclares]
  cases hdocument : (Document.ofText text).1 with
  | obj members ending =>
      rw [hdocument] at hjson
      obtain ⟨values, hvalues, rfl⟩ := Document.toJson_obj_ok hjson
      rw [Bool.eq_iff_iff, isSome_get?_object, Document.names_membersToJson hvalues,
        List.any_eq_true, List.mem_map]
      simp only [beq_iff_eq]
  | arr items ending =>
      rw [hdocument] at hjson
      obtain ⟨values, -, rfl⟩ := Document.toJson_arr_ok hjson
      cases items with
      | nil => rfl
      | cons first items =>
          unfold optionsByPosition at hnamed
          rw [hdocument] at hnamed
          cases hnamed
  | num value => rw [hdocument] at hread; cases value <;> cases hread
  | _ => rw [hdocument] at hread; cases hread

/-- Without options the usual ones hold. -/
theorem options_of_not_gives (h : ofText text = .ok registry) (hgives : givesOptions text = false) :
    registry.options = {} := by
  have hread := (ofText_eq_ok.mp h).1
  have hfits := Document.fits_ofText text
  unfold givesOptions at hgives
  cases hdocument : (Document.ofText text).1 with
  | obj members ending =>
      rw [hdocument] at hread hfits hgives
      have hkeeps : ∀ field ∈ shape.fields, field.name ∈ members.map (·.1) →
          ∀ r : Registry, r.options = {} → Reads 126 (field.read r) fun r => r.options = {} := by
        simp only [shape, List.forall_mem_cons]
        refine ⟨fun hmem => ?_, fun _ r hr => ?_, List.forall_mem_nil _⟩
        · obtain ⟨member, hmember, hname⟩ := List.mem_map.mp hmem
          have hsome := List.any_eq_false.mp hgives member hmember
          exact absurd (beq_iff_eq.mpr hname) hsome
        · exact (ModelDef.reads defaultDepth).list.set fun _ _ => hr
      exact (Shape.reads_ofMembers hkeeps hfits.members rfl hread).2.2
  | arr items ending =>
      rw [hdocument] at hread hgives
      cases items with
      | nil =>
          cases ending with
          | closed => exact Except.ok.inj hread ▸ rfl
          | cut fault | cutBehindComma fault => cases hread
      | cons first items => cases hgives
  | num value => rw [hdocument] at hread; cases value <;> cases hread
  | _ => rw [hdocument] at hread; cases hread

/-! ### Many documents -/

/-- The options on which all agree, or the first document that differs. -/
def settle : Option Options → List (String × Options) → Except MergeFault Options
  | seen, [] => .ok (seen.getD {})
  | none, (_, options) :: rest => settle (some options) rest
  | some seen, (origin, options) :: rest =>
    if seen = options then settle (some seen) rest else .error (.options origin)

variable {documents : List (String × String)} {registries : List Registry}

theorem given_cons_of_gives (h : givesOptions text = true) (origin : String) :
    given ((origin, text) :: documents) (registry :: registries) =
      (origin, registry.options) :: given documents registries := by
  unfold given
  rw [List.zip_cons_cons, List.filterMap_cons_some]
  exact if_pos h

theorem given_cons_of_not_gives (h : givesOptions text = false) (origin : String) :
    given ((origin, text) :: documents) (registry :: registries) =
      given documents registries := by
  unfold given
  rw [List.zip_cons_cons, List.filterMap_cons_none]
  exact if_neg (ne_true_of_eq_false h)

theorem mergeOnto_eq
    (hread : documents.Forall₂ (fun document registry => ofText document.2 = .ok registry)
      registries)
    (hnamed : ∀ document ∈ documents, optionsByPosition document.2 = false) (models : List ModelDef)
    (seen : Option Options) :
    mergeOnto models seen documents = (settle seen (given documents registries)).map fun options =>
      { options := options, models := models ++ registries.flatMap (·.models) } := by
  induction hread generalizing models seen with
  | nil =>
      change (Except.ok _ : Except MergeFault Registry) = .ok _
      rw [List.flatMap_nil, List.append_nil]
  | @cons document registry documents registries hfirst _ ih =>
      obtain ⟨origin, text⟩ := document
      obtain ⟨hposition, hothers⟩ := List.forall_mem_cons.mp hnamed
      rw [mergeOnto, hfirst]
      dsimp only
      rw [declaresOptions_eq hfirst hposition]
      cases hgives : givesOptions text with
      | false =>
          rw [given_cons_of_not_gives hgives, if_neg Bool.false_ne_true, ih hothers,
            List.flatMap_cons, List.append_assoc]
      | true =>
          rw [given_cons_of_gives hgives, if_pos rfl]
          cases seen with
          | none =>
              dsimp only
              rw [settle, ih hothers, List.flatMap_cons, List.append_assoc]
          | some seen =>
              dsimp only
              rw [settle]
              split
              · rw [ih hothers, List.flatMap_cons, List.append_assoc]
              · rfl

/-! ### Options that agree, and the first that do not -/

theorem settle_some_ok {seen options : Options} {given : List (String × Options)} :
    settle (some seen) given = .ok options ↔
      options = seen ∧ ∀ entry ∈ given, entry.2 = seen := by
  induction given with
  | nil => simp [settle, eq_comm]
  | cons entry rest ih =>
      obtain ⟨origin, other⟩ := entry
      rw [settle, List.forall_mem_cons]
      split
      · rename_i hsame
        rw [ih, hsame]
        simp
      · rename_i hdiffers
        exact iff_of_false nofun fun h => hdiffers h.2.1.symm

theorem settle_some_error {seen : Options} {fault : MergeFault} {given : List (String × Options)} :
    settle (some seen) given = .error fault ↔ ∃ before entry after,
      given = before ++ entry :: after ∧ (∀ earlier ∈ before, earlier.2 = seen) ∧
        entry.2 ≠ seen ∧ fault = .options entry.1 := by
  induction given with
  | nil => exact iff_of_false nofun fun ⟨before, entry, after, h, _⟩ => by cases before <;> cases h
  | cons first rest ih =>
      obtain ⟨origin, options⟩ := first
      rw [settle]
      split
      · rename_i hsame
        rw [ih]
        constructor
        · rintro ⟨before, entry, after, rfl, hbefore, hentry, hfault⟩
          exact ⟨(origin, options) :: before, entry, after, rfl,
            List.forall_mem_cons.mpr ⟨hsame.symm, hbefore⟩, hentry, hfault⟩
        · rintro ⟨before, entry, after, heq, hbefore, hentry, hfault⟩
          cases before with
          | nil =>
              obtain ⟨rfl, -⟩ := List.cons.inj heq
              exact absurd hsame.symm hentry
          | cons earlier before =>
              obtain ⟨-, rfl⟩ := List.cons.inj heq
              exact ⟨before, entry, after, rfl, (List.forall_mem_cons.mp hbefore).2, hentry, hfault⟩
      · rename_i hdiffers
        constructor
        · intro h
          exact ⟨[], (origin, options), rest, rfl, List.forall_mem_nil _, fun h => hdiffers h.symm,
            (Except.error.inj h).symm⟩
        · rintro ⟨before, entry, after, heq, hbefore, -, hfault⟩
          cases before with
          | nil =>
              obtain ⟨rfl, -⟩ := List.cons.inj heq
              rw [hfault]
          | cons earlier before =>
              obtain ⟨rfl, -⟩ := List.cons.inj heq
              exact absurd (hbefore _ List.mem_cons_self).symm hdiffers

theorem settle_none_ok {options : Options} {given : List (String × Options)} :
    settle none given = .ok options ↔
      (∀ entry ∈ given, options = entry.2) ∧ (given = [] → options = {}) := by
  cases given with
  | nil => simp [settle, eq_comm]
  | cons first rest =>
      rw [settle, settle_some_ok, List.forall_mem_cons]
      constructor
      · rintro ⟨rfl, hrest⟩
        exact ⟨⟨rfl, fun entry hentry => (hrest entry hentry).symm⟩, fun h => by cases h⟩
      · rintro ⟨⟨rfl, hrest⟩, -⟩
        exact ⟨rfl, fun entry hentry => (hrest entry hentry).symm⟩

theorem settle_none_error {fault : MergeFault} {given : List (String × Options)} :
    settle none given = .error fault ↔ ∃ before entry after, given = before ++ entry :: after ∧
      (∀ earlier ∈ before, ∀ other ∈ before, earlier.2 = other.2) ∧
        (∃ earlier ∈ before, earlier.2 ≠ entry.2) ∧ fault = .options entry.1 := by
  cases given with
  | nil => exact iff_of_false nofun fun ⟨before, entry, after, h, _⟩ => by cases before <;> cases h
  | cons first rest =>
      rw [settle, settle_some_error]
      constructor
      · rintro ⟨before, entry, after, rfl, hbefore, hentry, hfault⟩
        have hfirst : ∀ earlier ∈ first :: before, earlier.2 = first.2 :=
          List.forall_mem_cons.mpr ⟨rfl, hbefore⟩
        have hagree : ∀ earlier ∈ first :: before, ∀ other ∈ first :: before,
            earlier.2 = other.2 :=
          fun _ hearlier _ hother => (hfirst _ hearlier).trans (hfirst _ hother).symm
        exact ⟨first :: before, entry, after, rfl, hagree, ⟨first, List.mem_cons_self, hentry.symm⟩,
          hfault⟩
      · rintro ⟨before, entry, after, heq, hagree, ⟨earlier, hearlier, hdiffers⟩, hfault⟩
        cases before with
        | nil => cases hearlier
        | cons head before =>
            obtain ⟨rfl, rfl⟩ := List.cons.inj heq
            have hfirst : ∀ other ∈ first :: before, other.2 = first.2 :=
              fun other hother => hagree other hother first List.mem_cons_self
            refine ⟨before, entry, after, rfl, (List.forall_mem_cons.mp hfirst).2, ?_, hfault⟩
            exact fun hentry => hdiffers ((hfirst earlier hearlier).trans hentry.symm)

/-- Documents that all give their options by name, if they give some: the models follow each other,
and the options are those of each document that gives some. It fails exactly if two of them differ,
and names the first document that differs from an earlier one. One document alone stays as it is. -/
theorem merge_accepted
    (hread : documents.Forall₂ (fun document registry => ofText document.2 = .ok registry)
      registries)
    (hnamed : ∀ document ∈ documents, optionsByPosition document.2 = false) :
    (∀ registry, merge documents = .ok registry ↔
      registry.models = registries.flatMap (·.models) ∧
        (∀ entry ∈ given documents registries, registry.options = entry.2) ∧
        (given documents registries = [] → registry.options = {})) ∧
    (∀ fault, merge documents = .error fault ↔
      ∃ before entry after, given documents registries = before ++ entry :: after ∧
        (∀ earlier ∈ before, ∀ other ∈ before, earlier.2 = other.2) ∧
        (∃ earlier ∈ before, earlier.2 ≠ entry.2) ∧ fault = .options entry.1) ∧
    ((∃ fault, merge documents = .error fault) ↔
      ∃ entry ∈ given documents registries, ∃ other ∈ given documents registries,
        entry.2 ≠ other.2) ∧
    ∀ registry, registries = [registry] → merge documents = .ok registry := by
  have hmerge : merge documents = (settle none (given documents registries)).map fun options =>
      { options := options, models := registries.flatMap (·.models) } :=
    mergeOnto_eq hread hnamed [] none
  have hok : ∀ registry, merge documents = .ok registry ↔
      registry.models = registries.flatMap (·.models) ∧
        (∀ entry ∈ given documents registries, registry.options = entry.2) ∧
        (given documents registries = [] → registry.options = {}) := by
    intro registry
    rw [hmerge, except_map_eq_ok]
    constructor
    · rintro ⟨options, hoptions, rfl⟩
      exact ⟨rfl, settle_none_ok.mp hoptions⟩
    · rintro ⟨hmodels, hoptions⟩
      refine ⟨registry.options, settle_none_ok.mpr hoptions, ?_⟩
      rw [← hmodels]
  have herror : ∀ fault, merge documents = .error fault ↔
      settle none (given documents registries) = .error fault := by
    intro fault
    rw [hmerge]
    cases settle none (given documents registries) <;> simp [Except.map]
  refine ⟨hok, fun fault => (herror fault).trans settle_none_error, ?_, ?_⟩
  · constructor
    · rintro ⟨fault, hfault⟩
      obtain ⟨before, entry, after, heq, -, ⟨earlier, hearlier, hdiffers⟩, -⟩ :=
        settle_none_error.mp ((herror fault).mp hfault)
      rw [heq]
      exact ⟨earlier, List.mem_append_left _ hearlier, entry, by simp, hdiffers⟩
    · rintro ⟨entry, hentry, other, hother, hdiffers⟩
      cases hall : merge documents with
      | error fault => exact ⟨fault, rfl⟩
      | ok registry =>
          obtain ⟨-, hagree, -⟩ := (hok registry).mp hall
          exact absurd ((hagree entry hentry).symm.trans (hagree other hother)) hdiffers
  · rintro registry rfl
    obtain - | ⟨hfirst, ⟨⟩⟩ := hread
    rename_i document
    refine (hok registry).mpr ⟨(List.append_nil _).symm, ?_⟩
    cases hgives : givesOptions document.2 with
    | false =>
        rw [given_cons_of_not_gives hgives]
        exact ⟨nofun, fun _ => options_of_not_gives hfirst hgives⟩
    | true =>
        rw [given_cons_of_gives hgives]
        exact ⟨List.forall_mem_singleton.mpr rfl, nofun⟩

set_option maxRecDepth 4000 in
/-- A document without options stands between two that differ. -/
theorem merge_accepted_differing :
    merge [("a.json", "\x7b\"options\":[2,5]\x7d"), ("b.json", "[]"),
      ("c.json", "\x7b\"models\":[[\"A\"]],\"options\":\x7b\"max_page_size\":50\x7d\x7d")] =
      .error (.options "c.json") := by
  let first : Options := { relationFilterDepth := 2, defaultPageSize := 5 }
  let last : Options := { maxPageSize := 50 }
  have hread : List.Forall₂ (fun document registry => ofText document.2 = .ok registry)
      [("a.json", "\x7b\"options\":[2,5]\x7d"), ("b.json", "[]"),
        ("c.json", "\x7b\"models\":[[\"A\"]],\"options\":\x7b\"max_page_size\":50\x7d\x7d")]
      [{ options := first }, {}, { options := last, models := [{ name := "A" }] }] :=
    .cons rfl (.cons rfl (.cons rfl .nil))
  refine ((merge_accepted hread ?_).2.1 _).mpr
    ⟨[("a.json", first)], ("c.json", last), [], rfl, ?_, by decide, rfl⟩
  · decide +kernel
  · decide

set_option maxRecDepth 4000 in
/-- Options that are given by position are read, but lost when documents are put together. -/
theorem merge_loses_position :
    let text := "[\x7b\"max_page_size\":50\x7d,[]]"
    ofText text = .ok { options := { maxPageSize := 50 } } ∧
      merge [("a.json", text)] = .ok { options := { maxPageSize := 100 } } := by
  intro text
  have hread : ofText text = .ok { options := { maxPageSize := 50 } } := by
    dsimp only [text]
    rfl
  have hnone : declaresOptions text = false := by decide +kernel
  refine ⟨hread, ?_⟩
  unfold merge
  rw [mergeOnto, hread]
  dsimp only
  rw [hnone]
  rfl

end Registry

end ModelSurface
