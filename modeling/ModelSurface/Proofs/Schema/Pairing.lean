import Mathlib.Data.Set.Function
import ModelSurface.Proofs.Schema.Reports

/-!
# Pairs of sides

Every relation of a model that has records is one of a pair of sides, each the inverse of the other,
unless the name of its other side is taken, which one issue says. The other sides are added one
after another, and each step touches one pair only: the side that is added is new under its name,
and the side that learns of it had no inverse before.
-/

namespace ModelSurface

namespace Introspection

/-- Whether a relationship has an inverse at its target whose inverse it is, so that one of the two
is held and the other one is not. -/
def Matched (models : Keyed Model) (name field : String) (side : Relationship) : Prop :=
  ∃ inverse other, side.inverse = some inverse ∧ side? models side.target inverse = some other ∧
    other.inverse = some field ∧ other.target = name ∧
    other.cardinality = side.cardinality.flip ∧
    (side.ownership = .own ∧ other.ownership = .remote field ∨
      side.ownership = .remote inverse ∧ other.ownership = .own)

/-- Whether all sides that are held elsewhere or have an inverse are one of a pair. -/
def Balanced (models : Keyed Model) : Prop :=
  ∀ name field side, side? models name field = some side →
    side.isOwn = false ∨ side.inverse ≠ none → Matched models name field side

/-- Where the inverse of a relationship stands. -/
def otherSide (models : Keyed Model) (key : String × String) : String × String :=
  ((side? models key.1 key.2).map fun side => (side.target, side.inverse.getD key.2)).getD key

/-! ### One step -/

/-- The names of a relation and of the model that has it. -/
def keyOf (declared : String × RelationDef) : String × String := (declared.1, declared.2.name)

/-- The pairs after some relations have been given their other sides. -/
structure Pairs (state : Introspection) (done : List (String × String)) : Prop where
  matched : Balanced state.models
  clashes : ∀ name field side, side? state.models name field = some side → side.isOwn →
    (state.issues.filterMap Issue.clash?).count (name, field) =
      if (name, field) ∈ done ∧ side.inverse = none then 1 else 0
  pending : ∀ name field side, side? state.models name field = some side → side.isOwn →
    (name, field) ∉ done → side.inverse = none

theorem isOwn_eq_false_iff {side : Relationship} :
    side.isOwn = false ↔ ∃ field, side.ownership = .remote field := by
  unfold Relationship.isOwn
  cases side.ownership <;> simp

section Step

variable {models : Keyed Model} {model : String} {relation : RelationDef} {target : Model}
  (h : Sound models) (hdeclared : Declared models (model, relation))
  (htarget : models.get? relation.target = some target)
  (hfree : ¬ target.hasMember (Relationship.reverse model relation).name)

include htarget hfree

theorem side?_new :
    side? models relation.target (Relationship.reverse model relation).name = none := by
  unfold side?
  rw [htarget, Option.bind_some]
  exact (not_mem_of_free hfree).2

include h hdeclared

/-- The two sides that a step makes a pair. -/
theorem sides_withReverse : ∃ held, side? models model relation.name = some held ∧ held.isOwn ∧
    held.target = relation.target ∧ held.cardinality = relation.kind.cardinality ∧
    side? (withReverse models model relation) model relation.name = some
      { held with inverse := some (Relationship.reverse model relation).name } ∧
    side? (withReverse models model relation) relation.target
      (Relationship.reverse model relation).name = some (Relationship.reverse model relation) := by
  have hthere := hdeclared
  obtain ⟨-, -, held, hheld, hown, hleads, hcardinality⟩ := hthere
  refine ⟨held, hheld, hown, hleads, hcardinality, ?_, ?_⟩
  · rw [side?_withReverse h hdeclared htarget hfree, if_pos ⟨rfl, rfl⟩, hheld]
    rfl
  · rw [side?_withReverse h hdeclared htarget hfree, if_neg, if_pos ⟨rfl, rfl⟩]
    rintro ⟨hname, hfield⟩
    have hnew := side?_new htarget hfree
    rw [hname, hfield, hheld] at hnew
    cases hnew

/-- What is a side after a step was one before, or it is one of the pair. -/
theorem side?_withReverse_cases {name field : String} {side : Relationship}
    (hside : side? (withReverse models model relation) name field = some side) :
    ((name, field) = (model, relation.name) ∧ side.isOwn ∧
      side.inverse = some (Relationship.reverse model relation).name ∧
      side.target = relation.target ∧ side.cardinality = relation.kind.cardinality) ∨
    ((name, field) = (relation.target, (Relationship.reverse model relation).name) ∧
      side = Relationship.reverse model relation) ∨
    ((name, field) ≠ (model, relation.name) ∧ side? models name field = some side) := by
  rw [side?_withReverse h hdeclared htarget hfree] at hside
  split at hside
  · rename_i hkey
    obtain ⟨-, -, held, hheld, hown, hleads, hcardinality⟩ := hdeclared
    dsimp only at hheld
    rw [hkey.1, hkey.2, hheld] at hside
    obtain rfl := Option.some.inj hside
    exact .inl ⟨Prod.ext hkey.1 hkey.2, hown, rfl, hleads, hcardinality⟩
  · rename_i hother
    split at hside
    · rename_i hkey
      exact .inr (.inl ⟨Prod.ext hkey.1 hkey.2, (Option.some.inj hside).symm⟩)
    · exact .inr (.inr ⟨fun hkey => hother (Prod.mk.inj hkey), hside⟩)

/-- A step leaves the pairs alone that are there. -/
theorem side?_kept {name field : String} {side : Relationship}
    (hside : side? models name field = some side) (hkey : (name, field) ≠ (model, relation.name)) :
    side? (withReverse models model relation) name field = some side := by
  rw [side?_withReverse h hdeclared htarget hfree, if_neg fun heq => hkey (Prod.ext heq.1 heq.2),
    if_neg, hside]
  rintro ⟨rfl, rfl⟩
  rw [side?_new htarget hfree] at hside
  cases hside

/-- A step makes one pair more, if the side that is held had no inverse before. -/
theorem balanced_withReverse (hbalanced : Balanced models)
    (hopen : ∀ held, side? models model relation.name = some held → held.inverse = none) :
    Balanced (withReverse models model relation) := by
  obtain ⟨held, hheld, hheld_own, hleads, hcardinality, hown_side, hreverse⟩ :=
    sides_withReverse h hdeclared htarget hfree
  intro name field side hside hlinked
  rcases side?_withReverse_cases h hdeclared htarget hfree hside with
    ⟨hkey, hown, hinverse, htargets, hkind⟩ | ⟨hkey, rfl⟩ | ⟨hkey, hold⟩
  · obtain ⟨rfl, rfl⟩ := Prod.mk.inj hkey
    refine ⟨_, Relationship.reverse name relation, hinverse, ?_, rfl, rfl, ?_, .inl ⟨?_, rfl⟩⟩
    · rw [htargets]
      exact hreverse
    · rw [hkind]
      rfl
    · exact Relationship.isOwn_iff.mp hown
  · obtain ⟨rfl, rfl⟩ := Prod.mk.inj hkey
    refine ⟨relation.name, _, rfl, hown_side, rfl, hleads, ?_, .inr ⟨rfl, ?_⟩⟩
    · exact hcardinality.trans (Cardinality.flip_flip _).symm
    · exact Relationship.isOwn_iff.mp hheld_own
  · -- the inverse of another side is not the one that had none
    obtain ⟨inverse, other, hinverse, hother, hback, hrest⟩ :=
      hbalanced name field side hold hlinked
    refine ⟨inverse, other, hinverse, side?_kept h hdeclared htarget hfree hother ?_, hback, hrest⟩
    intro hsame
    obtain ⟨heq, rfl⟩ := Prod.mk.inj hsame
    rw [heq] at hother
    rw [hopen other hother] at hback
    cases hback

end Step

section Pairs

variable {state : Introspection} {done : List (String × String)} (hpairs : Pairs state done)
  {model : String} {relation : RelationDef} (hnew : (model, relation.name) ∉ done)

include hpairs hnew

/-- A relation whose other side is left out is reported once. -/
theorem Pairs.leftOut {held : Relationship}
    (hheld : side? state.models model relation.name = some held) (hheld_own : held.isOwn)
    (target name : String) :
    Pairs { state with issues := state.issues ++ [.reverseClash model relation.name target name] }
      ((model, relation.name) :: done) := by
  have hopen := hpairs.pending _ _ _ hheld hheld_own hnew
  refine ⟨hpairs.matched, fun name field side hside hown => ?_,
    fun name field side hside hown hout =>
      hpairs.pending _ _ _ hside hown fun hmem => hout (List.mem_cons_of_mem _ hmem)⟩
  have hcount := hpairs.clashes _ _ _ hside hown
  by_cases hkey : (name, field) = (model, relation.name)
  · obtain ⟨rfl, rfl⟩ := Prod.mk.inj hkey
    obtain rfl := Option.some.inj (hheld.symm.trans hside)
    simp [Issue.clash?, hcount, hnew, hopen]
  · have hkey' : (model, relation.name) ≠ (name, field) := Ne.symm hkey
    simp [Issue.clash?, hcount, hkey, hkey']

/-- A relation that is given its other side is not reported. -/
theorem Pairs.withReverse (h : Sound state.models)
    (hdeclared : Declared state.models (model, relation)) {target : Model}
    (htarget : state.models.get? relation.target = some target)
    (hfree : ¬ target.hasMember (Relationship.reverse model relation).name) :
    Pairs ⟨Introspection.withReverse state.models model relation, state.issues⟩
      ((model, relation.name) :: done) := by
  obtain ⟨held, hheld, hheld_own, -⟩ := sides_withReverse h hdeclared htarget hfree
  have hopen : ∀ found, side? state.models model relation.name = some found →
      found.inverse = none := by
    intro found hfound
    obtain rfl := Option.some.inj (hheld.symm.trans hfound)
    exact hpairs.pending _ _ _ hheld hheld_own hnew
  have hcases := fun name field side =>
    @side?_withReverse_cases _ _ _ _ h hdeclared htarget hfree name field side
  refine ⟨balanced_withReverse h hdeclared htarget hfree hpairs.matched hopen,
    fun name field side hside hown => ?_, fun name field side hside hown hout => ?_⟩
  · rcases hcases name field side hside with
      ⟨hkey, -, hinverse, -⟩ | ⟨-, rfl⟩ | ⟨hkey, hold⟩
    · obtain ⟨rfl, rfl⟩ := Prod.mk.inj hkey
      rw [hpairs.clashes _ _ _ hheld hheld_own, if_neg fun hmem => hnew hmem.1, if_neg]
      rw [hinverse]
      exact fun hnone => Option.some_ne_none _ hnone.2
    · cases hown
    · rw [hpairs.clashes _ _ _ hold hown]
      simp only [List.mem_cons, hkey, false_or]
  · rcases hcases name field side hside with ⟨hkey, -⟩ | ⟨-, rfl⟩ | ⟨-, hold⟩
    · exact absurd (hkey ▸ List.mem_cons_self) hout
    · cases hown
    · exact hpairs.pending _ _ _ hold hown fun hmem => hout (List.mem_cons_of_mem _ hmem)

end Pairs

/-- Each relation is given its other side, or an issue says that it has none. -/
theorem Pairs.addReverse {state : Introspection} {done : List (String × String)}
    (hpairs : Pairs state done) (h : Sound state.models) {declared : String × RelationDef}
    (hdeclared : Declared state.models declared) (hnew : keyOf declared ∉ done) :
    Pairs (Introspection.addReverse state declared) (keyOf declared :: done) := by
  obtain ⟨model, relation⟩ := declared
  rcases addReverse_cases state model relation with
    ⟨hmissing, -⟩ | ⟨target, _, -, rfl, heq⟩ | ⟨target, htarget, hfree, heq⟩
  · obtain ⟨-, -, held, hheld, hheld_own, hleads, -⟩ := hdeclared
    obtain ⟨-, -, there, hthere, -⟩ := h.own _ _ _ hheld hheld_own
    rw [hleads, hmissing] at hthere
    cases hthere
  · obtain ⟨-, -, held, hheld, hheld_own, -⟩ := hdeclared
    rw [heq]
    exact hpairs.leftOut hnew hheld hheld_own _ _
  · rw [heq]
    exact hpairs.withReverse hnew h hdeclared htarget hfree

/-! ### All steps -/

/-- What a step finds: no side is held, and no model has records, that was not so before. -/
structure Finds (models models' : Keyed Model) : Prop where
  concrete : ∀ name, Concrete models' name → Concrete models name
  own : ∀ name field side, side? models' name field = some side → side.isOwn →
    ∃ old, side? models name field = some old ∧ old.isOwn

theorem concrete_of_update {models : Keyed Model} {name other : String} {change : Model → Model}
    (hchange : ∀ model, (change model).isAbstract = model.isAbstract)
    (h : Concrete (update models name change) other) : Concrete models other := by
  obtain ⟨model, hfound, hconcrete⟩ := h
  rw [get?_update] at hfound
  split at hfound
  · rename_i heq
    obtain ⟨old, hold, rfl⟩ := Option.map_eq_some_iff.mp hfound
    exact ⟨old, heq ▸ hold, (hchange old).symm.trans hconcrete⟩
  · exact ⟨model, hfound, hconcrete⟩

theorem finds_addReverse {state : Introspection} (h : Sound state.models)
    {declared : String × RelationDef} (hdeclared : Declared state.models declared) :
    Finds state.models (addReverse state declared).models := by
  obtain ⟨model, relation⟩ := declared
  have hrefl : Finds state.models state.models :=
    ⟨fun _ hname => hname, fun _ _ side hside hown => ⟨side, hside, hown⟩⟩
  rcases addReverse_cases state model relation with
    ⟨-, heq⟩ | ⟨_, _, -, -, heq⟩ | ⟨target, htarget, hfree, heq⟩
  · rw [heq]
    exact hrefl
  · rw [heq]
    exact hrefl
  · rw [heq]
    refine ⟨fun name hname => ?_, fun name field side hside hown => ?_⟩
    · have hinner := concrete_of_update isAbstract_setInverse hname
      refine concrete_of_update (fun _ => ?_) hinner
      rfl
    · rcases side?_withReverse_cases h hdeclared htarget hfree hside with
        ⟨hkey, -⟩ | ⟨-, rfl⟩ | ⟨-, hold⟩
      · obtain ⟨rfl, rfl⟩ := Prod.mk.inj hkey
        obtain ⟨-, -, held, hheld, hheld_own, -⟩ := hdeclared
        exact ⟨held, hheld, hheld_own⟩
      · cases hown
      · exact ⟨side, hold, hown⟩

theorem Pairs.foldl {declared : List (String × RelationDef)} {state : Introspection}
    {done : List (String × String)} (hpairs : Pairs state done) (h : Sound state.models)
    (hdeclared : ∀ each ∈ declared, Declared state.models each)
    (hkeys : (declared.map keyOf).Nodup) (hnew : ∀ each ∈ declared, keyOf each ∉ done) :
    Pairs (declared.foldl Introspection.addReverse state) ((declared.map keyOf).reverse ++ done) ∧
      Finds state.models (declared.foldl Introspection.addReverse state).models := by
  induction declared generalizing state done with
  | nil => exact ⟨hpairs, fun _ hname => hname, fun _ _ side hside hown => ⟨side, hside, hown⟩⟩
  | cons first rest ih =>
      obtain ⟨hfirst, hrest⟩ := List.forall_mem_cons.mp hdeclared
      obtain ⟨hfirst_new, hrest_new⟩ := List.forall_mem_cons.mp hnew
      obtain ⟨hfirst_key, hrest_keys⟩ := List.nodup_cons.mp hkeys
      obtain ⟨hsound, hkeeps⟩ := addReverse_keeps h hfirst
      have hfinds := finds_addReverse h hfirst
      obtain ⟨hall, hback⟩ := ih (hpairs.addReverse h hfirst hfirst_new) hsound
        (fun each heach => (hrest each heach).keeps hkeeps) hrest_keys fun each heach hmem => by
          rcases List.mem_cons.mp hmem with hsame | hold
          · exact hfirst_key (hsame ▸ List.mem_map.mpr ⟨each, heach, rfl⟩)
          · exact hrest_new each heach hold
      refine ⟨by simpa using hall,
        fun name hname => hfinds.concrete name (hback.concrete name hname),
        fun name field side hside hown => ?_⟩
      obtain ⟨old, hold, hold_own⟩ := hback.own name field side hside hown
      exact hfinds.own name field old hold hold_own

section Drafts

variable {drafts : List Draft} (hsound : ∀ draft ∈ drafts, draft.Sound)
  (hnames : (drafts.map (·.model.name)).Nodup)

theorem side?_settled {name field : String} {side : Relationship}
    (hside : side? (settled drafts) name field = some side) :
    ∃ draft ∈ drafts, draft.model.name = name ∧
      (settled drafts).get? name = some (draft.settle drafts) ∧
      ∃ relation ∈ draft.knownRelations drafts, relation.name = field ∧
        side = Relationship.own relation := by
  obtain ⟨model, hmodel, hfound⟩ := Option.bind_eq_some_iff.mp hside
  obtain ⟨draft, hdraft, rfl⟩ := exists_draft_of_get?_settled hmodel
  obtain ⟨hvalue, hname⟩ := (draft.named_settle drafts).get?_eq_some.mp hfound
  obtain ⟨relation, hrelation, rfl⟩ := Draft.mem_relationships_settle hvalue
  exact ⟨draft, hdraft, ((named_settled drafts).get?_eq_some.mp hmodel).2, hmodel, relation,
    hrelation, hname, rfl⟩

/-- Before any other side is added, all sides are held and have no inverse. -/
theorem pairs_settled {issues : List Issue} (hissues : issues.filterMap Issue.clash? = []) :
    Pairs ⟨settled drafts, issues⟩ [] := by
  refine ⟨fun name field side hside hlinked => ?_, fun name field side hside _ => ?_,
    fun name field side hside _ _ => ?_⟩
  · obtain ⟨_, -, -, -, relation, -, -, rfl⟩ := side?_settled hside
    rcases hlinked with hremote | hinverse
    · cases hremote
    · exact absurd rfl hinverse
  · simp [hissues]
  · obtain ⟨_, -, -, -, relation, -, -, rfl⟩ := side?_settled hside
    rfl

include hsound hnames

theorem nodup_reversible : ((drafts.flatMap (Draft.reversible drafts)).map keyOf).Nodup := by
  rw [List.map_flatMap, List.nodup_flatMap]
  refine ⟨fun draft hdraft => ?_, ?_⟩
  · unfold Draft.reversible
    split
    · exact .nil
    · rw [List.map_map]
      have hrelations : ((draft.knownRelations drafts).map RelationDef.name).Nodup :=
        (hsound draft hdraft).relations.sublist (List.filter_sublist.map _)
      have hpair : Function.Injective fun name : String => (draft.model.name, name) :=
        fun _ _ heq => (Prod.mk.inj heq).2
      have hkeys := hrelations.map hpair
      rwa [List.map_map] at hkeys
  · refine (List.pairwise_map.mp hnames).imp fun {first second} hne => ?_
    have hfirst : ∀ draft : Draft, ∀ key ∈ (Draft.reversible drafts draft).map keyOf,
        key.1 = draft.model.name := by
      intro draft key hkey
      obtain ⟨declared, hdeclared, rfl⟩ := List.mem_map.mp hkey
      unfold Draft.reversible at hdeclared
      split at hdeclared
      · cases hdeclared
      · obtain ⟨relation, -, rfl⟩ := List.mem_map.mp hdeclared
        rfl
    exact fun key hkey hother => hne ((hfirst first key hkey).symm.trans (hfirst second key hother))

/-- The sides that get another one are those that models with records hold. -/
theorem mem_reversible_iff {name field : String} {side : Relationship}
    (hside : side? (settled drafts) name field = some side) :
    (name, field) ∈ (drafts.flatMap (Draft.reversible drafts)).map keyOf ↔
      Concrete (settled drafts) name := by
  constructor
  · intro hkey
    obtain ⟨declared, hdeclared, heq⟩ := List.mem_map.mp hkey
    obtain ⟨hconcrete, -⟩ := declared_of_reversible hsound hnames hdeclared
    rwa [show declared.1 = name from congrArg Prod.fst heq] at hconcrete
  · rintro ⟨model, hmodel, hconcrete⟩
    obtain ⟨draft, hdraft, hname, hget, relation, hrelation, hfield, -⟩ := side?_settled hside
    rw [hget] at hmodel
    rw [← Option.some.inj hmodel] at hconcrete
    have hrecords : draft.model.isAbstract = false := hconcrete
    refine List.mem_map.mpr ⟨(draft.model.name, relation), List.mem_flatMap.mpr ⟨draft, hdraft, ?_⟩,
      Prod.ext hname hfield⟩
    unfold Draft.reversible
    rw [hrecords, if_neg Bool.false_ne_true]
    exact List.mem_map.mpr ⟨relation, hrelation, rfl⟩

/-- Every side that is held has its other side or is reported once, if its model has records, and
every side that is not held has one that is. -/
theorem pairs_ofDrafts {issues : List Issue} (hissues : issues.filterMap Issue.clash? = []) :
    ∃ done, Pairs (ofDrafts drafts issues) done ∧
      ∀ name field side, side? (ofDrafts drafts issues).models name field = some side →
        side.isOwn → ((name, field) ∈ done ↔ Concrete (ofDrafts drafts issues).models name) := by
  have hunknown : (outset drafts issues).issues.filterMap Issue.clash? = [] := by
    rw [outset, List.filterMap_append, hissues, List.nil_append]
    refine List.filterMap_eq_nil_iff.mpr fun issue hissue => ?_
    obtain ⟨draft, -, hmem⟩ := List.mem_flatMap.mp hissue
    obtain ⟨relation, -, rfl⟩ := List.mem_map.mp hmem
    rfl
  have hdeclared : ∀ each ∈ drafts.flatMap (Draft.reversible drafts),
      Declared (settled drafts) each := fun each => declared_of_reversible hsound hnames
  have hsettled := sound_settled hsound hnames
  obtain ⟨hpairs, hfinds⟩ := (pairs_settled hunknown).foldl hsettled hdeclared
    (nodup_reversible hsound hnames) fun _ _ => List.not_mem_nil
  obtain ⟨-, hkeeps⟩ := @addReverses_keep _ (outset drafts issues) hsettled hdeclared
  refine ⟨_, hpairs, fun name field side hside hown => ?_⟩
  obtain ⟨old, hold, -⟩ := hfinds.own name field side hside hown
  rw [List.append_nil, List.mem_reverse, mem_reversible_iff hsound hnames hold]
  exact ⟨hkeeps.concrete name, hfinds.concrete name⟩

end Drafts

/-! ### From side to side -/

section Matched

variable {models : Keyed Model} {name field : String} {side : Relationship}

theorem otherSide_of_inverse (hside : side? models name field = some side) {inverse : String}
    (hinverse : side.inverse = some inverse) :
    otherSide models (name, field) = (side.target, inverse) := by
  simp [otherSide, hside, hinverse]

/-- The inverse of the inverse is the relationship itself. -/
theorem Matched.other_back (h : Matched models name field side)
    (hside : side? models name field = some side) : ∃ other,
      side? models (otherSide models (name, field)).1 (otherSide models (name, field)).2 =
        some other ∧ other.isOwn = !side.isOwn ∧ other.inverse ≠ none ∧
      otherSide models (otherSide models (name, field)) =
        (name, field) := by
  obtain ⟨inverse, other, hinverse, hother, hback, htarget, -, howner⟩ := h
  rw [otherSide_of_inverse hside hinverse, otherSide_of_inverse hother hback]
  refine ⟨other, hother, ?_, hback ▸ Option.some_ne_none _, by rw [htarget]⟩
  rcases howner with ⟨hside_own, hother_own⟩ | ⟨hside_own, hother_own⟩ <;>
    simp [Relationship.isOwn, hside_own, hother_own]

end Matched

/-- The sides that models hold and that have an inverse, by their names. -/
def pairedSides (models : Keyed Model) : Set (String × String) :=
  { key | ∃ side, side? models key.1 key.2 = some side ∧ side.isOwn ∧ side.inverse ≠ none }

/-- The sides that are held by other models. -/
def remoteSides (models : Keyed Model) : Set (String × String) :=
  { key | ∃ side, side? models key.1 key.2 = some side ∧ side.isOwn = false }

theorem Pairs.bijOn {state : Introspection} {done : List (String × String)}
    (h : Pairs state done) : Set.BijOn (otherSide state.models) (pairedSides state.models)
      (remoteSides state.models) := by
  have hinverse : Set.InvOn (otherSide state.models) (otherSide state.models)
      (pairedSides state.models) (remoteSides state.models) := by
    refine ⟨?_, ?_⟩
    · rintro ⟨name, field⟩ ⟨side, hside, -, hinverse⟩
      obtain ⟨_, -, -, -, hback⟩ :=
        (h.matched name field side hside (.inr hinverse)).other_back hside
      exact hback
    · rintro ⟨name, field⟩ ⟨side, hside, hremote⟩
      obtain ⟨_, -, -, -, hback⟩ :=
        (h.matched name field side hside (.inl hremote)).other_back hside
      exact hback
  refine hinverse.bijOn ?_ ?_
  · rintro ⟨name, field⟩ ⟨side, hside, hown, hinverse⟩
    obtain ⟨other, hother, hswap, -⟩ :=
      (h.matched name field side hside (.inr hinverse)).other_back hside
    exact ⟨other, hother, by rw [hswap, hown]; rfl⟩
  · rintro ⟨name, field⟩ ⟨side, hside, hremote⟩
    obtain ⟨other, hother, hswap, hlinked, -⟩ :=
      (h.matched name field side hside (.inl hremote)).other_back hside
    exact ⟨other, hother, by rw [hswap, hremote]; rfl, hlinked⟩

end Introspection

namespace Registry

variable {registry : Registry} {found : Introspection}

open Introspection

/-- A relationship that a model with records holds has its inverse at the target, or else one issue
says that the name of the inverse is taken. A relationship that is held by another model is the
inverse of the one that is held. So relationships with an inverse and relationships held elsewhere
belong to each other one by one. -/
theorem sides_pair (h : registry.introspect = .ok found) :
    (∀ model field side, side? found.models model field = some side → side.isOwn →
      Concrete found.models model →
        (∃ inverse other, side.inverse = some inverse ∧
          side? found.models side.target inverse = some other ∧
          other.ownership = .remote field ∧ other.target = model ∧ other.inverse = some field ∧
          other.cardinality = side.cardinality.flip ∧
          (found.issues.filterMap Issue.clash?).count (model, field) = 0) ∨
        (side.inverse = none ∧
          (found.issues.filterMap Issue.clash?).count (model, field) = 1)) ∧
    (∀ target name other field, side? found.models target name = some other →
      other.ownership = .remote field →
        ∃ side, side? found.models other.target field = some side ∧ side.isOwn ∧
          Concrete found.models other.target ∧ side.inverse = some name ∧ side.target = target) ∧
    Set.BijOn (otherSide found.models) (pairedSides found.models) (remoteSides found.models) := by
  have hsound := sound_introspect h
  obtain ⟨hnames, issues, rfl, -, hclashes⟩ := introspect_eq_ok h
  obtain ⟨done, hpairs, hdone⟩ :=
    pairs_ofDrafts registry.sound_drafts (nodup_drafts hnames) hclashes
  refine ⟨fun model field side hside hown hconcrete => ?_,
    fun target name other field hother hremote => ?_, hpairs.bijOn⟩
  · have hmem := (hdone model field side hside hown).mpr hconcrete
    have hcount := hpairs.clashes model field side hside hown
    by_cases hinverse : side.inverse = none
    · rw [if_pos ⟨hmem, hinverse⟩] at hcount
      exact .inr ⟨hinverse, hcount⟩
    · rw [if_neg fun hboth => hinverse hboth.2] at hcount
      obtain ⟨inverse, other, heq, hother, hback, htarget, hcardinality, howner⟩ :=
        hpairs.matched model field side hside (.inr hinverse)
      rcases howner with ⟨-, hremote⟩ | ⟨hremote, -⟩
      · exact .inl ⟨inverse, other, heq, hother, hremote, htarget, hback, hcardinality, hcount⟩
      · rw [Relationship.isOwn_iff, hremote] at hown
        cases hown
  · obtain ⟨inverse, side, -, hside, hback, htarget, -, howner⟩ :=
      hpairs.matched target name other hother (.inl (isOwn_eq_false_iff.mpr ⟨field, hremote⟩))
    rcases howner with ⟨hown, -⟩ | ⟨hsame, hown⟩
    · rw [hremote] at hown
      cases hown
    · rw [hremote] at hsame
      injection hsame with hfield
      subst hfield
      exact ⟨side, hside, Relationship.isOwn_iff.mpr hown,
        (hsound.remote target name other field hother hremote).1, hback, htarget⟩

/-- Two models inherit one relation to a person, whose other side has one name only. -/
def ownedModels : List ModelDef :=
  [{ name := "Owned", isAbstract := true
     relations := [{ name := "owner", target := "Person", kind := .foreignKey,
                     relatedName := some "things" }] },
   { name := "Person"
     relations := [{ name := "friends", target := "Person", kind := .manyToMany,
                     relatedName := some "friend_of" }] },
   { name := "Book", bases := ["Owned"] },
   { name := "Film", bases := ["Owned"] }]

theorem sides_pair_owned : ∃ found : Introspection,
    Registry.introspect { models := ownedModels } = .ok found ∧
    otherSide found.models ("Book", "owner") = ("Person", "things") ∧
    (found.issues.filterMap Issue.clash?).count ("Film", "owner") = 1 ∧
    Set.BijOn (otherSide found.models) (pairedSides found.models) (remoteSides found.models) := by
  obtain ⟨found, h⟩ : ∃ found, Registry.introspect { models := ownedModels } = .ok found :=
    introspect_of_nodup (by decide)
  obtain ⟨hheld, -, hbij⟩ := sides_pair h
  have hbook : (Registry.introspect { models := ownedModels }).toOption.map (fun found =>
      otherSide found.models ("Book", "owner")) = some ("Person", "things") := by
    decide +kernel
  have hfilm : (Registry.introspect { models := ownedModels }).toOption.map (fun found =>
      ((side? found.models "Film" "owner").map fun side => (side.isOwn, side.inverse),
        (found.models.get? "Film").map (·.isAbstract))) =
      some (some (true, none), some false) := by
    decide +kernel
  rw [h] at hbook hfilm
  obtain ⟨hside, hmodel⟩ := Prod.mk.inj (Option.some.inj hfilm)
  obtain ⟨side, hside, hfacts⟩ := Option.map_eq_some_iff.mp hside
  obtain ⟨hown, hnone⟩ := Prod.mk.inj hfacts
  obtain ⟨model, hmodel, hconcrete⟩ := Option.map_eq_some_iff.mp hmodel
  refine ⟨found, h, Option.some.inj hbook, ?_, hbij⟩
  rcases hheld "Film" "owner" side hside hown ⟨model, hmodel, hconcrete⟩ with
    ⟨inverse, -, hinverse, -⟩ | ⟨-, hcount⟩
  · rw [hnone] at hinverse
    cases hinverse
  · exact hcount

end Registry

end ModelSurface
