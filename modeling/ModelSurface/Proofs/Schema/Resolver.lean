import ModelSurface.Proofs.Schema.Inheritance

/-!
# Resolving models on demand

The members of a model can also be asked for one model at a time. Bases are then resolved as they
come up, each model is resolved once and remembered with its result, and a base that is still being
resolved closes a circle. What is remembered of a circle was found from the model where the circle
was entered. It is what any other way into it finds all the same, for a model that waits for itself
is settled from nowhere.
-/

namespace ModelSurface

/-- What is wrong with a model one of whose bases has an issue. -/
def Issue.atBase (model base : String) : Issue → Issue
  | .inheritanceCycle .. => .inheritanceCycle model base
  | _ => .unknownBase model base

namespace Members

open Relation

/-- How many models are not being resolved. -/
def idle (known : List ModelDef) (stack : List String) : Nat :=
  (known.filter fun model => model.name ∉ stack).length

theorem idle_cons_lt {known : List ModelDef} {stack : List String} {model : ModelDef}
    (hmodel : model ∈ known) (hnew : model.name ∉ stack) :
    idle known (model.name :: stack) < idle known stack := by
  have hpart : (known.filter fun other => other.name ∉ model.name :: stack) =
      (known.filter fun other => other.name ∉ stack).filter (·.name ≠ model.name) := by
    rw [List.filter_filter]
    refine List.filter_congr fun other _ => ?_
    simp
  unfold idle
  rw [hpart, List.length_filter_lt_length_iff_exists]
  exact ⟨model, List.mem_filter.mpr ⟨hmodel, by simpa using hnew⟩, by simp⟩

mutual

/-- Gives the members of the model of a name, with what is remembered then. The models that are
being resolved are on the stack, the last one first. -/
def resolve (known : List ModelDef) (stack : List String) (memory : Settled) (name : String)
    (_hnew : name ∉ stack) : Except Issue Members × Settled :=
  match memory.get? name with
  | some result => (result, memory)
  | none =>
    match _hmodel : known.find? (·.name == name) with
    | none => (.error (.unknownBase (stack.head?.getD name) name), memory)
    | some model =>
      let resolved : Except Issue Members × Settled := match model.ownIssue? with
        | some issue => (.error issue, memory)
        | none => resolveBases known (name :: stack) memory model model.bases {}
      (resolved.1, resolved.2.put name resolved.1)
termination_by (idle known stack, 0)
decreasing_by
  have hname : model.name = name := by simpa using List.find?_some _hmodel
  subst hname
  exact .left _ _ (idle_cons_lt (List.mem_of_find?_eq_some _hmodel) _hnew)

/-- Adds the members of bases, in order, to those inherited so far, up to the first that fails. -/
def resolveBases (known : List ModelDef) (stack : List String) (memory : Settled)
    (model : ModelDef) (bases : List String) (inherited : Members) :
    Except Issue Members × Settled :=
  match bases with
  | [] => (.ok (inherited.declare model), memory)
  | base :: bases =>
    if hstack : base ∈ stack then (.error (.inheritanceCycle model.name base), memory)
    else
      match resolve known stack memory base hstack with
      | (.ok members, memory) =>
        resolveBases known stack memory model bases (inherited.inherit members)
      | (.error issue, memory) => (.error (issue.atBase model.name base), memory)
termination_by (idle known stack, bases.length + 1)

end

/-- What is remembered after models have been asked for by their names. -/
def remembered (known : List ModelDef) (names : List String) : Settled :=
  names.foldl (fun memory name => (resolve known [] memory name List.not_mem_nil).2) .empty

/-! ### Models that wait for each other -/

/-- A model comes to a base when all bases before it have their members. -/
def Awaits (known : List ModelDef) (name base : String) : Prop :=
  ∃ model ∈ known, model.name = name ∧ model.Proper ∧ ∃ before after,
    model.bases = before ++ base :: after ∧
      ∀ other ∈ before, ∃ members, (settle known .empty known).get? other = some (.ok members)

section Bases

variable {known : List ModelDef} {settled : Settled} {model : ModelDef}

/-- Bases that have their members are passed over. -/
theorem ofBases_append {before : List String} {found : List Members}
    (hfound : before.Forall₂ (fun base there => settled.get? base = some (.ok there)) found)
    (bases : List String) (inherited : Members) :
    Standing.ofBases known settled model (before ++ bases) inherited =
      Standing.ofBases known settled model bases (found.foldl inherit inherited) := by
  induction hfound generalizing inherited with
  | nil => rfl
  | cons hbase _ ih =>
      rw [List.cons_append, Standing.ofBases, hbase]
      exact ih _

theorem ofModel_append (hproper : model.Proper) {before bases : List String} {found : List Members}
    (hfound : before.Forall₂ (fun base there => settled.get? base = some (.ok there)) found)
    (hbases : model.bases = before ++ bases) :
    Standing.ofModel known settled model =
      Standing.ofBases known settled model bases (found.foldl inherit {}) := by
  unfold Standing.ofModel
  rw [ModelDef.ownIssue?_eq_none_iff.mpr hproper, hbases]
  exact ofBases_append hfound bases {}

/-- What is said of a model that waits in the end: it is on a circle, or leads to one. -/
def Standing.outcome (name : String) : Standing → Except Issue Members
  | .settled result => result
  | .waiting base => .error (.inheritanceCycle name base)

theorem ofSettled_eq_outcome : ofSettled known settled model =
    (Standing.ofModel known settled model).outcome model.name := by
  unfold ofSettled
  cases Standing.ofModel known settled model <;> rfl

/-- A model is settled after the base that it comes to. -/
theorem settled_of_ofBases {before after : List String} {base : String} {inherited : Members}
    {result : Except Issue Members} (hbase : known.any fun model => model.name == base)
    (hbefore : ∀ other ∈ before, known.any (fun model => model.name == other) ∧
      ∀ issue, settled.get? other ≠ some (.error issue))
    (h : Standing.ofBases known settled model (before ++ base :: after) inherited =
      .settled result) : (settled.get? base).isSome := by
  induction before generalizing inherited with
  | nil =>
      rw [List.nil_append, Standing.ofBases] at h
      cases hfound : settled.get? base with
      | some there => rfl
      | none => simp [hfound, hbase] at h
  | cons other before ih =>
      obtain ⟨⟨hknown, hok⟩, hrest⟩ := List.forall_mem_cons.mp hbefore
      rw [List.cons_append, Standing.ofBases] at h
      cases hfound : settled.get? other with
      | none => simp [hfound, hknown] at h
      | some there =>
          rw [hfound] at h
          cases there with
          | ok members => exact ih hrest h
          | error issue => exact absurd hfound (hok issue)

/-- A model is not settled for a circle. -/
theorem ofModel_ne_cycle {issue : Issue}
    (h : Standing.ofModel known settled model = .settled (.error issue)) (name base : String) :
    issue ≠ .inheritanceCycle name base := by
  unfold Standing.ofModel at h
  cases hown : model.ownIssue? with
  | some own =>
      rw [hown] at h
      obtain rfl : own = issue := Except.error.inj (Standing.settled.inj h)
      obtain ⟨_, rfl | rfl⟩ := ModelDef.ownIssue?_cases hown <;> nofun
  | none =>
      rw [hown] at h
      obtain ⟨_, rfl⟩ := ofBases_error h
      nofun

end Bases

section Circles

variable {known : List ModelDef} (hnames : (known.map (·.name)).Nodup)

include hnames

/-- A model is settled after all that it waits for. -/
theorem Reached.settled_of_awaits {settled : Settled} (h : Reached known settled) {model : ModelDef}
    (hmodel : model ∈ known) {result : Except Issue Members}
    (hsettled : Standing.ofModel known settled model = .settled result) {base : String}
    (hbase : Awaits known model.name base) (hknown : known.any fun model => model.name == base) :
    (settled.get? base).isSome := by
  obtain ⟨other, hother, hname, hproper, before, after, hbases, hbefore⟩ := hbase
  obtain rfl := List.inj_on_of_nodup_map hnames hother hmodel hname
  unfold Standing.ofModel at hsettled
  rw [ModelDef.ownIssue?_eq_none_iff.mpr hproper, hbases] at hsettled
  refine settled_of_ofBases hknown (fun there hthere => ?_) hsettled
  obtain ⟨members, hmembers⟩ := hbefore there hthere
  have hfull := reached_full hnames
  refine ⟨hfull.named (Option.isSome_of_eq_some hmembers), fun issue herror => ?_⟩
  have hall : Region known known fun _ => True := ⟨fun _ _ _ _ _ => trivial, fun _ _ => .rfl⟩
  have hsame := hall.le_complete h hfull (complete_full hnames _) trivial herror
  rw [hmembers] at hsame
  cases hsame

/-- A model that waits for itself is never settled: what it waits for would be settled before. -/
theorem Reached.not_awaits_self {settled : Settled} (h : Reached known settled) {name : String}
    (hsome : (settled.get? name).isSome) : ¬ TransGen (Awaits known) name name := by
  induction h generalizing name with
  | empty => cases hsome
  | @put settled model result hreached hmodel hsettled ih =>
      rw [Keyed.get?_put] at hsome
      split at hsome
      · rename_i hname
        subst hname
        intro hcircle
        obtain ⟨base, hbase, hback⟩ := TransGen.head'_iff.mp hcircle
        have hknown : known.any fun model => model.name == base := by
          rcases ReflTransGen.cases_head hback with rfl | ⟨_, ⟨other, hother, hname, -⟩, -⟩
          · exact any_name.mpr ⟨model, hmodel, rfl⟩
          · exact any_name.mpr ⟨other, hother, hname⟩
        have hbefore := hreached.settled_of_awaits hnames hmodel hsettled hbase hknown
        exact ih hbefore (TransGen.tail' hback hbase)
      · exact ih hsome

theorem get?_full_of_circle {name : String} (h : TransGen (Awaits known) name name) :
    (settle known .empty known).get? name = none :=
  Option.not_isSome_iff_eq_none.mp fun hsome => (reached_full hnames).not_awaits_self hnames hsome h

omit hnames in
/-- A model on the stack waits for all that are above it. -/
theorem reaches_of_stack {name : String} {stack : List String}
    (hstack : (name :: stack).IsChain fun upper lower => Awaits known lower upper) {base : String}
    (hbase : base ∈ name :: stack) : ReflTransGen (Awaits known) base name := by
  induction stack generalizing name with
  | nil =>
      rw [List.mem_singleton.mp hbase]
  | cons below stack ih =>
      obtain ⟨hawaits, hrest⟩ := List.isChain_cons_cons.mp hstack
      rcases List.mem_cons.mp hbase with rfl | hmem
      · exact .refl
      · exact (ih hrest hmem).tail hawaits

end Circles

/-! ### What is remembered -/

/-- Whether all that is remembered is what the models come to. -/
def Told (known : List ModelDef) (memory : Settled) : Prop :=
  ∀ name result, memory.get? name = some result →
    ∃ model, model.name = name ∧ (model, result) ∈ ofModels known

section Told

variable {known : List ModelDef}

theorem Told.put {memory : Settled} (h : Told known memory) {model : ModelDef}
    {result : Except Issue Members} (hresult : (model, result) ∈ ofModels known) :
    Told known (memory.put model.name result) := by
  intro name found hfound
  rw [Keyed.get?_put] at hfound
  split at hfound
  · rename_i hname
    obtain rfl := Option.some.inj hfound
    exact ⟨model, hname.symm, hresult⟩
  · exact h name found hfound

/-- A model that comes to a base that is never settled waits for it. -/
theorem outcome_of_unsettled {model there : ModelDef} (hthere : there ∈ known)
    (hnone : (settle known .empty known).get? there.name = none) (bases : List String)
    (inherited : Members) :
    (Standing.ofBases known (settle known .empty known) model (there.name :: bases)
      inherited).outcome model.name = .error (.inheritanceCycle model.name there.name) := by
  rw [Standing.ofBases, hnone]
  dsimp only
  rw [if_pos (any_name.mpr ⟨there, hthere, rfl⟩)]
  rfl

variable (hnames : (known.map (·.name)).Nodup)

include hnames

theorem outcome_of_failed {model there : ModelDef} {issue : Issue}
    (hthere : (there, .error issue) ∈ ofModels known) (bases : List String)
    (inherited : Members) :
    (Standing.ofBases known (settle known .empty known) model (there.name :: bases)
      inherited).outcome model.name = .error (issue.atBase model.name there.name) := by
  obtain ⟨hmem, hresult⟩ := mem_ofModels.mp hthere
  rw [ofSettled_eq_outcome] at hresult
  cases hstanding : Standing.ofModel known (settle known .empty known) there with
  | settled result =>
      rw [hstanding] at hresult
      obtain rfl : result = .error issue := hresult
      have hfound := complete_full hnames (fun _ => True) there hmem trivial _ hstanding
      rw [Standing.ofBases, hfound]
      have hother := ofModel_ne_cycle hstanding
      cases issue <;> first | rfl | exact absurd rfl (hother _ _)
  | waiting base =>
      rw [hstanding] at hresult
      obtain rfl : Issue.inheritanceCycle there.name base = issue := Except.error.inj hresult
      have hnone : (settle known .empty known).get? there.name = none := by
        refine Option.eq_none_iff_forall_ne_some.mpr fun result hfound => ?_
        rw [(reached_full hnames).justified hnames hmem hfound] at hstanding
        cases hstanding
      exact outcome_of_unsettled hmem hnone bases inherited

theorem outcome_of_unknown {model : ModelDef} {base : String}
    (hbase : ∀ there ∈ known, there.name ≠ base) (bases : List String) (inherited : Members) :
    (Standing.ofBases known (settle known .empty known) model (base :: bases)
      inherited).outcome model.name = .error (.unknownBase model.name base) := by
  have hunknown : ¬ known.any fun there => there.name == base := by
    rw [any_name]
    exact fun ⟨there, hthere, hname⟩ => hbase there hthere hname
  have hnone : (settle known .empty known).get? base = none :=
    Option.not_isSome_iff_eq_none.mp fun hsome => hunknown ((reached_full hnames).named hsome)
  rw [Standing.ofBases, hnone]
  dsimp only
  rw [if_neg hunknown]
  rfl

theorem outcome_of_circle {model : ModelDef} {base : String}
    (hbase : TransGen (Awaits known) base base) (bases : List String) (inherited : Members) :
    (Standing.ofBases known (settle known .empty known) model (base :: bases)
      inherited).outcome model.name = .error (.inheritanceCycle model.name base) := by
  have hnone := get?_full_of_circle hnames hbase
  obtain ⟨_, ⟨there, hthere, rfl, -⟩, -⟩ := TransGen.head'_iff.mp hbase
  exact outcome_of_unsettled hthere hnone bases inherited

/-- What asking for a model comes to: all that is remembered then is right, and so is the answer. -/
structure Answers (known : List ModelDef) (name : String)
    (answer : Except Issue Members × Settled) : Prop where
  told : Told known answer.2
  found : ∀ model ∈ known, model.name = name → (model, answer.1) ∈ ofModels known
  missing : (∀ model ∈ known, model.name ≠ name) → ∃ other base,
    answer.1 = .error (.unknownBase other base)

theorem Told.answers {answer : Except Issue Members × Settled} (h : Told known answer.2)
    {model : ModelDef} (hanswer : (model, answer.1) ∈ ofModels known) :
    Answers known model.name answer := by
  have hmodel := (mem_ofModels.mp hanswer).1
  refine ⟨h, fun other hother hname => ?_, fun hmissing => absurd rfl (hmissing model hmodel)⟩
  obtain rfl := List.inj_on_of_nodup_map hnames hother hmodel hname
  exact hanswer

mutual

/-- Each model on the stack waits for the one above it, so a base that is found there is on a
circle. -/
theorem resolve_answers {stack : List String} {memory : Settled} {name : String}
    (hnew : name ∉ stack)
    (hstack : (name :: stack).IsChain fun upper lower => Awaits known lower upper)
    (htold : Told known memory) : Answers known name (resolve known stack memory name hnew) := by
  unfold resolve
  split
  · rename_i result hfound
    obtain ⟨model, rfl, hresult⟩ := htold _ _ hfound
    exact Told.answers hnames htold hresult
  · split
    · rename_i hmissing
      have hunknown : ∀ model ∈ known, model.name ≠ name := by
        simpa using List.find?_eq_none.mp hmissing
      exact ⟨htold, fun model hmodel hname => absurd hname (hunknown model hmodel),
        fun _ => ⟨_, _, rfl⟩⟩
    · rename_i model hfound
      have hmodel := List.mem_of_find?_eq_some hfound
      obtain rfl : model.name = name := by simpa using List.find?_some hfound
      dsimp only
      cases hown : model.ownIssue? with
      | some issue =>
          have hresult : (model, .error issue) ∈ ofModels known := by
            refine mem_ofModels.mpr ⟨hmodel, ?_⟩
            rw [ofSettled_eq_outcome, Standing.ofModel, hown]
            rfl
          exact Told.answers hnames (htold.put hresult) hresult
      | none =>
          obtain ⟨hmemory, hresult⟩ :=
            resolveBases_answers hmodel (ModelDef.ownIssue?_eq_none_iff.mp hown) hstack
              (show model.bases = [] ++ model.bases from rfl) .nil htold
          exact Told.answers hnames (hmemory.put hresult) hresult
termination_by (idle known stack, 0)
decreasing_by exact .left _ _ (idle_cons_lt hmodel hnew)

theorem resolveBases_answers {stack : List String} {memory : Settled} {model : ModelDef}
    (hmodel : model ∈ known) (hproper : model.Proper)
    (hstack : (model.name :: stack).IsChain fun upper lower => Awaits known lower upper)
    {before bases : List String} (hbases : model.bases = before ++ bases) {found : List Members}
    (hfound : before.Forall₂ (fun base there =>
      (settle known .empty known).get? base = some (.ok there)) found)
    (htold : Told known memory) :
    Told known (resolveBases known (model.name :: stack) memory model bases
      (found.foldl inherit {})).2 ∧
    (model, (resolveBases known (model.name :: stack) memory model bases
      (found.foldl inherit {})).1) ∈ ofModels known := by
  have hstanding := @ofModel_append known (settle known .empty known) model hproper before bases
    found hfound hbases
  have hresult : ∀ result, (Standing.ofBases known (settle known .empty known) model bases
      (found.foldl inherit {})).outcome model.name = result → (model, result) ∈ ofModels known := by
    intro result heq
    refine mem_ofModels.mpr ⟨hmodel, ?_⟩
    rw [ofSettled_eq_outcome, hstanding, heq]
  cases bases with
  | nil =>
      rw [resolveBases]
      exact ⟨htold, hresult _ rfl⟩
  | cons base bases =>
      have hawaits : Awaits known model.name base := by
        refine ⟨model, hmodel, rfl, hproper, before, bases, hbases, fun other hother => ?_⟩
        obtain ⟨members, -, hmembers⟩ := exists_of_forall₂ hfound hother
        exact ⟨members, hmembers⟩
      rw [resolveBases]
      split
      · rename_i hbase
        -- the base waits for this model, and this model for the base
        have hcircle := TransGen.tail' (reaches_of_stack hstack hbase) hawaits
        exact ⟨htold, hresult _ (outcome_of_circle hnames hcircle bases _)⟩
      · rename_i hbase
        have hanswers := resolve_answers hbase (List.isChain_cons_cons.mpr ⟨hawaits, hstack⟩) htold
        split
        · rename_i members memory' heq
          rw [heq] at hanswers
          obtain ⟨there, hthere, rfl⟩ : ∃ there ∈ known, there.name = base := by
            by_contra hnone
            obtain ⟨_, _, herror⟩ := hanswers.missing fun there hthere hname =>
              hnone ⟨there, hthere, hname⟩
            cases herror
          have hmembers := (get?_full_eq_ok hnames hthere).mpr (hanswers.found there hthere rfl)
          have hmore := resolveBases_answers hmodel hproper hstack
            (hbases.trans (List.append_cons before there.name bases))
            (List.rel_append hfound (.cons hmembers .nil)) hanswers.told
          rwa [List.foldl_append] at hmore
        · rename_i issue memory' heq
          rw [heq] at hanswers
          refine ⟨hanswers.told, hresult _ ?_⟩
          by_cases hknown : ∃ there ∈ known, there.name = base
          · obtain ⟨there, hthere, rfl⟩ := hknown
            exact outcome_of_failed hnames (hanswers.found there hthere rfl) bases _
          · have hunknown : ∀ there ∈ known, there.name ≠ base := fun there hthere hname =>
              hknown ⟨there, hthere, hname⟩
            obtain ⟨_, _, herror⟩ := hanswers.missing hunknown
            obtain rfl := Except.error.inj herror
            exact outcome_of_unknown hnames hunknown bases _
termination_by (idle known (model.name :: stack), bases.length + 1)

end

theorem told_remembered (names : List String) : Told known (remembered known names) := by
  unfold remembered
  suffices hfold : ∀ memory, Told known memory → Told known (names.foldl (fun memory name =>
      (resolve known [] memory name List.not_mem_nil).2) memory) from
    hfold .empty fun _ _ hfound => by cases hfound
  induction names with
  | nil => exact fun _ htold => htold
  | cons name names ih =>
      exact fun memory htold =>
        ih _ (resolve_answers hnames List.not_mem_nil (.singleton name) htold).told

/-- Whatever was asked for before, the answer is what the model comes to among all models. -/
theorem resolve_remembered {model : ModelDef} (hmodel : model ∈ known) (earlier : List String) :
    (model, (resolve known [] (remembered known earlier) model.name List.not_mem_nil).1) ∈
      ofModels known :=
  (resolve_answers hnames List.not_mem_nil (.singleton _) (told_remembered hnames earlier)).found
    model hmodel rfl

end Told

/-- Every model gets one result. Members are the result exactly if the model is founded, and then
they are what its declaration and the members of its bases make; the result, members or issue, is
the same in every order of registration, whatever has been settled before, and whichever models a
resolver that remembers them was asked for before. -/
theorem inheritance_is_declarative {known : List ModelDef}
    (hnames : (known.map (·.name)).Nodup) :
    (ofModels known).map (·.1) = known ∧
    ∀ model result, (model, result) ∈ ofModels known →
      ((∃ members, result = .ok members) ↔ Founded known model.name) ∧
      (∀ members, result = .ok members ↔ model.Proper ∧ ∃ bases,
        model.bases.Forall₂ (fun base there =>
          ∃ other, other.name = base ∧ (other, .ok there) ∈ ofModels known) bases ∧
        Merges bases model members) ∧
      (∀ other : List ModelDef, other.Perm known → ∀ result',
        (model, result') ∈ ofModels other ↔ result' = result) ∧
      (∀ earlier : List String,
        (resolve known [] (remembered known earlier) model.name List.not_mem_nil).1 = result) ∧
      ∀ settled, Reached known settled → ∀ waiting : List ModelDef,
        (∀ other ∈ waiting, other ∈ known) →
        (∀ other ∈ known, ReflTransGen (Inherits known) model.name other.name →
          other ∈ waiting ∨ (settled.get? other.name).isSome) →
        ofSettled known (settle known settled waiting) model = result := by
  refine ⟨?_, fun model result h => ?_⟩
  · unfold ofModels
    rw [List.map_map]
    exact List.map_id known
  obtain ⟨hmodel, hresult⟩ := mem_ofModels.mp h
  have hunique : ∀ result', (model, result') ∈ ofModels known ↔ result' = result := by
    intro result'
    rw [mem_ofModels, hresult]
    exact ⟨fun h' => h'.2.symm, fun heq => ⟨hmodel, heq.symm⟩⟩
  refine ⟨?_, fun members => ?_, fun other hperm result' => ?_,
    fun earlier => (hunique _).mp (resolve_remembered hnames hmodel earlier),
    fun settled hreached waiting hwaiting hcovers => ?_⟩
  · rw [← exists_ok_iff_founded hnames hmodel]
    exact exists_congr fun members => by rw [hunique, eq_comm]
  · rw [← ofModels_ok_iff hnames hmodel, hunique, eq_comm]
  · rw [← hunique]
    have hother : (other.map (·.name)).Nodup := (hperm.map _).nodup_iff.mpr hnames
    exact ⟨mem_ofModels_perm hother hperm.symm, mem_ofModels_perm hnames hperm⟩
  · rw [← hresult]
    exact ofSettled_settle hnames hmodel hreached hwaiting hcovers

/-- A tag has its label from the first of two bases and its own rank; two models inherit from it and
from each other. -/
def tagModels : List ModelDef :=
  [{ name := "Named", isAbstract := true
     fields := [{ name := "label", kind := .string }, { name := "rank", kind := .integer }] },
   { name := "Counted", isAbstract := true
     fields := [{ name := "label", kind := .integer }]
     relations := [{ name := "owner", target := "Tag", kind := .foreignKey }] },
   { name := "Tag", bases := ["Named", "Counted"]
     fields := [{ name := "slug", kind := .string }, { name := "rank", kind := .float }] },
   { name := "Left", bases := ["Tag", "Right"] },
   { name := "Right", bases := ["Left"] }]

theorem inheritance_is_declarative_tag : (tagModels.map (·.name)).Nodup ∧
    Founded tagModels "Tag" ∧ ¬ Founded tagModels "Left" ∧
    (resolve tagModels [] (remembered tagModels ["Right", "Tag"]) "Left"
      List.not_mem_nil).1.toOption.isNone ∧
    ∃ model members, model.name = "Tag" ∧ members.fields.keys = ["label", "rank", "slug"] ∧
      (model, .ok members) ∈ ofModels tagModels.reverse := by
  have hnames : (tagModels.map (·.name)).Nodup := by decide
  obtain ⟨-, hall⟩ := inheritance_is_declarative hnames
  have htag : ∃ entry ∈ ofModels tagModels, entry.1.name = "Tag" ∧
      (entry.2.toOption.map (·.fields.keys)) = some ["label", "rank", "slug"] := by
    decide +kernel
  have hleft : ∃ entry ∈ ofModels tagModels, entry.1.name = "Left" ∧ entry.2.toOption.isNone := by
    decide +kernel
  obtain ⟨⟨tag, result⟩, hmem, hname, hkeys⟩ := htag
  obtain ⟨⟨left, failure⟩, hother, hleft_name, hfailed⟩ := hleft
  cases result with
  | error issue => cases hkeys
  | ok members =>
      obtain ⟨hfounded, -, hperm, -⟩ := hall tag (.ok members) hmem
      obtain ⟨hunfounded, -, -, hearlier, -⟩ := hall left failure hother
      have hanswer := hearlier ["Right", "Tag"]
      dsimp only at hname hleft_name
      rw [hname] at hfounded
      rw [hleft_name] at hunfounded hanswer
      refine ⟨hnames, hfounded.mp ⟨members, rfl⟩, fun h => ?_,
        hanswer ▸ hfailed, tag, members, hname,
        Option.some.inj hkeys, (hperm _ (List.reverse_perm _) _).mpr rfl⟩
      obtain ⟨found, rfl⟩ := hunfounded.mpr h
      cases hfailed

end Members

end ModelSurface
