import Mathlib.Data.Set.Finite.Basic
import ModelSurface.Proofs.Schema.Inherited

/-!
# Inheritance

Which models get their members, and that nothing else depends on the order in which models are gone
through. A table may be filled in many ways; what holds it together is that each entry was computed
from entries that were there already, so that tables that are filled as far as they go agree
wherever they both answer for all bases. Cycles need no search: a model on a cycle is never settled,
and neither is one that leads to it.
-/

namespace ModelSurface

section Lists

variable {α β : Type} {R : α → β → Prop}

theorem exists_of_forall₂ {items : List α} {results : List β} (h : items.Forall₂ R results) {a : α}
    (ha : a ∈ items) : ∃ b ∈ results, R a b := by
  induction h with
  | nil => cases ha
  | cons hfirst _ ih =>
      rcases List.mem_cons.mp ha with rfl | hrest
      · exact ⟨_, List.mem_cons_self, hfirst⟩
      · obtain ⟨b, hb, hab⟩ := ih hrest
        exact ⟨b, List.mem_cons_of_mem _ hb, hab⟩

theorem forall₂_of_forall_exists {items : List α} (h : ∀ a ∈ items, ∃ b, R a b) :
    ∃ results, items.Forall₂ R results := by
  induction items with
  | nil => exact ⟨[], .nil⟩
  | cons item items ih =>
      obtain ⟨hfirst, hrest⟩ := List.forall_mem_cons.mp h
      obtain ⟨b, hb⟩ := hfirst
      obtain ⟨results, hresults⟩ := ih hrest
      exact ⟨b :: results, .cons hb hresults⟩

end Lists

namespace Members

open Relation

/-- One model names another one as a base. -/
def Inherits (known : List ModelDef) (name base : String) : Prop :=
  ∃ model ∈ known, model.name = name ∧ base ∈ model.bases

/-- Whether all that a model is made from is there and proper, and none of it goes in circles. -/
def Founded (known : List ModelDef) (name : String) : Prop :=
  ∀ other, ReflTransGen (Inherits known) name other →
    (∃ model ∈ known, model.name = other ∧ model.Proper) ∧
      ¬ TransGen (Inherits known) other other

/-- The tables that come up when models are settled one at a time, in any order and any number of
times. -/
inductive Reached (known : List ModelDef) : Settled → Prop
  | empty : Reached known .empty
  | put {settled : Settled} {model : ModelDef} {members : Except Issue Members} :
      Reached known settled → model ∈ known →
        Standing.ofModel known settled model = .settled members →
          Reached known (settled.put model.name members)

/-! ### Settling one model -/

theorem any_name {known : List ModelDef} {name : String} :
    (known.any fun model => model.name == name) = true ↔ ∃ model ∈ known, model.name = name := by
  simp

section Standing

variable {known known' : List ModelDef} {settled settled' : Settled} {model : ModelDef}

theorem ofBases_ok_iff {bases : List String} {inherited members : Members} :
    Standing.ofBases known settled model bases inherited = .settled (.ok members) ↔
      ∃ found, bases.Forall₂ (fun base there => settled.get? base = some (.ok there)) found ∧
        members = (found.foldl inherit inherited).declare model := by
  induction bases generalizing inherited with
  | nil => simp [Standing.ofBases, eq_comm]
  | cons base bases ih =>
      unfold Standing.ofBases
      cases hbase : settled.get? base with
      | none =>
          by_cases hknown : known.any fun m => m.name == base <;>
            simp [hknown, hbase, List.forall₂_cons_left_iff]
      | some result =>
          cases result with
          | error issue => simp [hbase, List.forall₂_cons_left_iff]
          | ok there =>
              simp only [ih]
              constructor
              · rintro ⟨found, hfound, rfl⟩
                exact ⟨there :: found, .cons hbase hfound, rfl⟩
              · rintro ⟨found, hfound, rfl⟩
                cases hfound with
                | cons hfirst hrest =>
                    obtain rfl := Except.ok.inj (Option.some.inj (hbase.symm.trans hfirst))
                    exact ⟨_, hrest, rfl⟩

theorem ofBases_error {bases : List String} {inherited : Members} {issue : Issue}
    (h : Standing.ofBases known settled model bases inherited = .settled (.error issue)) :
    ∃ base, issue = .unknownBase model.name base := by
  induction bases generalizing inherited with
  | nil => cases h
  | cons base bases ih =>
      unfold Standing.ofBases at h
      split at h
      · exact ih h
      · cases h
        exact ⟨base, rfl⟩
      · split at h
        · cases h
        · cases h
          exact ⟨base, rfl⟩

/-- A model is settled with members exactly if it is proper and all its bases have theirs. -/
theorem ofModel_ok_iff {members : Members} :
    Standing.ofModel known settled model = .settled (.ok members) ↔
      model.Proper ∧ ∃ found,
        model.bases.Forall₂ (fun base there => settled.get? base = some (.ok there)) found ∧
          members = (found.foldl inherit {}).declare model := by
  unfold Standing.ofModel
  rw [← ModelDef.ownIssue?_eq_none_iff]
  cases model.ownIssue? with
  | some issue => simp
  | none => simp [ofBases_ok_iff]

/-- What is settled stays settled when more is known about the bases. -/
theorem ofBases_mono {bases : List String} {inherited : Members} {result : Except Issue Members}
    (hknown : ∀ base ∈ bases,
      (known'.any fun m => m.name == base) = known.any fun m => m.name == base)
    (hnames : ∀ base ∈ bases, (settled'.get? base).isSome → known'.any fun m => m.name == base)
    (hkept : ∀ base ∈ bases, ∀ there, settled.get? base = some there →
      settled'.get? base = some there)
    (h : Standing.ofBases known settled model bases inherited = .settled result) :
    Standing.ofBases known' settled' model bases inherited = .settled result := by
  induction bases generalizing inherited with
  | nil => exact h
  | cons base bases ih =>
      obtain ⟨hknown_base, hknown⟩ := List.forall_mem_cons.mp hknown
      obtain ⟨hnames_base, hnames⟩ := List.forall_mem_cons.mp hnames
      obtain ⟨hkept_base, hkept⟩ := List.forall_mem_cons.mp hkept
      unfold Standing.ofBases at h ⊢
      cases hbase : settled.get? base with
      | some there =>
          rw [hbase] at h
          rw [hkept_base there hbase]
          cases there with
          | error issue => exact h
          | ok members => exact ih hknown hnames hkept h
      | none =>
          rw [hbase] at h
          dsimp only at h
          split at h
          · cases h
          · rename_i hunknown
            have hnone : settled'.get? base = none := by
              refine Option.not_isSome_iff_eq_none.mp fun hsome => hunknown ?_
              rw [← hknown_base]
              exact hnames_base hsome
            rw [hnone]
            dsimp only
            rw [hknown_base, if_neg hunknown]
            exact h

theorem ofBases_congr {bases : List String} {inherited : Members}
    (hknown : ∀ base ∈ bases,
      (known'.any fun m => m.name == base) = known.any fun m => m.name == base)
    (hsame : ∀ base ∈ bases, settled'.get? base = settled.get? base) :
    Standing.ofBases known' settled' model bases inherited =
      Standing.ofBases known settled model bases inherited := by
  induction bases generalizing inherited with
  | nil => rfl
  | cons base bases ih =>
      obtain ⟨hknown_base, hknown⟩ := List.forall_mem_cons.mp hknown
      obtain ⟨hsame_base, hsame⟩ := List.forall_mem_cons.mp hsame
      unfold Standing.ofBases
      rw [hsame_base, hknown_base]
      simp only [ih hknown hsame]

theorem ofModel_mono {result : Except Issue Members}
    (hknown : ∀ base ∈ model.bases,
      (known'.any fun m => m.name == base) = known.any fun m => m.name == base)
    (hnames : ∀ base ∈ model.bases,
      (settled'.get? base).isSome → known'.any fun m => m.name == base)
    (hkept : ∀ base ∈ model.bases, ∀ there, settled.get? base = some there →
      settled'.get? base = some there)
    (h : Standing.ofModel known settled model = .settled result) :
    Standing.ofModel known' settled' model = .settled result := by
  unfold Standing.ofModel at h ⊢
  split at h
  · exact h
  · exact ofBases_mono hknown hnames hkept h

theorem ofSettled_congr
    (hknown : ∀ base ∈ model.bases,
      (known'.any fun m => m.name == base) = known.any fun m => m.name == base)
    (hsame : ∀ base ∈ model.bases, settled'.get? base = settled.get? base) :
    ofSettled known' settled' model = ofSettled known settled model := by
  unfold ofSettled Standing.ofModel
  rw [ofBases_congr hknown hsame]

end Standing

/-! ### Tables that are reached -/

namespace Reached

variable {known : List ModelDef} {settled : Settled}

theorem named (h : Reached known settled) {name : String} (hsome : (settled.get? name).isSome) :
    known.any fun model => model.name == name := by
  induction h with
  | empty => cases hsome
  | put h hmodel hsettled ih =>
      rw [Keyed.get?_put] at hsome
      split at hsome
      · rename_i heq
        exact any_name.mpr ⟨_, hmodel, heq.symm⟩
      · exact ih hsome

/-- Each entry is what its model is settled to by the table itself. -/
theorem justified (hnames : (known.map (·.name)).Nodup) (h : Reached known settled)
    {model : ModelDef} (hmodel : model ∈ known) {result : Except Issue Members}
    (hfound : settled.get? model.name = some result) :
    Standing.ofModel known settled model = .settled result := by
  induction h generalizing model result with
  | empty => cases hfound
  | @put settled changed members h hchanged hsettled ih =>
      have hkept : ∀ name there, settled.get? name = some there →
          (settled.put changed.name members).get? name = some there := by
        intro name there hthere
        rw [Keyed.get?_put]
        split
        · rename_i heq
          rw [heq] at hthere
          rw [ih hchanged hthere] at hsettled
          injection hsettled with hsame
          rw [hsame]
        · exact hthere
      have hreached := Reached.put h hchanged hsettled
      have hmono : ∀ other result, Standing.ofModel known settled other = .settled result →
          Standing.ofModel known (settled.put changed.name members) other = .settled result :=
        fun other result hother => ofModel_mono (fun _ _ => rfl)
          (fun base _ hsome => hreached.named hsome) (fun base _ => hkept base) hother
      rw [Keyed.get?_put] at hfound
      split at hfound
      · rename_i heq
        obtain rfl := List.inj_on_of_nodup_map hnames hmodel hchanged heq
        rw [← Option.some.inj hfound]
        exact hmono _ _ hsettled
      · exact hmono _ _ (ih hmodel hfound)

end Reached

/-- A part of the names from which no base leads out, and in which two lists have the same
models. -/
structure Region (known known' : List ModelDef) (region : String → Prop) : Prop where
  closed : ∀ model ∈ known, region model.name → ∀ base ∈ model.bases, region base
  same : ∀ model, region model.name → (model ∈ known ↔ model ∈ known')

/-- Whether every model of a part is settled that can be. -/
def Complete (known : List ModelDef) (settled : Settled) (region : String → Prop) : Prop :=
  ∀ model ∈ known, region model.name → ∀ result,
    Standing.ofModel known settled model = .settled result →
      settled.get? model.name = some result

namespace Region

variable {known known' : List ModelDef} {settled settled' : Settled} {region : String → Prop}

theorem symm (h : Region known known' region) : Region known' known region where
  closed model hmodel hregion := h.closed model ((h.same model hregion).mpr hmodel) hregion
  same model hregion := (h.same model hregion).symm

theorem any_eq (h : Region known known' region) {name : String} (hname : region name) :
    (known'.any fun m => m.name == name) = known.any fun m => m.name == name := by
  rw [Bool.eq_iff_iff, any_name, any_name]
  constructor
  · rintro ⟨model, hmodel, rfl⟩
    exact ⟨model, (h.same model hname).mpr hmodel, rfl⟩
  · rintro ⟨model, hmodel, rfl⟩
    exact ⟨model, (h.same model hname).mp hmodel, rfl⟩

/-- What one table says of the part, a complete one says too. -/
theorem le_complete (h : Region known known' region) (hreached : Reached known settled)
    (hreached' : Reached known' settled') (hcomplete : Complete known' settled' region)
    {name : String} (hname : region name) {result : Except Issue Members}
    (hfound : settled.get? name = some result) : settled'.get? name = some result := by
  induction hreached generalizing name result with
  | empty => cases hfound
  | @put settled model members _ hmodel hsettled ih =>
      rw [Keyed.get?_put] at hfound
      split at hfound
      · rename_i heq
        subst heq
        rw [← Option.some.inj hfound]
        have hbases := h.closed model hmodel hname
        refine hcomplete model ((h.same model hname).mp hmodel) hname members ?_
        exact ofModel_mono (fun base hbase => h.any_eq (hbases base hbase))
          (fun base _ hsome => hreached'.named hsome)
          (fun base hbase there hthere => ih (hbases base hbase) hthere) hsettled
      · exact ih hname hfound

theorem get?_eq (h : Region known known' region) (hreached : Reached known settled)
    (hreached' : Reached known' settled') (hcomplete : Complete known settled region)
    (hcomplete' : Complete known' settled' region) {name : String} (hname : region name) :
    settled'.get? name = settled.get? name := by
  refine Option.ext fun result => ?_
  exact ⟨h.symm.le_complete hreached' hreached hcomplete hname,
    h.le_complete hreached hreached' hcomplete' hname⟩

theorem ofSettled_eq (h : Region known known' region) (hreached : Reached known settled)
    (hreached' : Reached known' settled') (hcomplete : Complete known settled region)
    (hcomplete' : Complete known' settled' region) {model : ModelDef} (hmodel : model ∈ known)
    (hname : region model.name) :
    ofSettled known' settled' model = ofSettled known settled model := by
  have hbases := h.closed model hmodel hname
  exact ofSettled_congr (fun base hbase => h.any_eq (hbases base hbase)) fun base hbase =>
    h.get?_eq hreached hreached' hcomplete hcomplete' (hbases base hbase)

end Region

/-! ### Going through models -/

section Passes

variable {known : List ModelDef}

/-- What becomes of a table, and of the models that wait, when models are gone through. -/
structure Passes (known models : List ModelDef) (state state' : Settled × List ModelDef) :
    Prop where
  reached : (∀ model ∈ models, model ∈ known) → Reached known state.1 → Reached known state'.1
  kept : ∀ name, (state.1.get? name).isSome → (state'.1.get? name).isSome
  waiting : ∀ model ∈ state'.2, model ∈ state.2 ∨ model ∈ models
  handled : ∀ model, model ∈ state.2 ∨ model ∈ models →
    model ∈ state'.2 ∨ (state'.1.get? model.name).isSome

theorem Passes.refl (state : Settled × List ModelDef) : Passes known [] state state where
  reached _ h := h
  kept _ h := h
  waiting _ h := .inl h
  handled _ h := .inl (h.resolve_right List.not_mem_nil)

theorem Passes.trans {models models' : List ModelDef} {first second third : Settled × List ModelDef}
    (h : Passes known models first second) (h' : Passes known models' second third) :
    Passes known (models ++ models') first third where
  reached hmodels hreached :=
    h'.reached (fun model hmodel => hmodels model (List.mem_append_right _ hmodel))
      (h.reached (fun model hmodel => hmodels model (List.mem_append_left _ hmodel)) hreached)
  kept name hsome := h'.kept name (h.kept name hsome)
  waiting model hmodel := by
    rw [List.mem_append]
    rcases h'.waiting model hmodel with hsecond | hrest
    · exact (h.waiting model hsecond).imp_right .inl
    · exact .inr (.inr hrest)
  handled model hmodel := by
    rw [List.mem_append, ← or_assoc] at hmodel
    rcases hmodel with hfirst | hrest
    · rcases h.handled model hfirst with hwaits | hsettled
      · exact h'.handled model (.inl hwaits)
      · exact .inr (h'.kept _ hsettled)
    · exact h'.handled model (.inr hrest)

theorem settleNext_passes (state : Settled × List ModelDef) (model : ModelDef) :
    Passes known [model] state (settleNext known state model) := by
  unfold settleNext
  split
  · rename_i members hsettled
    refine ⟨fun hmodels hreached => hreached.put (hmodels model List.mem_cons_self) hsettled,
      fun name hsome => ?_, fun _ hother => .inl hother, fun other hother => ?_⟩
    · rw [Keyed.get?_put]
      split
      · rfl
      · exact hsome
    · refine hother.imp_right fun hmem => ?_
      rw [List.mem_singleton.mp hmem, Keyed.get?_put_self]
      rfl
  · refine ⟨fun _ hreached => hreached, fun _ hsome => hsome, fun other hother => ?_,
      fun other hother => .inl ?_⟩
    · rcases List.mem_cons.mp hother with rfl | hold
      · exact .inr List.mem_cons_self
      · exact .inl hold
    · rcases hother with hold | hmem
      · exact List.mem_cons_of_mem _ hold
      · rw [List.mem_singleton.mp hmem]
        exact List.mem_cons_self

theorem foldl_settleNext_passes (models : List ModelDef) (state : Settled × List ModelDef) :
    Passes known models state (models.foldl (settleNext known) state) := by
  induction models generalizing state with
  | nil => exact .refl state
  | cons model rest ih => exact (settleNext_passes state model).trans (ih _)

/-- Where no model leaves the waiting ones, none can be settled with what is there. -/
theorem idle_of_length (models : List ModelDef) (state : Settled × List ModelDef) :
    (models.foldl (settleNext known) state).2.length ≤ state.2.length + models.length ∧
      ((models.foldl (settleNext known) state).2.length = state.2.length + models.length →
        ∀ model ∈ models, ∀ result, Standing.ofModel known state.1 model ≠ .settled result) := by
  induction models generalizing state with
  | nil => simp
  | cons model rest ih =>
      rw [List.foldl_cons, List.length_cons]
      cases hstanding : Standing.ofModel known state.1 model with
      | settled members =>
          have hnext : settleNext known state model =
              (state.1.put model.name members, state.2) := by
            rw [settleNext, hstanding]
          obtain ⟨hlength, -⟩ := ih (settleNext known state model)
          rw [hnext] at hlength ⊢
          dsimp only at hlength
          refine ⟨by omega, fun heq => ?_⟩
          omega
      | waiting base =>
          have hnext : settleNext known state model = (state.1, model :: state.2) := by
            rw [settleNext, hstanding]
          obtain ⟨hlength, hidle⟩ := ih (settleNext known state model)
          rw [hnext] at hlength hidle ⊢
          rw [List.length_cons] at hlength hidle
          refine ⟨by omega, fun heq => ?_⟩
          refine List.forall_mem_cons.mpr ⟨fun result hsettled => ?_, hidle (by omega)⟩
          rw [hstanding] at hsettled
          cases hsettled

/-- A table that is filled until nothing is settled any more holds what can be said of the models it
was filled with. -/
theorem settle_complete (hnames : (known.map (·.name)).Nodup) {settled : Settled}
    {waiting : List ModelDef} (hreached : Reached known settled)
    (hwaiting : ∀ model ∈ waiting, model ∈ known) :
    Reached known (settle known settled waiting) ∧
      Complete known (settle known settled waiting) fun name =>
        (settled.get? name).isSome ∨ ∃ model ∈ waiting, model.name = name := by
  fun_induction settle known settled waiting with
  | case1 settled waiting state _ ih =>
      have hpass : Passes known waiting (settled, []) state := foldl_settleNext_passes _ _
      have hstate : ∀ model ∈ state.2, model ∈ known := fun model hmodel =>
        hwaiting model ((hpass.waiting model hmodel).resolve_left List.not_mem_nil)
      obtain ⟨hlast, hcomplete⟩ := ih (hpass.reached hwaiting hreached) hstate
      refine ⟨hlast, fun model hmodel hname => hcomplete model hmodel ?_⟩
      rcases hname with hsome | ⟨other, hother, hsame⟩
      · exact .inl (hpass.kept _ hsome)
      · obtain rfl := List.inj_on_of_nodup_map hnames (hwaiting other hother) hmodel hsame
        rcases hpass.handled other (.inr hother) with hwaits | hsettled
        · exact .inr ⟨other, hwaits, rfl⟩
        · exact .inl hsettled
  | case2 settled waiting state hlength =>
      refine ⟨hreached, fun model hmodel hname result hresult => ?_⟩
      rcases hname with hsome | ⟨other, hother, hsame⟩
      · obtain ⟨there, hthere⟩ := Option.isSome_iff_exists.mp hsome
        have hjustified := hreached.justified hnames hmodel hthere
        rw [hresult] at hjustified
        injection hjustified with heq
        rw [hthere, heq]
      · obtain rfl := List.inj_on_of_nodup_map hnames (hwaiting other hother) hmodel hsame
        obtain ⟨hle, hidle⟩ := @idle_of_length known waiting (settled, [])
        have hstate : state.2.length = 0 + waiting.length := by
          change state.2.length ≤ 0 + waiting.length at hle
          omega
        exact absurd hresult (hidle hstate other hother result)

end Passes

/-! ### What the full table holds -/

section Full

variable {known : List ModelDef}

theorem mem_ofModels {model : ModelDef} {result : Except Issue Members} :
    (model, result) ∈ ofModels known ↔
      model ∈ known ∧ ofSettled known (settle known .empty known) model = result := by
  unfold ofModels
  simp only [List.mem_map, Prod.mk.injEq]
  constructor
  · rintro ⟨found, hfound, rfl, rfl⟩
    exact ⟨hfound, rfl⟩
  · rintro ⟨hmodel, rfl⟩
    exact ⟨model, hmodel, rfl, rfl⟩

theorem ofSettled_eq_ok {settled : Settled} {model : ModelDef} {members : Members} :
    ofSettled known settled model = .ok members ↔
      Standing.ofModel known settled model = .settled (.ok members) := by
  unfold ofSettled
  cases Standing.ofModel known settled model with
  | settled result => simp
  | waiting base => simp

namespace Reached

variable {settled : Settled}

theorem sound (h : Reached known settled) : Settled.Sound settled := by
  induction h with
  | empty => exact fun _ _ hfound => by cases hfound
  | put _ _ hsettled ih =>
      intro name members hfound
      rw [Keyed.get?_put] at hfound
      split at hfound
      · rw [Option.some.inj hfound] at hsettled
        exact (sound_of_ofModel ih hsettled).2
      · exact ih name members hfound

theorem named_methods (h : Reached known settled) {name : String} {members : Members}
    (hfound : settled.get? name = some (.ok members)) :
    members.methods.NamedBy MethodDef.name := by
  induction h generalizing name members with
  | empty => cases hfound
  | put _ _ hsettled ih =>
      rw [Keyed.get?_put] at hfound
      split at hfound
      · rw [Option.some.inj hfound] at hsettled
        obtain ⟨-, bases, hbases, rfl⟩ := ofModel_ok_iff.mp hsettled
        refine Members.named_methods fun base hbase => ?_
        obtain ⟨name, -, hname⟩ := exists_of_forall₂ hbases.flip hbase
        exact ih hname
      · exact ih hfound

/-- A model that has its members is founded: its bases were settled before it. -/
theorem founded (hnames : (known.map (·.name)).Nodup) (h : Reached known settled) {name : String}
    {members : Members} (hfound : settled.get? name = some (.ok members)) :
    Founded known name := by
  induction h generalizing name members with
  | empty => cases hfound
  | @put settled model _ _ hmodel hsettled ih =>
      rw [Keyed.get?_put] at hfound
      split at hfound
      · rename_i heq
        subst heq
        rw [Option.some.inj hfound] at hsettled
        obtain ⟨hproper, found, hfound, -⟩ := ofModel_ok_iff.mp hsettled
        have hbases : ∀ base, Inherits known model.name base → Founded known base := by
          rintro base ⟨other, hother, hsame, hbase⟩
          obtain rfl := List.inj_on_of_nodup_map hnames hother hmodel hsame
          obtain ⟨there, -, hthere⟩ := exists_of_forall₂ hfound hbase
          exact ih hthere
        intro other hreach
        rcases ReflTransGen.cases_head hreach with rfl | ⟨base, hbase, hrest⟩
        · refine ⟨⟨model, hmodel, rfl, hproper⟩, fun hcircle => ?_⟩
          obtain ⟨base, hbase, hrest⟩ := TransGen.head'_iff.mp hcircle
          exact (hbases base hbase _ hrest).2 hcircle
        · exact hbases base hbase other hrest
      · exact ih hfound

end Reached

variable (hnames : (known.map (·.name)).Nodup)

include hnames

theorem reached_full : Reached known (settle known .empty known) :=
  (settle_complete hnames .empty fun _ h => h).1

theorem complete_full (region : String → Prop) :
    Complete known (settle known .empty known) region := fun model hmodel _ =>
  (settle_complete hnames .empty fun _ h => h).2 model hmodel (.inr ⟨model, hmodel, rfl⟩)

theorem get?_full_eq_ok {model : ModelDef} (hmodel : model ∈ known) {members : Members} :
    (settle known .empty known).get? model.name = some (.ok members) ↔
      (model, .ok members) ∈ ofModels known := by
  rw [mem_ofModels, ofSettled_eq_ok]
  constructor
  · exact fun hfound => ⟨hmodel, (reached_full hnames).justified hnames hmodel hfound⟩
  · exact fun h => complete_full hnames (fun _ => True) model hmodel trivial _ h.2

theorem get?_full_ok_iff {name : String} {members : Members} :
    (settle known .empty known).get? name = some (.ok members) ↔
      ∃ model, model.name = name ∧ (model, .ok members) ∈ ofModels known := by
  constructor
  · intro hfound
    obtain ⟨model, hmodel, rfl⟩ := any_name.mp
      ((reached_full hnames).named (Option.isSome_of_eq_some hfound))
    exact ⟨model, rfl, (get?_full_eq_ok hnames hmodel).mp hfound⟩
  · rintro ⟨model, rfl, hresult⟩
    exact (get?_full_eq_ok hnames (mem_ofModels.mp hresult).1).mpr hresult

/-- Among finitely many models that do not inherit in circles, those without members would have to
go on forever. -/
theorem ok_of_founded {name : String} (h : Founded known name) :
    ∃ members, (settle known .empty known).get? name = some (.ok members) := by
  let Part := { other // ReflTransGen (Inherits known) name other }
  have hfinite : Finite Part := by
    refine Set.Finite.subset (List.finite_toSet (known.map (·.name))) fun other hother => ?_
    obtain ⟨⟨model, hmodel, hname, -⟩, -⟩ := h other hother
    exact List.mem_map.mpr ⟨model, hmodel, hname⟩
  let Below (base other : Part) : Prop := TransGen (Inherits known) other.1 base.1
  have htrans : IsTrans Part Below := ⟨fun _ _ _ hab hbc => hbc.trans hab⟩
  have hirrefl : Std.Irrefl Below := ⟨fun other => (h other.1 other.2).2⟩
  have hwell : WellFounded Below := Finite.wellFounded_of_trans_of_irrefl Below
  suffices hall : ∀ other : Part,
      ∃ members, (settle known .empty known).get? other.1 = some (.ok members) from
    hall ⟨name, .refl⟩
  intro other
  induction other using hwell.induction with
  | _ other ih =>
      obtain ⟨⟨model, hmodel, hname, hproper⟩, -⟩ := h other.1 other.2
      have hbases : ∀ base ∈ model.bases, ∃ members,
          (settle known .empty known).get? base = some (.ok members) := by
        intro base hbase
        have hinherits : Inherits known other.1 base := ⟨model, hmodel, hname, hbase⟩
        exact ih ⟨base, other.2.tail hinherits⟩ (.single hinherits)
      obtain ⟨found, hfound⟩ := forall₂_of_forall_exists hbases
      have hsettled : Standing.ofModel known (settle known .empty known) model =
          .settled (.ok ((found.foldl inherit {}).declare model)) :=
        ofModel_ok_iff.mpr ⟨hproper, found, hfound, rfl⟩
      rw [← hname]
      exact ⟨_, complete_full hnames (fun _ => True) model hmodel trivial _ hsettled⟩

/-- A model gets its members exactly if it is founded. -/
theorem exists_ok_iff_founded {model : ModelDef} (hmodel : model ∈ known) :
    (∃ members, (model, .ok members) ∈ ofModels known) ↔ Founded known model.name := by
  constructor
  · rintro ⟨members, hmembers⟩
    exact (reached_full hnames).founded hnames ((get?_full_eq_ok hnames hmodel).mpr hmembers)
  · intro hfounded
    obtain ⟨members, hmembers⟩ := ok_of_founded hnames hfounded
    exact ⟨members, (get?_full_eq_ok hnames hmodel).mp hmembers⟩

/-- The members of a model are those that its declaration and the members of its bases make. -/
theorem ofModels_ok_iff {model : ModelDef} (hmodel : model ∈ known) {members : Members} :
    (model, .ok members) ∈ ofModels known ↔ model.Proper ∧ ∃ bases,
      model.bases.Forall₂ (fun base there =>
        ∃ other, other.name = base ∧ (other, .ok there) ∈ ofModels known) bases ∧
      Merges bases model members := by
  have hreached := reached_full hnames
  have hthere : ∀ {base : String} {there : Members},
      (settle known .empty known).get? base = some (.ok there) →
        there.Sound ∧ there.methods.NamedBy MethodDef.name := fun hfound =>
    ⟨hreached.sound _ _ hfound, hreached.named_methods hfound⟩
  have hmerges : ∀ {bases : List Members}, model.Proper →
      model.bases.Forall₂ (fun base there =>
        (settle known .empty known).get? base = some (.ok there)) bases →
      Merges bases model ((bases.foldl inherit {}).declare model) := by
    intro bases hproper hbases
    have hgood : ∀ base ∈ bases, base.Sound ∧ base.methods.NamedBy MethodDef.name := by
      intro base hbase
      obtain ⟨name, -, hname⟩ := exists_of_forall₂ hbases.flip hbase
      exact hthere hname
    exact merges_declare hproper (fun base hbase => (hgood base hbase).1)
      fun base hbase => (hgood base hbase).2.distinct
  simp only [← get?_full_ok_iff hnames]
  rw [mem_ofModels, ofSettled_eq_ok, ofModel_ok_iff]
  constructor
  · rintro ⟨-, hproper, bases, hbases, rfl⟩
    exact ⟨hproper, bases, hbases, hmerges hproper hbases⟩
  · rintro ⟨hproper, bases, hbases, hmerged⟩
    refine ⟨hmodel, hproper, bases, hbases, ?_⟩
    have hsettled : Standing.ofModel known (settle known .empty known) model =
        .settled (.ok ((bases.foldl inherit {}).declare model)) :=
      ofModel_ok_iff.mpr ⟨hproper, bases, hbases, rfl⟩
    obtain ⟨hsound, hnamed⟩ :=
      hthere (complete_full hnames (fun _ => True) model hmodel trivial _ hsettled)
    exact (hmerges hproper hbases).eq hmerged hsound hnamed.distinct

/-- The result of a model does not depend on which models are settled before it, nor on which ones
are settled along with it. -/
theorem ofSettled_settle {model : ModelDef} (hmodel : model ∈ known) {settled : Settled}
    (hreached : Reached known settled) {waiting : List ModelDef}
    (hwaiting : ∀ other ∈ waiting, other ∈ known)
    (hcovers : ∀ other ∈ known, ReflTransGen (Inherits known) model.name other.name →
      other ∈ waiting ∨ (settled.get? other.name).isSome) :
    ofSettled known (settle known settled waiting) model =
      ofSettled known (settle known .empty known) model := by
  obtain ⟨hlast, hcomplete⟩ := settle_complete hnames hreached hwaiting
  let region := ReflTransGen (Inherits known) model.name
  have hregion : Region known known region :=
    ⟨fun other hother hname base hbase => hname.tail ⟨other, hother, rfl, hbase⟩,
      fun _ _ => .rfl⟩
  refine hregion.ofSettled_eq (reached_full hnames) hlast (complete_full hnames region) ?_ hmodel
    .refl
  intro other hother hname
  refine hcomplete other hother ?_
  rcases hcovers other hother hname with hwaits | hsettled
  · exact .inr ⟨other, hwaits, rfl⟩
  · exact .inl hsettled

/-- The result of a model does not depend on the order of registration. -/
theorem mem_ofModels_perm {other : List ModelDef} (hperm : other.Perm known) {model : ModelDef}
    {result : Except Issue Members} (h : (model, result) ∈ ofModels known) :
    (model, result) ∈ ofModels other := by
  obtain ⟨hmodel, hresult⟩ := mem_ofModels.mp h
  have hother : (other.map (·.name)).Nodup := (hperm.map _).nodup_iff.mpr hnames
  have hregion : Region known other fun _ => True :=
    ⟨fun _ _ _ _ _ => trivial, fun _ _ => hperm.mem_iff.symm⟩
  refine mem_ofModels.mpr ⟨hperm.mem_iff.mpr hmodel, ?_⟩
  rw [← hresult]
  exact hregion.ofSettled_eq (reached_full hnames) (reached_full hother)
    (complete_full hnames _) (complete_full hother _) hmodel trivial

end Full

end Members

end ModelSurface
