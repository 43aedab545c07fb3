import ModelSurface.Proofs.Engine.Integrity
import ModelSurface.Proofs.Write.Circles

/-!
# Calls with circular references

An input whose objects refer to each other in a circle is refused before anything is written. The
check looks at planned objects only. It therefore finds every circle of records as long as records
that both refer and are referred to go by planned objects; a circle that closes through the bare
identity of a stored record is let through.
-/

namespace ModelSurface.Engine

open Relation (TransGen)

variable {engine : Engine} {name : String} {kind : InputKind} {input : Json} {plan : Plan}
  {store : Store} {options : CallOptions}

/-- A call is refused for a circle of references, which it names, and changes nothing. -/
def RefusesCircle (engine : Engine) (store : Store) (options : CallOptions) (call : Call)
    (plan : Plan) : Prop :=
  ∃ stops, Plan.IsCircle plan.references stops ∧
    (plan.cycleViolation stops).kind = .circularReference ∧
    engine.call store options call = (store, .failure [plan.cycleViolation stops])

/-- A create or an update whose objects refer to each other in a circle is refused for it. So is one
whose records do, if records that refer and are referred to go by planned objects. -/
theorem circles_refused {registry : Registry} (hschema : registry.schema = .ok engine.schema)
    (hkind : kind ≠ .delete) (hplan : engine.plan? name kind input = some plan) (store : Store)
    (options : CallOptions) :
    ((∃ index, TransGen plan.Refers index index) →
      engine.RefusesCircle store options (.single name kind input) plan) ∧
    (plan.NamesPlanned → plan.Circular →
      engine.RefusesCircle store options (.single name kind input) plan) ∧
    ∀ after object, engine.call store options (.single name kind input) = (after, .single object) →
      (∀ index, ¬ TransGen plan.Refers index index) ∧ (plan.NamesPlanned → ¬ plan.Circular) := by
  have hsound := sound_of_plan? (Registry.sound_schema hschema) hkind hplan
  have hrefused : (∃ index, TransGen plan.Refers index index) →
      engine.RefusesCircle store options (.single name kind input) plan := by
    intro hcircle
    obtain ⟨stops, hstops⟩ := (Plan.order_error_iff hsound.closed).mpr hcircle
    exact ⟨stops, Plan.isCircle_of_order hsound.closed hstops, rfl,
      call_of_order_error hkind hplan hstops⟩
  refine ⟨hrefused, fun hnames hcircular => hrefused (Plan.refers_of_circular hnames hcircular), ?_⟩
  intro after object hcall
  have haccepted : ¬ ∃ index, TransGen plan.Refers index index := by
    intro hcircle
    obtain ⟨stops, -, -, hfailure⟩ := hrefused hcircle
    rw [hcall] at hfailure
    cases hfailure
  exact ⟨fun index hindex => haccepted ⟨index, hindex⟩,
    fun hnames hcircular => haccepted (Plan.refers_of_circular hnames hcircular)⟩

/-- A node that is created together with the next one, which refers back to it. -/
def loopInput : Json :=
  .obj [("$id", .str "first"), ("next", .obj [("next", .obj [("$ref", .str "first")])])]

def loopPlan : Plan := (chainEngine.plan? "Node" .create loopInput).getD ⟨[], []⟩

theorem circles_refused_pair : loopPlan.NamesPlanned ∧ loopPlan.Circular ∧
    chainEngine.RefusesCircle {} {} (.create "Node" loopInput) loopPlan := by
  have hplanned : (chainEngine.plan? "Node" .create loopInput).isSome = true := by
    decide +kernel
  have hnames : loopPlan.NamesPlanned :=
    Plan.namesPlanned_of_created (by decide +kernel) (by decide +kernel)
  have hforth : loopPlan.Leads (.created 0) (.created 1) := by decide +kernel
  have hback : loopPlan.Leads (.created 1) (.created 0) := by decide +kernel
  have hcircular : loopPlan.Circular := ⟨_, .head hforth (.single hback)⟩
  exact ⟨hnames, hcircular, (circles_refused schema_chainRegistry (by decide)
    (eq_some_getD hplanned) {} {}).2.1 hnames hcircular⟩

/-- A store with one node. -/
def loneStore : Store :=
  { tables := (({} : Tables).next "Node").2.put "Node" (.int 1) (chainNode 1 .null) }

/-- A stored node that comes to refer to a new one, which refers to it by its identity. -/
def closingInput : Json := .obj [("id", .num (.int 1)), ("next", .obj [("next", .num (.int 1))])]

def closingPlan : Plan := (chainEngine.plan? "Node" .update closingInput).getD ⟨[], []⟩

/-- A circle that closes through the identity of a stored record is let through. -/
theorem circle_through_stored_accepted :
    ∃ after object, chainEngine.plan? "Node" .update closingInput = some closingPlan ∧
      closingPlan.Circular ∧
      chainEngine.call loneStore {} (.update "Node" closingInput) = (after, .single object) := by
  have hplanned : (chainEngine.plan? "Node" .update closingInput).isSome = true := by
    decide +kernel
  have horder : closingPlan.order = .ok [1, 0] :=
    order_of_pair (by decide +kernel) (by decide +kernel) (by decide +kernel)
  have hplan : chainEngine.plan? "Node" .update closingInput = some closingPlan :=
    eq_some_getD hplanned
  have hforth : closingPlan.Leads (.stored ⟨"Node", .int 1⟩) (.created 1) := by decide +kernel
  have hback : closingPlan.Leads (.created 1) (.stored ⟨"Node", .int 1⟩) := by decide +kernel
  obtain ⟨object, hcall⟩ := call_of_plan? (by decide) hplan horder loneStore {} (by decide +kernel)
  exact ⟨_, object, hplan, ⟨_, .head hforth (.single hback)⟩, hcall⟩

end ModelSurface.Engine
