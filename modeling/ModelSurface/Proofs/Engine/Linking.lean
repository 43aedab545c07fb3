import ModelSurface.Proofs.Engine.Circularity
import ModelSurface.Proofs.Write.Adding
import ModelSurface.Proofs.Write.Honouring

/-!
# Links of inputs

Everything that an accepted input names under a relationship becomes a link of its plan, and every
link is there when the call is done, unless a single reference is given twice. An object within an
object may not set the reference that leads back to the enclosing one, but two objects may both
claim the reference of a third record. The input is accepted then, and the last of the two has its
way.
-/

namespace ModelSurface

namespace Plan

variable {plan : Plan} {written : Written} {tables : Tables}

/-- A link is honoured: a set of links has its record, and a single reference is what one of the
links that set it demands, hence what this one does unless another one demands something else. -/
structure Honours (plan : Plan) (written : Written) (tables : Tables) (link : Link NodeRef)
    (holder : Identity) (record : Record) : Prop where
  held : Names written link.holder holder
  stored : tables.get? link.holderModel.name holder = some record
  many : link.many = true → Added written link record
  single : link.many = false → ∃ value, record.get? link.field = some value ∧
    (∃ rival ∈ plan.links, Rivals written link rival ∧ Demands written rival value) ∧
    ((∀ rival ∈ plan.links, Rivals written link rival → ∀ other, Demands written rival other →
      Demands written link other) → Demands written link value)

theorem Honoured.honours (h : Honoured written plan.links tables) {link : Link NodeRef}
    (hlink : link ∈ plan.links) :
    ∃ holder record, plan.Honours written tables link holder record := by
  obtain ⟨holder, record, hnames, hstored, hsingle, hmany⟩ := h link hlink
  refine ⟨holder, record, hnames, hstored, hmany, fun hlink_single => ?_⟩
  obtain ⟨rival, hrival, hrivals, value, hvalue, hdemands⟩ := hsingle hlink_single
  exact ⟨value, hvalue, ⟨rival, hrival, hrivals, hdemands⟩,
    fun hall => hall rival hrival hrivals value hdemands⟩

end Plan

namespace Engine

variable {engine : Engine} {name : String} {kind : InputKind} {input : Json} {store after : Store}
  {options : CallOptions} {object : Json}

/-- When a create or an update succeeds, each record that its input names under a relationship has a
link in the plan, and each link of the plan is honoured. -/
theorem links_honoured {registry : Registry} (hschema : registry.schema = .ok engine.schema)
    (hkind : kind ≠ .delete)
    (hcall : engine.call store options (.single name kind input) = (after, .single object)) :
    ∃ model plan written, engine.schema.model? name = some model ∧
      engine.plan? name kind input = some plan ∧
      plan.Reads engine.schema (engine.schema.inputObjects model kind input) ∧
      plan.Placed store.tables (List.range plan.nodes.length) written after.tables ∧
      ∀ link ∈ plan.links, ∃ holder record,
        plan.Honours written after.tables link holder record := by
  have hsound := Registry.sound_schema hschema
  obtain ⟨plan, order, record, stop, hplan, horder, hrun, -, rfl⟩ := applied_of_call hkind hcall
  obtain ⟨model, hmodel, hread⟩ := plan?_eq_some.mp hplan
  obtain ⟨written, hplaced, hhonoured⟩ := Plan.honoured_of_apply hsound
    (sound_of_plan? hsound hkind hplan) horder hrun
  refine ⟨model, plan, written, hmodel, hplan, Plan.ofInput_reads hread, ?_,
    fun link hlink => hhonoured.honours hlink⟩
  exact hplaced.congr fun index => ((Plan.order_spec horder).2 index).trans List.mem_range.symm

theorem call_pairInput : ∃ after object,
    chainEngine.call {} {} (.create "Node" pairInput) = (after, .single object) := by
  have hplanned : (chainEngine.plan? "Node" .create pairInput).isSome = true := by decide +kernel
  have horder : pairPlan.order = .ok [1, 0] :=
    order_of_pair (by decide +kernel) (by decide +kernel) (by decide +kernel)
  obtain ⟨object, hcall⟩ := call_of_plan? (by decide) (eq_some_getD hplanned) horder {} {}
    (by decide +kernel)
  exact ⟨_, object, hcall⟩

theorem links_honoured_pair : ∃ after written, pairPlan.links.length = 1 ∧
    ∀ link ∈ pairPlan.links, ∃ holder record,
      pairPlan.Honours written after link holder record := by
  obtain ⟨after, object, hcall⟩ := call_pairInput
  obtain ⟨_, plan, written, -, hplan, -, -, hlinks⟩ :=
    links_honoured schema_chainRegistry (show InputKind.create ≠ .delete by decide) hcall
  obtain rfl : pairPlan = plan := by
    unfold pairPlan
    rw [hplan]
    rfl
  exact ⟨after.tables, written, by decide +kernel, hlinks⟩

/-- A node and the next one of it, both of which claim the stored node as the one before them. -/
def claimedInput : Json :=
  .obj [("next", .obj [("nodes", .arr [.num (.int 1)])]), ("nodes", .arr [.num (.int 1)])]

def claimedPlan : Plan := (chainEngine.plan? "Node" .create claimedInput).getD ⟨[], []⟩

/-- Two links that set one reference to different records are let through, and one is lost. -/
theorem claimed_twice_accepted :
    ∃ after object, chainEngine.plan? "Node" .create claimedInput = some claimedPlan ∧
      (claimedPlan.links.filter fun link => link.holder == .stored (.int 1) && !link.many).map
        (fun link => (link.field, link.value)) =
          [("next", some (.node 1)), ("next", some (.node 0))] ∧
      chainEngine.call loneStore {} (.create "Node" claimedInput) = (after, .single object) ∧
      (after.tables.get? "Node" (.int 1)).bind (Record.identity? · "next") = some (.int 3) := by
  have hplanned : (chainEngine.plan? "Node" .create claimedInput).isSome = true := by
    decide +kernel
  have horder : claimedPlan.order = .ok [1, 0] :=
    order_of_pair (by decide +kernel) (by decide +kernel) (by decide +kernel)
  have hplan : chainEngine.plan? "Node" .create claimedInput = some claimedPlan :=
    eq_some_getD hplanned
  obtain ⟨object, hcall⟩ := call_of_plan? (by decide) hplan horder loneStore {} (by decide +kernel)
  exact ⟨_, object, hplan, by decide +kernel, hcall, by decide +kernel⟩

end Engine

end ModelSurface
