import ModelSurface.Proofs.Write.Circles

/-!
# Plans that can be put in order

The search for an order takes each planned object once. It ends with all of them, each behind those
that it refers to, unless it comes back to an object that is still on its path: the path from there
on is a cycle of references, and since a path has no object twice, nothing but its ends repeats.
-/

namespace ModelSurface.Plan

open Relation (TransGen)

/-! ### Cycles repeat nothing -/

section Visiting

variable {next : Nat → List Nat}

/-- A path that has no node twice leads back to one of its nodes without a repetition. -/
theorem nodup_back {path : List Nat} (hpath : path.Nodup) (node : Nat) :
    ((path.takeWhile (· ≠ node)).reverse ++ [node]).Nodup := by
  refine List.nodup_append.mpr ⟨?_, List.pairwise_singleton _ _, ?_⟩
  · exact List.nodup_reverse.mpr (hpath.sublist (List.takeWhile_sublist _))
  · rintro other hother last hlast rfl
    have hdiffers := List.all_eq_true.mp List.all_takeWhile other (List.mem_reverse.mp hother)
    exact absurd (List.mem_singleton.mp hlast) (of_decide_eq_true hdiffers)

mutual

theorem nodup_of_visit {free path done stops : List Nat} {node : Nat} (hfree : free.Nodup)
    (hpath : path.Nodup) (hapart : path.Disjoint free)
    (h : visit next free path done node = .error stops) : stops.tail.Nodup := by
  unfold visit at h
  split at h
  · cases h
  · split at h
    · rename_i hnode
      have hshorter : (free.erase node).length < free.length := by
        have hlength := List.length_erase_of_mem hnode
        have hpos := List.length_pos_of_mem hnode
        omega
      cases hbehind : visitAll next (free.erase node) (node :: path) done (next node) with
      | ok reached =>
          rw [hbehind] at h
          cases h
      | error found =>
          rw [hbehind] at h
          obtain rfl := Except.error.inj h
          -- the node moves from those that are free to the path
          refine nodup_of_visitAll (hfree.erase node) ?_ ?_ hbehind
          · exact List.nodup_cons.mpr ⟨fun hmem => hapart hmem hnode, hpath⟩
          · refine List.disjoint_cons_left.mpr ⟨hfree.not_mem_erase, ?_⟩
            exact fun other hother hleft => hapart hother (List.mem_of_mem_erase hleft)
    · rw [← Except.error.inj h]
      exact nodup_back hpath node
termination_by (free.length, 0)

theorem nodup_of_visitAll {free path done stops nodes : List Nat} (hfree : free.Nodup)
    (hpath : path.Nodup) (hapart : path.Disjoint free)
    (h : visitAll next free path done nodes = .error stops) : stops.tail.Nodup := by
  cases nodes with
  | nil =>
      unfold visitAll at h
      cases h
  | cons node nodes =>
      unfold visitAll at h
      cases hfirst : visit next free path done node with
      | error found =>
          rw [hfirst] at h
          obtain rfl := Except.error.inj h
          exact nodup_of_visit hfree hpath hapart hfirst
      | ok reached =>
          rw [hfirst] at h
          exact nodup_of_visitAll hfree hpath hapart h
termination_by (free.length, nodes.length + 1)

end

end Visiting

/-! ### Orders and cycles of plans -/

variable {plan : Plan} {order stops : List Nat}

/-- No object of a plan refers to itself, directly or through others. -/
def Acyclic (plan : Plan) : Prop := ∀ index, ¬ TransGen plan.Refers index index

/-- An order in which a plan can be written: it has each planned object once, and behind all those
that the object refers to. -/
structure IsOrder (plan : Plan) (order : List Nat) : Prop where
  once : order.Perm (List.range plan.nodes.length)
  behind : ∀ before index after, order = before ++ index :: after →
    ∀ other, plan.Refers index other → other ∈ before

/-- A cycle of a plan: each stop refers to the next one, the last stop is the first one again, and
no other stop repeats. -/
structure IsCycle (plan : Plan) (stops : List Nat) : Prop where
  chain : stops.IsChain plan.Refers
  closed : ∃ index between, stops = index :: (between ++ [index])
  simple : stops.tail.Nodup

/-- A violation tells of a cycle: by the model and the place of each of its stops, in their order,
with the place of the first one as its own. -/
def Tells (plan : Plan) (violation : Violation) (stops : List Nat) : Prop :=
  ∃ first others, stops.map (plan.nodes[·]?) = (first :: others).map some ∧
    violation.cause = .circular ((first :: others).map fun node => ⟨node.model.name, node.path⟩) ∧
    violation.field = if first.path.isEmpty then none else some first.path

theorem isOrder_of_order (h : plan.order = .ok order) : plan.IsOrder order := by
  obtain ⟨hsorted, hnodes⟩ := order_spec h
  refine ⟨?_, ?_⟩
  · refine (List.perm_ext_iff_of_nodup (order_nodup h) List.nodup_range).mpr fun index => ?_
    rw [hnodes, List.mem_range]
  · rintro before index after rfl other hrefers
    exact hsorted before index ⟨after, by simp⟩ other hrefers

theorem isCycle_of_order (hclosed : plan.Closed) (h : plan.order = .error stops) :
    plan.IsCycle stops := by
  obtain ⟨hchain, hends⟩ := isCircle_of_order hclosed h
  refine ⟨hchain, hends, ?_⟩
  unfold Plan.order at h
  exact nodup_of_visitAll List.nodup_range .nil (List.disjoint_nil_left _) h

theorem planned_of_isChain (hclosed : plan.Closed) {index : Nat} {rest : List Nat}
    (hrest : rest ≠ []) (h : (index :: rest).IsChain plan.Refers) :
    ∀ stop ∈ index :: rest, stop < plan.nodes.length := by
  induction rest generalizing index with
  | nil => exact absurd rfl hrest
  | cons other rest ih =>
      obtain ⟨hrefers, hbehind⟩ := List.isChain_cons_cons.mp h
      obtain ⟨hindex, hother⟩ := hclosed index other hrefers
      refine List.forall_mem_cons.mpr ⟨hindex, ?_⟩
      by_cases hlast : rest = []
      · rw [hlast]
        exact List.forall_mem_singleton.mpr hother
      · exact ih hlast hbehind

theorem exists_nodes_of_lt (h : ∀ stop ∈ stops, stop < plan.nodes.length) :
    ∃ nodes : List PlanNode, stops.map (plan.nodes[·]?) = nodes.map some := by
  refine ⟨stops.map fun stop => plan.nodes[stop]?.getD default, ?_⟩
  rw [List.map_map]
  refine List.map_congr_left fun stop hstop => ?_
  rw [Function.comp_apply, List.getElem?_eq_getElem (h stop hstop), Option.getD_some]

theorem filterMap_nodes {α : Type} {nodes : List PlanNode}
    (h : stops.map (plan.nodes[·]?) = nodes.map some) (f : PlanNode → α) :
    (stops.filterMap fun stop => plan.nodes[stop]?.map f) = nodes.map f := by
  calc (stops.filterMap fun stop => plan.nodes[stop]?.map f)
      = (stops.map (plan.nodes[·]?)).filterMap (Option.map f) := by rw [List.filterMap_map]; rfl
    _ = (nodes.map some).filterMap (Option.map f) := by rw [h]
    _ = nodes.map f := by
        rw [List.filterMap_map, ← List.filterMap_eq_map]
        rfl

/-- The violation for a cycle tells of it. -/
theorem IsCycle.tells (hclosed : plan.Closed) (h : plan.IsCycle stops) :
    plan.Tells (plan.cycleViolation stops) stops := by
  obtain ⟨hchain, ⟨start, between, rfl⟩, -⟩ := h
  obtain ⟨nodes, hnodes⟩ := exists_nodes_of_lt (planned_of_isChain hclosed (by simp) hchain)
  cases nodes with
  | nil => cases hnodes
  | cons first others =>
      refine ⟨first, others, hnodes, ?_⟩
      unfold cycleViolation
      rw [filterMap_nodes hnodes]
      refine ⟨rfl, ?_⟩
      change Option.filter (fun path => !path.isEmpty) (some first.path) = _
      rw [Option.filter_some]
      cases first.path.isEmpty <;> rfl

/-- A plan whose references are to planned objects has an order exactly if they have no cycle. The
order has each object once, behind all those that it refers to; and if there is none, a cycle is
found and told of. -/
theorem order_topological (hclosed : plan.Closed) :
    ((∃ order, plan.order = .ok order) ↔ plan.Acyclic) ∧
      (∀ order, plan.order = .ok order → plan.IsOrder order) ∧
      (¬ plan.Acyclic → ∃ stops, plan.order = .error stops) ∧
      ∀ stops, plan.order = .error stops →
        plan.IsCycle stops ∧ plan.Tells (plan.cycleViolation stops) stops := by
  have hfails : (∃ stops, plan.order = .error stops) ↔ ¬ plan.Acyclic := by
    rw [order_error_iff hclosed]
    unfold Acyclic
    push Not
    rfl
  refine ⟨?_, fun order => isOrder_of_order, hfails.mpr, ?_⟩
  · constructor
    · rintro ⟨order, horder⟩
      exact not_circular_of_order hclosed horder
    · intro hacyclic
      cases horder : plan.order with
      | ok order => exact ⟨order, rfl⟩
      | error stops => exact absurd hacyclic (hfails.mp ⟨stops, horder⟩)
  · intro stops hstops
    have hcycle := isCycle_of_order hclosed hstops
    exact ⟨hcycle, hcycle.tells hclosed⟩

/-- Three objects to create. The first one refers to the second one, which refers to the third one
and back to the first one. -/
def knotPlan : Plan where
  nodes := ["", "left", "left.right"].map fun path => ⟨default, .create, .empty, path⟩
  links := [(0, 1), (1, 2), (1, 0)].map fun (holder, value) =>
    ⟨.node holder, default, "next", some (.node value), default, false, ""⟩

theorem order_topological_knot : knotPlan.Closed ∧ ∃ stops, knotPlan.order = .error stops ∧
    knotPlan.IsCycle stops ∧ knotPlan.Tells (knotPlan.cycleViolation stops) stops := by
  have hclosed : knotPlan.Closed := by
    have hlinks : ∀ link ∈ knotPlan.links, ∀ index ∈ link.holder.node?,
        ∀ target ∈ link.value, ∀ other ∈ target.node?,
          index < knotPlan.nodes.length ∧ other < knotPlan.nodes.length := by decide
    intro index other hrefers
    obtain ⟨link, hlink, -, hholder, hvalue⟩ := refers_iff.mp hrefers
    exact hlinks link hlink index (by rw [hholder]; rfl) _ hvalue other rfl
  have hforth : knotPlan.Refers 0 1 := by unfold Refers; decide
  have hback : knotPlan.Refers 1 0 := by unfold Refers; decide
  have hcircle : ¬ knotPlan.Acyclic := fun h => h 0 (.head hforth (.single hback))
  obtain ⟨-, -, hfails, hcycle⟩ := order_topological hclosed
  obtain ⟨stops, hstops⟩ := hfails hcircle
  exact ⟨hclosed, stops, hstops, hcycle stops hstops⟩

end ModelSurface.Plan
