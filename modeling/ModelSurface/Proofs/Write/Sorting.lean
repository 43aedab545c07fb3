import ModelSurface.Write.Plan

/-!
# The order of a plan

The order in which a plan is written has all of its records, each behind those that it refers to by
a single reference.
-/

namespace ModelSurface.Plan

/-- Each node stands behind all nodes that it refers to. -/
def Sorted (next : Nat → List Nat) (order : List Nat) : Prop :=
  ∀ before node, before ++ [node] <+: order → ∀ other ∈ next node, other ∈ before

/-- What is done when some nodes have been visited. `free` are the nodes that may be visited. -/
structure Visited (next : Nat → List Nat) (free done nodes done' : List Nat) : Prop where
  sorted : Sorted next done'
  grows : done <+: done'
  reached : ∀ node ∈ nodes, node ∈ done'
  within : ∀ node ∈ done', node ∈ done ∨ node ∈ free
  nodup : free.Nodup → done.Nodup → done'.Nodup

variable {next : Nat → List Nat}

theorem sorted_nil : Sorted next [] := by
  intro before node hprefix
  have hempty := List.prefix_nil.mp hprefix
  exact absurd hempty (List.append_ne_nil_of_right_ne_nil _ (List.cons_ne_nil _ _))

theorem Sorted.snoc {done : List Nat} (h : Sorted next done) {node : Nat}
    (hnode : ∀ other ∈ next node, other ∈ done) : Sorted next (done ++ [node]) := by
  intro before last hprefix
  rcases List.prefix_concat_iff.mp hprefix with heq | hold
  · obtain ⟨rfl, hlast⟩ := List.append_inj' heq rfl
    rw [List.singleton_inj.mp hlast]
    exact hnode
  · exact h before last hold

mutual

theorem visit_visited {free path done done' : List Nat} {node : Nat} (hsorted : Sorted next done)
    (h : visit next free path done node = .ok done') : Visited next free done [node] done' := by
  unfold visit at h
  split at h
  · rename_i hdone
    obtain rfl := Except.ok.inj h
    refine ⟨hsorted, List.prefix_rfl, ?_, fun _ hmem => .inl hmem, fun _ hnodup => hnodup⟩
    intro other hother
    rw [List.mem_singleton.mp hother]
    exact List.contains_iff_mem.mp hdone
  · rename_i hnew
    rw [List.contains_iff_mem] at hnew
    split at h
    · rename_i hfree
      have hshorter : (free.erase node).length < free.length := by
        have hlength := List.length_erase_of_mem hfree
        have hpos := List.length_pos_of_mem hfree
        omega
      cases hbehind : visitAll next (free.erase node) (node :: path) done (next node) with
      | error cycle =>
          rw [hbehind] at h
          cases h
      | ok reached =>
          rw [hbehind] at h
          obtain rfl := Except.ok.inj h
          have hvisited := visitAll_visited hsorted hbehind
          refine ⟨hvisited.sorted.snoc hvisited.reached,
            hvisited.grows.trans (List.prefix_append _ _), ?_, ?_, ?_⟩
          · intro other hother
            exact List.mem_append_right _ hother
          · intro other hother
            rcases List.mem_append.mp hother with hreached | hlast
            · exact (hvisited.within other hreached).imp id List.mem_of_mem_erase
            · rw [List.mem_singleton.mp hlast]
              exact .inr hfree
          · intro hnodup hdone
            -- while a node is on the path, it is not free, so that nothing behind it leads to it
            have hopen : node ∉ reached := fun hmem =>
              (hvisited.within node hmem).elim hnew hnodup.not_mem_erase
            refine List.nodup_append.mpr
              ⟨hvisited.nodup (hnodup.erase node) hdone, List.pairwise_singleton _ _, ?_⟩
            rintro other hother last hlast rfl
            exact hopen (List.mem_singleton.mp hlast ▸ hother)
    · cases h
termination_by (free.length, 0)

theorem visitAll_visited {free path done done' : List Nat} {nodes : List Nat}
    (hsorted : Sorted next done) (h : visitAll next free path done nodes = .ok done') :
    Visited next free done nodes done' := by
  cases nodes with
  | nil =>
      unfold visitAll at h
      obtain rfl := Except.ok.inj h
      exact ⟨hsorted, List.prefix_rfl, fun _ hmem => absurd hmem List.not_mem_nil,
        fun _ hmem => .inl hmem, fun _ hnodup => hnodup⟩
  | cons node nodes =>
      unfold visitAll at h
      cases hfirst : visit next free path done node with
      | error cycle =>
          rw [hfirst] at h
          cases h
      | ok reached =>
          rw [hfirst] at h
          have hnode := visit_visited hsorted hfirst
          have hrest := visitAll_visited hnode.sorted h
          refine ⟨hrest.sorted, hnode.grows.trans hrest.grows, ?_, ?_,
            fun hfree hdone => hrest.nodup hfree (hnode.nodup hfree hdone)⟩
          · refine List.forall_mem_cons.mpr ⟨?_, hrest.reached⟩
            exact hrest.grows.subset (hnode.reached node List.mem_cons_self)
          · intro other hother
            rcases hrest.within other hother with hreached | hfree
            · exact hnode.within other hreached
            · exact .inr hfree
termination_by (free.length, nodes.length + 1)

end

/-- An order of a plan has exactly its nodes, and each behind those that it refers to. -/
theorem order_spec {plan : Plan} {order : List Nat} (h : plan.order = .ok order) :
    Sorted plan.references order ∧ ∀ index, index ∈ order ↔ index < plan.nodes.length := by
  unfold Plan.order at h
  have hvisited := visitAll_visited sorted_nil h
  refine ⟨hvisited.sorted, fun index => ⟨?_, ?_⟩⟩
  · intro hmem
    exact List.mem_range.mp ((hvisited.within index hmem).resolve_left List.not_mem_nil)
  · intro hindex
    exact hvisited.reached index (List.mem_range.mpr hindex)

/-- An order of a plan has each of its nodes once. -/
theorem order_nodup {plan : Plan} {order : List Nat} (h : plan.order = .ok order) :
    order.Nodup := by
  unfold Plan.order at h
  exact (visitAll_visited sorted_nil h).nodup List.nodup_range .nil

/-- The next one of an order is none of those that are done. -/
theorem not_mem_done {plan : Plan} {order done : List Nat} (h : plan.order = .ok order)
    {index : Nat} (hpart : done ++ [index] <+: order) : index ∉ done := by
  have hdone := (order_nodup h).sublist hpart.sublist
  exact fun hmem => (List.nodup_append.mp hdone).2.2 _ hmem _ List.mem_cons_self rfl

theorem mem_references {plan : Plan} {index other : Nat} : other ∈ plan.references index ↔
    ∃ link ∈ plan.links, link.many = false ∧ link.holder = .node index ∧
      link.value = some (.node other) := by
  unfold references
  rw [List.mem_filterMap]
  refine exists_congr fun link => and_congr_right fun _ => ?_
  by_cases hheld : (!link.many && link.holder == .node index) = true
  · rw [if_pos hheld]
    obtain ⟨hsingle, hholder⟩ := Bool.and_eq_true_iff.mp hheld
    rw [Bool.not_eq_true'] at hsingle
    rw [beq_iff_eq] at hholder
    rw [Option.bind_eq_some_iff]
    constructor
    · rintro ⟨target, htarget, hnode⟩
      cases target with
      | node found =>
          obtain rfl := Option.some.inj hnode
          exact ⟨hsingle, hholder, htarget⟩
      | stored id => cases hnode
    · rintro ⟨-, -, hvalue⟩
      exact ⟨_, hvalue, rfl⟩
  · rw [if_neg hheld]
    refine iff_of_false (Option.some_ne_none other).symm ?_
    rintro ⟨hsingle, hholder, -⟩
    apply hheld
    rw [hsingle, hholder]
    simp

end ModelSurface.Plan
