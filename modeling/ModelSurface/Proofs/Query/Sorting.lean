import Mathlib.Data.List.Nodup
import ModelSurface.Proofs.Engine.Call
import ModelSurface.Proofs.Query.Slices
import ModelSurface.Proofs.Scalar.Measures

/-!
# Sorting

Records with identities of their own that are sorted by keys come in one order only: by the first
key, where it leaves them equal by the next one, and in the end by their identities. So the order in
which they were stored has no part in the result.
-/

namespace ModelSurface

/-- Integers come before universally unique identifiers. -/
def Identity.measure : Identity → List ℤ
  | .int i => [0, i]
  | .uuid u => [1, u.value]

namespace Identity

theorem compares_measure (a b : Identity) : (a.compare b).Compares a.measure b.measure := by
  have hself : ∀ i : ℤ, Ordering.eq.Compares i i := fun _ => rfl
  cases a with
  | int i =>
      cases b with
      | int j => exact compares_cons (hself 0) (compares_singleton (compares_int i j))
      | uuid _ => exact List.Lex.rel Int.zero_lt_one
  | uuid u =>
      cases b with
      | int _ => exact List.Lex.rel Int.zero_lt_one
      | uuid v => exact compares_cons (hself 1) (compares_singleton (compares_nat u.value v.value))

theorem measure_injective {a b : Identity} (h : a.measure = b.measure) : a = b :=
  Std.LawfulEqCmp.eq_of_compare ((compares_measure a b).eq_eq.mpr h)

end Identity

/-! ### The order of records -/

namespace Record

/-- What a record is sorted by under a field; one that it does not have is null. -/
def measure (record : Record) (field : String) : WithBot (List ℤ) :=
  ((record.get? field).getD .null).measure

/-- What a record is sorted by in the end. -/
def rank (identity : String) (record : Record) : WithBot (List ℤ) :=
  (Record.identity? record identity).elim ⊥ fun id => id.measure

/-- A record comes before another one by a key: null comes first where the order is ascending and
last where it is descending. -/
def Ahead (key : OrderKey) (a b : Record) : Prop :=
  match key.direction with
  | .ascending => a.measure key.field < b.measure key.field
  | .descending => b.measure key.field < a.measure key.field

/-- A record comes before another one: by the first key that tells them apart, or by its
identity. -/
def Precedes (identity : String) : List OrderKey → Record → Record → Prop
  | [], a, b => a.rank identity < b.rank identity
  | key :: keys, a, b => Ahead key a b ∨
      a.measure key.field = b.measure key.field ∧ Precedes identity keys a b

/-- Records that can be sorted by some keys: each has an identity of its own, and what they hold
under a key is null or of one kind that can be sorted by. -/
structure Sortable (identity : String) (keys : List OrderKey) (records : List Record) : Prop where
  distinct : (records.map fun record => Record.identity? record identity).Nodup
  kinds : ∀ key ∈ keys, ∃ kind : Kind, kind.isSortable = true ∧ ∀ record ∈ records,
    ((record.get? key.field).getD .null).fits kind false = true

variable {identity : String} {keys : List OrderKey} {records others : List Record}
  {a b c : Record}

theorem Ahead.trans {key : OrderKey} (h : Ahead key a b) (h' : Ahead key b c) : Ahead key a c := by
  unfold Ahead at *
  cases hdirection : key.direction <;> rw [hdirection] at h h'
  · exact lt_trans h h'
  · exact lt_trans h' h

theorem Ahead.irrefl {key : OrderKey} : ¬ Ahead key a a := by
  unfold Ahead
  split <;> exact lt_irrefl _

theorem Ahead.total {key : OrderKey} (h : a.measure key.field ≠ b.measure key.field) :
    Ahead key a b ∨ Ahead key b a := by
  unfold Ahead
  cases key.direction with
  | ascending => exact lt_or_gt_of_ne h
  | descending => exact (lt_or_gt_of_ne h).symm

theorem Ahead.congr {key : OrderKey} {a' b' : Record} (h : Ahead key a b)
    (ha : a.measure key.field = a'.measure key.field)
    (hb : b.measure key.field = b'.measure key.field) : Ahead key a' b' := by
  unfold Ahead at *
  rwa [← ha, ← hb]

theorem Precedes.trans (h : Precedes identity keys a b) (h' : Precedes identity keys b c) :
    Precedes identity keys a c := by
  induction keys with
  | nil => exact lt_trans h h'
  | cons key keys ih =>
      rcases h with hfirst | ⟨hsame, hrest⟩
      · rcases h' with hfirst' | ⟨hsame', -⟩
        · exact .inl (hfirst.trans hfirst')
        · exact .inl (hfirst.congr rfl hsame')
      · rcases h' with hfirst' | ⟨hsame', hrest'⟩
        · exact .inl (hfirst'.congr hsame.symm rfl)
        · exact .inr ⟨hsame.trans hsame', ih hrest hrest'⟩

theorem Precedes.asymm (h : Precedes identity keys a b) : ¬ Precedes identity keys b a := by
  suffices hirrefl : ¬ Precedes identity keys a a from fun h' => hirrefl (h.trans h')
  clear h
  induction keys with
  | nil => exact lt_irrefl _
  | cons key keys ih =>
      rintro (hfirst | ⟨-, hrest⟩)
      · exact hfirst.irrefl
      · exact ih hrest

/-- One of two records comes before the other if they do not have the same identity. -/
theorem Precedes.total (keys : List OrderKey) (h : a.rank identity ≠ b.rank identity) :
    Precedes identity keys a b ∨ Precedes identity keys b a := by
  induction keys with
  | nil => exact lt_or_gt_of_ne h
  | cons key keys ih =>
      by_cases hsame : a.measure key.field = b.measure key.field
      · exact ih.imp (fun hbefore => .inr ⟨hsame, hbefore⟩)
          fun hbehind => .inr ⟨hsame.symm, hbehind⟩
      · exact (Ahead.total hsame).imp .inl .inl

/-! ### Comparisons of records -/

theorem compares_rank (identity : String) (a b : Record) :
    (compareIdentity identity a b).Compares (a.rank identity) (b.rank identity) := by
  unfold compareIdentity rank
  cases Record.identity? a identity <;> cases Record.identity? b identity
  · rfl
  · exact WithBot.bot_lt_coe _
  · exact WithBot.bot_lt_coe _
  · exact WithBot.coe_strictMono.compares.mpr (Identity.compares_measure _ _)

namespace Sortable

variable (h : Sortable identity keys records)

include h

theorem compares_key {key : OrderKey} (hkey : key ∈ keys) (ha : a ∈ records) (hb : b ∈ records) :
    (((a.get? key.field).getD .null).sortCompare ((b.get? key.field).getD .null)).Compares
      (a.measure key.field) (b.measure key.field) := by
  obtain ⟨kind, hkind, hfits⟩ := h.kinds key hkey
  exact Value.compares_measure hkind (hfits a ha) (hfits b hb)

theorem compare_key_lt {key : OrderKey} (hkey : key ∈ keys) (ha : a ∈ records)
    (hb : b ∈ records) : key.compare a b = .lt ↔ Ahead key a b := by
  unfold OrderKey.compare Ahead
  cases key.direction with
  | ascending => exact (h.compares_key hkey ha hb).eq_lt
  | descending => exact (h.compares_key hkey hb ha).eq_lt

theorem compare_key_eq {key : OrderKey} (hkey : key ∈ keys) (ha : a ∈ records)
    (hb : b ∈ records) :
    key.compare a b = .eq ↔ a.measure key.field = b.measure key.field := by
  unfold OrderKey.compare
  cases key.direction with
  | ascending => exact (h.compares_key hkey ha hb).eq_eq
  | descending => exact (h.compares_key hkey hb ha).eq_eq.trans eq_comm

theorem tail {key : OrderKey} {rest : List OrderKey} (hkeys : keys = key :: rest) :
    Sortable identity rest records where
  distinct := h.distinct
  kinds other hother := h.kinds other (hkeys ▸ List.mem_cons_of_mem key hother)

/-- The comparison that records are sorted by says which of two of them comes before the other. -/
theorem compareBy_lt (ha : a ∈ records) (hb : b ∈ records) :
    compareBy identity keys a b = .lt ↔ Precedes identity keys a b := by
  induction keys with
  | nil => exact (compares_rank identity a b).eq_lt
  | cons key keys ih =>
      unfold compareBy Precedes
      rw [Ordering.then_eq_lt, h.compare_key_lt List.mem_cons_self ha hb,
        h.compare_key_eq List.mem_cons_self ha hb, ih (h.tail rfl)]

theorem nodup_ranks : (records.map (Record.rank identity)).Nodup := by
  have hinjective : Function.Injective fun id : Option Identity =>
      id.elim (⊥ : WithBot (List ℤ)) fun id => id.measure := by
    rintro (_ | a) (_ | b) hsame
    · rfl
    · exact absurd hsame.symm WithBot.coe_ne_bot
    · exact absurd hsame WithBot.coe_ne_bot
    · exact congrArg some (Identity.measure_injective (WithBot.coe_inj.mp hsame))
  have hranks := List.Nodup.map hinjective h.distinct
  rwa [List.map_map] at hranks

theorem perm (hperm : others.Perm records) : Sortable identity keys others where
  distinct := (hperm.map _).nodup_iff.mpr h.distinct
  kinds key hkey := by
    obtain ⟨kind, hkind, hfits⟩ := h.kinds key hkey
    exact ⟨kind, hkind, fun record hmem => hfits record (hperm.mem_iff.mp hmem)⟩

/-! ### Sorted lists -/

/-- A record is put in its place. -/
theorem pairwise_insertBackwards {record : Record} (hrecord : record ∈ records)
    {sorted : List Record} (hsorted : ∀ other ∈ sorted, other ∈ records)
    (hranks : ∀ other ∈ sorted, record.rank identity ≠ other.rank identity)
    (hpairs : sorted.Pairwise fun a b => Precedes identity keys b a) :
    (insertBackwards identity keys record sorted).Pairwise fun a b =>
      Precedes identity keys b a := by
  induction sorted with
  | nil => exact List.pairwise_singleton _ _
  | cons other rest ih =>
      obtain ⟨hother, hrest⟩ := List.forall_mem_cons.mp hsorted
      obtain ⟨hrank, hranks_rest⟩ := List.forall_mem_cons.mp hranks
      obtain ⟨hbehind, hpairs_rest⟩ := List.pairwise_cons.mp hpairs
      have hcompare := h.compareBy_lt hrecord hother
      unfold insertBackwards
      split
      · rename_i hbefore
        refine List.pairwise_cons.mpr ⟨fun found hfound => ?_, ih hrest hranks_rest hpairs_rest⟩
        have hmem := (perm_insertBackwards identity keys record rest).mem_iff.mp hfound
        rcases List.mem_cons.mp hmem with rfl | hold
        · exact hcompare.mp hbefore
        · exact hbehind found hold
      · rename_i hnot
        have hbefore := (Precedes.total keys hrank).resolve_left (mt hcompare.mpr hnot)
        refine List.pairwise_cons.mpr ⟨fun found hfound => ?_, hpairs⟩
        rcases List.mem_cons.mp hfound with rfl | hold
        · exact hbefore
        · exact (hbehind found hold).trans hbefore

theorem pairwise_sort : (sort identity keys records).Pairwise (Precedes identity keys) := by
  suffices hfold : ∀ rest sorted : List Record, (rest ++ sorted).Perm records →
      (sorted.Pairwise fun a b => Precedes identity keys b a) →
      (rest.foldl (fun sorted record => insertBackwards identity keys record sorted)
        sorted).Pairwise fun a b => Precedes identity keys b a by
    have hall := hfold records [] (by rw [List.append_nil]) .nil
    exact List.pairwise_reverse.mpr hall
  intro rest
  induction rest with
  | nil => exact fun sorted _ hpairs => hpairs
  | cons record rest ih =>
      intro sorted hperm hpairs
      have hranks := (hperm.map (Record.rank identity)).nodup_iff.mpr h.nodup_ranks
      obtain ⟨hnew, -⟩ := List.nodup_cons.mp hranks
      refine ih _ ?_ (h.pairwise_insertBackwards ?_ ?_ ?_ hpairs)
      · have hinsert := perm_insertBackwards identity keys record sorted
        exact ((hinsert.append_left rest).trans List.perm_middle).trans hperm
      · exact hperm.mem_iff.mp List.mem_cons_self
      · intro other hother
        exact hperm.mem_iff.mp (List.mem_cons_of_mem _ (List.mem_append_right _ hother))
      · intro other hother hsame
        exact hnew (List.mem_map.mpr ⟨other, List.mem_append_right _ hother, hsame.symm⟩)

/-- There is only one list of the records in their order. -/
theorem sort_eq (hperm : others.Perm records) :
    sort identity keys others = sort identity keys records := by
  refine List.Perm.eq_of_pairwise (fun a b _ _ hbefore hbehind => absurd hbehind hbefore.asymm)
    (h.perm hperm).pairwise_sort h.pairwise_sort ?_
  exact ((perm_sort identity keys others).trans hperm).trans (perm_sort identity keys records).symm

end Sortable

/-- Sorting is canonical: it gives the records in their order, whatever order they were in, and
sorting once more changes nothing. -/
theorem sort_canonical (h : Sortable identity keys records) :
    (sort identity keys records).Perm records ∧
      (sort identity keys records).Pairwise (Precedes identity keys) ∧
      (∀ others, others.Perm records → sort identity keys others = sort identity keys records) ∧
      sort identity keys (sort identity keys records) = sort identity keys records :=
  ⟨perm_sort identity keys records, h.pairwise_sort, fun _ => h.sort_eq,
    h.sort_eq (perm_sort identity keys records)⟩

/-- The later of two keys that are the same has no say; node 1 leads nowhere and comes last. -/
theorem sort_canonical_nodes :
    let records := [chainNode 1 .null, chainNode 3 (.int 2), chainNode 2 (.int 2)]
    let keys : List OrderKey := [⟨"next", .descending⟩, ⟨"next", .ascending⟩]
    Sortable "id" keys records ∧
      sort "id" keys records.reverse = sort "id" keys records ∧
      (sort "id" keys records).map (Record.identity? · "id") =
        [some (.int 2), some (.int 3), some (.int 1)] := by
  intro records keys
  have hfits : ∀ key ∈ keys, ∀ record ∈ records,
      ((record.get? key.field).getD .null).fits .integer false = true := by decide
  have hsortable : Sortable "id" keys records :=
    ⟨by decide, fun key hkey => ⟨.integer, rfl, hfits key hkey⟩⟩
  exact ⟨hsortable, (sort_canonical hsortable).2.2.1 _ (List.reverse_perm _), by decide⟩

end Record

end ModelSurface
