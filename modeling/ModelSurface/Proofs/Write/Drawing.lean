import ModelSurface.Proofs.Engine.Work
import ModelSurface.Proofs.Linked
import ModelSurface.Write.Apply

/-!
# Drawing values

The values that no input gives are drawn: defaults, instants, identifiers and numbers of sequences.
Drawing changes no record, so that what is drawn for one field bears on no other.
-/

namespace ModelSurface

/-! ### Drawing values -/

/-- Values are drawn: all records stay, and neither a sequence nor the count of draws goes back. -/
structure Work.Draws (before after : Work) : Prop where
  records : before.tables.SameRecords after.tables
  sequences : ∀ name, (before.tables.sequences.get? name).getD 0 ≤
    (after.tables.sequences.get? name).getD 0
  drawn : before.drawn ≤ after.drawn

theorem Work.Draws.refl (work : Work) : work.Draws work :=
  ⟨fun _ _ => rfl, fun _ => Int.le_refl _, Nat.le_refl _⟩

theorem Work.Draws.trans {before between after : Work} (h : before.Draws between)
    (h' : between.Draws after) : before.Draws after where
  records := h.records.trans h'.records
  sequences name := Int.le_trans (h.sequences name) (h'.sequences name)
  drawn := Nat.le_trans h.drawn h'.drawn

namespace Tables

theorem get?_sequences_next (tables : Tables) (sequence name : String) :
    ((tables.next sequence).2.sequences.get? name).getD 0 =
      if name = sequence then (tables.next sequence).1
      else (tables.sequences.get? name).getD 0 := by
  unfold next
  dsimp only
  rw [Keyed.get?_put]
  split <;> rfl

theorem next_fst (tables : Tables) (sequence : String) :
    (tables.next sequence).1 = (tables.sequences.get? sequence).getD 0 + 1 := rfl

end Tables

namespace Field

/-- What a generator gives for a field, by the kind of the field. -/
inductive Generates (sources : Sources) (model : String) (field : Field) (before after : Work) :
    Generator → Value → Prop
  | instant (h : field.kind = .datetime) :
      Generates sources model field before after .now (.instant (sources.instant before.drawn))
  | time (h : field.kind = .time) :
      Generates sources model field before after .now (.time (sources.instant before.drawn).time)
  | date (h : field.kind = .date) :
      Generates sources model field before after .today
        (.date (sources.instant before.drawn).date)
  | uuid (h : field.kind = .uuid) :
      Generates sources model field before after .uuid (.uuid (sources.uuid before.drawn))
  | text (h : field.kind = .string) :
      Generates sources model field before after .uuid (.str (sources.uuid before.drawn).text)
  | number (h : field.kind = .integer)
      (hnext : after.tables = (before.tables.next (field.sequence model)).2) :
      Generates sources model field before after .sequence
        (.int (before.tables.next (field.sequence model)).1)

/-- The value with which a field of a new record starts: what its generator gives, else what the
caller gives, else its default, else null. -/
def Starts (field : Field) (sources : Sources) (node : PlanNode) (before after : Work)
    (value : Value) : Prop :=
  match field.computed with
  | some computed =>
    before.drawn < after.drawn ∧
      field.Generates sources node.model.name before after computed.generator value
  | none => value = ((node.values.get? field.name).or field.default).getD .null

theorem generate_yields {start : Work} (sources : Sources) (model : String) (field : Field)
    (generator : Generator) :
    Writing.Yields (field.generate sources model generator) start fun value stop =>
      start.Draws stop ∧ start.drawn < stop.drawn ∧
        field.Generates sources model start stop generator value := by
  unfold generate
  refine .bind (fun drawn between => drawn = start.drawn ∧
    between = { start with drawn := start.drawn + 1 }) (.draw ⟨rfl, rfl⟩) ?_
  rintro _ _ ⟨rfl, rfl⟩
  have hdraws : start.Draws { start with drawn := start.drawn + 1 } :=
    ⟨fun _ _ => rfl, fun _ => Int.le_refl _, Nat.le_succ _⟩
  have hlt : start.drawn < start.drawn + 1 := Nat.lt_succ_self _
  split
  case h_1 hkind => exact .pure ⟨hdraws, hlt, .instant hkind⟩
  case h_2 hkind => exact .pure ⟨hdraws, hlt, .time hkind⟩
  case h_3 hkind => exact .pure ⟨hdraws, hlt, .date hkind⟩
  case h_4 hkind => exact .pure ⟨hdraws, hlt, .uuid hkind⟩
  case h_5 hkind => exact .pure ⟨hdraws, hlt, .text hkind⟩
  case h_6 hkind =>
      refine .bind (fun number after => number = (start.tables.next (field.sequence model)).1 ∧
        start.drawn < after.drawn ∧ after.tables = (start.tables.next (field.sequence model)).2)
        (.next (fun _ => trivial) ⟨rfl, hlt, rfl⟩) ?_
      rintro _ after ⟨rfl, hafter, htables⟩
      refine .pure ⟨⟨?_, ?_, Nat.le_of_lt hafter⟩, hafter, .number hkind htables⟩
      · intro name id
        rw [htables]
        rfl
      · intro name
        rw [htables, Tables.get?_sequences_next]
        split
        · rename_i hname
          rw [hname, Tables.next_fst]
          omega
        · exact Int.le_refl _
  case h_7 => exact .breach trivial

end Field

namespace Plan

open Writing (Yields)

variable {start stop : Work} {plan : Plan} {written : Written}

theorem initialValue_yields (sources : Sources) (node : PlanNode) (field : Field) :
    Yields (initialValue sources node field) start fun value stop =>
      start.Draws stop ∧ field.Starts sources node start stop value := by
  unfold initialValue Field.Starts
  cases field.computed with
  | some computed => exact field.generate_yields sources node.model.name computed.generator
  | none => exact .pure ⟨.refl start, rfl⟩

/-! ### Putting drawn values into a record -/

/-- A record into which a value is put for each of some items, one after another. -/
structure Puts {α : Type} (items : List α) (name : α → String) (value : α → Writing Value)
    (start : Work) (before after : Record) (stop : Work) : Prop where
  draws : start.Draws stop
  others : ∀ key, key ∉ items.map name → after.get? key = before.get? key
  values : ∀ item ∈ items, ∃ found earlier later, after.get? (name item) = some found ∧
    start.Draws earlier ∧ value item earlier = .ok found later ∧ later.Draws stop
  kept : (∀ item ∈ items, name item ∈ before.keys) → after.keys = before.keys
  added : (before.keys ++ items.map name).Nodup → after.keys = before.keys ++ items.map name

/-- A loop that puts drawn values into a record, each under a name of its own. -/
theorem putEach_yields {α : Type} {items : List α} {name : α → String}
    {value : α → Writing Value} (hdistinct : (items.map name).Nodup)
    (hdraws : ∀ item work, Yields (value item) work fun _ stop => work.Draws stop)
    (record : Record) :
    Yields (items.foldlM (fun record item => do
        pure (Keyed.put record (name item) (← value item))) record) start
      (Puts items name value start record) := by
  refine .foldlM (fun done after between => Puts done name value start record after between) ?_ ?_
  · refine ⟨.refl start, fun _ _ => rfl, fun _ h => absurd h List.not_mem_nil, fun _ => rfl, ?_⟩
    exact fun _ => (List.append_nil _).symm
  · intro done item after between hpart h
    have hnew : name item ∉ done.map name := by
      have hnodup := hdistinct.sublist (hpart.sublist.map name)
      rw [List.map_append] at hnodup
      intro hmem
      exact (List.nodup_append.mp hnodup).2.2 _ hmem _ List.mem_cons_self rfl
    refine .bind (fun found stop => between.Draws stop ∧ value item between = .ok found stop)
      (.intro (fun found stop hrun => ⟨(hdraws item between).ok hrun, hrun⟩)
        fun _ _ _ => trivial) ?_
    rintro found stop ⟨hstop, hrun⟩
    refine .pure ⟨h.draws.trans hstop, ?_, ?_, ?_, ?_⟩
    · intro key hkey
      rw [List.map_append, List.mem_append, not_or] at hkey
      have hne : key ≠ name item := fun heq => hkey.2 (heq ▸ List.mem_cons_self)
      rw [Keyed.get?_put_of_ne _ _ hne, h.others key hkey.1]
    · intro other hother
      rcases List.mem_append.mp hother with hold | hlast
      · obtain ⟨given, earlier, later, hgiven, hearlier, hvalue, hlater⟩ := h.values other hold
        have hne : name other ≠ name item := fun heq =>
          hnew (heq ▸ List.mem_map.mpr ⟨other, hold, rfl⟩)
        refine ⟨given, earlier, later, ?_, hearlier, hvalue, hlater.trans hstop⟩
        rw [Keyed.get?_put_of_ne _ _ hne, hgiven]
      · rw [List.mem_singleton.mp hlast]
        exact ⟨found, between, stop, Keyed.get?_put_self _ _ _, h.draws, hrun, .refl stop⟩
    · intro hkept
      have hkeys := h.kept fun other hother => hkept other (List.mem_append_left _ hother)
      have hmem := hkept item (List.mem_append_right _ (List.mem_singleton.mpr rfl))
      rw [← hkeys] at hmem
      rw [Keyed.keys_put_of_mem _ hmem, hkeys]
    · intro hnodup
      rw [List.map_append, ← List.append_assoc] at hnodup ⊢
      have hkeys := h.added (List.nodup_append.mp hnodup).1
      have hfresh : name item ∉ after.keys := by
        rw [hkeys]
        intro hmem
        exact (List.nodup_append.mp hnodup).2.2 _ hmem _ List.mem_cons_self rfl
      rw [Keyed.keys_put_of_new _ hfresh, hkeys]
      rfl

/-- The values of all fields of a new record. -/
def fill (sources : Sources) (node : PlanNode) : Writing Record :=
  node.model.fields.values.foldlM (fun (record : Record) field => do
    pure (record.put field.name (← initialValue sources node field))) .empty

/-- The values of the fields that are assigned anew whenever a record is saved. -/
def refresh (sources : Sources) (model : Model) (record : Record) : Writing Record :=
  (onSave model).foldlM (fun (record : Record) (field, generator) => do
    pure (record.put field.name (← field.generate sources model.name generator))) record

theorem fill_yields (sources : Sources) {node : PlanNode} (hmodel : node.model.Sound) :
    Yields (fill sources node) start (Puts node.model.fields.values Field.name
      (initialValue sources node) start .empty) :=
  putEach_yields hmodel.fields_named.nodup_names
    (fun field _ => (initialValue_yields sources node field).mono fun _ _ h => h.1) .empty

theorem mem_onSave {model : Model} {entry : Field × Generator} : entry ∈ onSave model ↔
    entry.1 ∈ model.fields.values ∧ entry.1.computed = some ⟨.save, entry.2⟩ := by
  obtain ⟨field, generator⟩ := entry
  unfold onSave
  rw [List.mem_filterMap]
  constructor
  · rintro ⟨found, hfound, hsave⟩
    obtain ⟨computed, hcomputed, hmoment⟩ := Option.bind_eq_some_iff.mp hsave
    split at hmoment
    · rename_i hsaved
      obtain ⟨rfl, rfl⟩ := Prod.mk.inj (Option.some.inj hmoment)
      refine ⟨hfound, ?_⟩
      rw [hcomputed, ← hsaved]
    · cases hmoment
  · rintro ⟨hfield, hcomputed⟩
    exact ⟨field, hfield, by rw [hcomputed]; rfl⟩

theorem nodup_onSave {model : Model} (hmodel : model.Sound) :
    ((onSave model).map fun entry => entry.1.name).Nodup := by
  have hnames := List.pairwise_map.mp hmodel.fields_named.nodup_names
  refine List.pairwise_map.mpr (List.Pairwise.filterMap _ ?_ hnames)
  intro field other hne entry hentry found hfound
  obtain ⟨_, -, hsave⟩ := Option.bind_eq_some_iff.mp hentry
  obtain ⟨_, -, hother⟩ := Option.bind_eq_some_iff.mp hfound
  split at hsave <;> cases hsave
  split at hother <;> cases hother
  exact hne

theorem refresh_yields (sources : Sources) {model : Model} (hmodel : model.Sound)
    (record : Record) :
    Yields (refresh sources model record) start (Puts (onSave model) (fun entry => entry.1.name)
      (fun entry => entry.1.generate sources model.name entry.2) start record) :=
  putEach_yields (nodup_onSave hmodel)
    (fun entry _ => (entry.1.generate_yields sources model.name entry.2).mono fun _ _ h => h.1)
    record

end Plan

end ModelSurface
