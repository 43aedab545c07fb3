import ModelSurface.Proofs.Engine.Work

/-!
# Calm work

Work that nothing from outside makes fail: there is time, no writes are made to fail, and the call
is not cancelled. What such work still fails with is its own doing.
-/

namespace ModelSurface

/-- There is time for the work of a transaction, and the call is not cancelled. -/
structure Work.Open (work : Work) : Prop where
  timely : work.transaction.expired = false
  wanted : work.isCancelled = false

/-- Nothing from outside is about to make the work of a transaction fail. -/
structure Work.Calm (work : Work) : Prop where
  timely : work.transaction.expired = false
  willing : work.transaction.failing = []
  wanted : work.isCancelled = false

theorem Work.Calm.opened {work : Work} (h : work.Calm) : work.Open := ⟨h.timely, h.wanted⟩

theorem Work.Open.withTables {work : Work} (h : work.Open) (tables : Tables) :
    (work.withTables tables).Open := ⟨h.timely, h.wanted⟩

theorem Work.Calm.withTables {work : Work} (h : work.Calm) (tables : Tables) :
    (work.withTables tables).Calm := ⟨h.timely, h.willing, h.wanted⟩

namespace Writing

variable {α : Type} {start : Work}

theorem read_of_ok {look : Transaction → Except StorageFault α} {a : α}
    (h : look start.transaction = .ok a) : read look start = .ok a start := by
  unfold read
  rw [h]

theorem change_of_ok {act : Transaction → Except StorageFault (α × Transaction)} {a : α}
    {transaction : Transaction} (h : act start.transaction = .ok (a, transaction)) :
    change act start = .ok a { start with transaction := transaction } := by
  unfold change
  rw [h]

theorem change_of_error {act : Transaction → Except StorageFault (α × Transaction)}
    {fault : StorageFault} (h : act start.transaction = .error fault) :
    change act start = .error (.storage fault) start := by
  unfold change
  rw [h]

end Writing

namespace Work.Open

variable {work : Work} (h : work.Open)

include h

theorem checkTime : work.transaction.checkTime = .ok () := by
  unfold Transaction.checkTime
  rw [h.timely]
  rfl

theorem checkWrite {model : String} (hwilling : work.transaction.failing.contains model = false) :
    work.transaction.checkWrite model = .ok () := by
  unfold Transaction.checkWrite
  rw [h.checkTime, hwilling]
  rfl

theorem run_get? (model : String) (id : Identity) :
    Writing.get? model id work = .ok (work.tables.get? model id) work := by
  have hlook : work.transaction.get? model id = .ok (work.tables.get? model id) := by
    unfold Transaction.get?
    rw [h.checkTime]
    rfl
  exact Writing.read_of_ok hlook

theorem run_scan (model : String) :
    Writing.scan model work = .ok (work.tables.scan model) work := by
  have hlook : work.transaction.scan model = .ok (work.tables.scan model) := by
    unfold Transaction.scan
    rw [h.checkTime]
    rfl
  exact Writing.read_of_ok hlook

theorem run_replace {model : String} {id : Identity} {old : Record}
    (hwilling : work.transaction.failing.contains model = false)
    (hold : work.tables.get? model id = some old) (record : Record) :
    Writing.replace model id record work =
      .ok () (work.withTables (work.tables.put model id record)) := by
  have hact : work.transaction.replace model id record =
      .ok { work.transaction with tables := work.tables.put model id record } := by
    unfold Transaction.replace
    rw [h.checkWrite hwilling, show work.transaction.tables.get? model id = some old from hold]
    rfl
  exact Writing.change_of_ok (congrArg (Except.map fun tx => ((), tx)) hact)

theorem run_checkpoint : Writing.checkpoint work = .ok () work := by
  unfold Writing.checkpoint
  rw [h.wanted]
  rfl

end Work.Open

namespace Work.Calm

variable {work : Work} (h : work.Calm)

include h

theorem checkTime : work.transaction.checkTime = .ok () := h.opened.checkTime

theorem contains_failing (model : String) : work.transaction.failing.contains model = false := by
  rw [h.willing]
  rfl

theorem checkWrite (model : String) : work.transaction.checkWrite model = .ok () :=
  h.opened.checkWrite (h.contains_failing model)

theorem run_get? (model : String) (id : Identity) :
    Writing.get? model id work = .ok (work.tables.get? model id) work := h.opened.run_get? model id

theorem run_scan (model : String) :
    Writing.scan model work = .ok (work.tables.scan model) work := h.opened.run_scan model

theorem run_next (sequence : String) : Writing.next sequence work =
    .ok (work.tables.next sequence).1 (work.withTables (work.tables.next sequence).2) := by
  have hact : work.transaction.next sequence = .ok ((work.tables.next sequence).1,
      { work.transaction with tables := (work.tables.next sequence).2 }) := by
    unfold Transaction.next
    rw [h.checkTime]
    rfl
  exact Writing.change_of_ok hact

theorem run_remove (model : String) (id : Identity) : Writing.remove model id work =
    .ok (work.tables.get? model id) (work.withTables (work.tables.erase model id)) := by
  have hact : work.transaction.remove model id = .ok (work.tables.get? model id,
      { work.transaction with tables := work.tables.erase model id }) := by
    unfold Transaction.remove
    rw [h.checkWrite model]
    rfl
  exact Writing.change_of_ok hact

theorem run_insert {model : String} {id : Identity} (hnew : work.tables.get? model id = none)
    (record : Record) : Writing.insert model id record work =
      .ok () (work.withTables (work.tables.put model id record)) := by
  have hact : work.transaction.insert model id record =
      .ok { work.transaction with tables := work.tables.put model id record } := by
    unfold Transaction.insert
    rw [h.checkWrite model, show work.transaction.tables.get? model id = none from hnew]
    rfl
  exact Writing.change_of_ok (congrArg (Except.map fun tx => ((), tx)) hact)

/-- The identity of a new record is in use. -/
theorem run_insert_of_stored {model : String} {id : Identity} {old : Record}
    (hold : work.tables.get? model id = some old) (record : Record) :
    Writing.insert model id record work = .error (.storage (.duplicate model id)) work := by
  have hact : work.transaction.insert model id record = .error (.duplicate model id) := by
    unfold Transaction.insert
    rw [h.checkWrite model, show work.transaction.tables.get? model id = some old from hold]
    rfl
  exact Writing.change_of_error (congrArg (Except.map fun tx => ((), tx)) hact)

theorem run_replace {model : String} {id : Identity} {old : Record}
    (hold : work.tables.get? model id = some old) (record : Record) :
    Writing.replace model id record work =
      .ok () (work.withTables (work.tables.put model id record)) :=
  h.opened.run_replace (h.contains_failing model) hold record

theorem run_checkpoint : Writing.checkpoint work = .ok () work := h.opened.run_checkpoint

end Work.Calm

/-! ### Failures -/

/-- A failure of which callers are told the reason. -/
def Failure.IsTold (failure : Failure) : Prop :=
  ∃ violations, failure = .refused violations ∧
    ∀ violation ∈ violations, violation.kind ≠ .transactionFailure

theorem Failure.isTold_refused {violation : Violation}
    (h : violation.kind ≠ .transactionFailure) : IsTold (.refused [violation]) := by
  refine ⟨[violation], rfl, ?_⟩
  intro other hother
  rwa [List.mem_singleton.mp hother]

namespace Writing

variable {α β : Type} {start : Work}

/-- Work that stays calm if it starts so: it gives what is good, or fails only as it may. -/
def Safe (work : Writing α) (start : Work) (good : α → Work → Prop)
    (bad : Failure → Work → Prop) : Prop :=
  start.Calm →
    match work start with
    | .ok a stop => stop.Calm ∧ good a stop
    | .error failure stop => bad failure stop

namespace Safe

variable {work : Writing α} {good : α → Work → Prop} {bad : Failure → Work → Prop}

theorem intro (hgood : ∀ a stop, start.Calm → work start = .ok a stop → stop.Calm ∧ good a stop)
    (hbad : ∀ failure stop, start.Calm → work start = .error failure stop → bad failure stop) :
    Safe work start good bad := by
  intro hcalm
  split
  · rename_i a stop hrun
    exact hgood a stop hcalm hrun
  · rename_i failure stop hrun
    exact hbad failure stop hcalm hrun

theorem ok (h : Safe work start good bad) (hcalm : start.Calm) {a : α} {stop : Work}
    (hrun : work start = .ok a stop) : stop.Calm ∧ good a stop := by
  have hstop := h hcalm
  rwa [hrun] at hstop

theorem error (h : Safe work start good bad) (hcalm : start.Calm) {failure : Failure}
    {stop : Work} (hrun : work start = .error failure stop) : bad failure stop := by
  have hstop := h hcalm
  rwa [hrun] at hstop

theorem mono {good' : α → Work → Prop} {bad' : Failure → Work → Prop}
    (h : Safe work start good bad) (hgood : ∀ a stop, good a stop → good' a stop)
    (hbad : ∀ failure stop, bad failure stop → bad' failure stop) :
    Safe work start good' bad' := by
  refine intro ?_ fun failure stop hcalm hrun => hbad failure stop (h.error hcalm hrun)
  intro a stop hcalm hrun
  obtain ⟨hstop, hgiven⟩ := h.ok hcalm hrun
  exact ⟨hstop, hgood a stop hgiven⟩

/-- What safe work gives is known from its successful runs. -/
theorem yields (h : Safe work start (fun _ _ => True) bad) (hyields : Yields work start good) :
    Safe work start good bad :=
  intro (fun _ _ hcalm hrun => ⟨(h.ok hcalm hrun).1, hyields.ok hrun⟩)
    fun _ _ hcalm hrun => h.error hcalm hrun

theorem pure {a : α} (h : good a start) : Safe (Pure.pure a) start good bad :=
  fun hcalm => ⟨hcalm, h⟩

theorem refuse {violation : Violation} (h : bad (.refused [violation]) start) :
    Safe (Writing.refuse violation) start good bad := fun _ => h

theorem bind {next : α → Writing β} (between : α → Work → Prop) {good : β → Work → Prop}
    (hwork : Safe work start between bad)
    (hnext : ∀ a after, between a after → Safe (next a) after good bad) :
    Safe (work >>= next) start good bad := by
  refine intro ?_ ?_
  · intro b stop hcalm hrun
    obtain ⟨a, after, hfirst, hrest⟩ := bind_eq_ok.mp hrun
    obtain ⟨hafter, hgiven⟩ := hwork.ok hcalm hfirst
    exact (hnext a after hgiven).ok hafter hrest
  · intro failure stop hcalm hrun
    obtain hfirst | ⟨a, after, hfirst, hrest⟩ := bind_eq_error.mp hrun
    · exact hwork.error hcalm hfirst
    · obtain ⟨hafter, hgiven⟩ := hwork.ok hcalm hfirst
      exact (hnext a after hgiven).error hafter hrest

/-- A loop is safe if each of its rounds is and keeps what holds in front of it. `before` are the
items that are done. -/
theorem foldlM {f : β → α → Writing β} {items : List α} {b : β}
    (motive : List α → β → Work → Prop) (hstart : motive [] b start)
    (hround : ∀ before item b between, before ++ [item] <+: items → motive before b between →
      Safe (f b item) between (motive (before ++ [item])) bad) :
    Safe (items.foldlM f b) start (motive items) bad :=
  foldlM_rule (fun work start good => Safe work start good bad) pure bind motive hstart hround

theorem forM {f : α → Writing Unit} {items : List α} (motive : List α → Work → Prop)
    (hstart : motive [] start)
    (hround : ∀ before item between, before ++ [item] <+: items → motive before between →
      Safe (f item) between (fun _ => motive (before ++ [item])) bad) :
    Safe (items.forM f) start (fun _ => motive items) bad := by
  rw [forM_eq_foldlM]
  exact foldlM (fun done _ between => motive done between) hstart
    fun before item _ between hpart hmotive => hround before item between hpart hmotive

/-! ### Single steps -/

/-- A step that succeeds in all calm work. -/
theorem of_ok {a : α} {stop : Work}
    (hrun : start.Calm → work start = .ok a stop ∧ stop.Calm) (h : good a stop) :
    Safe work start good bad := by
  intro hcalm
  obtain ⟨heq, hstop⟩ := hrun hcalm
  rw [heq]
  exact ⟨hstop, h⟩

theorem get? {model : String} {id : Identity} {good : Option Record → Work → Prop}
    (h : good (start.tables.get? model id) start) : Safe (Writing.get? model id) start good bad :=
  of_ok (fun hcalm => ⟨hcalm.run_get? model id, hcalm⟩) h

theorem scan {model : String} {good : List Record → Work → Prop}
    (h : good (start.tables.scan model) start) : Safe (Writing.scan model) start good bad :=
  of_ok (fun hcalm => ⟨hcalm.run_scan model, hcalm⟩) h

theorem next {sequence : String} {good : Int → Work → Prop}
    (h : good (start.tables.next sequence).1 (start.withTables (start.tables.next sequence).2)) :
    Safe (Writing.next sequence) start good bad :=
  of_ok (fun hcalm => ⟨hcalm.run_next sequence, hcalm.withTables _⟩) h

theorem remove {model : String} {id : Identity} {good : Option Record → Work → Prop}
    (h : good (start.tables.get? model id) (start.withTables (start.tables.erase model id))) :
    Safe (Writing.remove model id) start good bad :=
  of_ok (fun hcalm => ⟨hcalm.run_remove model id, hcalm.withTables _⟩) h

theorem draw {good : Nat → Work → Prop}
    (h : good start.drawn { start with drawn := start.drawn + 1 }) :
    Safe Writing.draw start good bad :=
  of_ok (fun hcalm => ⟨rfl, hcalm.timely, hcalm.willing, hcalm.wanted⟩) h

theorem checkpoint {good : Unit → Work → Prop} (h : good () start) :
    Safe Writing.checkpoint start good bad :=
  of_ok (fun hcalm => ⟨hcalm.run_checkpoint, hcalm⟩) h

/-- A record that is stored can be replaced. -/
theorem replace {model : String} {id : Identity} {record : Record} {good : Unit → Work → Prop}
    (hstored : (start.tables.get? model id).isSome)
    (h : good () (start.withTables (start.tables.put model id record))) :
    Safe (Writing.replace model id record) start good bad := by
  obtain ⟨old, hold⟩ := Option.isSome_iff_exists.mp hstored
  exact of_ok (fun hcalm => ⟨hcalm.run_replace hold record, hcalm.withTables _⟩) h

/-- A record can be inserted unless its identity is in use. -/
theorem insert {model : String} {id : Identity} {record : Record} {good : Unit → Work → Prop}
    (hstored : (start.tables.get? model id).isSome → bad (.storage (.duplicate model id)) start)
    (h : good () (start.withTables (start.tables.put model id record))) :
    Safe (Writing.insert model id record) start good bad := by
  cases hold : start.tables.get? model id with
  | none => exact of_ok (fun hcalm => ⟨hcalm.run_insert hold record, hcalm.withTables _⟩) h
  | some old =>
      intro hcalm
      rw [hcalm.run_insert_of_stored hold record]
      exact hstored (Option.isSome_of_eq_some hold)

end Safe

end Writing

end ModelSurface
