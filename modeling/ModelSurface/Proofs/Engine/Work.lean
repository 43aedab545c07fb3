import ModelSurface.Engine.Writing

/-!
# Runs of work

What a successful run of work inside a transaction says about the runs of its parts. Every later
argument about a run takes it apart with these statements, and none of them unfolds the monad.
-/

namespace ModelSurface

namespace Work

def tables (work : Work) : Tables := work.transaction.tables

def withTables (work : Work) (tables : Tables) : Work :=
  { work with transaction := { work.transaction with tables := tables } }

@[simp] theorem tables_withTables (work : Work) (tables : Tables) :
    (work.withTables tables).tables = tables := rfl

end Work

namespace Writing

variable {α β : Type} {start stop : Work}

theorem bind_eq_ok {work : Writing α} {next : α → Writing β} {b : β} :
    (work >>= next) start = .ok b stop ↔
      ∃ a between, work start = .ok a between ∧ next a between = .ok b stop := by
  change EStateM.bind work next start = _ ↔ _
  unfold EStateM.bind
  cases work start with
  | ok a between =>
      constructor
      · exact fun h => ⟨a, between, rfl, h⟩
      · rintro ⟨_, _, heq, h⟩
        injection heq with ha hbetween
        exact ha ▸ hbetween ▸ h
  | error failure between => simp

theorem bind_eq_error {work : Writing α} {next : α → Writing β} {failure : Failure} :
    (work >>= next) start = .error failure stop ↔
      work start = .error failure stop ∨
        ∃ a between, work start = .ok a between ∧ next a between = .error failure stop := by
  change EStateM.bind work next start = _ ↔ _
  unfold EStateM.bind
  cases work start with
  | ok a between =>
      constructor
      · exact fun h => .inr ⟨a, between, rfl, h⟩
      · rintro (heq | ⟨_, _, heq, h⟩)
        · cases heq
        · injection heq with ha hbetween
          exact ha ▸ hbetween ▸ h
  | error failure between => simp

theorem pure_eq_ok {a b : α} :
    (pure a : Writing α) start = .ok b stop ↔ a = b ∧ start = stop := by
  change EStateM.Result.ok a start = .ok b stop ↔ _
  simp

theorem pure_ne_error {a : α} {failure : Failure} :
    (pure a : Writing α) start ≠ .error failure stop := by
  change EStateM.Result.ok a start ≠ .error failure stop
  simp

theorem refuse_ne_ok {violation : Violation} {a : α} :
    (refuse violation : Writing α) start ≠ .ok a stop := by
  change EStateM.Result.error _ start ≠ .ok a stop
  simp

theorem breach_ne_ok {broken : Breach} {a : α} :
    (breach broken : Writing α) start ≠ .ok a stop := by
  change EStateM.Result.error _ start ≠ .ok a stop
  simp

theorem refuse_eq_error {violation : Violation} {failure : Failure} :
    (refuse violation : Writing α) start = .error failure stop ↔
      .refused [violation] = failure ∧ start = stop := by
  change EStateM.Result.error _ start = .error failure stop ↔ _
  simp

theorem breach_eq_error {broken : Breach} {failure : Failure} :
    (breach broken : Writing α) start = .error failure stop ↔
      .breach broken = failure ∧ start = stop := by
  change EStateM.Result.error _ start = .error failure stop ↔ _
  simp

/-! ### Single steps -/

theorem read_ok {look : Transaction → Except StorageFault α} {a : α}
    (h : read look start = .ok a stop) : look start.transaction = .ok a ∧ stop = start := by
  unfold read at h
  split at h
  · rename_i found hlook
    injection h with ha hstop
    exact ⟨ha ▸ hlook, hstop.symm⟩
  · cases h

theorem change_ok {act : Transaction → Except StorageFault (α × Transaction)} {a : α}
    (h : change act start = .ok a stop) :
    ∃ transaction, act start.transaction = .ok (a, transaction) ∧
      stop = { start with transaction := transaction } := by
  unfold change at h
  split at h
  · rename_i found transaction hact
    injection h with ha hstop
    exact ⟨transaction, ha ▸ hact, hstop.symm⟩
  · cases h

theorem read_error {look : Transaction → Except StorageFault α} {failure : Failure}
    (h : read look start = .error failure stop) :
    ∃ fault, failure = .storage fault ∧ stop = start := by
  unfold read at h
  split at h
  · cases h
  · rename_i fault _
    injection h with hfailure hstop
    exact ⟨fault, hfailure.symm, hstop.symm⟩

theorem change_error {act : Transaction → Except StorageFault (α × Transaction)}
    {failure : Failure} (h : change act start = .error failure stop) :
    ∃ fault, failure = .storage fault ∧ stop = start := by
  unfold change at h
  split at h
  · cases h
  · rename_i fault _
    injection h with hfailure hstop
    exact ⟨fault, hfailure.symm, hstop.symm⟩

theorem get?_ok {model : String} {id : Identity} {found : Option Record}
    (h : get? model id start = .ok found stop) :
    start.tables.get? model id = found ∧ stop = start := by
  obtain ⟨hlook, hstop⟩ := read_ok h
  refine ⟨?_, hstop⟩
  unfold Transaction.get? Transaction.checkTime at hlook
  split at hlook
  · cases hlook
  · injection hlook

theorem scan_ok {model : String} {records : List Record}
    (h : scan model start = .ok records stop) :
    start.tables.scan model = records ∧ stop = start := by
  obtain ⟨hlook, hstop⟩ := read_ok h
  refine ⟨?_, hstop⟩
  unfold Transaction.scan Transaction.checkTime at hlook
  split at hlook
  · cases hlook
  · injection hlook

/-- A write that passes its checks does what it is for. -/
theorem checkWrite_ok {transaction : Transaction} {model : String}
    {rest : Except StorageFault α} {a : α}
    (h : (do transaction.checkWrite model; rest) = .ok a) : rest = .ok a := by
  unfold Transaction.checkWrite Transaction.checkTime at h
  split at h
  · cases h
  · split at h
    · cases h
    · exact h

theorem checkWrite_willing {transaction : Transaction} {model : String}
    {rest : Except StorageFault α} {a : α}
    (h : (do transaction.checkWrite model; rest) = .ok a) :
    transaction.failing.contains model = false := by
  unfold Transaction.checkWrite Transaction.checkTime at h
  split at h
  · cases h
  · split at h
    · cases h
    · rename_i hwilling
      exact Bool.eq_false_iff.mpr hwilling

theorem insert_ok {model : String} {id : Identity} {record : Record}
    (h : insert model id record start = .ok () stop) :
    start.tables.get? model id = none ∧
      stop = start.withTables (start.tables.put model id record) := by
  obtain ⟨transaction, hact, rfl⟩ := change_ok h
  cases hinsert : start.transaction.insert model id record with
  | error fault => rw [hinsert] at hact; cases hact
  | ok inserted =>
      rw [hinsert] at hact
      obtain rfl : inserted = transaction := by
        injection hact with hact
        exact congrArg Prod.snd hact
      have hchecked := checkWrite_ok hinsert
      split at hchecked
      · cases hchecked
      · rename_i hnone
        injection hchecked with heq
        exact ⟨hnone, by rw [← heq]; rfl⟩

theorem replace_ok {model : String} {id : Identity} {record : Record}
    (h : replace model id record start = .ok () stop) :
    (∃ old, start.tables.get? model id = some old) ∧
      stop = start.withTables (start.tables.put model id record) := by
  obtain ⟨transaction, hact, rfl⟩ := change_ok h
  cases hreplace : start.transaction.replace model id record with
  | error fault => rw [hreplace] at hact; cases hact
  | ok replaced =>
      rw [hreplace] at hact
      obtain rfl : replaced = transaction := by
        injection hact with hact
        exact congrArg Prod.snd hact
      have hchecked := checkWrite_ok hreplace
      split at hchecked
      · rename_i old hsome
        injection hchecked with heq
        exact ⟨⟨old, hsome⟩, by rw [← heq]; rfl⟩
      · cases hchecked

theorem willing_of_replace {model : String} {id : Identity} {record : Record}
    (h : replace model id record start = .ok () stop) :
    start.transaction.failing.contains model = false := by
  obtain ⟨transaction, hact, -⟩ := change_ok h
  cases hreplace : start.transaction.replace model id record with
  | error fault => rw [hreplace] at hact; cases hact
  | ok replaced => exact checkWrite_willing hreplace

theorem remove_ok {model : String} {id : Identity} {found : Option Record}
    (h : remove model id start = .ok found stop) :
    stop = start.withTables (start.tables.erase model id) := by
  obtain ⟨transaction, hact, rfl⟩ := change_ok h
  have hchecked := checkWrite_ok hact
  injection hchecked with heq
  rw [← (Prod.mk.inj heq).2]
  rfl

theorem next_ok {sequence : String} {number : Int}
    (h : next sequence start = .ok number stop) :
    number = (start.tables.next sequence).1 ∧
      stop = start.withTables (start.tables.next sequence).2 := by
  obtain ⟨transaction, hact, rfl⟩ := change_ok h
  unfold Transaction.next Transaction.checkTime at hact
  split at hact
  · cases hact
  · injection hact with heq
    obtain ⟨hnumber, htransaction⟩ := Prod.mk.inj heq
    exact ⟨hnumber.symm, by rw [← htransaction]; rfl⟩

theorem draw_ok {number : Nat} (h : draw start = .ok number stop) :
    number = start.drawn ∧ stop = { start with drawn := start.drawn + 1 } := by
  injection h with hnumber hstop
  exact ⟨hnumber.symm, hstop.symm⟩

theorem checkpoint_ok (h : checkpoint start = .ok () stop) : stop = start := by
  unfold checkpoint at h
  split at h
  · cases h
  · injection h with _ hstop
    exact hstop.symm

theorem checkpoint_error {failure : Failure} (h : checkpoint start = .error failure stop) :
    failure = .storage .cancelled ∧ stop = start := by
  unfold checkpoint at h
  split at h
  · injection h with hfailure hstop
    exact ⟨hfailure.symm, hstop.symm⟩
  · cases h

/-! ### Loops -/

/-- A rule for loops. What is claimed of a run may be anything that holds of `pure` and of one work
after another: it holds of a loop if it holds of each round, from what the round finds to what it
leaves. `before` are the items that are done. -/
theorem foldlM_rule (claim : Writing β → Work → (β → Work → Prop) → Prop)
    (hpure : ∀ {b start} {good : β → Work → Prop}, good b start → claim (pure b) start good)
    (hbind : ∀ {work start} {next : β → Writing β} (between : β → Work → Prop)
      {good : β → Work → Prop}, claim work start between →
      (∀ b after, between b after → claim (next b) after good) → claim (work >>= next) start good)
    {f : β → α → Writing β} {items : List α} {b : β} (motive : List α → β → Work → Prop)
    (hstart : motive [] b start)
    (hround : ∀ before item b between, before ++ [item] <+: items → motive before b between →
      claim (f b item) between (motive (before ++ [item]))) :
    claim (items.foldlM f b) start (motive items) := by
  suffices h : ∀ done rest b between, done ++ rest = items → motive done b between →
      claim (rest.foldlM f b) between (motive items) from h [] items b start rfl hstart
  intro done rest
  induction rest generalizing done with
  | nil =>
      intro b between hitems hmotive
      rw [← hitems, List.append_nil]
      exact hpure hmotive
  | cons item rest ih =>
      intro b between hitems hmotive
      have hsplit : done ++ [item] ++ rest = items := by
        rw [List.append_assoc, List.singleton_append, hitems]
      rw [List.foldlM_cons]
      exact hbind _ (hround done item b between ⟨rest, hsplit⟩ hmotive) fun c after hafter =>
        ih (done ++ [item]) c after hsplit hafter

theorem forM_eq_foldlM (f : α → Writing Unit) (items : List α) :
    items.forM f = items.foldlM (fun _ item => f item) () := by
  induction items with
  | nil => rfl
  | cons item items ih =>
      change (f item >>= fun _ => items.forM f) = f item >>= fun _ => items.foldlM _ ()
      rw [ih]

/-! ### Both outcomes -/

/-- What holds of a run, whether it succeeds or fails. -/
def Ends (work : Writing α) (start : Work) (good : α → Work → Prop) (bad : Failure → Prop) :
    Prop :=
  match work start with
  | .ok a stop => good a stop
  | .error failure _ => bad failure

namespace Ends

variable {work : Writing α} {good : α → Work → Prop} {bad : Failure → Prop}

theorem intro (hgood : ∀ a stop, work start = .ok a stop → good a stop)
    (hbad : ∀ failure stop, work start = .error failure stop → bad failure) :
    Ends work start good bad := by
  unfold Ends
  split
  · rename_i a stop hrun
    exact hgood a stop hrun
  · rename_i failure stop hrun
    exact hbad failure stop hrun

theorem ok (h : Ends work start good bad) {a : α} (hrun : work start = .ok a stop) :
    good a stop := by
  unfold Ends at h
  rwa [hrun] at h

theorem error (h : Ends work start good bad) {failure : Failure}
    (hrun : work start = .error failure stop) : bad failure := by
  unfold Ends at h
  rwa [hrun] at h

theorem mono {good' : α → Work → Prop} (h : Ends work start good bad)
    (hgood : ∀ a stop, good a stop → good' a stop) : Ends work start good' bad :=
  intro (fun a stop hrun => hgood a stop (h.ok hrun)) fun _ _ hrun => h.error hrun

theorem bind {next : α → Writing β} (between : α → Work → Prop) {good : β → Work → Prop}
    (hwork : Ends work start between bad)
    (hnext : ∀ a after, between a after → Ends (next a) after good bad) :
    Ends (work >>= next) start good bad := by
  refine intro ?_ ?_
  · intro b stop hrun
    obtain ⟨a, after, hfirst, hrest⟩ := bind_eq_ok.mp hrun
    exact (hnext a after (hwork.ok hfirst)).ok hrest
  · intro failure stop hrun
    obtain hfirst | ⟨a, after, hfirst, hrest⟩ := bind_eq_error.mp hrun
    · exact hwork.error hfirst
    · exact (hnext a after (hwork.ok hfirst)).error hrest

theorem pure {a : α} (h : good a start) : Ends (Pure.pure a) start good bad := h

/-- A loop ends well if each of its rounds keeps what holds in front of it, and fails as its rounds
do. `before` are the items that are done. -/
theorem foldlM {f : β → α → Writing β} {items : List α} {b : β}
    (motive : List α → β → Work → Prop) (hstart : motive [] b start)
    (hround : ∀ before item b between, before ++ [item] <+: items → motive before b between →
      Ends (f b item) between (motive (before ++ [item])) bad) :
    Ends (items.foldlM f b) start (motive items) bad :=
  foldlM_rule (fun work start good => Ends work start good bad) pure bind motive hstart hround

theorem forM {f : α → Writing Unit} {items : List α} (motive : List α → Work → Prop)
    (hstart : motive [] start)
    (hround : ∀ before item between, before ++ [item] <+: items → motive before between →
      Ends (f item) between (fun _ => motive (before ++ [item])) bad) :
    Ends (items.forM f) start (fun _ => motive items) bad := by
  rw [forM_eq_foldlM]
  exact foldlM (fun done _ between => motive done between) hstart
    fun before item _ between hpart hmotive => hround before item between hpart hmotive

theorem refuse {violation : Violation} (h : bad (.refused [violation])) :
    Ends (Writing.refuse violation) start good bad := h

theorem breach {broken : Breach} (h : bad (.breach broken)) :
    Ends (Writing.breach broken) start good bad := h

theorem draw {good : Nat → Work → Prop}
    (h : good start.drawn { start with drawn := start.drawn + 1 }) :
    Ends Writing.draw start good bad := h

variable (hstorage : ∀ fault, bad (.storage fault))

include hstorage

theorem read {look : Transaction → Except StorageFault α} (h : ∀ a,
    Writing.read look start = .ok a start → good a start) :
    Ends (Writing.read look) start good bad := by
  refine intro ?_ ?_
  · intro a stop hrun
    obtain ⟨-, rfl⟩ := read_ok hrun
    exact h a hrun
  · intro failure stop hrun
    obtain ⟨fault, rfl, -⟩ := read_error hrun
    exact hstorage fault

theorem change {act : Transaction → Except StorageFault (α × Transaction)}
    (h : ∀ a stop, Writing.change act start = .ok a stop → good a stop) :
    Ends (Writing.change act) start good bad := by
  refine intro h ?_
  intro failure stop hrun
  obtain ⟨fault, rfl, -⟩ := change_error hrun
  exact hstorage fault

theorem get? {model : String} {id : Identity} {good : Option Record → Work → Prop}
    (h : good (start.tables.get? model id) start) : Ends (Writing.get? model id) start good bad :=
  read hstorage fun found hrun => by
    obtain ⟨rfl, -⟩ := get?_ok hrun
    exact h

theorem scan {model : String} {good : List Record → Work → Prop}
    (h : good (start.tables.scan model) start) : Ends (Writing.scan model) start good bad :=
  read hstorage fun records hrun => by
    obtain ⟨rfl, -⟩ := scan_ok hrun
    exact h

theorem next {sequence : String} {good : Int → Work → Prop}
    (h : good (start.tables.next sequence).1 (start.withTables (start.tables.next sequence).2)) :
    Ends (Writing.next sequence) start good bad :=
  change hstorage fun number stop hrun => by
    obtain ⟨rfl, rfl⟩ := next_ok hrun
    exact h

theorem insert {model : String} {id : Identity} {record : Record} {good : Unit → Work → Prop}
    (h : start.tables.get? model id = none →
      good () (start.withTables (start.tables.put model id record))) :
    Ends (Writing.insert model id record) start good bad :=
  change hstorage fun _ stop hrun => by
    obtain ⟨hnew, rfl⟩ := insert_ok hrun
    exact h hnew

theorem replace {model : String} {id : Identity} {record : Record} {good : Unit → Work → Prop}
    (h : good () (start.withTables (start.tables.put model id record))) :
    Ends (Writing.replace model id record) start good bad :=
  change hstorage fun _ stop hrun => by
    obtain ⟨-, rfl⟩ := replace_ok hrun
    exact h

theorem remove {model : String} {id : Identity} {good : Option Record → Work → Prop}
    (h : ∀ found, good found (start.withTables (start.tables.erase model id))) :
    Ends (Writing.remove model id) start good bad :=
  change hstorage fun found stop hrun => by
    obtain rfl := remove_ok hrun
    exact h found

theorem checkpoint {good : Unit → Work → Prop} (h : good () start) :
    Ends Writing.checkpoint start good bad := by
  refine intro ?_ ?_
  · intro _ stop hrun
    obtain rfl := checkpoint_ok hrun
    exact h
  · intro failure stop hrun
    rw [(checkpoint_error hrun).1]
    exact hstorage _

end Ends

/-- What holds of a run if it succeeds. -/
abbrev Yields (work : Writing α) (start : Work) (good : α → Work → Prop) : Prop :=
  Ends work start good fun _ => True

end Writing

end ModelSurface
