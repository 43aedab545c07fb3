import ModelSurface.Proofs.Engine.Revisions

/-!
# What a handler sees of its record

A handler sets fields of its receiver, of which it has a copy, and the copy is stored each time. The
copy is changed before it is stored: where that fails the handler sees a change that the transaction
has not got, until a later call stores it together with its own.
-/

namespace ModelSurface

/-- A record some fields of which have been set, one after the other. -/
def Record.putAll (record : Record) (changes : List (String × Value)) : Record :=
  changes.foldl (fun record change => record.put change.1 change.2) record

theorem Record.putAll_append (record : Record) (changes : List (String × Value)) (name : String)
    (value : Value) :
    record.putAll (changes ++ [(name, value)]) = (record.putAll changes).put name value :=
  List.foldl_concat ..

namespace Transaction

/-- The transaction takes what is written to a model. -/
def Takes (tx : Transaction) (model : String) : Prop := tx.expired = false ∧ model ∉ tx.failing

variable {tx : Transaction} {model : String} {id : Identity} {old : Record}

theorem checkWrite_of_takes (h : tx.Takes model) : tx.checkWrite model = .ok () := by
  obtain ⟨hexpired, hfailing⟩ := h
  simp [checkWrite, checkTime, hexpired, hfailing, bind, Except.bind, pure, Except.pure]

theorem checkWrite_of_not_takes (h : ¬tx.Takes model) :
    ∃ fault, tx.checkWrite model = .error fault := by
  unfold checkWrite checkTime
  cases hexpired : tx.expired with
  | true => exact ⟨.timeout, rfl⟩
  | false =>
      have hfailing : model ∈ tx.failing := by
        by_contra hmissing
        exact h ⟨hexpired, hmissing⟩
      exact ⟨.failing model, by simp [hfailing, bind, Except.bind]⟩

theorem replace_of_takes (h : tx.Takes model) (hstored : tx.tables.get? model id = some old)
    (record : Record) :
    tx.replace model id record = .ok { tx with tables := tx.tables.put model id record } := by
  unfold replace
  rw [checkWrite_of_takes h, hstored]
  rfl

theorem replace_of_not_takes (h : ¬tx.Takes model) (id : Identity) (record : Record) :
    ∃ fault, tx.replace model id record = .error fault := by
  obtain ⟨fault, hfault⟩ := checkWrite_of_not_takes h
  refine ⟨fault, ?_⟩
  unfold replace
  rw [hfault]
  rfl

end Transaction

namespace Invocation

/-- The record that the transaction stores under the identity of the receiver. -/
def stored? (invocation : Invocation) : Option Record :=
  (Record.identity? invocation.receiver invocation.model.identity.name).bind
    (invocation.work.tables.get? invocation.model.name)

/-- What a handler does to its invocation that sets fields, and goes on if that fails, with those
changes of the receiver that have not been stored. Whatever else it does leaves alone the receiver
and the record that is stored. -/
inductive Calls (start : Invocation) : List (String × Value) → Invocation → Prop
  | start : Calls start [] start
  | stored {unstored : List (String × Value)} {before after : Invocation} {name : String}
      {value : Value} (hbefore : Calls start unstored before)
      (hset : Invoking.set name value before = .ok () after) : Calls start [] after
  | refused {unstored : List (String × Value)} {before after : Invocation} {name : String}
      {value : Value} {failure : MethodFailure} (hbefore : Calls start unstored before)
      (hset : Invoking.set name value before = .error failure after)
      (hfault : Invoking.assignmentFault? before.model name value ≠ none) :
      Calls start unstored after
  | unstored {unstored : List (String × Value)} {before after : Invocation} {name : String}
      {value : Value} {failure : MethodFailure} (hbefore : Calls start unstored before)
      (hset : Invoking.set name value before = .error failure after)
      (haccepted : Invoking.assignmentFault? before.model name value = none) :
      Calls start (unstored ++ [(name, value)]) after
  | other {unstored : List (String × Value)} {before after : Invocation}
      (hbefore : Calls start unstored before) (hmodel : after.model = before.model)
      (hreceiver : after.receiver = before.receiver) (hstored : after.stored? = before.stored?) :
      Calls start unstored after

/-- A receiver is the record that is stored under its identity with some changes put over it. -/
structure Ahead (model : Model) (id : Identity) (unstored : List (String × Value))
    (invocation : Invocation) : Prop where
  model_eq : invocation.model = model
  identity : Record.identity? invocation.receiver model.identity.name = some id
  stored : ∃ record, invocation.work.tables.get? model.name id = some record ∧
    invocation.receiver = record.putAll unstored

variable {model : Model} {id : Identity} {unstored : List (String × Value)}
  {before after : Invocation} {name : String} {value : Value}

theorem stored?_eq
    (h : Record.identity? before.receiver before.model.identity.name = some id) :
    before.stored? = before.work.tables.get? before.model.name id := by
  unfold stored?
  rw [h, Option.bind_some]

theorem Ahead.stored?_eq (h : before.Ahead model id unstored) :
    before.stored? = before.work.tables.get? model.name id := by
  obtain rfl := h.model_eq
  exact Invocation.stored?_eq h.identity

/-- The invocation whose receiver has a new value, when it is stored. -/
def withStored (invocation : Invocation) (id : Identity) (name : String) (value : Value) :
    Invocation :=
  { Invoking.withField invocation name value with
    work := invocation.work.withTables (invocation.work.tables.put invocation.model.name id
      (invocation.receiver.put name value)) }

/-- What a call to set a field does: it is refused by the field and changes nothing, or the change
goes to the receiver, and with it to the transaction if that takes it. -/
inductive SetStep (id : Identity) (name : String) (value : Value) (before : Invocation) :
    EStateM.Result MethodFailure Invocation Unit → Prop
  | refused {failure : MethodFailure}
      (hfault : Invoking.assignmentFault? before.model name value ≠ none) :
      SetStep id name value before (.error failure before)
  | unstored {failure : MethodFailure}
      (haccepted : Invoking.assignmentFault? before.model name value = none)
      (hfails : ¬before.work.transaction.Takes before.model.name) :
      SetStep id name value before (.error failure (Invoking.withField before name value))
  | stored (haccepted : Invoking.assignmentFault? before.model name value = none)
      (htakes : before.work.transaction.Takes before.model.name) :
      SetStep id name value before (.ok () (before.withStored id name value))

section Step

variable (hmodel : before.model.Sound)
  (hidentity : Record.identity? before.receiver before.model.identity.name = some id)

include hmodel hidentity

theorem set_of_takes (haccepted : Invoking.assignmentFault? before.model name value = none)
    (htakes : before.work.transaction.Takes before.model.name) {record : Record}
    (hrecord : before.work.tables.get? before.model.name id = some record) :
    Invoking.set name value before = .ok () (before.withStored id name value) := by
  rw [Invoking.set_of_accepted haccepted, identity?_put_of_accepted hmodel haccepted, hidentity]
  dsimp only [Invoking.transaction, Invoking.withField]
  rw [Transaction.replace_of_takes htakes hrecord]
  rfl

theorem set_of_not_takes (haccepted : Invoking.assignmentFault? before.model name value = none)
    (hfails : ¬before.work.transaction.Takes before.model.name) :
    ∃ failure, Invoking.set name value before =
      .error failure (Invoking.withField before name value) := by
  rw [Invoking.set_of_accepted haccepted, identity?_put_of_accepted hmodel haccepted, hidentity]
  dsimp only [Invoking.transaction, Invoking.withField]
  obtain ⟨fault, hfault⟩ := Transaction.replace_of_not_takes hfails id
    (before.receiver.put name value)
  rw [hfault]
  exact ⟨_, rfl⟩

theorem set_step {record : Record}
    (hrecord : before.work.tables.get? before.model.name id = some record) (name : String)
    (value : Value) : SetStep id name value before (Invoking.set name value before) := by
  cases hfault : Invoking.assignmentFault? before.model name value with
  | some fault =>
      rw [Invoking.set_of_fault hfault]
      exact .refused (hfault ▸ Option.some_ne_none fault)
  | none =>
      by_cases htakes : before.work.transaction.Takes before.model.name
      · rw [set_of_takes hmodel hidentity hfault htakes hrecord]
        exact .stored hfault htakes
      · obtain ⟨failure, hset⟩ := set_of_not_takes hmodel hidentity hfault htakes
        rw [hset]
        exact .unstored hfault htakes

end Step

theorem Ahead.set (hmodel : model.Sound) (h : before.Ahead model id unstored) (name : String)
    (value : Value) : SetStep id name value before (Invoking.set name value before) := by
  obtain rfl := h.model_eq
  obtain ⟨record, hrecord, -⟩ := h.stored
  exact set_step hmodel h.identity hrecord name value

/-- A stored change takes with it all that has not been stored before. -/
theorem Ahead.stored_call (hmodel : model.Sound) (h : before.Ahead model id unstored)
    (hset : Invoking.set name value before = .ok () after) : after.Ahead model id [] := by
  have hstep := h.set hmodel name value
  rw [hset] at hstep
  cases hstep with
  | stored haccepted =>
      obtain rfl := h.model_eq
      refine ⟨rfl, ?_, before.receiver.put name value, ?_, rfl⟩
      · exact (identity?_put_of_accepted hmodel haccepted before.receiver).trans h.identity
      · exact (Tables.get?_put ..).trans (if_pos ⟨rfl, rfl⟩)

theorem Ahead.refused_call (hmodel : model.Sound) (h : before.Ahead model id unstored)
    {failure : MethodFailure} (hset : Invoking.set name value before = .error failure after)
    (hfault : Invoking.assignmentFault? before.model name value ≠ none) : after = before := by
  have hstep := h.set hmodel name value
  rw [hset] at hstep
  cases hstep with
  | refused => rfl
  | unstored haccepted => exact absurd haccepted hfault

/-- A change that is not stored stays with the receiver. -/
theorem Ahead.unstored_call (hmodel : model.Sound) (h : before.Ahead model id unstored)
    {failure : MethodFailure} (hset : Invoking.set name value before = .error failure after)
    (haccepted : Invoking.assignmentFault? before.model name value = none) :
    after = Invoking.withField before name value ∧
      after.Ahead model id (unstored ++ [(name, value)]) := by
  have hstep := h.set hmodel name value
  rw [hset] at hstep
  cases hstep with
  | refused hfault => exact absurd haccepted hfault
  | unstored =>
      obtain rfl := h.model_eq
      obtain ⟨record, hrecord, hreceiver⟩ := h.stored
      refine ⟨rfl, rfl, ?_, record, hrecord, ?_⟩
      · exact (identity?_put_of_accepted hmodel haccepted before.receiver).trans h.identity
      · rw [Record.putAll_append, ← hreceiver]
        rfl

theorem Ahead.other (h : before.Ahead model id unstored) (hmodel : after.model = before.model)
    (hreceiver : after.receiver = before.receiver) (hstored : after.stored? = before.stored?) :
    after.Ahead model id unstored := by
  obtain ⟨record, hrecord, hchanged⟩ := h.stored
  have hidentity : Record.identity? after.receiver model.identity.name = some id :=
    hreceiver ▸ h.identity
  refine ⟨hmodel.trans h.model_eq, hidentity, record, ?_, hreceiver.trans hchanged⟩
  calc after.work.tables.get? model.name id
      = after.stored? := by
        unfold stored?
        rw [hmodel, h.model_eq, hidentity, Option.bind_some]
    _ = before.work.tables.get? model.name id := hstored.trans h.stored?_eq
    _ = some record := hrecord

/-- All along the calls a receiver is ahead of what is stored by what has not been stored. -/
theorem Calls.ahead {start : Invocation} (h : start.Calls unstored after) (hmodel : model.Sound)
    (hstart : start.Ahead model id []) : after.Ahead model id unstored := by
  induction h with
  | start => exact hstart
  | stored _ hset ih => exact ih.stored_call hmodel hset
  | refused _ hset hfault ih => exact ih.refused_call hmodel hset hfault ▸ ih
  | unstored _ hset haccepted ih => exact (ih.unstored_call hmodel hset haccepted).2
  | other _ hmodel_eq hreceiver hstored ih => exact ih.other hmodel_eq hreceiver hstored

/-- **A receiver is ahead of the store by what could not be stored.** A handler sets any fields of
its receiver, and goes on when that fails. Behind every call its receiver is the record that the
transaction stores under its identity with those accepted changes put over it that the transaction
has not taken since the last one that it took. The next call changes nothing if the field does not
take the value; else it sets that field of the receiver, and if the transaction takes the record,
then it stores it, and there is no difference any more. -/
theorem receiver_ahead_by_unstored {registry : Registry} {schema : Schema}
    (hschema : registry.schema = .ok schema) {model : Model} (hmodel : model ∈ schema.models)
    {id : Identity} {receiver : Record} {work : Work}
    (hstored : work.tables.get? model.name id = some receiver)
    (hidentity : Record.identity? receiver model.identity.name = some id)
    {unstored : List (String × Value)} {invocation : Invocation}
    (hcalls : Calls ⟨schema, model, receiver, work⟩ unstored invocation) :
    (∃ record, invocation.stored? = some record ∧
        invocation.receiver = record.putAll unstored) ∧
      (unstored = [] → invocation.stored? = some invocation.receiver) ∧
      ∀ name value, SetStep id name value invocation (Invoking.set name value invocation) := by
  have hsound : model.Sound := (Registry.sound_schema hschema).model model hmodel
  have hahead : invocation.Ahead model id unstored :=
    hcalls.ahead hsound ⟨rfl, hidentity, receiver, hstored, rfl⟩
  obtain ⟨record, hrecord, hreceiver⟩ := hahead.stored
  have hfound : invocation.stored? = some record := hahead.stored?_eq.trans hrecord
  refine ⟨⟨record, hfound, hreceiver⟩, ?_, hahead.set hsound⟩
  rintro rfl
  exact hfound.trans (congrArg some hreceiver.symm)

/-! ### A memo that is not stored -/

def memoRecord : Record :=
  .ofList [("id", .int 1), ("title", .null), ("revision", .int 1), ("next", .null)]

/-- A method is invoked for a memo, where some models cannot be written to. -/
def memoInvocation (failing : List String) : Invocation where
  schema := Engine.memoSchema
  model := Engine.memoModel
  receiver := memoRecord
  work := ⟨⟨({} : Tables).put "Memo" (.int 1) memoRecord, failing, false⟩, 0, none⟩

theorem memo_sound : Engine.memoModel.Sound :=
  (Registry.sound_schema Engine.schema_memoRegistry).model _ Engine.memoModel_mem.1

theorem memo_identity : Record.identity? memoRecord Engine.memoModel.identity.name =
    some (.int 1) := by
  decide +kernel

theorem memo_stored (failing : List String) :
    (memoInvocation failing).work.tables.get? Engine.memoModel.name (.int 1) = some memoRecord := by
  rw [Engine.memoModel_mem.2]
  exact (Tables.get?_put ..).trans (if_pos ⟨rfl, rfl⟩)

theorem memo_accepts_title :
    Invoking.assignmentFault? Engine.memoModel "title" (.str "first") = none := by
  decide +kernel

theorem memo_takes {failing : List String} :
    (memoInvocation failing).work.transaction.Takes Engine.memoModel.name ↔ "Memo" ∉ failing := by
  rw [Engine.memoModel_mem.2]
  exact and_iff_right rfl

/-- A title that is not stored. -/
theorem memo_unstored : ∃ failure,
    Invoking.set "title" (.str "first") (memoInvocation ["Memo"]) =
      .error failure (Invoking.withField (memoInvocation ["Memo"]) "title" (.str "first")) :=
  set_of_not_takes memo_sound memo_identity memo_accepts_title
    fun htakes => memo_takes.mp htakes List.mem_cons_self

/-- The title is stored together with the next field that is set, once memos can be written to. -/
theorem receiver_ahead_by_unstored_memo : ∃ invocation : Invocation,
    (memoInvocation ["Memo"]).Calls [("title", .str "first")] invocation ∧
      (∃ record, invocation.stored? = some record ∧
        invocation.receiver = record.putAll [("title", .str "first")]) ∧
      SetStep (.int 1) "revision" (.int 2) invocation
        (Invoking.set "revision" (.int 2) invocation) := by
  obtain ⟨failure, hset⟩ := memo_unstored
  have hcalls : (memoInvocation ["Memo"]).Calls [("title", .str "first")]
      (Invoking.withField (memoInvocation []) "title" (.str "first")) :=
    .other (.unstored .start hset memo_accepts_title) rfl rfl rfl
  obtain ⟨hahead, -, hstep⟩ := receiver_ahead_by_unstored Engine.schema_memoRegistry
    Engine.memoModel_mem.1 (memo_stored ["Memo"]) memo_identity hcalls
  exact ⟨_, hcalls, hahead, hstep "revision" (.int 2)⟩

/-- The memo with another revision, written past its receiver. -/
def revisedMemo : Invocation :=
  { memoInvocation [] with
    work := (memoInvocation []).work.withTables ((memoInvocation []).work.tables.put "Memo" (.int 1)
      (memoRecord.put "revision" (.int 7))) }

theorem revisedMemo_eq : Invoking.transaction (fun tx =>
    (tx.replace "Memo" (.int 1) (memoRecord.put "revision" (.int 7))).map fun tx => ((), tx))
    (memoInvocation []) = .ok () revisedMemo := by
  have htakes : (memoInvocation []).work.transaction.Takes "Memo" := ⟨rfl, List.not_mem_nil⟩
  have hstored := memo_stored []
  rw [Engine.memoModel_mem.2] at hstored
  unfold Invoking.transaction
  dsimp only
  rw [Transaction.replace_of_takes htakes hstored]
  rfl

theorem revisedMemo_stored : revisedMemo.work.tables.get? Engine.memoModel.name (.int 1) =
    some (memoRecord.put "revision" (.int 7)) := by
  rw [Engine.memoModel_mem.2]
  exact (Tables.get?_put ..).trans (if_pos ⟨rfl, rfl⟩)

/-- A call that fails changes the receiver, and one that does not fail takes back what the handler
has written past the receiver. -/
theorem receiver_parts_from_store :
    (∃ failure after, Invoking.set "title" (.str "first") (memoInvocation ["Memo"]) =
        .error failure after ∧ after.stored? = some memoRecord ∧
        after.receiver = memoRecord.put "title" (.str "first") ∧
        memoRecord.get? "title" = some .null) ∧
      ∃ between after, Invoking.transaction (fun tx =>
          (tx.replace "Memo" (.int 1) (memoRecord.put "revision" (.int 7))).map fun tx => ((), tx))
          (memoInvocation []) = .ok () between ∧
        Invoking.set "title" (.str "first") between = .ok () after ∧
        between.stored? = some (memoRecord.put "revision" (.int 7)) ∧
        after.stored? = some (memoRecord.put "title" (.str "first")) ∧
        memoRecord.get? "revision" = some (.int 1) := by
  have htitled : Record.identity? (memoRecord.put "title" (.str "first"))
      Engine.memoModel.identity.name = some (.int 1) :=
    (identity?_put_of_accepted memo_sound memo_accepts_title memoRecord).trans memo_identity
  have hrevised : Record.identity? revisedMemo.receiver revisedMemo.model.identity.name =
      some (.int 1) := memo_identity
  refine ⟨?_, revisedMemo, revisedMemo.withStored (.int 1) "title" (.str "first"), revisedMemo_eq,
    ?_, (stored?_eq hrevised).trans revisedMemo_stored, ?_, rfl⟩
  · obtain ⟨failure, hset⟩ := memo_unstored
    exact ⟨failure, _, hset, (stored?_eq htitled).trans (memo_stored ["Memo"]), rfl, rfl⟩
  · exact set_of_takes memo_sound memo_identity memo_accepts_title
      (memo_takes.mpr List.not_mem_nil) revisedMemo_stored
  · exact (stored?_eq htitled).trans ((Tables.get?_put ..).trans (if_pos ⟨rfl, rfl⟩))

end Invocation

end ModelSurface
