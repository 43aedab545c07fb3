import ModelSurface.Json.Document
import ModelSurface.Proofs.Json.Lexing

/-!
# Documents of values

The text of a proper value that is not nested too deeply is the document of the value, and the value
of that document is the value again.
-/

namespace ModelSurface.Json

namespace Document

mutual

/-- The document of a value. -/
def ofJson : Json → Document
  | .null => .null
  | .bool b => .bool b
  | .num n => .num n
  | .str s => .str s
  | .arr items => .arr (ofItems items) .closed
  | .obj members => .obj (ofMembers members) .closed

def ofItems : List Json → List Document
  | [] => []
  | item :: items => ofJson item :: ofItems items

def ofMembers : List (String × Json) → List (String × Document)
  | [] => []
  | (name, value) :: members => (name, ofJson value) :: ofMembers members

end

theorem ofItems_eq (items : List Json) : ofItems items = items.map ofJson := by
  induction items with
  | nil => rfl
  | cons item items ih => rw [ofItems, ih, List.map_cons]

theorem ofMembers_eq (members : List (String × Json)) :
    ofMembers members = members.map fun member => (member.1, ofJson member.2) := by
  induction members with
  | nil => rfl
  | cons member members ih => rw [ofMembers, ih, List.map_cons]

/-! ### Values of documents -/

mutual

theorem toJson_ofJson : ∀ (json : Json), json.isProper → (ofJson json).toJson = .ok json
  | .null, _ => rfl
  | .bool b, _ => rfl
  | .num n, _ => rfl
  | .str s, _ => rfl
  | .arr items, h => by
    rw [ofJson, toJson, itemsToJson_ofItems items (isProper_arr.mp h)]
    rfl
  | .obj members, h => by
    rw [ofJson, toJson, membersToJson_ofMembers members (isProper_obj.mp h).2]
    exact congrArg Except.ok (object_of_proper h)

theorem itemsToJson_ofItems : ∀ (items : List Json), (∀ item ∈ items, item.isProper) →
    itemsToJson (ofItems items) = .ok items
  | [], _ => rfl
  | item :: items, h => by
    obtain ⟨hitem, hitems⟩ := List.forall_mem_cons.mp h
    rw [ofItems, itemsToJson, toJson_ofJson item hitem, itemsToJson_ofItems items hitems]
    rfl

theorem membersToJson_ofMembers : ∀ (members : List (String × Json)),
    (∀ member ∈ members, member.2.isProper) → membersToJson (ofMembers members) = .ok members
  | [], _ => rfl
  | (name, value) :: members, h => by
    obtain ⟨hvalue, hmembers⟩ := List.forall_mem_cons.mp h
    rw [ofMembers, membersToJson, toJson_ofJson value hvalue,
      membersToJson_ofMembers members hmembers]
    rfl

end

/-! ### Reading documents off tokens -/

variable {frames : List Frame} {expect : Expect} {token : Token} {rest : List Token}

theorem build_cons {frames' : List Frame} {expect' : Expect}
    (h : step frames expect token = .ok (frames', expect')) (rest : List Token) :
    build frames expect (token :: rest) = build frames' expect' rest := by
  rw [build, h]

/-- Where an array may end, a value is read as everywhere else. -/
theorem build_firstItem (json : Json) (frames : List Frame) (rest : List Token) :
    build frames .firstItem (json.lexemes ++ rest) =
      build frames .value (json.lexemes ++ rest) := by
  have hstep : ∀ token ≠ .closeArr, step frames .firstItem token = step frames .value token := by
    intro token htoken
    cases frames with
    | nil => rfl
    | cons frame frames =>
        cases frame with
        | obj members name => rfl
        | arr items =>
            cases token with
            | closeArr => exact absurd rfl htoken
            | _ => rfl
  have hfirst : ∃ token others, json.lexemes = token :: others ∧ token ≠ .closeArr := by
    cases json with
    | arr items => cases items <;> exact ⟨_, _, rfl, nofun⟩
    | obj members => cases members <;> exact ⟨_, _, rfl, nofun⟩
    | _ => exact ⟨_, _, rfl, nofun⟩
  obtain ⟨token, others, heq, htoken⟩ := hfirst
  rw [heq, List.cons_append, build, build, hstep token htoken]

theorem openArr_step (h : frames.length < depthLimit) :
    step frames .value .openArr = .ok (.arr [] :: frames, .firstItem) := if_pos h

theorem openObj_step (h : frames.length < depthLimit) :
    step frames .value .openObj = .ok (frames, .firstName) := if_pos h

mutual

/-- The tokens of a value give the document of the value, as long as there is room for it. -/
theorem build_lexemes : ∀ (json : Json) (frames : List Frame) (rest : List Token),
    frames.length + json.height ≤ depthLimit →
    build frames .value (json.lexemes ++ rest) = build frames (.after (ofJson json)) rest
  | .null, frames, rest, _ => rfl
  | .bool b, frames, rest, _ => rfl
  | .num n, frames, rest, _ => rfl
  | .str s, frames, rest, _ => rfl
  | .arr [], frames, rest, h => by
    have hroom : frames.length < depthLimit := h
    rw [lexemes, List.cons_append, build_cons (openArr_step hroom)]
    rfl
  | .arr (item :: items), frames, rest, h => by
    rw [height, itemsHeight] at h
    rw [lexemes, List.cons_append, List.cons_append, build_cons (openArr_step (by omega)),
      List.append_assoc, build_firstItem,
      build_lexemes item _ _ (by rw [List.length_cons]; omega),
      build_itemsLexemes items [] _ frames rest (by omega)]
    rfl
  | .obj [], frames, rest, h => by
    have hroom : frames.length < depthLimit := h
    rw [lexemes, List.cons_append, build_cons (openObj_step hroom)]
    rfl
  | .obj ((name, value) :: members), frames, rest, h => by
    have hname : step frames .firstName (.str name) = .ok (frames, .colon [] name) := rfl
    have hcolon : step frames (.colon [] name) .colon = .ok (.obj [] name :: frames, .value) := rfl
    rw [height, membersHeight] at h
    rw [lexemes]
    simp only [List.cons_append, List.append_assoc]
    rw [build_cons (openObj_step (by omega)), build_cons hname, build_cons hcolon,
      build_lexemes value _ _ (by rw [List.length_cons]; omega),
      build_membersLexemes members [] name _ frames rest (by omega)]
    rfl

theorem build_itemsLexemes : ∀ (items : List Json) (done : List Document) (value : Document)
    (frames : List Frame) (rest : List Token),
    frames.length + (itemsHeight items + 1) ≤ depthLimit →
    build (.arr done :: frames) (.after value) (itemsLexemes items ++ rest) =
      build frames (.after (.arr ((value :: done).reverse ++ ofItems items) .closed)) rest
  | [], done, value, frames, rest, _ => by
    rw [ofItems, List.append_nil]
    rfl
  | item :: items, done, value, frames, rest, h => by
    have hcomma : step (.arr done :: frames) (.after value) .comma =
        .ok (.arr (value :: done) :: frames, .value) := rfl
    rw [itemsHeight] at h
    rw [itemsLexemes, List.cons_append, List.cons_append, build_cons hcomma, List.append_assoc,
      build_lexemes item _ _ (by rw [List.length_cons]; omega),
      build_itemsLexemes items _ _ frames rest (by omega), ofItems, List.reverse_cons,
      List.append_assoc]
    rfl

theorem build_membersLexemes : ∀ (members : List (String × Json))
    (done : List (String × Document)) (name : String) (value : Document) (frames : List Frame)
    (rest : List Token), frames.length + (membersHeight members + 1) ≤ depthLimit →
    build (.obj done name :: frames) (.after value) (membersLexemes members ++ rest) =
      build frames (.after (.obj (((name, value) :: done).reverse ++ ofMembers members) .closed))
        rest
  | [], done, name, value, frames, rest, _ => by
    rw [ofMembers, List.append_nil]
    rfl
  | (next, item) :: members, done, name, value, frames, rest, h => by
    have hcomma : step (.obj done name :: frames) (.after value) .comma =
        .ok (frames, .name ((name, value) :: done)) := rfl
    have hname : step frames (.name ((name, value) :: done)) (.str next) =
        .ok (frames, .colon ((name, value) :: done) next) := rfl
    have hcolon : step frames (.colon ((name, value) :: done) next) .colon =
        .ok (.obj ((name, value) :: done) next :: frames, .value) := rfl
    rw [membersHeight] at h
    rw [membersLexemes]
    simp only [List.cons_append, List.append_assoc]
    rw [build_cons hcomma, build_cons hname, build_cons hcolon,
      build_lexemes item _ _ (by rw [List.length_cons]; omega),
      build_membersLexemes members _ _ _ frames rest (by omega), ofMembers, List.reverse_cons,
      List.append_assoc]
    rfl

end

/-- The text of a value is its document, and nothing follows it. -/
theorem ofText_text {json : Json} (h : json.Fits depthLimit) :
    ofText json.text = (ofJson json, false) := by
  have hroom : 0 + json.height ≤ depthLimit := (Nat.zero_add _).trans_le h.2
  unfold ofText
  rw [tokens_text h.1, ← List.append_nil json.lexemes, build_lexemes json [] [] hroom]
  rfl

end Document

end ModelSurface.Json
