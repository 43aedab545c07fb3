import Mathlib.Data.List.DropRight
import ModelSurface.Proofs.Engine.Call
import ModelSurface.Render.SchemaText

/-!
# Where descriptions end

A schema document holds the help texts of a registry as block strings: between three quotes on
either side, with a backslash in front of each three quotes within. A reader of the document takes
the first three quotes without a backslash as the end. No quotes in the middle of a text are taken
for that, and what is escaped is read back as it was; but quotes that are left over at the end of a
text are taken for part of the closing ones, and a backslash there escapes them.
-/

namespace ModelSurface

/-! ### Replacement -/

namespace Text

variable {pattern : List Char}

theorem replaceFrom_eq (pattern replacement : List Char) (skip : ℕ) (text : List Char) :
    replaceFrom pattern replacement skip text =
      replaceAll pattern replacement (text.drop skip) := by
  induction text generalizing skip with
  | nil => rw [List.drop_nil, replaceAll, replaceFrom, replaceFrom]
  | cons c rest ih =>
      cases skip with
      | zero => rfl
      | succ skip => exact ih skip

/-- An occurrence of the pattern at the front is replaced. -/
theorem replaceAll_append (h : pattern ≠ []) (replacement rest : List Char) :
    replaceAll pattern replacement (pattern ++ rest) =
      replacement ++ replaceAll pattern replacement rest := by
  obtain ⟨c, others, rfl⟩ := List.exists_cons_of_ne_nil h
  have hprefix : (c :: others).isPrefixOf (c :: (others ++ rest)) = true :=
    List.isPrefixOf_iff_prefix.mpr ⟨rest, rfl⟩
  rw [List.cons_append, replaceAll, replaceFrom, if_pos hprefix, replaceFrom_eq]
  congr
  exact List.drop_left

/-- Where the pattern does not occur the text stays as it is. -/
theorem replaceAll_cons {c : Char} {rest : List Char} (h : ¬ pattern <+: c :: rest)
    (replacement : List Char) :
    replaceAll pattern replacement (c :: rest) = c :: replaceAll pattern replacement rest := by
  rw [replaceAll, replaceFrom, if_neg (mt List.isPrefixOf_iff_prefix.mp h)]
  rfl

end Text

/-! ### Lines of a text -/

theorem exists_around_of_mem {line : String} {lines : List String} (h : line ∈ lines) :
    ∃ before behind, textOfLines lines = before ++ (line ++ "\n") ++ behind := by
  obtain ⟨front, back, rfl⟩ := List.append_of_mem h
  refine ⟨textOfLines front, textOfLines back, ?_⟩
  simp [textOfLines, String.append_assoc]

namespace BlockString

def quotes : List Char := ['"', '"', '"']

def escapedQuotes : List Char := '\\' :: quotes

/-- A text as it stands between the quotes. -/
def escape (text : List Char) : List Char := Text.replaceAll quotes escapedQuotes text

/-- The text that stands between the quotes. -/
def unescape (content : List Char) : List Char := Text.replaceAll escapedQuotes quotes content

/-- Reads a block string behind its opening quotes: what stands in it, and what follows the first
three quotes that are not escaped. -/
def scan : List Char → Option (List Char × List Char)
  | '\\' :: '"' :: '"' :: '"' :: rest =>
    (scan rest).map fun found => (escapedQuotes ++ found.1, found.2)
  | '"' :: '"' :: '"' :: rest => some ([], rest)
  | c :: rest => (scan rest).map fun found => (c :: found.1, found.2)
  | [] => none

/-- Whether quotes that are put behind a text are told from it: of the quotes at its end none are
left over when three at a time are escaped, and it does not end in a backslash. -/
def Closable (text : List Char) : Prop :=
  3 ∣ (text.rtakeWhile (· == '"')).length ∧ text.getLast? ≠ some '\\'

instance : DecidablePred Closable := fun _ => inferInstanceAs (Decidable (_ ∧ _))

theorem toList_blockString (text : String) :
    (blockString text).toList = quotes ++ escape text.toList ++ quotes := by
  unfold blockString
  rw [String.toList_ofList]
  rfl

/-! ### Escaping -/

theorem escape_quotes (rest : List Char) :
    escape (quotes ++ rest) = escapedQuotes ++ escape rest :=
  Text.replaceAll_append (by decide) _ _

theorem escape_plain {c : Char} {rest : List Char} (h : ¬ quotes <+: c :: rest) :
    escape (c :: rest) = c :: escape rest :=
  Text.replaceAll_cons h _

/-- What holds of a text if it holds behind its first character, or behind three quotes at its
front. -/
@[elab_as_elim]
theorem quotes_induction {motive : List Char → Prop} (text : List Char) (nil : motive [])
    (quoted : ∀ rest, motive rest → motive (quotes ++ rest))
    (plain : ∀ c rest, ¬ quotes <+: c :: rest → motive rest → motive (c :: rest)) :
    motive text := by
  induction hlength : text.length using Nat.strong_induction_on generalizing text with
  | _ length ih =>
      subst hlength
      cases text with
      | nil => exact nil
      | cons c rest =>
          by_cases hquotes : quotes <+: c :: rest
          · obtain ⟨behind, hbehind⟩ := hquotes
            rw [← hbehind] at ih ⊢
            exact quoted behind (ih _ (by simp [quotes]; omega) behind rfl)
          · exact plain c rest hquotes (ih _ (by simp) rest rfl)

/-- An escaped text begins with a quote only where the text does, and not with three. -/
theorem starts_of_escape {rest tail further : List Char}
    (h : escape rest ++ tail = '"' :: further) :
    rest = [] ∨ ∃ others, rest = '"' :: others ∧ ¬ quotes <+: rest ∧
      escape others ++ tail = further := by
  induction rest using quotes_induction with
  | nil => exact .inl rfl
  | quoted rest _ =>
      rw [escape_quotes] at h
      cases h
  | plain c rest hplain _ =>
      rw [escape_plain hplain] at h
      obtain ⟨rfl, hfurther⟩ := List.cons.inj h
      exact .inr ⟨rest, rfl, hplain, hfurther⟩

/-- Three quotes begin behind an escaped text at the earliest two quotes before its end. -/
theorem few_of_escape {rest tail : List Char} (h : quotes <+: escape rest ++ tail) :
    rest ∈ [[], ['"'], ['"', '"']] := by
  obtain ⟨behind, hbehind⟩ := h
  rcases starts_of_escape hbehind.symm with rfl | ⟨second, rfl, hplain, hsecond⟩
  · simp
  rcases starts_of_escape hsecond with rfl | ⟨third, rfl, -, hthird⟩
  · simp
  rcases starts_of_escape hthird with rfl | ⟨fourth, rfl, -, -⟩
  · simp
  · exact absurd ⟨fourth, rfl⟩ hplain

/-- An escaped text has no three quotes at its front. -/
theorem not_quotes_escape (text : List Char) : ¬ quotes <+: escape text := by
  intro h
  have hfew : text ∈ [[], ['"'], ['"', '"']] := few_of_escape (by rwa [List.append_nil])
  simp only [List.mem_cons, List.not_mem_nil, or_false] at hfew
  rcases hfew with rfl | rfl | rfl <;> exact absurd h (by decide)

/-- Escaping loses nothing. -/
theorem unescape_escape (text : List Char) : unescape (escape text) = text := by
  induction text using quotes_induction with
  | nil => rfl
  | quoted rest ih =>
      rw [escape_quotes, unescape, Text.replaceAll_append (by decide)]
      exact congrArg (quotes ++ ·) ih
  | plain c rest hplain ih =>
      have hescaped : ¬ escapedQuotes <+: c :: escape rest := fun h =>
        not_quotes_escape rest (List.cons_prefix_cons.mp h).2
      rw [escape_plain hplain, unescape, Text.replaceAll_cons hescaped]
      exact congrArg (c :: ·) ih

/-! ### Scanning -/

theorem scan_quotes (rest : List Char) : scan (quotes ++ rest) = some ([], rest) := rfl

theorem scan_escaped (rest : List Char) : scan (escapedQuotes ++ rest) =
    (scan rest).map fun found => (escapedQuotes ++ found.1, found.2) := rfl

theorem scan_plain {c : Char} {rest : List Char} (hquotes : ¬ quotes <+: c :: rest)
    (hescaped : ¬ escapedQuotes <+: c :: rest) :
    scan (c :: rest) = (scan rest).map fun found => (c :: found.1, found.2) := by
  rw [scan]
  · rintro behind rfl rfl
    exact hescaped ⟨behind, rfl⟩
  · rintro behind rfl rfl
    exact hquotes ⟨behind, rfl⟩

/-- What is read behind some characters is the rest of what is read with them. -/
theorem map_append_eq_some {found : Option (List Char × List Char)}
    {front content after : List Char} :
    (found.map fun found => (front ++ found.1, found.2)) = some (front ++ content, after) ↔
      found = some (content, after) := by
  rw [Option.map_eq_some_iff]
  constructor
  · rintro ⟨⟨content', after'⟩, rfl, heq⟩
    obtain ⟨hcontent, rfl⟩ := Prod.mk.inj heq
    exact congrArg (fun content => some (content, after')) (List.append_cancel_left hcontent)
  · rintro rfl
    exact ⟨_, rfl, rfl⟩

/-! ### The ends of texts -/

theorem rtakeWhile_cons_of_not {α : Type} {p : α → Bool} {a : α} {rest : List α}
    (h : ¬ ∀ b ∈ a :: rest, p b) : (a :: rest).rtakeWhile p = rest.rtakeWhile p := by
  unfold List.rtakeWhile
  rw [List.reverse_cons, List.takeWhile_append]
  split
  · rename_i hall
    have hrest : ∀ b ∈ rest, p b := by
      have hself := (List.takeWhile_sublist (l := rest.reverse) p).eq_of_length hall
      exact fun b hb => List.takeWhile_eq_self_iff.mp hself b (List.mem_reverse.mpr hb)
    have hfirst : ¬ p a := fun ha => h (List.forall_mem_cons.mpr ⟨ha, hrest⟩)
    rw [List.takeWhile_cons_of_neg hfirst, List.append_nil,
      List.takeWhile_eq_self_iff.mpr fun b hb => hrest b (List.mem_reverse.mp hb)]
  · rfl

theorem rtakeWhile_append_of_not {α : Type} {p : α → Bool} (front : List α) {rest : List α}
    (h : ¬ ∀ b ∈ rest, p b) : (front ++ rest).rtakeWhile p = rest.rtakeWhile p := by
  induction front with
  | nil => rfl
  | cons a front ih =>
      have hsome : ¬ ∀ b ∈ a :: (front ++ rest), p b := fun hall =>
        h fun b hb => hall b (List.mem_cons_of_mem a (List.mem_append_right front hb))
      rw [List.cons_append, rtakeWhile_cons_of_not hsome, ih]

theorem closable_quotes (rest : List Char) : Closable (quotes ++ rest) ↔ Closable rest := by
  have hlast : (quotes ++ rest).getLast? ≠ some '\\' ↔ rest.getLast? ≠ some '\\' := by
    cases rest with
    | nil => decide
    | cons c rest => rw [List.getLast?_append_of_ne_nil _ (List.cons_ne_nil c rest)]
  have hcount : 3 ∣ ((quotes ++ rest).rtakeWhile (· == '"')).length ↔
      3 ∣ (rest.rtakeWhile (· == '"')).length := by
    by_cases hall : ∀ c ∈ rest, (c == '"') = true
    · rw [List.rtakeWhile_eq_self_iff.mpr hall, List.rtakeWhile_eq_self_iff.mpr, List.length_append]
      · exact Nat.dvd_add_right (Nat.dvd_refl 3)
      · exact List.forall_mem_append.mpr ⟨by simp [quotes], hall⟩
    · rw [rtakeWhile_append_of_not quotes hall]
  exact and_congr hcount hlast

/-- The ends of texts that take something from the quotes behind them. -/
def clingingEnds : List (List Char) :=
  [['"'], ['"', '"'], ['\\'], ['\\', '"'], ['\\', '"', '"']]

theorem closable_plain {c : Char} {rest : List Char} (hplain : ¬ quotes <+: c :: rest)
    (hend : c :: rest ∉ clingingEnds) : Closable (c :: rest) ↔ Closable rest := by
  have hmixed : ¬ ∀ d ∈ c :: rest, (d == '"') = true := by
    intro hall
    have hsame : c :: rest = List.replicate (rest.length + 1) '"' :=
      List.eq_replicate_of_mem fun d hd => beq_iff_eq.mp (hall d hd)
    rw [hsame] at hplain hend
    match hlength : rest.length with
    | 0 | 1 => exact hend (by rw [hlength]; decide)
    | n + 2 => exact hplain ⟨List.replicate n '"', by rw [hlength]; rfl⟩
  have hlast : (c :: rest).getLast? ≠ some '\\' ↔ rest.getLast? ≠ some '\\' := by
    cases rest with
    | nil =>
        refine iff_of_true (fun h => hend ?_) (by decide)
        obtain rfl : c = '\\' := Option.some.inj h
        decide
    | cons d rest => rw [List.getLast?_cons_cons]
  unfold Closable
  rw [rtakeWhile_cons_of_not hmixed, hlast]

/-- At such an end the string is closed within the closing quotes, or these are escaped. -/
theorem scan_clinging {text : List Char} (h : text ∈ clingingEnds) (after : List Char) :
    scan (escape text ++ (quotes ++ after)) ≠ some (escape text, after) := by
  have hescaped : ∀ behind short, short.length < 4 →
      scan (escapedQuotes ++ behind) ≠ some (short, after) := by
    intro behind short hshort hscan
    rw [scan_escaped] at hscan
    obtain ⟨found, -, heq⟩ := Option.map_eq_some_iff.mp hscan
    rw [← (Prod.mk.inj heq).1, List.length_append] at hshort
    exact absurd hshort (Nat.not_lt.mpr (Nat.le_add_right 4 _))
  simp only [clingingEnds, List.mem_cons, List.not_mem_nil, or_false] at h
  rcases h with rfl | rfl | rfl | rfl | rfl
  · exact fun hscan => by cases hscan
  · exact fun hscan => by cases hscan
  · exact hescaped after _ (by decide)
  · exact hescaped ('"' :: after) _ (by decide)
  · exact hescaped ('"' :: '"' :: after) _ (by decide)

/-- Closing quotes behind an escaped text end the block string exactly if the text can be closed,
whatever comes behind them. -/
theorem scan_escape_iff (text after : List Char) :
    scan (escape text ++ (quotes ++ after)) = some (escape text, after) ↔ Closable text := by
  induction text using quotes_induction with
  | nil => exact iff_of_true (scan_quotes after) (by decide)
  | quoted rest ih =>
      rw [escape_quotes, List.append_assoc, scan_escaped, map_append_eq_some, ih, closable_quotes]
  | plain c rest hplain ih =>
      by_cases hend : c :: rest ∈ clingingEnds
      · have hopen : ∀ text ∈ clingingEnds, ¬ Closable text := by decide
        exact iff_of_false (scan_clinging hend after) (hopen _ hend)
      · have hquotes : ¬ quotes <+: c :: (escape rest ++ (quotes ++ after)) := by
          intro h
          have hfew : c :: rest ∈ [[], ['"'], ['"', '"']] :=
            few_of_escape (by rwa [escape_plain hplain])
          exact hend (by grind [clingingEnds])
        have hescaped : ¬ escapedQuotes <+: c :: (escape rest ++ (quotes ++ after)) := by
          intro h
          obtain ⟨rfl, hrest⟩ := List.cons_prefix_cons.mp h
          have hfew := few_of_escape hrest
          exact hend (by grind [clingingEnds])
        rw [escape_plain hplain, List.cons_append, scan_plain hquotes hescaped,
          closable_plain hplain hend, ← ih]
        exact @map_append_eq_some _ [c] _ _

end BlockString

/-! ### Descriptions in a document -/

namespace Schema

/-- The texts by which a registry describes what it declares. -/
inductive Helps (schema : Schema) : String → Prop
  | model {model : Model} {text : String} (h : model ∈ schema.models)
      (hhelp : model.help = some text) : Helps schema text
  | field {model : Model} {field : Field} {text : String} (h : model ∈ schema.models)
      (hmem : field ∈ model.fields.values) (hhelp : field.help = some text) : Helps schema text
  | relationship {model : Model} {relationship : Relationship} {text : String}
      (h : model ∈ schema.models) (hmem : relationship ∈ model.relationships.values)
      (hhelp : relationship.help = some text) : Helps schema text
  | method {model : Model} {method : Method} {text : String} (h : model ∈ schema.models)
      (hmem : method ∈ model.methods.values) (hhelp : method.help = some text) : Helps schema text

variable {schema : Schema} {text : String}

theorem mem_lines_of_member {declaration : Declaration} {member : Member}
    (hmem : member ∈ declaration.members) (hdescription : member.description = some text) :
    ∀ line ∈ descriptionLines "  " (some text), line ∈ declaration.lines := by
  intro line hline
  have hmember : line ∈ declaration.members.flatMap Member.lines :=
    List.mem_flatMap.mpr ⟨member, hmem, List.mem_append_left _ (hdescription ▸ hline)⟩
  cases declaration with
  | enumeration name values => cases hmem
  | input name members => simp_all [Declaration.lines, Declaration.members]
  | object name description members => simp_all [Declaration.lines, Declaration.members]

theorem mem_types_of_output {model : Model} (h : model ∈ schema.models) :
    (OutputType.ofModel model).declaration ∈ schema.document.types := by
  have hmodel : (OutputType.ofModel model).declaration ∈
      schema.models.flatMap schema.modelDeclarations :=
    List.mem_flatMap.mpr ⟨model, h, List.mem_cons_self⟩
  simp only [document, List.mem_append]
  tauto

theorem mem_types_of_mutations (h : schema.mutations ≠ []) :
    .object BuiltIn.mutation none (schema.mutations.map Operation.member) ∈
      schema.document.types := by
  refine List.mem_append_right _ ?_
  rw [Operation.root, if_neg (mt List.isEmpty_iff.mp h)]
  exact List.mem_singleton_self _

/-- Every help text stands in the document, in the lines of some type. -/
theorem described_of_helps (h : schema.Helps text) :
    ∃ indent, ∃ declaration ∈ schema.document.types,
      ∀ line ∈ descriptionLines indent (some text), line ∈ declaration.lines := by
  have houtput : ∀ model ∈ schema.models, ∀ field ∈ (OutputType.ofModel model).fields,
      field.description = some text → ∃ declaration ∈ schema.document.types,
        ∀ line ∈ descriptionLines "  " (some text), line ∈ declaration.lines := by
    intro model hmodel field hfield hdescription
    exact ⟨_, mem_types_of_output hmodel,
      mem_lines_of_member (List.mem_map_of_mem hfield) hdescription⟩
  cases h with
  | @model model _ hmodel hhelp =>
      refine ⟨"", _, mem_types_of_output hmodel, fun line hline => ?_⟩
      have hdescription : line ∈ descriptionLines "" model.help := by rwa [hhelp]
      exact List.mem_append_left _ (List.mem_append_left _ hdescription)
  | field hmodel hmem hhelp =>
      exact ⟨"  ", houtput _ hmodel _ (List.mem_append_left _ (List.mem_map_of_mem hmem)) hhelp⟩
  | relationship hmodel hmem hhelp =>
      exact ⟨"  ", houtput _ hmodel _ (List.mem_append_right _ (List.mem_map_of_mem hmem)) hhelp⟩
  | @method model method _ hmodel hmem hhelp =>
      have hmutation : Operation.ofMethod model method ∈ schema.mutations :=
        List.mem_filter.mpr ⟨List.mem_flatMap.mpr
          ⟨model, hmodel, List.mem_append_right _ (List.mem_map_of_mem hmem)⟩, rfl⟩
      exact ⟨"  ", _, mem_types_of_mutations (List.ne_nil_of_mem hmutation),
        mem_lines_of_member (List.mem_map_of_mem hmutation) hhelp⟩

theorem exists_around_of_line {document : SchemaDocument} {declaration : Declaration}
    (h : declaration ∈ document.types) {line : String} (hline : line ∈ declaration.lines) :
    ∃ before behind, document.text = before ++ (line ++ "\n") ++ behind := by
  unfold SchemaDocument.text
  refine exists_around_of_mem (List.mem_append_right _ (List.mem_flatMap.mpr ⟨declaration, h, ?_⟩))
  exact List.mem_cons_of_mem _ hline

theorem exists_around_of_helps (h : schema.Helps text) (hsome : text ≠ "") :
    ∃ before behind, schema.document.text = before ++ blockString text ++ behind := by
  obtain ⟨indent, declaration, hdeclaration, hlines⟩ := described_of_helps h
  have hline : indent ++ blockString text ∈ declaration.lines :=
    hlines _ (by simp [descriptionLines, hsome])
  obtain ⟨before, behind, htext⟩ := exists_around_of_line hdeclaration hline
  refine ⟨before ++ indent, "\n" ++ behind, ?_⟩
  rw [htext]
  simp only [String.append_assoc]

end Schema

namespace BlockString

/-- What is read in a block string, and behind it, is what was there. -/
theorem eq_of_scan {text content behind : List Char} (h : scan text = some (content, behind)) :
    text = content ++ quotes ++ behind := by
  fun_induction scan text generalizing content with
  | case1 rest ih =>
      obtain ⟨found, hfound, heq⟩ := Option.map_eq_some_iff.mp h
      obtain ⟨rfl, rfl⟩ := Prod.mk.inj heq
      rw [ih hfound]
      rfl
  | case2 rest =>
      obtain ⟨rfl, rfl⟩ := Prod.mk.inj (Option.some.inj h)
      rfl
  | case3 c rest _ _ ih =>
      obtain ⟨found, hfound, heq⟩ := Option.map_eq_some_iff.mp h
      obtain ⟨rfl, rfl⟩ := Prod.mk.inj heq
      rw [ih hfound]
      rfl
  | case4 => cases h

/-- **Where descriptions end.** A text that describes something is written as one line, whatever the
text: three quotes and what follows them. A reader of block strings who has read the three quotes
finds the end of the string where the line ends, with nothing of the text outside, and gets the text
back without the escapes, exactly if the text can be closed: if no quotes at its end are left over
when three at a time are escaped, and it does not end in a backslash. -/
theorem help_closes_iff (text : String) (hsome : text ≠ "") :
    ∃ inner : List Char,
      (∀ indent, (descriptionLines indent (some text)).map String.toList =
        [indent.toList ++ quotes ++ inner]) ∧
      (∀ schema : Schema, schema.Helps text →
        ∃ before behind, schema.document.text.toList = before ++ quotes ++ inner ++ behind) ∧
      ∀ behind, (∃ content, scan (inner ++ behind) = some (content, behind) ∧
        unescape content = text.toList) ↔ Closable text.toList := by
  refine ⟨escape text.toList ++ quotes, fun indent => ?_, fun schema hhelps => ?_,
    fun behind => ?_⟩
  · rw [descriptionLines, if_neg (by simpa using hsome), List.map_singleton, String.toList_append,
      toList_blockString]
    simp only [List.append_assoc]
  · obtain ⟨before, behind, htext⟩ := Schema.exists_around_of_helps hhelps hsome
    refine ⟨before.toList, behind.toList, ?_⟩
    rw [htext, String.toList_append, String.toList_append, toList_blockString]
    simp only [List.append_assoc]
  · rw [List.append_assoc, ← scan_escape_iff text.toList behind]
    constructor
    · rintro ⟨content, hscan, -⟩
      have hsame := eq_of_scan hscan
      rw [List.append_assoc] at hsame
      rwa [← List.append_cancel_right hsame] at hscan
    · exact fun hscan => ⟨_, hscan, unescape_escape text.toList⟩

theorem help_closes_iff_motto : "say \"\"\"" ≠ "" ∧ ∀ behind,
    ∃ inner content, (descriptionLines "  " (some "say \"\"\"")).map String.toList =
        ["  ".toList ++ quotes ++ inner] ∧
      scan (inner ++ behind) = some (content, behind) ∧
        unescape content = "say \"\"\"".toList := by
  refine ⟨by decide, fun behind => ?_⟩
  obtain ⟨inner, hlines, -, hcloses⟩ := help_closes_iff "say \"\"\"" (by decide)
  obtain ⟨content, hscan, htext⟩ := (hcloses behind).mpr (by decide)
  exact ⟨inner, content, hlines "  ", hscan, htext⟩

/-- A model that is described by a text that ends in a quote, or in a backslash. -/
def mottoRegistry (help : String) : Registry where
  models := [{ name := "Motto", help := some help }]

def mottoSchema (help : String) : Schema := (mottoRegistry help).schema.toOption.getD {}

/-- The quote at the end of a text is left outside of the string, and behind a backslash the string
goes on with what follows in the document. -/
theorem help_breaks_out :
    ((mottoRegistry "say \"yes\"").schema = .ok (mottoSchema "say \"yes\"") ∧
      (mottoSchema "say \"yes\"").Helps "say \"yes\"" ∧
      ∀ behind, scan (escape "say \"yes\"".toList ++ quotes ++ behind) =
        some ("say \"yes".toList, '"' :: behind)) ∧
    (mottoRegistry "C:\\").schema = .ok (mottoSchema "C:\\") ∧
      (mottoSchema "C:\\").Helps "C:\\" ∧
      scan (escape "C:\\".toList ++ quotes ++ "\ntype Motto".toList) = none := by
  have hhelps : ∀ help, (∃ model ∈ (mottoSchema help).models, model.help = some help) →
      (mottoSchema help).Helps help := fun help ⟨model, hmodel, hhelp⟩ => .model hmodel hhelp
  refine ⟨⟨Registry.schema_eq_ok {} (by decide +kernel), hhelps _ (by decide +kernel),
    fun behind => rfl⟩, Registry.schema_eq_ok {} (by decide +kernel), hhelps _ (by decide +kernel),
    by decide +kernel⟩

end BlockString

end ModelSurface
