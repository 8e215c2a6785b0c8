import Treeline.Proofs.Reparse
import Treeline.Proofs.Whole

namespace Treeline

open Document

-- A node is read alike as a whole text and inside the text of another node, unless its tag is a place in the
-- vocabulary: such a tag is understood only inside.

namespace Document

theorem skipBlanks_append {rest : List Char} (blank : skipBlanks rest = []) (text : List Char) :
    skipBlanks (rest ++ text) = skipBlanks text := by
  rw [skipBlanks] at blank
  rw [skipBlanks, List.dropWhile_append, blank]
  rfl

theorem skipBlanks_idem (text : List Char) : skipBlanks (skipBlanks text) = skipBlanks text := by
  induction text with
  | nil => rfl
  | cons c text ih =>
    cases blank : isBlank c with
    | true =>
      have skipped : skipBlanks (c :: text) = skipBlanks text := List.dropWhile_cons_of_pos blank
      rw [skipped, ih]
    | false => rw [skipBlanks_cons blank, skipBlanks_cons blank]

theorem readValue_skipBlanks (fuel levels : Nat) (text : List Char) :
    readValue fuel levels (skipBlanks text) = readValue fuel levels text := by
  rw [readValue.eq_def, skipBlanks_idem, ← readValue.eq_def]

-- A bracket that closes right away holds no value.
theorem nextItem_value {fuel levels : Nat} {text rest : List Char} {d : Document}
    (read : readValue fuel levels text = .ok (d, rest)) : nextItem true text = .ok (.start (skipBlanks text)) := by
  rw [← readValue_skipBlanks] at read
  rw [nextItem.eq_def]
  split
  · next none =>
    rw [none, readValue.eq_def] at read
    cases read
  · next behind closed =>
    have refused := @readValue_beginsNothing ']' rfl fuel levels behind
    rw [closed] at read
    rw [read] at refused
    cases refused
  · next c behind _ found =>
    rw [found]
    rfl

-- A text is read in front of a closing bracket as it is alone.
theorem readValue_closed {source : String} {d : Document} (spelled : ofText? source = some d) {fuel room : Nat}
    (enough : source.toList.length < fuel) (shallow : d.nesting ≤ room) {closing : List Char}
    (ends : EndsNumeral closing) :
    ∃ left, readValue fuel room (source.toList ++ closing) = .ok (d, left) ∧
      skipBlanks left = skipBlanks closing := by
  obtain ⟨rest, read, blank⟩ := of_ofText? spelled
  exact ⟨rest ++ closing, readValue_extend enough read shallow (fun _ => ends), skipBlanks_append blank closing⟩

theorem nextItem_closed {left closing : List Char} (same : skipBlanks left = ']' :: closing) :
    nextItem false left = .ok (.finished closing) := by
  rw [nextItem, same]
  rfl

theorem nextKey_closed {left closing : List Char} (same : skipBlanks left = '\x7d' :: closing) :
    nextKey false left = .ok (.finished closing) := by
  rw [nextKey, same]
  rfl

theorem toList_enclosed (opening source closing : String) :
    (opening ++ source ++ closing).toList = opening.toList ++ (source.toList ++ closing.toList) := by
  rw [String.toList_append, String.toList_append, List.append_assoc]

theorem toList_list (source : String) : ("[" ++ source ++ "]").toList = '[' :: (source.toList ++ [']']) :=
  toList_enclosed "[" source "]"

theorem endsNumeral_bracket : EndsNumeral [']'] := endsNumeral_cons (by decide)

theorem endsNumeral_brace : EndsNumeral ['\x7d'] := endsNumeral_cons (by decide)

theorem readItems_single {item : Reader Document} {text start left closing : List Char} {d : Document}
    (next : nextItem true text = .ok (.start start)) (read : item start = .ok (d, left))
    (closed : skipBlanks left = ']' :: closing) (fuel : Nat) :
    readItems item (fuel + 2) true text = .ok ([d], closing) := by
  rw [readItems, next]
  change (item start >>= _) = _
  rw [read]
  change (readItems item (fuel + 1) false left >>= _) = _
  rw [readItems, nextItem_closed closed]
  rfl

theorem ofText?_list {source : String} {d : Document} (spelled : ofText? source = some d)
    (shallow : d.nesting ≤ nestingLimit - 1) : ofText? ("[" ++ source ++ "]") = some (.array [d]) := by
  have length : ('[' :: (source.toList ++ [']'])).length + 1 = source.toList.length + 1 + 2 := by simp
  have enough : source.toList.length < source.toList.length + 1 + 2 := by omega
  obtain ⟨left, read, closed⟩ := readValue_closed spelled enough shallow endsNumeral_bracket
  have next := nextItem_value read
  rw [← readValue_skipBlanks] at read
  refine @ofText?_of_read _ _ [] ?_ rfl
  rw [toList_list, length]
  refine (readValue_bracket rfl _ (nestingLimit - 1)).trans ?_
  rw [readItems_single next read closed]
  rfl

theorem readEntries_entry {item : Reader Document} {first : Bool} {text start left rest : List Char} {key : String}
    {d : Document} {entries : List (String × Document)} {fuel : Nat}
    (next : nextKey first text = .ok (.start (keyChars key start))) (read : item start = .ok (d, left))
    (others : readEntries item fuel false left = .ok (entries, rest)) :
    readEntries item (fuel + 1) first text = .ok ((key, d) :: entries, rest) := by
  have named := readString_printed key (':' :: start)
  rw [readEntries, next]
  change (readString (keyChars key start) >>= _) = _
  rw [keyChars, named]
  change (item start >>= _) = _
  rw [read]
  change (readEntries item fuel false left >>= _) = _
  rw [others]
  rfl

theorem readEntries_closed {item : Reader Document} {left closing : List Char}
    (closed : skipBlanks left = '\x7d' :: closing) (fuel : Nat) :
    readEntries item (fuel + 1) false left = .ok ([], closing) := by
  rw [readEntries, nextKey_closed closed]
  rfl

theorem nextKey_quote (text : List Char) : nextKey true ('"' :: text) = .ok (.start text) := rfl

theorem readValue_stringChars (fuel levels : Nat) (value : String) (rest : List Char) :
    readValue fuel levels (stringChars value ++ rest) = .ok (.string value, rest) := by
  have quoted : stringChars value ++ rest = '"' :: (value.toList.flatMap escaped ++ '"' :: rest) := by
    simp [stringChars]
  rw [quoted, readValue_quote (skipBlanks_cons rfl _), readString_printed]
  rfl

-- The text of a node with one field beside its tag.
def fieldChars {κ : Type} [Vocabulary κ] (kind : κ) (name : String) (value : List Char) : List Char :=
  '\x7b' :: '"' :: keyChars tagKey
    (stringChars (Vocabulary.spell kind) ++ ',' :: '"' :: keyChars name (value ++ ['\x7d']))

def fieldOpening {κ : Type} [Vocabulary κ] (kind : κ) (name : String) : List Char :=
  '\x7b' :: '"' :: keyChars tagKey (stringChars (Vocabulary.spell kind) ++ ',' :: '"' :: keyChars name [])

theorem fieldChars_eq {κ : Type} [Vocabulary κ] (kind : κ) (name : String) (value : List Char) :
    fieldChars kind name value = fieldOpening kind name ++ (value ++ ['\x7d']) := by
  simp only [fieldChars, fieldOpening, List.cons_append, keyChars_append, List.append_assoc, List.nil_append]

theorem length_fieldChars {κ : Type} [Vocabulary κ] (kind : κ) (name : String) (value : List Char) :
    ∃ fuel, (fieldChars kind name value).length + 1 = fuel + 3 ∧ value.length < fuel + 3 := by
  have long : value.length + 3 ≤ (fieldChars kind name value).length := by
    simp only [fieldChars, keyChars, List.length_cons, List.length_append]
    omega
  exact ⟨(fieldChars kind name value).length - 2, by omega, by omega⟩

theorem ofText?_field {κ : Type} [Vocabulary κ] (kind : κ) (name : String) {source text : String} {d : Document}
    (spelled : ofText? source = some d) (shallow : d.nesting ≤ nestingLimit - 1)
    (written : text.toList = fieldChars kind name source.toList) :
    ofText? text = some (.object [tagEntry kind, (name, d)]) := by
  obtain ⟨fuel, long, enough⟩ := length_fieldChars kind name source.toList
  let item := readValue (fuel + 3) (nestingLimit - 1)
  obtain ⟨left, read, closed⟩ := readValue_closed spelled enough shallow endsNumeral_brace
  have last : readEntries item (fuel + 1) false left = .ok ([], []) := readEntries_closed closed fuel
  have field := readEntries_entry (nextKey_comma (skipBlanks_cons rfl (keyChars name _))) read last
  have tag := readEntries_entry (nextKey_quote (keyChars tagKey _))
    (readValue_stringChars _ _ (Vocabulary.spell kind) _) field
  refine @ofText?_of_read _ _ [] ?_ rfl
  rw [written, long]
  refine (readValue_brace rfl _ (nestingLimit - 1)).trans ?_
  rw [tag]
  rfl

end Document

-- Null is an empty place, so a place is filled just if its value can be read.
theorem placeOf_eq_some_iff {α : Type} {read : Document → Except Fault α} (null : (read .null).toOption = none)
    (d : Document) (a : α) : placeOf read d = some (some a) ↔ (read d).toOption = some a := by
  have filled : ∀ found : Option α, found.map some = some (some a) ↔ found = some a := by
    intro found
    cases found <;> simp
  cases d with
  | null =>
    rw [null]
    constructor <;> rintro ⟨⟩
  | _ => exact filled _

namespace Statement

-- The texts of a block that holds one statement, and of a return of an expression.

def inBlock (source : String) : String := "\x7b\"kind\":\"Block\",\"statements\":[" ++ source ++ "]\x7d"

def inReturn (source : String) : String := "\x7b\"kind\":\"Return\",\"expression\":" ++ source ++ "\x7d"

theorem toList_inBlock (source : String) :
    (inBlock source).toList = fieldChars StatementKind.block "statements" ("[" ++ source ++ "]").toList := by
  have opening : "\x7b\"kind\":\"Block\",\"statements\":[".toList =
      fieldOpening StatementKind.block "statements" ++ ['['] := by decide +kernel
  refine (toList_enclosed _ source _).trans ?_
  rw [opening, fieldChars_eq, toList_list, List.append_assoc, List.cons_append, List.cons_append, List.append_assoc]
  rfl

theorem toList_inReturn (source : String) :
    (inReturn source).toList = fieldChars StatementKind.returning "expression" source.toList := by
  have opening : "\x7b\"kind\":\"Return\",\"expression\":".toList =
      fieldOpening StatementKind.returning "expression" := by decide +kernel
  refine (toList_enclosed _ source _).trans ?_
  rw [opening, fieldChars_eq]
  rfl

variable {source : String} {d : Document}

theorem ofText?_inBlock (spelled : ofText? source = some d) (shallow : d.nesting ≤ 125) :
    ofText? (inBlock source) = some (.object [tagEntry StatementKind.block, ("statements", .array [d])]) := by
  have deeper : (Document.array [d]).nesting ≤ nestingLimit - 1 := by
    change 1 + max d.nesting 0 ≤ 126
    omega
  exact ofText?_field _ _ (ofText?_list spelled (Nat.le_succ_of_le shallow)) deeper (toList_inBlock source)

theorem ofText?_inReturn (spelled : ofText? source = some d) (shallow : d.nesting ≤ 126) :
    ofText? (inReturn source) = some (.object [tagEntry StatementKind.returning, ("expression", d)]) :=
  ofText?_field _ _ spelled shallow (toList_inReturn source)

theorem toOption_ofDocument_block :
    (ofDocument (.object [tagEntry StatementKind.block, ("statements", .array [d])])).toOption =
      (ofDocument d).toOption.map fun t => .block [t] := by
  have many : (reading (.array [d])).many.toOption = (ofDocument d).toOption.map fun t => [t] := by
    rw [many_eq]
    refine (toOption_mapM ofDocument).trans ?_
    rw [List.mapM_cons, List.mapM_nil]
    cases (ofDocument d).toOption <;> rfl
  rw [Statement.decodes.tagged statementKind_faithful _ (by simp [tagKey]), ofBody, Fields.toOption_read, fields,
    blockFields]
  simp only [Fields.toOption_mapped, Fields.toOption_one, Field.name_list, parts_cons, parts_nil, named_cons,
    named_nil, if_true, Field.ofNamed_list, many, Option.map_map]
  rfl

theorem toOption_ofDocument_return :
    (ofDocument (.object [tagEntry StatementKind.returning, ("expression", d)])).toOption =
      (placeOf Expression.ofDocument d).map .returning := by
  rw [Statement.decodes.tagged statementKind_faithful _ (by simp [tagKey]), ofBody, Fields.toOption_read, fields,
    expressionField, childField]
  simp only [Fields.toOption_mapped, Fields.toOption_one, Field.name_place, parts_cons, parts_nil, named_cons,
    named_nil, if_true, ofNamed_childField]

-- The tags of the nodes around are words.

theorem toOption_parse_inBlock (spelled : ofText? source = some d) (shallow : d.nesting ≤ 125) :
    (parse (inBlock source)).toOption = (ofDocument d).toOption.map fun t => .block [t] := by
  have named : (Document.object [tagEntry StatementKind.block, ("statements", .array [d])]).hasIndexTag
      StatementKind = false := rfl
  rw [toOption_parse_text (ofText?_inBlock spelled shallow), named, ← toOption_ofDocument_block]
  rfl

theorem toOption_parse_inReturn (spelled : ofText? source = some d) (shallow : d.nesting ≤ 126) :
    (parse (inReturn source)).toOption = (placeOf Expression.ofDocument d).map .returning := by
  have named : (Document.object [tagEntry StatementKind.returning, ("expression", d)]).hasIndexTag
      StatementKind = false := rfl
  rw [toOption_parse_text (ofText?_inReturn spelled shallow), named, ← toOption_ofDocument_return]
  rfl

theorem parse_inBlock_iff (spelled : ofText? source = some d) (shallow : d.nesting ≤ 125) (t : Statement) :
    parse (inBlock source) = .ok (.block [t]) ↔ (ofDocument d).toOption = some t := by
  rw [eq_ok_iff_toOption, toOption_parse_inBlock spelled shallow, Option.map_eq_some_iff]
  constructor
  · rintro ⟨found, read, same⟩
    cases same
    exact read
  · exact fun read => ⟨t, read, rfl⟩

theorem parse_inReturn_iff (spelled : ofText? source = some d) (shallow : d.nesting ≤ 126) (e : Expression) :
    parse (inReturn source) = .ok (.returning (some e)) ↔ (Expression.ofDocument d).toOption = some e := by
  rw [eq_ok_iff_toOption, toOption_parse_inReturn spelled shallow, Option.map_eq_some_iff,
    ← placeOf_eq_some_iff rfl d e]
  constructor
  · rintro ⟨place, read, same⟩
    cases same
    exact read
  · exact fun read => ⟨some e, read, rfl⟩

end Statement

theorem eq_ok_iff_of_guarded {ε α : Type} {x : Except ε α} {a : α} {indexed : Bool} {read : Option α}
    {inside : Prop} (alone : x.toOption = if indexed then none else read) (same : inside ↔ read = some a) :
    x = .ok a ↔ indexed = false ∧ inside := by
  rw [eq_ok_iff_toOption, alone, same]
  cases indexed <;> simp

-- A statement is read alone as it is read in a block, and an expression as it is read in a return, unless its tag is
-- the place of a word: then it is refused alone.
theorem parse_alone_iff_inside {source : String} {d : Document} (spelled : ofText? source = some d)
    (shallow : d.nesting ≤ 125) :
    (∀ t : Statement, Statement.parse source = .ok t ↔
      d.hasIndexTag StatementKind = false ∧ Statement.parse (Statement.inBlock source) = .ok (.block [t])) ∧
    ∀ e : Expression, Expression.parse source = .ok e ↔
      d.hasIndexTag ExpressionKind = false ∧
        Statement.parse (Statement.inReturn source) = .ok (.returning (some e)) := by
  constructor
  · intro t
    exact eq_ok_iff_of_guarded (Statement.toOption_parse_text spelled)
      (Statement.parse_inBlock_iff spelled shallow t)
  · intro e
    exact eq_ok_iff_of_guarded (Expression.toOption_parse_text spelled)
      (Statement.parse_inReturn_iff spelled (Nat.le_succ_of_le shallow) e)

-- A block by place, in which a tag that is a place is understood, and an expression whose tag comes last.
theorem parse_alone_iff_inside_positional :
    let outer : Document := .array [.string "Block", .array [.array [.integer 4, .array []]]]
    let seven : Document := .object [("value", .integer 7), ("kind", .string "Integer")]
    (ofText? outer.text = some outer ∧ outer.nesting ≤ 125 ∧
      Statement.parse (Statement.inBlock outer.text) = .ok (.block [.block [.block []]])) ∧
    ofText? seven.text = some seven ∧ seven.nesting ≤ 125 ∧
      Statement.parse (Statement.inReturn seven.text) = .ok (.returning (some (.integer 7))) := by
  intro outer seven
  have four : (Document.integer 4).reread = some (.integer 4) := reread_integer_exact (by decide) (by decide)
  have number : (Document.integer 7).reread = some (.integer 7) := reread_integer_exact (by decide) (by decide)
  have spelled : ofText? outer.text = some outer := by
    refine ofText?_text_of_reread ?_ (by decide)
    simp only [outer, reread_array, List.mapM_cons, List.mapM_nil, reread_string, four]
    rfl
  have written : ofText? seven.text = some seven := by
    refine ofText?_text_of_reread ?_ (by decide)
    simp only [seven, reread_object, List.mapM_cons, List.mapM_nil, readEntry, reread_string, number]
    rfl
  have alone : Statement.parse outer.text = .ok (.block [.block []]) := by
    apply eq_ok_of_toOption
    rw [Statement.toOption_parse_text spelled]
    rfl
  have single : Expression.parse seven.text = .ok (.integer 7) := by
    apply eq_ok_of_toOption
    rw [Expression.toOption_parse_text written]
    rfl
  refine ⟨⟨spelled, by decide, ?_⟩, written, by decide, ?_⟩
  · exact (((parse_alone_iff_inside spelled (by decide)).1 _).mp alone).2
  · exact (((parse_alone_iff_inside written (by decide)).2 _).mp single).2

-- The same block is refused alone and read inside another one, because its tag is a place.
theorem index_tag_read_inside_only :
    let d : Document := .object [("kind", .integer 4), ("statements", .array [])]
    d.text = "\x7b\"kind\":4,\"statements\":[]\x7d" ∧ ofText? d.text = some d ∧ d.nesting ≤ 125 ∧
      ¬(Statement.parse d.text = .ok (.block []) ↔
        Statement.parse (Statement.inBlock d.text) = .ok (.block [.block []])) := by
  intro d
  have four : (Document.integer 4).reread = some (.integer 4) := reread_integer_exact (by decide) (by decide)
  have spelled : ofText? d.text = some d := by
    refine ofText?_text_of_reread ?_ (by decide)
    simp only [d, reread_object, reread_array, List.mapM_cons, List.mapM_nil, readEntry, four]
    rfl
  have inside : Statement.parse (Statement.inBlock d.text) = .ok (.block [.block []]) :=
    (Statement.parse_inBlock_iff spelled (by decide) (.block [])).mpr rfl
  have refused : (Statement.parse d.text).toOption = none := by
    rw [Statement.toOption_parse_text spelled]
    rfl
  refine ⟨by decide +kernel, spelled, by decide, ?_⟩
  intro same
  rw [same.mpr inside] at refused
  cases refused

end Treeline
