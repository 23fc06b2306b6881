import KindScript.Proofs.Dumps.Delimiting

/-!
# Indented JSON texts

The indented form of a value, said line by line: every item and every field of a filled array
or object stands on a line of its own, two spaces further in than its brackets. It is the compact
text with white space between its parts, so it determines the value and its own end as that
text does.
-/

namespace KindScript.Json

/-! ## The form -/

/-- The escape of a character: a short one where there is one, a long one for any other control,
and the character itself else. -/
inductive Escape : Char → String → Prop where
  | quote : Escape '"' "\\\""
  | slash : Escape '\\' "\\\\"
  | back : Escape '\x08' "\\b"
  | feed : Escape '\x0c' "\\f"
  | line : Escape '\n' "\\n"
  | carriage : Escape '\r' "\\r"
  | tab : Escape '\t' "\\t"
  | control {c : Char} (control : c.toNat < 32)
    (long : c ∉ ['\x08', '\x0c', '\n', '\r', '\t']) :
    Escape c ("\\u00" ++ String.ofList [Nat.digitChar (c.toNat / 16), Nat.digitChar (c.toNat % 16)])
  | plain {c : Char} (ink : 32 ≤ c.toNat) (quote : c ≠ '"') (slash : c ≠ '\\') :
    Escape c (String.singleton c)

/-- Characters, each by its escape. -/
inductive Escapes : List Char → String → Prop where
  | nil : Escapes [] ""
  | cons {c : Char} {cs : List Char} {text more : String} (first : Escape c text)
    (rest : Escapes cs more) : Escapes (c :: cs) (text ++ more)

/-- A string between its quotes. -/
inductive Quoted : String → String → Prop where
  | intro {text inner : String} (each : Escapes text.toList inner) :
    Quoted text ("\"" ++ inner ++ "\"")

/-- The white space before what stands at a level. -/
def margin (level : Nat) : String :=
  String.join (List.replicate level "  ")

mutual

/-- The text of a value whose last line stands at a level. -/
inductive Indented : Nat → Json → String → Prop where
  | null {level : Nat} : Indented level .null "null"
  | yes {level : Nat} : Indented level (.boolean true) "true"
  | no {level : Nat} : Indented level (.boolean false) "false"
  | number {level : Nat} {text : String} : Indented level (.number text) text
  | string {level : Nat} {text written : String} (quoted : Quoted text written) :
    Indented level (.string text) written
  | noItems {level : Nat} : Indented level (.array []) "[]"
  | array {level : Nat} {items : List Json} {lines : String}
    (inner : ItemLines (level + 1) items lines) :
    Indented level (.array items) ("[\n" ++ lines ++ "\n" ++ margin level ++ "]")
  | noFields {level : Nat} : Indented level (.object []) "\x7b\x7d"
  | object {level : Nat} {fields : List (String × Json)} {lines : String}
    (inner : FieldLines (level + 1) fields lines) :
    Indented level (.object fields) ("\x7b\n" ++ lines ++ "\n" ++ margin level ++ "\x7d")

/-- The lines of the items of an array, of which there is one at least. -/
inductive ItemLines : Nat → List Json → String → Prop where
  | last {level : Nat} {item : Json} {text : String} (writes : Indented level item text) :
    ItemLines level [item] (margin level ++ text)
  | cons {level : Nat} {item : Json} {items : List Json} {text lines : String}
    (writes : Indented level item text) (more : ItemLines level items lines) :
    ItemLines level (item :: items) (margin level ++ text ++ ",\n" ++ lines)

/-- The lines of the fields of an object, of which there is one at least. -/
inductive FieldLines : Nat → List (String × Json) → String → Prop where
  | last {level : Nat} {name key text : String} {value : Json} (quoted : Quoted name key)
    (writes : Indented level value text) :
    FieldLines level [(name, value)] (margin level ++ key ++ ": " ++ text)
  | cons {level : Nat} {name key text lines : String} {value : Json}
    {fields : List (String × Json)} (quoted : Quoted name key)
    (writes : Indented level value text) (more : FieldLines level fields lines) :
    FieldLines level ((name, value) :: fields)
      (margin level ++ key ++ ": " ++ text ++ ",\n" ++ lines)

end

/-! ## Strings -/

section Strings

variable {c : Char} {text written : String}

theorem escape_escapedChar (c : Char) : Escape c (escapedChar c) := by
  unfold escapedChar
  split
  case h_8 quote slash back feed line carriage tab =>
    split
    · rename_i control
      refine .control control fun short => ?_
      simp only [List.mem_cons, List.not_mem_nil, or_false] at short
      rcases short with same | same | same | same | same
      · exact back same
      · exact feed same
      · exact line same
      · exact carriage same
      · exact tab same
    · rename_i ink
      exact .plain (Nat.le_of_not_lt ink) quote slash
  case h_1 => exact .quote
  case h_2 => exact .slash
  case h_3 => exact .back
  case h_4 => exact .feed
  case h_5 => exact .line
  case h_6 => exact .carriage
  case h_7 => exact .tab

theorem Escape.eq (escape : Escape c text) : text = escapedChar c := by
  cases escape with
  | quote | slash | back | feed | line | carriage | tab => rfl
  | control control long =>
    simp only [List.mem_cons, List.not_mem_nil, or_false, not_or] at long
    obtain ⟨back, feed, line, carriage, tab⟩ := long
    rw [escapedChar, if_pos control]
    · rfl
    · rintro rfl
      exact absurd control (by decide)
    · rintro rfl
      exact absurd control (by decide)
    · exact back
    · exact feed
    · exact line
    · exact carriage
    · exact tab
  | plain ink quote slash =>
    rw [escapedChar, if_neg (Nat.not_lt_of_le ink)]
    · rfl
    · exact quote
    · exact slash
    all_goals
      rintro rfl
      exact absurd ink (by decide)

theorem quoted_stringText (text : String) : Quoted text (stringText text) := by
  have each : Escapes text.toList (String.join (text.toList.map escapedChar)) := by
    induction text.toList with
    | nil => exact .nil
    | cons c cs ih =>
      rw [List.map_cons, String.join_cons]
      exact .cons (escape_escapedChar c) ih
  exact .intro each

theorem Escapes.eq {cs : List Char} (each : Escapes cs text) :
    text = String.join (cs.map escapedChar) := by
  induction each with
  | nil => rfl
  | cons first _ ih => rw [List.map_cons, String.join_cons, ← first.eq, ← ih]

theorem Quoted.eq (quoted : Quoted text written) : written = stringText text := by
  cases quoted with
  | intro each => rw [each.eq, stringText]

end Strings

/-! ## Lines -/

/-- Texts on lines of their own, with a comma after each but the last. -/
def joinLines (level : Nat) : List String → String
  | [] => ""
  | [text] => margin level ++ text
  | text :: next :: more => margin level ++ text ++ ",\n" ++ joinLines level (next :: more)

theorem toList_margin (level : Nat) : (margin level).toList = List.replicate (2 * level) ' ' := by
  rw [margin, String.toList_join]
  induction level with
  | zero => rfl
  | succ level ih =>
    rw [List.replicate_succ, List.flatMap_cons, ih, Nat.mul_succ, Nat.add_comm,
      List.replicate_add]
    rfl

theorem lineBreak_eq (level : Nat) : lineBreak level = "\n" ++ margin level := by
  rw [lineBreak, ← toList_margin, String.ofList_toList]

theorem margin_intercalate (level : Nat) (text : String) (more : List String) :
    margin level ++ ("," ++ lineBreak level).intercalate (text :: more) =
      joinLines level (text :: more) := by
  have comma : ",\n" = "," ++ "\n" := rfl
  induction more generalizing text with
  | nil => rw [String.intercalate_singleton, joinLines]
  | cons next more ih =>
    rw [String.intercalate_cons_cons, joinLines, ← ih next, lineBreak_eq, comma]
    simp only [String.append_assoc]

theorem onLines_cons (level : Nat) (left right text : String) (more : List String) :
    onLines level left right (text :: more) =
      left ++ "\n" ++ joinLines (level + 1) (text :: more) ++ "\n" ++ margin level ++ right := by
  calc onLines level left right (text :: more)
    _ = left ++ "\n" ++
          (margin (level + 1) ++ ("," ++ lineBreak (level + 1)).intercalate (text :: more)) ++
          lineBreak level ++ right := by
      simp only [onLines, List.isEmpty_cons, Bool.false_eq_true, if_false, lineBreak_eq,
        String.append_assoc]
    _ = left ++ "\n" ++ joinLines (level + 1) (text :: more) ++ "\n" ++ margin level ++ right := by
      rw [margin_intercalate, lineBreak_eq]
      simp only [String.append_assoc]

mutual

theorem indented_pretty : (level : Nat) → (json : Json) → Indented level json (json.pretty level)
  | _, .null => .null
  | _, .boolean true => .yes
  | _, .boolean false => .no
  | _, .number _ => .number
  | _, .string text => .string (quoted_stringText text)
  | _, .array [] => .noItems
  | level, .array (item :: items) => by
    rw [pretty, prettyItems, onLines_cons]
    exact .array (itemLines_pretty (level + 1) (item :: items) nofun)
  | _, .object [] => .noFields
  | level, .object (field :: fields) => by
    rw [pretty, prettyFields, onLines_cons]
    exact .object (fieldLines_pretty (level + 1) (field :: fields) nofun)

theorem itemLines_pretty : (level : Nat) → (items : List Json) → items ≠ [] →
    ItemLines level items (joinLines level (prettyItems level items))
  | level, [item], _ => .last (indented_pretty level item)
  | level, item :: next :: items, _ =>
    .cons (indented_pretty level item) (itemLines_pretty level (next :: items) nofun)

theorem fieldLines_pretty : (level : Nat) → (fields : List (String × Json)) → fields ≠ [] →
    FieldLines level fields (joinLines level (prettyFields level fields))
  | level, [(name, value)], _ => by
    rw [prettyFields, prettyFields, joinLines, ← String.append_assoc, ← String.append_assoc]
    exact .last (quoted_stringText name) (indented_pretty level value)
  | level, (name, value) :: next :: fields, _ => by
    rw [prettyFields, prettyFields, joinLines, ← String.append_assoc, ← String.append_assoc]
    exact .cons (quoted_stringText name) (indented_pretty level value)
      (fieldLines_pretty level (next :: fields) nofun)

end

mutual

theorem Indented.eq {level : Nat} {json : Json} {text : String} :
    Indented level json text → text = json.pretty level
  | .null => rfl
  | .yes => rfl
  | .no => rfl
  | .number => rfl
  | .string quoted => quoted.eq
  | .noItems => rfl
  | .array inner => by
    obtain ⟨item, items, rfl, lines_eq⟩ := inner.eq
    rw [pretty, prettyItems, onLines_cons, lines_eq, prettyItems]
    rfl
  | .noFields => rfl
  | .object inner => by
    obtain ⟨field, fields, rfl, lines_eq⟩ := inner.eq
    rw [pretty, prettyFields, onLines_cons, lines_eq, prettyFields]
    rfl

theorem ItemLines.eq {level : Nat} {items : List Json} {lines : String} :
    ItemLines level items lines →
      ∃ item more, items = item :: more ∧ lines = joinLines level (prettyItems level items)
  | .last writes => ⟨_, _, rfl, by rw [writes.eq]; rfl⟩
  | .cons writes more => by
    obtain ⟨item, items, rfl, lines_eq⟩ := more.eq
    refine ⟨_, _, rfl, ?_⟩
    rw [writes.eq, lines_eq]
    rfl

theorem FieldLines.eq {level : Nat} {fields : List (String × Json)} {lines : String} :
    FieldLines level fields lines →
      ∃ field more, fields = field :: more ∧ lines = joinLines level (prettyFields level fields)
  | .last quoted writes => by
    refine ⟨_, _, rfl, ?_⟩
    rw [quoted.eq, writes.eq, prettyFields, prettyFields, joinLines, ← String.append_assoc,
      ← String.append_assoc]
  | .cons quoted writes more => by
    obtain ⟨⟨name, value⟩, fields, rfl, lines_eq⟩ := more.eq
    refine ⟨_, _, rfl, ?_⟩
    rw [quoted.eq, writes.eq, lines_eq]
    simp only [prettyFields, joinLines, String.append_assoc]

end

/-! ## White space -/

/-- The text without the white space that stands outside of its strings; it may begin inside
one. -/
def dense : Bool → List Char → List Char
  | _, [] => []
  | false, '"' :: rest => '"' :: dense true rest
  | false, c :: rest => if isSpace c then dense false rest else c :: dense false rest
  | true, '\\' :: c :: rest => '\\' :: c :: dense true rest
  | true, '"' :: rest => '"' :: dense false rest
  | true, c :: rest => c :: dense true rest

section Dense

variable {c : Char} {cs r : List Char}

theorem dense_space (space : isSpace c = true) : dense false (c :: r) = dense false r := by
  rw [dense, if_pos space]
  rintro rfl
  cases space

theorem dense_ink (ink : isSpace c = false) (quote : c ≠ '"') :
    dense false (c :: r) = c :: dense false r := by
  rw [dense, if_neg (by rw [ink]; exact Bool.false_ne_true)]
  exact quote

theorem dense_inside (quote : c ≠ '"') (slash : c ≠ '\\') :
    dense true (c :: r) = c :: dense true r := by
  rw [dense]
  · rintro _ _ rfl
    exact absurd rfl slash
  · exact quote

theorem dense_spaces (spaces : ∀ c ∈ cs, isSpace c = true) :
    dense false (cs ++ r) = dense false r := by
  induction cs with
  | nil => rfl
  | cons c cs ih =>
    obtain ⟨first, more⟩ := List.forall_mem_cons.mp spaces
    rw [List.cons_append, dense_space first, ih more]

theorem dense_inks (ink : ∀ c ∈ cs, isSpace c = false ∧ c ≠ '"') :
    dense false (cs ++ r) = cs ++ dense false r := by
  induction cs with
  | nil => rfl
  | cons c cs ih =>
    obtain ⟨first, more⟩ := List.forall_mem_cons.mp ink
    rw [List.cons_append, dense_ink first.1 first.2, ih more, List.cons_append]

theorem isSpace_of_lead {form : Form} (lead : Form.ofLead? c = some form) :
    isSpace c = false := by
  cases space : isSpace c with
  | false => rfl
  | true =>
    simp only [isSpace, Bool.or_eq_true, decide_eq_true_eq] at space
    rcases space with ((rfl | rfl) | rfl) | rfl <;> cases lead

theorem ink_of_isNumeric (numeric : isNumeric c = true) : isSpace c = false ∧ c ≠ '"' := by
  refine ⟨isSpace_of_lead (if_pos numeric), ?_⟩
  rintro rfl
  cases numeric

theorem dense_margin (level : Nat) :
    dense false ((margin level).toList ++ r) = dense false r := by
  refine dense_spaces fun c mem => ?_
  rw [toList_margin] at mem
  rw [List.eq_of_mem_replicate mem]
  rfl

theorem dense_escapedChar (c : Char) (r : List Char) :
    dense true ((escapedChar c).toList ++ r) = (escapedChar c).toList ++ dense true r := by
  have digit (n : Nat) (small : n < 16) : Nat.digitChar n ≠ '"' ∧ Nat.digitChar n ≠ '\\' := by
    have all : ∀ n < 16, Nat.digitChar n ≠ '"' ∧ Nat.digitChar n ≠ '\\' := by decide
    exact all n small
  unfold escapedChar
  split
  case h_8 quote slash _ _ _ _ _ =>
    split
    · rename_i control
      obtain ⟨high, high'⟩ := digit (c.toNat / 16) (by omega)
      obtain ⟨low, low'⟩ := digit (c.toNat % 16) (by omega)
      have code : (controlEscape c).toList = ['\\', 'u', '0', '0',
          Nat.digitChar (c.toNat / 16), Nat.digitChar (c.toNat % 16)] := by
        rw [controlEscape, String.toList_append, String.toList_ofList, String.toList_ofList]
        rfl
      have zero {r : List Char} : dense true ('0' :: r) = '0' :: dense true r :=
        dense_inside (by decide) (by decide)
      rw [code]
      simp only [List.cons_append, List.nil_append]
      rw [dense, zero, zero, dense_inside high high', dense_inside low low']
    · have alone : c.toString.toList = [c] := String.toList_singleton c
      rw [alone]
      exact dense_inside quote slash
  all_goals rfl

theorem dense_stringText (text : String) (r : List Char) :
    dense false ((stringText text).toList ++ r) = (stringText text).toList ++ dense false r := by
  have inside : dense true (escaped text ++ '"' :: r) = escaped text ++ '"' :: dense false r := by
    unfold escaped
    induction text.toList with
    | nil => rfl
    | cons c cs ih =>
      rw [List.flatMap_cons, List.append_assoc, dense_escapedChar, ih, List.append_assoc]
  rw [toList_stringText, List.cons_append, List.append_assoc, List.singleton_append,
    List.cons_append, List.append_assoc, List.singleton_append, ← inside]
  rfl

/-- What stands between brackets, on lines of its own, keeps nothing of the lines. -/
theorem dense_between (left right : Char) (level : Nat) {lines : String}
    (ink : isSpace left = false ∧ left ≠ '"') (ink' : isSpace right = false ∧ right ≠ '"')
    (inner : ∀ r, dense false (lines.toList ++ r) = cs ++ dense false r) (r : List Char) :
    dense false (left :: '\n' :: (lines.toList ++ '\n' :: ((margin level).toList ++ right :: r))) =
      left :: (cs ++ right :: dense false r) := by
  rw [dense_ink ink.1 ink.2, dense_space rfl, inner, dense_space rfl, dense_margin,
    dense_ink ink'.1 ink'.2]

end Dense

mutual

/-- Without its white space, the indented text of a value is its compact text. -/
theorem Indented.dense_append {level : Nat} {json : Json} {text : String} (r : List Char) :
    Indented level json text → Plain json →
      dense false (text.toList ++ r) = json.compact.toList ++ dense false r
  | .null, _ => rfl
  | .yes, _ => rfl
  | .no, _ => rfl
  | .number, .number _ numeric => dense_inks fun c mem => ink_of_isNumeric (numeric c mem)
  | .string quoted, _ => by
    rw [quoted.eq]
    exact dense_stringText _ r
  | .noItems, _ => rfl
  | .array inner, .array plain => by
    have between := dense_between '[' ']' level (by decide) (by decide)
      (fun r => inner.dense_append r plain) r
    rw [toList_compact_array, List.cons_append, List.append_assoc]
    simp only [String.toList_append, List.append_assoc]
    exact between
  | .noFields, _ => rfl
  | .object inner, .object plain => by
    have between := dense_between '\x7b' '\x7d' level (by decide) (by decide)
      (fun r => inner.dense_append r plain) r
    rw [toList_compact_object, List.cons_append, List.append_assoc]
    simp only [String.toList_append, List.append_assoc]
    exact between

theorem ItemLines.dense_append {level : Nat} {items : List Json} {lines : String} (r : List Char) :
    ItemLines level items lines → (∀ item ∈ items, Plain item) →
      dense false (lines.toList ++ r) =
        separated (fun item => item.compact.toList) items ++ dense false r
  | .last writes, plain => by
    rw [String.toList_append, List.append_assoc, dense_margin,
      writes.dense_append r (plain _ List.mem_cons_self), separated, later, List.flatMap_nil,
      List.append_nil]
  | .cons writes more, plain => by
    obtain ⟨first, rest⟩ := List.forall_mem_cons.mp plain
    have comma {r : List Char} : dense false (",\n".toList ++ r) = ',' :: dense false r := rfl
    simp only [String.toList_append, List.append_assoc]
    rw [dense_margin, writes.dense_append _ first, comma, more.dense_append r rest]
    obtain ⟨next, items, rfl, _⟩ := more.eq
    simp [separated, later]

theorem FieldLines.dense_append {level : Nat} {fields : List (String × Json)} {lines : String}
    (r : List Char) : FieldLines level fields lines → (∀ field ∈ fields, Plain field.2) →
      dense false (lines.toList ++ r) = separated fieldText fields ++ dense false r
  | .last quoted writes, plain => by
    have colon {r : List Char} : dense false (": ".toList ++ r) = ':' :: dense false r := rfl
    simp only [String.toList_append, List.append_assoc]
    rw [dense_margin, quoted.eq, dense_stringText, colon,
      writes.dense_append r (plain _ List.mem_cons_self)]
    simp [separated, later, fieldText]
  | .cons quoted writes more, plain => by
    obtain ⟨first, rest⟩ := List.forall_mem_cons.mp plain
    have colon {r : List Char} : dense false (": ".toList ++ r) = ':' :: dense false r := rfl
    have comma {r : List Char} : dense false (",\n".toList ++ r) = ',' :: dense false r := rfl
    simp only [String.toList_append, List.append_assoc]
    rw [dense_margin, quoted.eq, dense_stringText, colon, writes.dense_append _ first, comma,
      more.dense_append r rest]
    obtain ⟨next, fields, rfl, _⟩ := more.eq
    simp [separated, later, fieldText]

end

section Determined

variable {level : Nat} {a b : Json} {text text' : String} {r s : List Char}

/-- The indented text of a value is the one that is printed. -/
theorem indented_iff : Indented level a text ↔ text = a.pretty level :=
  ⟨Indented.eq, fun same => same ▸ indented_pretty level a⟩

/-- The indented text is the compact one with white space between its parts. -/
theorem dense_pretty (level : Nat) (plain : Plain a) :
    dense false (a.pretty level).toList = a.compact.toList := by
  have packed := (indented_pretty level a).dense_append [] plain
  rwa [List.append_nil, dense, List.append_nil] at packed

/-- No two values have the same indented text. -/
theorem pretty_injective (plain : Plain a) (plain' : Plain b)
    (same : a.pretty level = b.pretty level) : a = b := by
  have packed := congrArg (fun text => dense false text.toList) same
  simp only [dense_pretty level plain, dense_pretty level plain'] at packed
  exact compact_injective plain plain' (String.toList_inj.mp packed)

/-- An indented text determines the value, and where its text ends. -/
theorem Indented.delimited (writes : Indented level a text) (writes' : Indented level b text')
    (plain : Plain a) (plain' : Plain b) (stops : Stops (dense false r))
    (stops' : Stops (dense false s)) (same : text.toList ++ r = text'.toList ++ s) :
    a = b ∧ r = s := by
  have packed := congrArg (dense false) same
  rw [writes.dense_append r plain, writes'.dense_append s plain'] at packed
  obtain ⟨rfl, _⟩ := plain.delimited plain' stops stops' packed
  rw [writes.eq, writes'.eq] at same
  exact ⟨rfl, List.append_cancel_left same⟩

end Determined

end KindScript.Json
