import KindScript.Json
import KindScript.Json.Reader
import KindScript.Proofs.Scanning.Words
import Mathlib

/-!
# JSON texts show where they end

A compact JSON text determines its value and its own end: whatever follows it, no other value
has a text that begins the same way. Only a number runs on into what follows, so what follows
must begin with no character of a number.
-/

namespace KindScript.Json

/-! ## Strings -/

section Strings

variable {paired : Bool} {c : Char} {s r : List Char}

theorem takeString_short {mark : Char} (short : shortEscape? mark = some c) :
    takeString paired ('\\' :: mark :: s) = (takeString paired s).map (push c) := by
  rw [takeString, short]
  · rintro _ _ _ _ _ rfl
    cases short
  · rintro rfl
    cases short

theorem takeString_long {a₁ a₂ a₃ a₄ : Char} (code : codeUnit? a₁ a₂ a₃ a₄ = some c.toNat) :
    takeString paired ('\\' :: 'u' :: a₁ :: a₂ :: a₃ :: a₄ :: s) =
      (takeString paired s).map (push c) := by
  have whole : isFirstHalf c.toNat = false ∧ isSecondHalf c.toNat = false := by
    have valid : c.toNat < 0xD800 ∨ 0xDFFF < c.toNat ∧ c.toNat < 0x110000 := c.valid
    simp only [isFirstHalf, isSecondHalf, Bool.and_eq_false_iff, decide_eq_false_iff_not]
    omega
  rw [takeString.eq_def]
  simp only [code, whole.1, whole.2, Bool.and_false, Bool.false_eq_true, if_false,
    Char.ofNat_toNat]

theorem takeString_plain (ink : 32 ≤ c.toNat) (quote : c ≠ '"') (slash : c ≠ '\\') :
    takeString paired (c :: s) = (takeString paired s).map (push c) := by
  rw [takeString, if_neg (Nat.not_lt_of_le ink)]
  · exact quote
  · exact fun _ _ _ _ _ same => absurd same slash
  · exact fun _ same => absurd same slash
  · exact fun _ _ same => absurd same slash

theorem codeUnit?_control {n : Nat} (control : n < 32) :
    codeUnit? '0' '0' (Nat.digitChar (n / 16)) (Nat.digitChar (n % 16)) = some n := by
  have all : ∀ n < 32,
      codeUnit? '0' '0' (Nat.digitChar (n / 16)) (Nat.digitChar (n % 16)) = some n := by decide
  exact all n control

/-- Reading an escaped character gives the character, whatever follows. -/
theorem takeString_escapedChar (c : Char) (s : List Char) :
    takeString paired ((escapedChar c).toList ++ s) = (takeString paired s).map (push c) := by
  unfold escapedChar
  split
  case h_8 quote slash back feed line carriage tab =>
    split
    · rename_i control
      have code : (controlEscape c).toList = ['\\', 'u', '0', '0',
          Nat.digitChar (c.toNat / 16), Nat.digitChar (c.toNat % 16)] := by
        rw [controlEscape, String.toList_append, String.toList_ofList, String.toList_ofList]
        rfl
      rw [code]
      exact takeString_long (codeUnit?_control control)
    · rename_i ink
      have alone : c.toString.toList = [c] := String.toList_singleton c
      rw [alone]
      exact takeString_plain (Nat.le_of_not_lt ink) quote slash
  all_goals exact takeString_short rfl

/-- The text of a string between its quotes. -/
def escaped (text : String) : List Char :=
  text.toList.flatMap fun c => (escapedChar c).toList

theorem toList_stringText (text : String) :
    (stringText text).toList = '"' :: (escaped text ++ ['"']) := by
  rw [stringText, String.toList_append, String.toList_append, String.toList_join,
    List.flatMap_map]
  rfl

theorem takeString_escaped (text : String) (r : List Char) :
    takeString paired (escaped text ++ '"' :: r) = .ok (text.toList, r) := by
  unfold escaped
  induction text.toList with
  | nil => exact takeString.eq_def _ _
  | cons c more ih =>
    rw [List.flatMap_cons, List.append_assoc, takeString_escapedChar, ih]
    rfl

/-- The text of a string determines the string, and where its text ends. -/
theorem stringText_append_injective {text text' : String}
    (same : (stringText text).toList ++ r = (stringText text').toList ++ s) :
    text = text' ∧ r = s := by
  rw [toList_stringText, toList_stringText, List.cons_append, List.cons_append,
    List.append_assoc, List.append_assoc] at same
  have read := congrArg (takeString true) (List.cons.inj same).2
  rw [List.singleton_append, List.singleton_append, takeString_escaped, takeString_escaped] at read
  obtain ⟨text_eq, rest_eq⟩ := Prod.mk.inj (Except.ok.inj read)
  exact ⟨String.toList_inj.mp text_eq, rest_eq⟩

end Strings

/-! ## Values -/

/-- A character of the texts of numbers. -/
def isNumeric (c : Char) : Bool :=
  c.isDigit || ['.', 'e', 'E', '+', '-'].contains c

/-- Every number in the value is written with characters of numbers, and with one at least. -/
inductive Plain : Json → Prop where
  | null : Plain .null
  | boolean (b : Bool) : Plain (.boolean b)
  | number {text : String} (some : text.toList ≠ [])
    (numeric : ∀ c ∈ text.toList, isNumeric c = true) : Plain (.number text)
  | string (text : String) : Plain (.string text)
  | array {items : List Json} (plain : ∀ item ∈ items, Plain item) : Plain (.array items)
  | object {fields : List (String × Json)} (plain : ∀ field ∈ fields, Plain field.2) :
    Plain (.object fields)

/-- What tells the forms of values apart by their first characters. -/
inductive Form where
  | null
  | truth (b : Bool)
  | number
  | string
  | array
  | object
deriving DecidableEq

def form : Json → Form
  | null => .null
  | boolean b => .truth b
  | number _ => .number
  | string _ => .string
  | array _ => .array
  | object _ => .object

/-- The form of the values whose texts begin with the character. -/
def Form.ofLead? (c : Char) : Option Form :=
  if isNumeric c then some .number
  else [('n', null), ('t', truth true), ('f', truth false), ('"', string), ('[', array),
    ('\x7b', object)].lookup c

/-- The rest does not go on with a number. -/
def Stops (rest : List Char) : Prop :=
  ∀ c ∈ rest.head?, isNumeric c = false

/-! ## Runs of values -/

section Runs

variable {α : Type} {encode : α → List Char} {close : Char} {as bs : List α} {r s : List Char}

/-- The texts of some things, each after a comma. -/
def later (encode : α → List Char) (as : List α) : List Char :=
  as.flatMap fun a => ',' :: encode a

/-- The texts of some things, with commas between them. -/
def separated (encode : α → List Char) : List α → List Char
  | [] => []
  | a :: more => encode a ++ later encode more

theorem toList_intercalate (texts : List String) :
    (",".intercalate texts).toList = separated String.toList texts := by
  cases texts with
  | nil => rfl
  | cons first more =>
    induction more generalizing first with
    | nil => simp [separated, later]
    | cons second more ih =>
      rw [String.intercalate_cons_cons, String.toList_append, ih, String.toList_append]
      simp [separated, later]

theorem stops_later (stop : isNumeric close = false) (as : List α) (r : List Char) :
    Stops (later encode as ++ close :: r) := by
  intro c mem
  cases as with
  | nil => exact Option.some.inj mem ▸ stop
  | cons => exact Option.some.inj mem ▸ rfl

/-- The texts of two things are the same only where the things are, and they end at the same
place. -/
def Delimited (encode : α → List Char) (a b : α) : Prop :=
  ∀ {r s}, Stops r → Stops s → encode a ++ r = encode b ++ s → a = b ∧ r = s

theorem later_append_injective (stop : isNumeric close = false) (comma : close ≠ ',')
    (each : ∀ a ∈ as, ∀ b ∈ bs, Delimited encode a b)
    (same : later encode as ++ close :: r = later encode bs ++ close :: s) : as = bs ∧ r = s := by
  induction as generalizing bs with
  | nil =>
    cases bs with
    | nil => exact ⟨rfl, (List.cons.inj same).2⟩
    | cons b bs => exact absurd (List.cons.inj same).1 comma
  | cons a as ih =>
    cases bs with
    | nil => exact absurd (List.cons.inj same).1.symm comma
    | cons b bs =>
      have inner : encode a ++ (later encode as ++ close :: r) =
          encode b ++ (later encode bs ++ close :: s) := by
        simpa [later] using same
      obtain ⟨rfl, rest⟩ := each a List.mem_cons_self b List.mem_cons_self
        (stops_later stop as r) (stops_later stop bs s) inner
      obtain ⟨rfl, rfl⟩ := ih (fun a ina b inb => each a (List.mem_cons_of_mem _ ina) b
        (List.mem_cons_of_mem _ inb)) rest
      exact ⟨rfl, rfl⟩

theorem separated_append_injective (stop : isNumeric close = false) (comma : close ≠ ',')
    (opens : ∀ a ∈ as ++ bs, ∃ c cs, encode a = c :: cs ∧ c ≠ close)
    (each : ∀ a ∈ as, ∀ b ∈ bs, Delimited encode a b)
    (same : separated encode as ++ close :: r = separated encode bs ++ close :: s) :
    as = bs ∧ r = s := by
  cases as with
  | nil =>
    cases bs with
    | nil => exact ⟨rfl, (List.cons.inj same).2⟩
    | cons b bs =>
      obtain ⟨c, cs, encode_eq, ne⟩ := opens b (by simp)
      rw [separated, separated, encode_eq] at same
      exact absurd (List.cons.inj same).1.symm ne
  | cons a as =>
    cases bs with
    | nil =>
      obtain ⟨c, cs, encode_eq, ne⟩ := opens a (by simp)
      rw [separated, separated, encode_eq] at same
      exact absurd (List.cons.inj same).1 ne
    | cons b bs =>
      rw [separated, separated, List.append_assoc, List.append_assoc] at same
      obtain ⟨rfl, rest⟩ := each a List.mem_cons_self b List.mem_cons_self
        (stops_later stop as r) (stops_later stop bs s) same
      obtain ⟨rfl, rfl⟩ := later_append_injective stop comma
        (fun a ina b inb => each a (List.mem_cons_of_mem _ ina) b (List.mem_cons_of_mem _ inb)) rest
      exact ⟨rfl, rfl⟩

end Runs

/-! ## Nested values -/

/-- The text of a field of an object. -/
def fieldText (field : String × Json) : List Char :=
  (stringText field.1).toList ++ ':' :: field.2.compact.toList

theorem compactItems_eq_map (items : List Json) : compactItems items = items.map compact := by
  induction items with
  | nil => rfl
  | cons item more ih => rw [compactItems, ih, List.map_cons]

theorem compactFields_eq_map (fields : List (String × Json)) :
    compactFields fields = fields.map fun field => stringText field.1 ++ ":" ++ field.2.compact := by
  induction fields with
  | nil => rfl
  | cons field more ih => rw [compactFields, ih, List.map_cons]

theorem separated_map {α β : Type} (f : α → β) (encode : β → List Char) (as : List α) :
    separated encode (as.map f) = separated (fun a => encode (f a)) as := by
  cases as with
  | nil => rfl
  | cons a more => rw [List.map_cons, separated, separated, later, List.flatMap_map, later]

theorem toList_compact_array (items : List Json) :
    (array items).compact.toList =
      '[' :: (separated (fun item => item.compact.toList) items ++ [']']) := by
  rw [compact, String.toList_append, String.toList_append, toList_intercalate,
    compactItems_eq_map, separated_map]
  rfl

theorem toList_compact_object (fields : List (String × Json)) :
    (object fields).compact.toList = '\x7b' :: (separated fieldText fields ++ ['\x7d']) := by
  have field_eq : (fun field : String × Json =>
      (stringText field.1 ++ ":" ++ field.2.compact).toList) = fieldText := by
    funext field
    rw [String.toList_append, String.toList_append, List.append_assoc]
    rfl
  rw [compact, String.toList_append, String.toList_append, toList_intercalate,
    compactFields_eq_map, separated_map, field_eq]
  rfl

/-- A text begins with the character of its form. -/
theorem exists_lead {j : Json} (plain : Plain j) :
    ∃ c cs, j.compact.toList = c :: cs ∧ Form.ofLead? c = some j.form := by
  cases plain with
  | null => exact ⟨'n', _, rfl, rfl⟩
  | boolean b =>
    cases b with
    | true => exact ⟨'t', _, rfl, rfl⟩
    | false => exact ⟨'f', _, rfl, rfl⟩
  | @number text some numeric =>
    obtain ⟨c, cs, text_eq⟩ := List.exists_cons_of_ne_nil some
    exact ⟨c, cs, text_eq, if_pos (numeric c (text_eq ▸ List.mem_cons_self))⟩
  | string text => exact ⟨'"', _, toList_stringText text, rfl⟩
  | array => exact ⟨'[', _, toList_compact_array _, rfl⟩
  | object => exact ⟨'\x7b', _, toList_compact_object _, rfl⟩

theorem form_eq_of_append {a b : Json} {r s : List Char} (plain : Plain a) (plain' : Plain b)
    (same : a.compact.toList ++ r = b.compact.toList ++ s) : a.form = b.form := by
  obtain ⟨c, cs, text, lead⟩ := exists_lead plain
  obtain ⟨c', cs', text', lead'⟩ := exists_lead plain'
  rw [text, text'] at same
  rw [(List.cons.inj same).1, lead'] at lead
  exact (Option.some.inj lead).symm

theorem opens_of_plain {j : Json} (plain : Plain j) :
    ∃ c cs, j.compact.toList = c :: cs ∧ c ≠ ']' := by
  obtain ⟨c, cs, text, lead⟩ := exists_lead plain
  refine ⟨c, cs, text, ?_⟩
  rintro rfl
  cases lead

theorem delimited_number {text text' : String} (numeric : ∀ c ∈ text.toList, isNumeric c = true)
    (numeric' : ∀ c ∈ text'.toList, isNumeric c = true) :
    Delimited (fun j : Json => j.compact.toList) (number text) (number text') := by
  intro r s stops stops' same
  have text_eq := congrArg (List.takeWhile isNumeric) same
  have rest_eq := congrArg (List.dropWhile isNumeric) same
  simp only [compact] at text_eq rest_eq
  rw [Scanning.takeWhile_append_of_all numeric stops,
    Scanning.takeWhile_append_of_all numeric' stops', String.toList_inj] at text_eq
  rw [Scanning.dropWhile_append_of_all numeric stops,
    Scanning.dropWhile_append_of_all numeric' stops'] at rest_eq
  exact ⟨congrArg number text_eq, rest_eq⟩

theorem delimited_field {field field' : String × Json}
    (value : Delimited (fun j : Json => j.compact.toList) field.2 field'.2) :
    Delimited fieldText field field' := by
  intro r s stops stops' same
  simp only [fieldText, List.append_assoc, List.cons_append] at same
  obtain ⟨name_eq, rest⟩ := stringText_append_injective same
  obtain ⟨value_eq, rest_eq⟩ := value stops stops' (List.cons.inj rest).2
  exact ⟨Prod.ext name_eq value_eq, rest_eq⟩

/-- The text of a value determines the value, and where its text ends. -/
theorem Plain.delimited {a b : Json} (plain : Plain a) (plain' : Plain b) :
    Delimited (fun j => j.compact.toList) a b := by
  -- By its first character the text of `b` is of the form of `a`; the cases of `form_eq` leave
  -- that form alone.
  induction plain generalizing b with
  | null =>
    intro r s _ _ same
    have form_eq := form_eq_of_append .null plain' same
    cases plain' <;> cases form_eq
    exact ⟨rfl, List.append_cancel_left same⟩
  | boolean truth =>
    intro r s _ _ same
    have form_eq := form_eq_of_append (.boolean truth) plain' same
    cases plain' <;> cases form_eq
    exact ⟨rfl, List.append_cancel_left same⟩
  | number some numeric =>
    intro r s stops stops' same
    have form_eq := form_eq_of_append (.number some numeric) plain' same
    cases plain' <;> cases form_eq
    exact delimited_number numeric ‹_› stops stops' same
  | string text =>
    intro r s _ _ same
    have form_eq := form_eq_of_append (.string text) plain' same
    cases plain' <;> cases form_eq
    simp only [compact] at same
    obtain ⟨rfl, rest_eq⟩ := stringText_append_injective same
    exact ⟨rfl, rest_eq⟩
  | @array items plain ih =>
    intro r s _ _ same
    have form_eq := form_eq_of_append (.array plain) plain' same
    cases plain' <;> cases form_eq
    rename_i items' plain'
    simp only [toList_compact_array, List.cons_append, List.append_assoc, List.nil_append] at same
    have opens : ∀ item ∈ items ++ items', ∃ c cs, item.compact.toList = c :: cs ∧ c ≠ ']' := by
      intro item mem
      rcases List.mem_append.mp mem with mem | mem
      · exact opens_of_plain (plain item mem)
      · exact opens_of_plain (plain' item mem)
    obtain ⟨rfl, rest_eq⟩ := separated_append_injective rfl (by decide) opens
      (fun item mem item' mem' => ih item mem (plain' item' mem')) (List.cons.inj same).2
    exact ⟨rfl, rest_eq⟩
  | @object fields plain ih =>
    intro r s _ _ same
    have form_eq := form_eq_of_append (.object plain) plain' same
    cases plain' <;> cases form_eq
    rename_i fields' plain'
    simp only [toList_compact_object, List.cons_append, List.append_assoc, List.nil_append] at same
    have opens : ∀ field ∈ fields ++ fields', ∃ c cs, fieldText field = c :: cs ∧ c ≠ '\x7d' := by
      intro field mem
      refine ⟨'"', (escaped field.1 ++ ['"']) ++ ':' :: field.2.compact.toList, ?_, by decide⟩
      rw [fieldText, toList_stringText, List.cons_append]
    obtain ⟨rfl, rest_eq⟩ := separated_append_injective rfl (by decide) opens
      (fun field mem field' mem' => delimited_field (ih field mem (plain' field' mem')))
      (List.cons.inj same).2
    exact ⟨rfl, rest_eq⟩

/-- No two values have the same compact text. -/
theorem compact_injective {a b : Json} (plain : Plain a) (plain' : Plain b)
    (same : a.compact = b.compact) : a = b := by
  have ends : Stops [] := fun c mem => by cases mem
  exact (plain.delimited plain' ends ends (congrArg (fun text => text.toList ++ []) same)).1

end KindScript.Json
