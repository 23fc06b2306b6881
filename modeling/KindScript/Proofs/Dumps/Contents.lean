import KindScript.Dump
import KindScript.Proofs.Dumps.Delimiting
import KindScript.Proofs.Dumps.Floats
import KindScript.Proofs.Parsing.Rendering

/-!
# Dumps determine what they show

Two programs, two lists of values or two lists of tokens with the same dump are the same. Every
form stands under a name of its own, the numbers of a kind have texts of their own, and the
compact text gives the value of the dump back.
-/

namespace KindScript

open Json (tagged Plain)

/-! ## Names and whole numbers -/

/-- Names that are given once to all things of a list tell these apart. -/
theorem injective_of_nodup {α : Type} {name : α → String} (all : List α)
    (complete : ∀ a, a ∈ all) (distinct : (all.map name).Nodup) : Function.Injective name :=
  fun a b same => List.inj_on_of_nodup_map distinct (complete a) (complete b) same

theorem Token.Kind.name_injective : Function.Injective Token.Kind.name :=
  injective_of_nodup _ Token.Kind.mem_all (by decide +kernel)

theorem Number.Kind.name_injective : Function.Injective Number.Kind.name :=
  injective_of_nodup Number.Kind.all (by intro k; cases k <;> decide) (by decide)

theorem ArithmeticOp.name_injective : Function.Injective ArithmeticOp.name :=
  injective_of_nodup ArithmeticOp.all (by intro op; cases op <;> decide) (by decide)

theorem CompareOp.name_injective : Function.Injective CompareOp.name :=
  injective_of_nodup CompareOp.all (by intro op; cases op <;> decide) (by decide)

theorem JointOp.name_injective : Function.Injective JointOp.name :=
  injective_of_nodup JointOp.all (by intro op; cases op <;> decide) (by decide)

namespace Json

theorem tagged_inj {name name' : String} {value value' : Json} :
    tagged name value = tagged name' value' ↔ name = name' ∧ value = value' := by
  simp [tagged]

theorem ofNat_injective : Function.Injective ofNat := by
  intro m n same
  have reads := Grammar.decimal?_repr m
  rw [Json.number.inj same, Grammar.decimal?_repr] at reads
  exact (Option.some.inj reads).symm

theorem repr_eq_signedText (z : Int) : z.repr = Grammar.signedText z := by
  rw [Int.repr_eq_if, Grammar.signedText]
  split
  · rename_i whole
    rw [if_neg (Int.not_lt.mpr whole)]
    congr 1
    omega
  · rename_i below
    rw [if_pos (Int.not_le.mp below)]
    congr 2
    omega

theorem ofInt_injective : Function.Injective ofInt := by
  intro y z same
  have reads := Grammar.wholeNumber?_signedText y
  rw [← repr_eq_signedText, Json.number.inj same, repr_eq_signedText,
    Grammar.wholeNumber?_signedText] at reads
  exact (Option.some.inj reads).symm

theorem ofOption_injective {α : Type} {toJson : α → Json} (injective : Function.Injective toJson)
    (some : ∀ a, toJson a ≠ .null) : Function.Injective (ofOption toJson) := by
  intro a b same
  cases a with
  | none =>
    cases b with
    | none => rfl
    | some b => exact absurd same.symm (some b)
  | some a =>
    cases b with
    | none => exact absurd same (some a)
    | some b => exact congrArg _ (injective same)

/-! ### Plain values -/

theorem plain_ofNat (n : Nat) : Plain (ofNat n) := by
  have digits := Scanning.isDigits_toDigits n
  rw [← Nat.toList_repr] at digits
  refine .number digits.some fun c mem => ?_
  rw [isNumeric, digits.digits c mem, Bool.true_or]

theorem plain_ofInt (z : Int) : Plain (ofInt z) := by
  have plain := plain_ofNat z.natAbs
  unfold ofInt
  rw [repr_eq_signedText, Grammar.signedText]
  split
  · cases plain with
    | number _ numeric =>
      refine .number (by simp) fun c mem => ?_
      rw [String.toList_append] at mem
      rcases List.mem_append.mp mem with mem | mem
      · rw [List.mem_singleton.mp mem]
        rfl
      · exact numeric c mem
  · exact plain

theorem plain_fields {fields : List (String × Json)}
    (plain : fields.Forall fun field => Plain field.2) : Plain (object fields) :=
  .object (List.forall_iff_forall_mem.mp plain)

theorem plain_tagged {value : Json} (name : String) (plain : Plain value) :
    Plain (tagged name value) :=
  plain_fields plain

theorem plain_ofOption {α : Type} {toJson : α → Json} (plain : ∀ a, Plain (toJson a))
    (a : Option α) : Plain (ofOption toJson a) := by
  cases a with
  | none => exact .null
  | some a => exact plain a

theorem plain_map {α : Type} {toJson : α → Json} (plain : ∀ a, Plain (toJson a)) (as : List α) :
    Plain (array (as.map toJson)) := by
  refine .array fun item mem => ?_
  obtain ⟨a, _, rfl⟩ := List.mem_map.mp mem
  exact plain a

end Json

/-! ## Tokens -/

theorem Position.toJson_injective : Function.Injective Position.toJson := by
  rintro ⟨line, column⟩ ⟨line', column'⟩ same
  simp only [toJson, Json.object.injEq, List.cons.injEq, Prod.mk.injEq, true_and, and_true] at same
  rw [Json.ofNat_injective same.1, Json.ofNat_injective same.2]

theorem Position.plain_toJson (p : Position) : Plain p.toJson :=
  Json.plain_fields ⟨Json.plain_ofNat _, Json.plain_ofNat _⟩

theorem Token.toJson_injective : Function.Injective Token.toJson := by
  rintro ⟨kind, text, start, stop⟩ ⟨kind', text', start', stop'⟩ same
  simp only [toJson, Json.object.injEq, List.cons.injEq, Prod.mk.injEq, Json.string.injEq,
    true_and, and_true] at same
  obtain ⟨kind_eq, text_eq, start_eq, stop_eq⟩ := same
  rw [Kind.name_injective kind_eq, text_eq, Position.toJson_injective start_eq,
    Position.toJson_injective stop_eq]

theorem Token.plain_toJson (t : Token) : Plain t.toJson :=
  Json.plain_fields ⟨.string _, .string _, t.start.plain_toJson, t.stop.plain_toJson⟩

/-! ## Values -/

namespace Number

section Floats

variable {f : Format} {style : Decimal.Style}

theorem floatToJson_injective (reach : Binary.InReach f) :
    Function.Injective (floatToJson (f := f) style) := by
  intro x y same
  have text_eq : x.write .even style = y.write .even style := by
    unfold floatToJson at same
    simp only at same
    split at same
    · split at same
      · exact Json.number.inj same
      · cases same
    · split at same
      · cases same
      · exact Json.string.inj same
  exact Binary.write_injective reach text_eq

theorem isNumeric_of_decimal? {cs : List Char} (reads : Text.decimal? cs ≠ none) :
    ∀ c ∈ cs, Json.isNumeric c = true := by
  unfold Text.decimal? at reads
  split at reads
  · rename_i all
    intro c mem
    have digit := List.all_eq_true.mp ((Bool.and_eq_true _ _).mp all).2 c mem
    rw [Json.isNumeric, digit, Bool.true_or]
  · exact absurd rfl reads

theorem isNumeric_of_wholeNumber? {cs : List Char} {z : Int}
    (reads : Text.wholeNumber? cs = some z) : ∀ c ∈ cs, Json.isNumeric c = true := by
  unfold Text.wholeNumber? at reads
  split at reads
  · refine List.forall_mem_cons.mpr ⟨rfl, isNumeric_of_decimal? fun none => ?_⟩
    rw [none] at reads
    cases reads
  · refine List.forall_mem_cons.mpr ⟨rfl, isNumeric_of_decimal? fun none => ?_⟩
    rw [none] at reads
    cases reads
  · refine isNumeric_of_decimal? fun none => ?_
    rw [none] at reads
    cases reads

theorem isNumeric_of_exponentOf? {cs : List Char} {z : Int}
    (reads : Binary.exponentOf? cs = some z) : ∀ c ∈ cs, Json.isNumeric c = true := by
  cases cs with
  | nil => exact fun c mem => nomatch mem
  | cons mark rest =>
    rw [Binary.exponentOf?] at reads
    split at reads
    · rename_i marks
      refine List.forall_mem_cons.mpr ⟨?_, isNumeric_of_wholeNumber? reads⟩
      rcases marks with rfl | rfl <;> rfl
    · cases reads

theorem isNumeric_of_spells {cs : List Char} {d : Decimal} (spells : Decimal.Spells cs d) :
    ∀ c ∈ cs, Json.isNumeric c = true := by
  have digit {c : Char} (digit : c.isDigit = true) : Json.isNumeric c = true := by
    rw [Json.isNumeric, digit, Bool.true_or]
  cases spells with
  | intro digits decimals reads =>
    refine List.forall_mem_append.mpr ⟨List.forall_mem_append.mpr ⟨?_, ?_⟩,
      isNumeric_of_exponentOf? reads⟩
    · exact fun c mem => digit (digits.digits c mem)
    · split
      · exact fun c mem => nomatch mem
      · exact List.forall_mem_cons.mpr ⟨rfl, fun c mem => digit (decimals c mem)⟩

theorem plain_floatToJson (x : Binary f) : Plain (floatToJson style x) := by
  cases x with
  | nan | infinity => exact .string _
  | finite negative units holds =>
    have spells := Decimal.spells_write style (Decimal.shortest .even units holds)
    have numeric := isNumeric_of_spells spells
    obtain ⟨first, more, head, _⟩ := Binary.head_of_spells spells
    have plain {cs : List Char} (some : cs ≠ []) (numeric : ∀ c ∈ cs, Json.isNumeric c = true) :
        Plain (.number (String.ofList cs)) := by
      refine .number ?_ ?_ <;> rw [String.toList_ofList]
      · exact some
      · exact numeric
    cases negative with
    | true => exact plain (List.cons_ne_nil _ _) (List.forall_mem_cons.mpr ⟨rfl, numeric⟩)
    | false => exact plain (head ▸ List.cons_ne_nil _ _) numeric

end Floats

theorem payloadToJson_injective {m n : Number} (kind : m.kind = n.kind)
    (same : m.payloadToJson = n.payloadToJson) : m = n := by
  cases m <;> cases n <;> cases kind
  case byte v w => exact congrArg byte (UInt8.toNat_inj.mp (Json.ofNat_injective same))
  case integer v w => exact congrArg integer (Int32.toInt_inj.mp (Json.ofInt_injective same))
  case float v w => exact congrArg float (floatToJson_injective Binary.inReach_single same)
  case long v w => exact congrArg long (Int64.toInt_inj.mp (Json.ofInt_injective same))
  case double v w => exact congrArg double (floatToJson_injective Binary.inReach_double same)
  case char c d =>
    have chars := congrArg String.toList (Json.string.inj same)
    rw [Char.toString, Char.toString, String.toList_singleton, String.toList_singleton] at chars
    exact congrArg char (List.singleton_inj.mp chars)

theorem toJson_injective : Function.Injective toJson := by
  intro m n same
  obtain ⟨name_eq, payload_eq⟩ := Json.tagged_inj.mp same
  exact payloadToJson_injective (Kind.name_injective name_eq) payload_eq

theorem plain_toJson (n : Number) : Plain n.toJson := by
  refine Json.plain_tagged _ ?_
  cases n with
  | byte v => exact Json.plain_ofNat _
  | integer v => exact Json.plain_ofInt _
  | float v => exact plain_floatToJson v
  | long v => exact Json.plain_ofInt _
  | double v => exact plain_floatToJson v
  | char c => exact .string _

end Number

namespace Value

theorem toJson_injective : Function.Injective toJson := by
  intro v w same
  cases v with
  | null => cases w <;> first | rfl | cases same
  | boolean b =>
    cases w <;> simp only [toJson, Json.tagged_inj, String.reduceEq, false_and, true_and] at same
    case null => cases same
    case boolean => exact congrArg boolean (Json.boolean.inj same)
  | string s =>
    cases w <;> simp only [toJson, Json.tagged_inj, String.reduceEq, false_and, true_and] at same
    case null => cases same
    case string => exact congrArg string (Json.string.inj same)
  | number n =>
    cases w <;> simp only [toJson, Json.tagged_inj, String.reduceEq, false_and, true_and] at same
    case null => cases same
    case number => exact congrArg number (Number.toJson_injective same)

theorem plain_toJson (v : Value) : Plain v.toJson := by
  cases v with
  | null => exact .string _
  | boolean b => exact Json.plain_tagged _ (.boolean b)
  | string s => exact Json.plain_tagged _ (.string s)
  | number n => exact Json.plain_tagged _ n.plain_toJson

theorem kind_name_ne (kind : Number.Kind) : kind.name ≠ "Boolean" ∧ kind.name ≠ "String" := by
  cases kind <;> decide

/-- A number of a literal stands under its kind, and no other form has the name of a kind. -/
theorem literalToJson_injective : Function.Injective literalToJson := by
  intro v w same
  cases v with
  | number m =>
    cases w with
    | number n => exact congrArg number (Number.toJson_injective same)
    | null => cases same
    | boolean b => exact absurd (Json.tagged_inj.mp same).1 (kind_name_ne m.kind).1
    | string s => exact absurd (Json.tagged_inj.mp same).1 (kind_name_ne m.kind).2
  | null =>
    cases w with
    | number n => cases same
    | null | boolean | string => exact toJson_injective same
  | boolean b =>
    cases w with
    | number n => exact absurd (Json.tagged_inj.mp same).1.symm (kind_name_ne n.kind).1
    | null | boolean | string => exact toJson_injective same
  | string s =>
    cases w with
    | number n => exact absurd (Json.tagged_inj.mp same).1.symm (kind_name_ne n.kind).2
    | null | boolean | string => exact toJson_injective same

theorem plain_literalToJson (v : Value) : Plain v.literalToJson := by
  cases v with
  | number n => exact n.plain_toJson
  | null => exact plain_toJson .null
  | boolean b => exact plain_toJson (.boolean b)
  | string s => exact plain_toJson (.string s)

end Value

/-! ## Programs -/

namespace Expression

theorem operation_inj {left right left' right' : Json} {op op' : String} :
    toJson.operation left right op = toJson.operation left' right' op' ↔
      left = left' ∧ right = right' ∧ op = op' := by
  simp [toJson.operation]

theorem toJson_injective : Function.Injective toJson := by
  intro a b same
  induction a generalizing b with
  | literal v =>
    cases b <;> simp only [toJson, Json.tagged_inj, String.reduceEq, false_and, true_and] at same
    exact congrArg literal (Value.literalToJson_injective same)
  | identifier name =>
    cases b <;> simp only [toJson, Json.tagged_inj, String.reduceEq, false_and, true_and] at same
    exact congrArg identifier (Json.string.inj same)
  | binary op left right ihl ihr =>
    cases b <;> simp only [toJson, Json.tagged_inj, String.reduceEq, false_and, true_and] at same
    obtain ⟨left_eq, right_eq, op_eq⟩ := operation_inj.mp same
    rw [ihl left_eq, ihr right_eq, ArithmeticOp.name_injective op_eq]
  | comparison op left right ihl ihr =>
    cases b <;> simp only [toJson, Json.tagged_inj, String.reduceEq, false_and, true_and] at same
    obtain ⟨left_eq, right_eq, op_eq⟩ := operation_inj.mp same
    rw [ihl left_eq, ihr right_eq, CompareOp.name_injective op_eq]
  | joint op left right ihl ihr =>
    cases b <;> simp only [toJson, Json.tagged_inj, String.reduceEq, false_and, true_and] at same
    obtain ⟨left_eq, right_eq, op_eq⟩ := operation_inj.mp same
    rw [ihl left_eq, ihr right_eq, JointOp.name_injective op_eq]
  | not operand ih =>
    cases b <;> simp only [toJson, Json.tagged_inj, String.reduceEq, false_and, true_and] at same
    exact congrArg not (ih same)

theorem toJson_ne_null (e : Expression) : e.toJson ≠ .null := by
  cases e <;> nofun

theorem plain_operation {left right : Json} (op : String) (plain : Plain left)
    (plain' : Plain right) : Plain (toJson.operation left right op) :=
  Json.plain_fields ⟨plain, plain', .string op⟩

theorem plain_toJson (e : Expression) : Plain e.toJson := by
  induction e with
  | literal v => exact Json.plain_tagged _ v.plain_literalToJson
  | identifier name => exact Json.plain_tagged _ (.string name)
  | binary op left right ihl ihr => exact Json.plain_tagged _ (plain_operation _ ihl ihr)
  | comparison op left right ihl ihr => exact Json.plain_tagged _ (plain_operation _ ihl ihr)
  | joint op left right ihl ihr => exact Json.plain_tagged _ (plain_operation _ ihl ihr)
  | not operand ih => exact Json.plain_tagged _ ih

end Expression

namespace Statement

mutual

theorem eq_of_toJson : (s t : Statement) → s.toJson = t.toJson → s = t
  | .block body, t, same => by
    cases t <;> simp only [toJson, Json.tagged_inj, String.reduceEq, false_and, true_and] at same
    exact congrArg block (eq_of_listToJson body _ (Json.array.inj same))
  | .declare name constant value, t, same => by
    cases t <;> simp only [toJson, Json.tagged_inj, String.reduceEq, false_and, true_and] at same
    simp only [Json.object.injEq, List.cons.injEq, Prod.mk.injEq, Json.string.injEq,
      Json.boolean.injEq, true_and, and_true] at same
    obtain ⟨rfl, rfl, value_eq⟩ := same
    rw [Json.ofOption_injective Expression.toJson_injective Expression.toJson_ne_null value_eq]
  | .assign name op value, t, same => by
    cases t <;> simp only [toJson, Json.tagged_inj, String.reduceEq, false_and, true_and] at same
    simp only [Json.object.injEq, List.cons.injEq, Prod.mk.injEq, Json.string.injEq, true_and,
      and_true] at same
    obtain ⟨rfl, op_eq, value_eq⟩ := same
    have names : Function.Injective fun op : ArithmeticOp => Json.string op.name :=
      fun _ _ same => ArithmeticOp.name_injective (Json.string.inj same)
    rw [Expression.toJson_injective value_eq, Json.ofOption_injective names nofun op_eq]
  | .expression value, t, same => by
    cases t <;> simp only [toJson, Json.tagged_inj, String.reduceEq, false_and, true_and] at same
    exact congrArg expression (Expression.toJson_injective same)

theorem eq_of_listToJson : (ss ts : List Statement) → listToJson ss = listToJson ts → ss = ts
  | [], [], _ => rfl
  | s :: ss, t :: ts, same => by
    obtain ⟨first, more⟩ := List.cons.inj same
    rw [eq_of_toJson s t first, eq_of_listToJson ss ts more]

end

mutual

theorem plain_toJson : (s : Statement) → Plain s.toJson
  | .block body => Json.plain_tagged _ (.array (plain_listToJson body))
  | .declare name constant value => Json.plain_tagged _ <| Json.plain_fields
      ⟨.string name, .boolean constant, Json.plain_ofOption Expression.plain_toJson value⟩
  | .assign name op value => Json.plain_tagged _ <| Json.plain_fields
      ⟨.string name, Json.plain_ofOption (fun op => .string op.name) op, value.plain_toJson⟩
  | .expression value => Json.plain_tagged _ value.plain_toJson

theorem plain_listToJson : (ss : List Statement) → ∀ item ∈ listToJson ss, Plain item
  | [] => fun _ mem => nomatch mem
  | s :: more => List.forall_mem_cons.mpr ⟨plain_toJson s, plain_listToJson more⟩

end

end Statement

theorem Tree.toJson_injective : Function.Injective Tree.toJson := by
  rintro ⟨body⟩ ⟨body'⟩ same
  simp only [toJson, Json.object.injEq, List.cons.injEq, Prod.mk.injEq, Json.array.injEq, true_and,
    and_true] at same
  exact congrArg Tree.mk (Statement.eq_of_listToJson _ _ same)

theorem Tree.plain_toJson (tree : Tree) : Plain tree.toJson :=
  Json.plain_fields (.array (Statement.plain_listToJson tree.body))

/-! ## Dumps -/

/-- The dump of each thing has a compact text, and no two things have the same one. -/
theorem determined {α : Type} {toJson : α → Json} (injective : Function.Injective toJson)
    (plain : ∀ a, Plain (toJson a)) (a b : α) :
    (toJson a).compact = (toJson b).compact ↔ a = b :=
  ⟨fun same => injective (Json.compact_injective (plain a) (plain b) same),
    fun same => same ▸ rfl⟩

theorem array_map_injective {α : Type} {toJson : α → Json} (injective : Function.Injective toJson) :
    Function.Injective fun as : List α => Json.array (as.map toJson) :=
  fun _ _ same => List.map_injective_iff.mpr injective (Json.array.inj same)

/-- The compact text of a dump determines the program, the values or the tokens that it
shows. -/
theorem dumps_determine :
    (∀ a b : Tree, a.toJson.compact = b.toJson.compact ↔ a = b) ∧
      (∀ vs ws : List Value,
        (Value.listToJson vs).compact = (Value.listToJson ws).compact ↔ vs = ws) ∧
      ∀ ts us : List Token,
        (Token.listToJson ts).compact = (Token.listToJson us).compact ↔ ts = us :=
  ⟨determined Tree.toJson_injective Tree.plain_toJson,
    determined (array_map_injective Value.toJson_injective) (Json.plain_map Value.plain_toJson),
    determined (array_map_injective Token.toJson_injective) (Json.plain_map Token.plain_toJson)⟩

end KindScript
