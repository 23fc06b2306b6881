import KindScript.Proofs.Evaluation.Independence

/-!
# Kinds are static

What an operator makes of two values, and whether it fails, is settled by their types,
but for the division of whole numbers by zero. So two runs of a program whose literals
differ in nothing but what they spell go the same way until one of them divides by zero.
To say so, every value is replaced by a fixed one of its type: runs go the same way when
they are equal after that.
-/

namespace KindScript

open Scope

/-! ## Blanks -/

/-- A number of the kind. None of them is a zero that divides whole numbers. -/
def Number.Kind.sample : Kind → Number
  | byte => .byte 1
  | integer => .integer 1
  | float => .float (.zero false)
  | long => .long 1
  | double => .double (.zero false)
  | char => .char '1'

/-- A value of the same type, whatever the value is. -/
def Value.blank : Value → Value
  | null => null
  | boolean _ => boolean false
  | string _ => string ""
  | number n => number n.kind.sample

/-- The expression with every literal replaced by one of its kind. -/
def Expression.blank : Expression → Expression
  | literal value => .literal value.blank
  | identifier name => .identifier name
  | binary op l r => .binary op l.blank r.blank
  | comparison op l r => .comparison op l.blank r.blank
  | joint op l r => .joint op l.blank r.blank
  | not operand => .not operand.blank

mutual

def Statement.blank : Statement → Statement
  | .block body => .block (Statement.blankAll body)
  | .declare name constant value => .declare name constant (value.map Expression.blank)
  | .assign name op value => .assign name op value.blank
  | .expression value => .expression value.blank

def Statement.blankAll : List Statement → List Statement
  | [] => []
  | s :: more => s.blank :: Statement.blankAll more

end

def Tree.blank (tree : Tree) : Tree :=
  ⟨Statement.blankAll tree.body⟩

/-! ## Operators -/

namespace Number

@[simp] theorem kind_sample (k : Kind) : k.sample.kind = k := by
  cases k <;> rfl

theorem kind_promote (n : Number) (d : Domain) : (n.promote d).kind = d.kind := by
  cases d <;> rfl

theorem kind_of_arithmetic? {op : ArithmeticOp} {a b n : Number}
    (done : arithmetic? op a b = some n) : n.kind = resultKind op a.kind b.kind := by
  obtain ⟨native, _, rfl⟩ := Option.map_eq_some_iff.mp done
  exact kind_promote _ _

theorem int32Arithmetic?_isSome (op : ArithmeticOp) (a : Int32) {b : Int32} (nonzero : b ≠ 0) :
    (int32Arithmetic? op a b).isSome := by
  cases op with
  | add | subtract | multiply => rfl
  | divide | remainder =>
    rw [int32Arithmetic?, if_neg nonzero]
    rfl

theorem int64Arithmetic?_isSome (op : ArithmeticOp) (a : Int64) {b : Int64} (nonzero : b ≠ 0) :
    (int64Arithmetic? op a b).isSome := by
  cases op with
  | add | subtract | multiply => rfl
  | divide | remainder =>
    rw [int64Arithmetic?, if_neg nonzero]
    rfl

theorem toInt32_sample_ne {a b : Kind} (whole : domain a b = .int) : b.sample.toInt32 ≠ 0 := by
  cases b with
  | byte | integer | char => decide
  | float | long | double => cases a <;> cases whole

theorem toInt64_sample_ne {a b : Kind} (whole : domain a b = .long) : b.sample.toInt64 ≠ 0 := by
  cases b with
  | byte | integer | long | char => decide
  | float | double => cases a <;> cases whole

/-- Samples can be divided by each other. -/
theorem arithmetic?_sample_isSome (op : ArithmeticOp) (a b : Kind) :
    (arithmetic? op a.sample b.sample).isSome := by
  rw [arithmetic?, Option.isSome_map, kind_sample, kind_sample]
  cases meet : domain a b with
  | int =>
    rw [native?, Option.isSome_map]
    exact int32Arithmetic?_isSome op _ (toInt32_sample_ne meet)
  | long =>
    rw [native?, Option.isSome_map]
    exact int64Arithmetic?_isSome op _ (toInt64_sample_ne meet)
  | float | double => rfl

theorem compare?_isSome (op : CompareOp) (a b c d : Number) :
    (compare? op a b).isSome = (compare? op c d).isSome := by
  cases op <;> simp only [compare?, Option.isSome_some]

end Number

namespace Value

@[simp] theorem typeName_blank (v : Value) : v.blank.typeName = v.typeName := by
  cases v with
  | null | boolean | string => rfl
  | number n => exact congrArg Number.Kind.name (Number.kind_sample n.kind)

theorem isString_blank (v : Value) : v.blank.isString = v.isString := by
  cases v <;> rfl

theorem joined?_blank (v : Value) : v.blank.joined?.isSome = v.joined?.isSome := by
  rcases v with _ | _ | _ | n
  · rfl
  · rfl
  · rfl
  · cases n <;> rfl

/-- Two texts are joined when both are there. -/
theorem joined_blank {x y x' y' : Option String} (left : x'.isSome = x.isSome)
    (right : y'.isSome = y.isSome) :
    (x.bind fun a => y.map fun b => string (a ++ b)).map blank =
      (x'.bind fun a => y'.map fun b => string (a ++ b)).map blank := by
  rcases x with _ | a <;> rcases x' with _ | a'
  · rfl
  · cases left
  · cases left
  · rcases y with _ | b <;> rcases y' with _ | b'
    · rfl
    · cases right
    · cases right
    · rfl

theorem concatenated?_blank (a b : Value) :
    (concatenated? a b).map blank = (concatenated? a.blank b.blank).map blank := by
  rw [concatenated?, concatenated?, isString_blank, isString_blank]
  split
  · exact joined_blank (joined?_blank a) (joined?_blank b)
  · rfl

/-- What is no operation on two numbers is a concatenation, or it is refused. -/
theorem arithmetic_of_not_numbers (op : ArithmeticOp) {a b : Value}
    (other : ∀ m n, a = number m → b = number n → False) :
    arithmetic op a b =
      match if op = .add then concatenated? a b else none with
      | some joined => .ok joined
      | none => .error (.unsupportedOperation op a.typeName b.typeName) := by
  unfold arithmetic
  split
  · rename_i m n
    exact (other m n rfl rfl).elim
  · rfl

theorem eq_number_of_blank {v : Value} {m : Number} (same : v.blank = number m) :
    ∃ n, v = number n := by
  cases v with
  | null | boolean | string => cases same
  | number n => exact ⟨n, rfl⟩

theorem arithmetic_blank (op : ArithmeticOp) (a b : Value) :
    arithmetic op a b = .error .divisionByZero ∨
      (arithmetic op a b).map blank = (arithmetic op a.blank b.blank).map blank := by
  by_cases numbers : ∃ m n, a = number m ∧ b = number n
  · obtain ⟨m, n, rfl, rfl⟩ := numbers
    obtain ⟨s, sample⟩ :=
      Option.isSome_iff_exists.mp (Number.arithmetic?_sample_isSome op m.kind n.kind)
    cases done : Number.arithmetic? op m n with
    | none => exact .inl (by rw [arithmetic, done])
    | some r =>
      right
      have kinds : r.kind = s.kind := by
        rw [Number.kind_of_arithmetic? done, Number.kind_of_arithmetic? sample,
          Number.kind_sample, Number.kind_sample]
      show (arithmetic op _ _).map blank = (arithmetic op (number _) (number _)).map blank
      rw [arithmetic, arithmetic, done, sample]
      show Except.ok (number r.kind.sample) = Except.ok (number s.kind.sample)
      rw [kinds]
  · right
    have joined := concatenated?_blank a b
    rw [arithmetic_of_not_numbers op fun m n ha hb => numbers ⟨m, n, ha, hb⟩,
      arithmetic_of_not_numbers op (a := a.blank) (b := b.blank), typeName_blank, typeName_blank]
    · by_cases add : op = .add
      · rw [if_pos add, if_pos add]
        cases text : concatenated? a b with
        | none =>
          rw [text] at joined
          rw [Option.map_eq_none_iff.mp joined.symm]
        | some v =>
          rw [text] at joined
          obtain ⟨w, text', same⟩ := Option.map_eq_some_iff.mp joined.symm
          rw [text']
          exact congrArg Except.ok same.symm
      · rw [if_neg add, if_neg add]
    · intro m n ha hb
      obtain ⟨m, rfl⟩ := eq_number_of_blank ha
      obtain ⟨n, rfl⟩ := eq_number_of_blank hb
      exact numbers ⟨m, n, rfl, rfl⟩

theorem equalityOnly?_isSome (op : CompareOp) (same other : Bool) :
    (equalityOnly? op same).isSome = (equalityOnly? op other).isSome := by
  cases op <;> rfl

theorem compare?_blank (op : CompareOp) (a b : Value) :
    (compare? op a b).isSome = (compare? op a.blank b.blank).isSome := by
  cases a <;> cases b <;>
    first
    | exact Number.compare?_isSome op _ _ _ _
    | exact equalityOnly?_isSome op _ _
    | rfl

theorem comparison_blank (op : CompareOp) (a b : Value) :
    (comparison op a b).map blank = (comparison op a.blank b.blank).map blank := by
  have compared := compare?_blank op a b
  rw [comparison, comparison, typeName_blank, typeName_blank]
  cases answer : compare? op a b with
  | none =>
    rw [answer] at compared
    rw [Option.isNone_iff_eq_none.mp (Option.isSome_eq_false_iff.mp compared.symm)]
  | some _ =>
    rw [answer] at compared
    obtain ⟨_, answer'⟩ := Option.isSome_iff_exists.mp compared.symm
    rw [answer']
    rfl

theorem joint_blank (op : JointOp) (a b : Value) :
    (joint op a b).map blank = (joint op a.blank b.blank).map blank := by
  have right := typeName_blank b
  have left := typeName_blank a
  cases a <;> cases b <;> simp_all [joint, blank, Except.map]

theorem negation_blank (a : Value) :
    (negation a).map blank = (negation a.blank).map blank := by
  have name := typeName_blank a
  cases a <;> simp_all [negation, blank, Except.map]

end Value

/-! ## Two results -/

/-- Two results that are one after a map are the same error, or two values that become one. -/
theorem cases_of_map_eq {ε α β : Type} {f : α → β} {r r' : Except ε α}
    (same : r.map f = r'.map f) :
    (∃ e, r = .error e ∧ r' = .error e) ∨ ∃ v v', r = .ok v ∧ r' = .ok v' ∧ f v = f v' := by
  cases r with
  | error e =>
    cases r' with
    | error e' =>
      cases same
      exact .inl ⟨e, rfl, rfl⟩
    | ok v' => cases same
  | ok v =>
    cases r' with
    | error e' => cases same
    | ok v' => exact .inr ⟨v, v', rfl, rfl, Except.ok.inj same⟩

/-- Values of one type, or the same error, unless one of the two is a division by zero. -/
def Akin (r r' : Except EvalError Value) : Prop :=
  r = .error .divisionByZero ∨ r' = .error .divisionByZero ∨ r.map Value.blank = r'.map Value.blank

namespace Akin

variable {r r' : Except EvalError Value}

theorem ok {v v' : Value} (same : v.blank = v'.blank) : Akin (.ok v) (.ok v') :=
  .inr (.inr (congrArg Except.ok same))

theorem bind {f f' : Value → Except EvalError Value} (akin : Akin r r')
    (next : ∀ v v', v.blank = v'.blank → Akin (f v) (f' v')) : Akin (r >>= f) (r' >>= f') := by
  rcases akin with rfl | rfl | same
  · exact .inl rfl
  · exact .inr (.inl rfl)
  · obtain ⟨e, rfl, rfl⟩ | ⟨v, v', rfl, rfl, blanks⟩ := cases_of_map_eq same
    · exact .inr (.inr rfl)
    · exact next v v' blanks

/-- An operator that types settle makes akin results of values of the same types. -/
theorem of_blank {f : Value → Value → Except EvalError Value}
    (settled : ∀ a b, f a b = .error .divisionByZero ∨
      (f a b).map Value.blank = (f a.blank b.blank).map Value.blank) {a b a' b' : Value}
    (left : a.blank = a'.blank) (right : b.blank = b'.blank) : Akin (f a b) (f a' b') := by
  rcases settled a b with failed | same
  · exact .inl failed
  · rcases settled a' b' with failed | same'
    · exact .inr (.inl failed)
    · exact .inr (.inr (by rw [same, same', left, right]))

end Akin

/-! ## Expressions -/

/-- The scopes with every value replaced by one of its type. -/
def Arena.blank (arena : Arena) : Arena :=
  arena.recast id Value.blank

namespace Arena

variable (arena : Arena) (h : Handle) (name : String)

theorem valid_blank : arena.blank.Valid h ↔ arena.Valid h := by
  have found : arena.blank.get? h = (arena.get? h).map (Record.recast id .blank) :=
    arena.get?_recast h Function.injective_id
  rw [Valid, Valid, found, Option.isSome_map]

theorem length_blank : arena.blank.length = arena.length :=
  arena.length_recast

theorem define_blank (v : Variable) :
    arena.blank.define h name (v.recast .blank) = (arena.define h name v).map blank :=
  arena.define_recast h Function.injective_id name v

theorem lookup_blank :
    arena.blank.lookup h name = (arena.lookup h name).map (·.recast .blank) :=
  arena.lookup_recast h Function.injective_id name

theorem update_blank (value : Value) :
    arena.blank.update h name value.blank = (arena.update h name value).map blank :=
  arena.update_recast h Function.injective_id name value

end Arena

section Arenas

variable {a b : Arena} (same : a.blank = b.blank) (h : Handle) (name : String)
include same

theorem Arena.valueOf_akin : Akin (a.valueOf h name) (b.valueOf h name) := by
  have found := b.lookup_blank h name
  rw [← same, a.lookup_blank] at found
  rw [valueOf, valueOf]
  obtain ⟨e, ha, hb⟩ | ⟨v, v', ha, hb, recasts⟩ := cases_of_map_eq found
  · rw [ha, hb]
    exact .inr (.inr rfl)
  · rw [ha, hb]
    exact .ok (congrArg Variable.value recasts)

theorem Expression.akin_evaluate {e e' : Expression} (literals : e.blank = e'.blank) :
    Akin (e.evaluate a h) (e'.evaluate b h) := by
  induction e generalizing e' with
  | literal v =>
    cases e' with
    | literal v' => exact .ok (Expression.literal.inj literals)
    | _ => cases literals
  | identifier name =>
    cases e' with
    | identifier name' =>
      cases literals
      exact Arena.valueOf_akin same h name
    | _ => cases literals
  | binary op l r ihl ihr =>
    cases e' with
    | binary op' l' r' =>
      obtain ⟨rfl, left, right⟩ := Expression.binary.inj literals
      exact (ihl left).bind fun _ _ first => (ihr right).bind fun _ _ second =>
        .of_blank (Value.arithmetic_blank op) first second
    | _ => cases literals
  | comparison op l r ihl ihr =>
    cases e' with
    | comparison op' l' r' =>
      obtain ⟨rfl, left, right⟩ := Expression.comparison.inj literals
      exact (ihl left).bind fun _ _ first => (ihr right).bind fun _ _ second =>
        .of_blank (fun a b => .inr (Value.comparison_blank op a b)) first second
    | _ => cases literals
  | joint op l r ihl ihr =>
    cases e' with
    | joint op' l' r' =>
      obtain ⟨rfl, left, right⟩ := Expression.joint.inj literals
      exact (ihl left).bind fun _ _ first => (ihr right).bind fun _ _ second =>
        .of_blank (fun a b => .inr (Value.joint_blank op a b)) first second
    | _ => cases literals
  | not operand ih =>
    cases e' with
    | not operand' =>
      refine (ih (Expression.not.inj literals)).bind fun v v' first => .inr (.inr ?_)
      rw [Value.negation_blank v, Value.negation_blank v', first]
    | _ => cases literals

end Arenas

/-! ## Statements -/

def Memory.blank (memory : Memory) : Memory :=
  ⟨memory.arena.blank, memory.next⟩

/-- Akin results, with memories that differ at most in the payload of values. -/
def AkinRun (x x' : Except EvalError Value × Memory) : Prop :=
  x.1 = .error .divisionByZero ∨ x'.1 = .error .divisionByZero ∨
    (x.1.map Value.blank = x'.1.map Value.blank ∧ x.2.blank = x'.2.blank)

/-- Goes on after a value and stops at an error. -/
def proceed (x : Except EvalError Value × Memory)
    (f : Value → Memory → Except EvalError Value × Memory) : Except EvalError Value × Memory :=
  match x with
  | (.error e, memory) => (.error e, memory)
  | (.ok v, memory) => f v memory

theorem Memory.declare_eq_proceed (memory : Memory) (scope : Handle) (name : String)
    (constant : Bool) (init : Option Expression) :
    memory.declare scope name constant init =
      proceed (init.elim (.ok .null) (Expression.evaluate memory.arena scope), memory)
        fun v _ => memory.commit .null (memory.arena.define scope name ⟨v, constant⟩) := by
  rw [declare]
  cases init.elim (.ok .null) (Expression.evaluate memory.arena scope) <;> rfl

theorem Memory.assign_eq_proceed (memory : Memory) (scope : Handle) (name : String)
    (op : Option ArithmeticOp) (e : Expression) :
    memory.assign scope name op e = proceed (memory.assigned scope name op e, memory)
      fun v _ => memory.commit v (memory.arena.update scope name v) := by
  rw [assign]
  cases memory.assigned scope name op e <;> rfl

theorem Statement.evaluateBlock_cons (scope : Handle) (memory : Memory) (last : Value)
    (s : Statement) (more : List Statement) :
    Statement.evaluateBlock scope memory last (s :: more) =
      proceed (s.evaluate scope memory) fun v after =>
        Statement.evaluateBlock scope after v more := by
  rw [evaluateBlock]
  rcases s.evaluate scope memory with ⟨_ | _, _⟩ <;> rfl

namespace AkinRun

variable {x x' : Except EvalError Value × Memory} {r r' : Except EvalError Value}
  {m m' : Memory}

theorem ok {v v' : Value} (values : v.blank = v'.blank) (same : m.blank = m'.blank) :
    AkinRun (.ok v, m) (.ok v', m') :=
  .inr (.inr ⟨congrArg Except.ok values, same⟩)

theorem of_akin (akin : Akin r r') (same : m.blank = m'.blank) : AkinRun (r, m) (r', m') := by
  rcases akin with failed | failed | results
  · exact .inl failed
  · exact .inr (.inl failed)
  · exact .inr (.inr ⟨results, same⟩)

theorem bind (akin : AkinRun x x') {f f' : Value → Memory → Except EvalError Value × Memory}
    (next : ∀ v v' m m', v.blank = v'.blank → m.blank = m'.blank → AkinRun (f v m) (f' v' m')) :
    AkinRun (proceed x f) (proceed x' f') := by
  obtain ⟨r, m⟩ := x
  obtain ⟨r', m'⟩ := x'
  rcases akin with failed | failed | ⟨results, same⟩
  · obtain rfl : r = _ := failed
    exact .inl rfl
  · obtain rfl : r' = _ := failed
    exact .inr (.inl rfl)
  · obtain ⟨e, rfl, rfl⟩ | ⟨v, v', rfl, rfl, blanks⟩ := cases_of_map_eq results
    · exact .inr (.inr ⟨rfl, same⟩)
    · exact next v v' m m' blanks same

/-- The memories may change alike afterwards. -/
theorem imp_memory (akin : AkinRun x x') {after after' : Memory}
    (kept : x.2.blank = x'.2.blank → after.blank = after'.blank) :
    AkinRun (x.1, after) (x'.1, after') := by
  rcases akin with failed | failed | ⟨results, same⟩
  · exact .inl failed
  · exact .inr (.inl failed)
  · exact .inr (.inr ⟨results, kept same⟩)

end AkinRun

section Memories

variable {m m' : Memory} (same : m.blank = m'.blank) (scope : Handle) (name : String)

theorem Memory.arena_of_blank (same : m.blank = m'.blank) : m.arena.blank = m'.arena.blank :=
  (Memory.mk.inj same).1

theorem Memory.next_of_blank (same : m.blank = m'.blank) : m.next = m'.next :=
  (Memory.mk.inj same).2

include same

theorem Memory.inner_of_blank : m.inner = m'.inner := by
  have arenas := Memory.arena_of_blank same
  have lengths : m.arena.length = m'.arena.length := by
    rw [← Arena.length_blank, arenas, Arena.length_blank]
  rw [inner, inner, lengths, Memory.next_of_blank same]

theorem Memory.entered_blank : (m.entered scope).blank = (m'.entered scope).blank := by
  show Memory.mk (_ :: m.arena.blank) (m.next + 1) = Memory.mk (_ :: m'.arena.blank) (m'.next + 1)
  rw [Memory.arena_of_blank same, Memory.next_of_blank same]

/-- Changes that do the same to the scopes but for values. -/
theorem Memory.akin_commit {v v' : Value} (values : v.blank = v'.blank)
    {change change' : Except Error Arena}
    (changes : change.map Arena.blank = change'.map Arena.blank) :
    AkinRun (m.commit v change) (m'.commit v' change') := by
  obtain ⟨e, rfl, rfl⟩ | ⟨after, after', rfl, rfl, arenas⟩ := cases_of_map_eq changes
  · exact .inr (.inr ⟨rfl, same⟩)
  · refine .ok values ?_
    rw [blank, blank, arenas, Memory.next_of_blank same]

theorem Memory.akin_declare {init init' : Option Expression}
    (literals : init.map Expression.blank = init'.map Expression.blank) (constant : Bool) :
    AkinRun (m.declare scope name constant init) (m'.declare scope name constant init') := by
  have value : Akin (init.elim (.ok .null) (Expression.evaluate m.arena scope))
      (init'.elim (.ok .null) (Expression.evaluate m'.arena scope)) := by
    cases init with
    | none =>
      rw [Option.map_eq_none_iff.mp literals.symm]
      exact .ok rfl
    | some e =>
      obtain ⟨e', rfl, blank⟩ := Option.map_eq_some_iff.mp literals.symm
      exact e.akin_evaluate (Memory.arena_of_blank same) scope blank.symm
  rw [Memory.declare_eq_proceed, Memory.declare_eq_proceed]
  refine (AkinRun.of_akin value same).bind fun v v' _ _ values _ =>
    Memory.akin_commit same rfl ?_
  have recast : Variable.recast .blank ⟨v, constant⟩ = Variable.recast .blank ⟨v', constant⟩ :=
    congrArg (fun value => Variable.mk value constant) values
  rw [← Arena.define_blank, ← Arena.define_blank, Memory.arena_of_blank same, recast]

theorem Memory.akin_assigned {e e' : Expression} (literals : e.blank = e'.blank)
    (op : Option ArithmeticOp) :
    Akin (m.assigned scope name op e) (m'.assigned scope name op e') := by
  have arenas := Memory.arena_of_blank same
  refine (e.akin_evaluate arenas scope literals).bind fun v v' values => ?_
  cases op with
  | none => exact .ok values
  | some op =>
    exact (Arena.valueOf_akin arenas scope name).bind fun _ _ current =>
      .of_blank (Value.arithmetic_blank op) current values

theorem Memory.akin_assign {e e' : Expression} (literals : e.blank = e'.blank)
    (op : Option ArithmeticOp) :
    AkinRun (m.assign scope name op e) (m'.assign scope name op e') := by
  have value := Memory.akin_assigned same scope name literals op
  rw [Memory.assign_eq_proceed, Memory.assign_eq_proceed]
  refine (AkinRun.of_akin value same).bind fun v v' _ _ values _ =>
    Memory.akin_commit same values ?_
  rw [← Arena.update_blank, ← Arena.update_blank, Memory.arena_of_blank same, values]

end Memories

mutual

/-- A statement does the same, but for values, where only the payload of values differs. -/
theorem Statement.akin_evaluate {m m' : Memory} (same : m.blank = m'.blank) (scope : Handle)
    {s s' : Statement} (literals : s.blank = s'.blank) :
    AkinRun (s.evaluate scope m) (s'.evaluate scope m') := by
  match s, s' with
  | .expression e, .expression e' =>
    rw [Statement.evaluate, Statement.evaluate]
    exact .of_akin (e.akin_evaluate (Memory.arena_of_blank same) scope
      (Statement.expression.inj literals)) same
  | .declare name constant init, .declare name' constant' init' =>
    obtain ⟨rfl, rfl, inits⟩ := Statement.declare.inj literals
    rw [Statement.evaluate, Statement.evaluate]
    exact Memory.akin_declare same scope name inits constant
  | .assign name op e, .assign name' op' e' =>
    obtain ⟨rfl, rfl, values⟩ := Statement.assign.inj literals
    rw [Statement.evaluate, Statement.evaluate]
    exact Memory.akin_assign same scope name values op
  | .block body, .block body' =>
    have arenas := Memory.arena_of_blank same
    by_cases valid : m.arena.Valid scope
    · have valid' : m'.arena.Valid scope := by
        rwa [← Arena.valid_blank, ← arenas, Arena.valid_blank]
      have inside := Statement.akin_evaluateBlock (Memory.entered_blank same scope) m.inner
        (rfl : Value.blank .null = _) (Statement.block.inj literals)
      obtain ⟨r, after, names, rest, run, shape, _, whole⟩ := Statement.evaluate_block valid body
      obtain ⟨r', after', names', rest', run', shape', _, whole'⟩ :=
        Statement.evaluate_block valid' body'
      rw [← Memory.inner_of_blank same] at run'
      rw [run, run'] at inside
      rw [whole, whole']
      refine inside.imp_memory fun same => ?_
      -- The newest scope is that of the block in both, and it is gone.
      have left := Memory.arena_of_blank same
      rw [shape, shape'] at left
      rw [Memory.blank, Memory.blank, Memory.next_of_blank same]
      exact congrArg (Memory.mk · _) (List.cons.inj left).2
    · have valid' : ¬ m'.arena.Valid scope := by
        rwa [← Arena.valid_blank, ← arenas, Arena.valid_blank]
      rw [Statement.evaluate_block_of_not_valid valid, Statement.evaluate_block_of_not_valid valid']
      exact .inr (.inr ⟨rfl, same⟩)

theorem Statement.akin_evaluateBlock {m m' : Memory} (same : m.blank = m'.blank)
    (scope : Handle) {last last' : Value} (values : last.blank = last'.blank)
    {body body' : List Statement}
    (literals : Statement.blankAll body = Statement.blankAll body') :
    AkinRun (Statement.evaluateBlock scope m last body)
      (Statement.evaluateBlock scope m' last' body') := by
  match body, body' with
  | [], [] =>
    rw [Statement.evaluateBlock, Statement.evaluateBlock]
    exact .ok values same
  | s :: more, s' :: more' =>
    obtain ⟨first, later⟩ := List.cons.inj literals
    rw [Statement.evaluateBlock_cons, Statement.evaluateBlock_cons]
    exact (Statement.akin_evaluate same scope first).bind fun _ _ _ _ values same =>
      Statement.akin_evaluateBlock same scope values later

end

/-! ## Programs -/

namespace Session

/-- The results of statements in the root up to the first error. -/
def outcomes (session : Session) : List Statement → List (Except EvalError Value)
  | [] => []
  | s :: more =>
    (session.evaluate s session.root).1 ::
      match (session.evaluate s session.root).1 with
      | .error _ => []
      | .ok _ => (session.evaluate s session.root).2.outcomes more

/-- What becomes of a program: of each statement that is reached, and of the whole. -/
structure Report where
  statements : List (Except EvalError Value)
  program : Except EvalError (List Value)

def report (session : Session) (tree : Tree) : Report :=
  ⟨session.outcomes tree.body, (session.evaluateTree tree).1⟩

/-- What becomes of programs one after another up to the first error. -/
def progress (session : Session) : List Tree → List Report
  | [] => []
  | tree :: more =>
    session.report tree ::
      match (session.evaluateTree tree).1 with
      | .error _ => []
      | .ok _ => (session.evaluateTree tree).2.progress more

/-- A report that keeps of every value no more than the name of its type. -/
def Report.types (report : Report) :
    List (Except EvalError String) × Except EvalError (List String) :=
  (report.statements.map (·.map Value.typeName), report.program.map (·.map Value.typeName))

def blank (session : Session) : Session :=
  ⟨session.memory.blank, session.root⟩

theorem evaluateAll_cons (session : Session) (s : Statement) (more : List Statement) :
    session.evaluateAll (s :: more) =
      match (session.evaluate s session.root).1 with
      | .error e => (.error e, (session.evaluate s session.root).2)
      | .ok v =>
        (((session.evaluate s session.root).2.evaluateAll more).1.map (v :: ·),
          ((session.evaluate s session.root).2.evaluateAll more).2) := by
  rw [evaluateAll]
  rcases session.evaluate s session.root with ⟨_ | _, _⟩ <;> rfl

section Serials

variable {ρ : Nat → Nat} {a b : Session}

theorem Alike.outcomes_eq (alike : Alike ρ a b) (injective : Function.Injective ρ)
    (body : List Statement) : b.outcomes body = a.outcomes body := by
  induction body generalizing a b with
  | nil => rfl
  | cons s more ih =>
    obtain ⟨same, kept⟩ := alike.evaluate injective s a.root
    rw [← alike.1] at same kept
    rw [outcomes, outcomes, same, ih kept]

/-- The serial number of the root is not to be told from what becomes of programs. -/
theorem Alike.progress_eq (alike : Alike ρ a b) (injective : Function.Injective ρ)
    (trees : List Tree) : b.progress trees = a.progress trees := by
  induction trees generalizing a b with
  | nil => rfl
  | cons tree more ih =>
    obtain ⟨reply, kept⟩ := alike.perform injective (.tree tree)
    have same : (b.evaluateTree tree).1 = (a.evaluateTree tree).1 :=
      Reply.values.inj (Option.some.inj reply)
    have later : (b.evaluateTree tree).2.progress more = (a.evaluateTree tree).2.progress more :=
      ih kept
    rw [progress, progress, report, report, same, later, alike.outcomes_eq injective tree.body]

end Serials

section Payloads

variable {a b : Session}

/-- A statement in the roots of sessions that differ in the payload of values. -/
theorem akin_evaluate (same : a.blank = b.blank) {s s' : Statement}
    (literals : s.blank = s'.blank) :
    (a.evaluate s a.root).1 = .error .divisionByZero ∨
      (b.evaluate s' b.root).1 = .error .divisionByZero ∨
      (a.evaluate s a.root).1.map Value.blank = (b.evaluate s' b.root).1.map Value.blank ∧
        (a.evaluate s a.root).2.blank = (b.evaluate s' b.root).2.blank := by
  obtain ⟨memories, roots⟩ := Session.mk.inj same
  have akin := Statement.akin_evaluate memories a.root literals
  obtain failed | failed | ⟨results, left⟩ := akin
  · exact .inl failed
  · rw [roots] at failed
    exact .inr (.inl failed)
  · rw [roots] at results left
    refine .inr (.inr ⟨?_, ?_⟩)
    · rw [roots]
      exact results
    · rw [roots]
      exact congrArg₂ Session.mk left roots

theorem types_cons (v : Value) (rest : Except EvalError (List Value)) :
    (rest.map (v :: ·)).map (·.map Value.typeName) =
      (rest.map (·.map Value.typeName)).map (v.typeName :: ·) := by
  cases rest <;> rfl

/-- The statements of a program have results of the same types in sessions that differ in
the payload of values, and leave such sessions, where neither run divides by zero. -/
theorem akin_evaluateAll (same : a.blank = b.blank) {body body' : List Statement}
    (literals : Statement.blankAll body = Statement.blankAll body')
    (ha : (a.evaluateAll body).1 ≠ .error .divisionByZero)
    (hb : (b.evaluateAll body').1 ≠ .error .divisionByZero) :
    (a.outcomes body).map (·.map Value.typeName) = (b.outcomes body').map (·.map Value.typeName) ∧
      (a.evaluateAll body).1.map (·.map Value.typeName) =
        (b.evaluateAll body').1.map (·.map Value.typeName) ∧
      (a.evaluateAll body).2.blank = (b.evaluateAll body').2.blank := by
  induction body generalizing a b body' with
  | nil =>
    cases body' with
    | nil => exact ⟨rfl, rfl, same⟩
    | cons s' more' => cases literals
  | cons s more ih =>
    cases body' with
    | nil => cases literals
    | cons s' more' =>
      obtain ⟨first, later⟩ := List.cons.inj literals
      have akin := akin_evaluate same first
      rw [evaluateAll_cons] at ha hb
      rw [evaluateAll_cons, evaluateAll_cons, outcomes, outcomes]
      generalize a.evaluate s a.root = x at ha akin ⊢
      generalize b.evaluate s' b.root = x' at hb akin ⊢
      obtain ⟨r, left⟩ := x
      obtain ⟨r', left'⟩ := x'
      rcases akin with rfl | rfl | ⟨results, kept⟩
      · exact (ha rfl).elim
      · exact (hb rfl).elim
      obtain ⟨e, rfl, rfl⟩ | ⟨v, v', rfl, rfl, values⟩ := cases_of_map_eq results
      · exact ⟨rfl, rfl, kept⟩
      · have name : v.typeName = v'.typeName := by
          rw [← v.typeName_blank, values, v'.typeName_blank]
        obtain ⟨statements, program, kept⟩ := ih kept later
          (fun failed => ha (by simp only [failed]; rfl))
          fun failed => hb (by simp only [failed]; rfl)
        refine ⟨?_, ?_, kept⟩
        · show Except.ok v.typeName :: _ = Except.ok v'.typeName :: _
          rw [name]
          exact congrArg _ statements
        · show ((left.evaluateAll more).1.map (v :: ·)).map _ =
            ((left'.evaluateAll more').1.map (v' :: ·)).map _
          rw [types_cons, types_cons, program, name]

theorem akin_progress (same : a.blank = b.blank) {p q : List Tree}
    (literals : p.map Tree.blank = q.map Tree.blank)
    (ha : ∀ report ∈ a.progress p, report.program ≠ .error .divisionByZero)
    (hb : ∀ report ∈ b.progress q, report.program ≠ .error .divisionByZero) :
    (a.progress p).map Report.types = (b.progress q).map Report.types := by
  induction p generalizing a b q with
  | nil =>
    cases q with
    | nil => rfl
    | cons tree' more' => cases literals
  | cons tree more ih =>
    cases q with
    | nil => cases literals
    | cons tree' more' =>
      obtain ⟨first, later⟩ := List.cons.inj literals
      obtain ⟨statements, program, kept⟩ := akin_evaluateAll same (Tree.mk.inj first)
        (ha _ (.head _)) (hb _ (.head _))
      have types : (a.report tree).types = (b.report tree').types :=
        Prod.ext statements program
      rw [progress, List.forall_mem_cons] at ha hb
      rw [progress, progress, List.map_cons, List.map_cons, types]
      obtain ⟨e, run, run'⟩ | ⟨v, v', run, run', _⟩ := cases_of_map_eq program
      · rw [show (a.evaluateTree tree).1 = _ from run, show (b.evaluateTree tree').1 = _ from run']
      · rw [show (a.evaluateTree tree).1 = _ from run] at ha ⊢
        rw [show (b.evaluateTree tree').1 = _ from run'] at hb ⊢
        exact congrArg _ (ih kept later ha.2 hb.2)

end Payloads

/-- Take two lists of programs that are one but for the payload of literals, and run each
list in a session of its own, up to its first error. Where neither run ends in a division
by zero, both go the same way: as many programs and statements are reached, and each of
them has values of the same types, or fails with the same error, in both runs. -/
theorem kinds_static (m n : Nat) {p q : List Tree}
    (literals : p.map Tree.blank = q.map Tree.blank)
    (hp : ∀ report ∈ (start m).progress p, report.program ≠ .error .divisionByZero)
    (hq : ∀ report ∈ (start n).progress q, report.program ≠ .error .divisionByZero) :
    ((start m).progress p).map Report.types = ((start n).progress q).map Report.types := by
  have alike : Alike (Equiv.swap m n) (start m) (start n) := by
    refine ⟨?_, ∅, holds_start m, holds_start n⟩
    show Handle.mk 0 n = ⟨0, Equiv.swap m n m⟩
    rw [Equiv.swap_apply_left]
  rw [← alike.progress_eq (Equiv.injective _)]
  rw [← alike.progress_eq (Equiv.injective _)] at hp
  exact akin_progress rfl literals hp hq

/-- A name is declared, divides, changes its kind and is compared with a text. -/
private def divides (divisor : Int32) (letter : Char) (text : String) : List Tree :=
  [⟨[.declare "x" false (some (.literal (.number (.integer divisor)))),
    .expression (.binary .divide (.literal (.number (.integer 6))) (.identifier "x")),
    .assign "x" (some .add) (.literal (.string text))]⟩,
   ⟨[.assign "x" none (.literal (.number (.char letter))),
    .expression (.comparison .equal (.identifier "x") (.literal (.string text)))]⟩]

theorem kinds_static_divides :
    ((start 0).progress (divides 2 'a' "b")).map Report.types =
      ((start 7).progress (divides 3 'c' "")).map Report.types := by
  refine kinds_static 0 7 rfl ?_ ?_
  · decide
  · decide

end Session

end KindScript
