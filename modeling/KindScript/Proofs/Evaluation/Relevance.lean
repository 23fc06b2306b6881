import KindScript.Proofs.Evaluation.Change
import KindScript.Proofs.Evaluation.Independence

/-!
# Names that a program does not mention

What a program does is settled by what the root scope has for the names that occur in it,
and no other name of the root is touched. Two runs over roots that agree on those names are
followed step by step in the semantics of `KindScript.Lexical`, where the frames around a
statement may differ in all other names.
-/

namespace KindScript

open Scope Lexical

/-! ## Names in programs -/

def Expression.names : Expression → List String
  | literal _ => []
  | identifier name => [name]
  | binary _ left right | comparison _ left right | joint _ left right => left.names ++ right.names
  | not operand => operand.names

mutual

/-- The names that are read, declared or assigned in a statement. -/
def Statement.names : Statement → List String
  | .block body => Statement.allNames body
  | .declare name _ value => name :: value.elim [] Expression.names
  | .assign name _ value => name :: value.names
  | .expression value => value.names

def Statement.allNames : List Statement → List String
  | [] => []
  | s :: more => s.names ++ Statement.allNames more

end

def Tree.names (tree : Tree) : List String :=
  Statement.allNames tree.body

theorem Lexical.Denotes.names_eq {build : Expression → Expression → Expression}
    {meaning : Value → Value → Except EvalError Value} (op : Denotes build meaning)
    (l r : Expression) : (build l r).names = l.names ++ r.names := by
  cases op <;> rfl

theorem Statement.subset_allNames {body : List Statement} {s : Statement} (mem : s ∈ body) :
    s.names ⊆ Statement.allNames body := by
  induction body with
  | nil => cases mem
  | cons first more ih =>
    rcases List.mem_cons.mp mem with rfl | later
    · exact List.subset_append_left _ _
    · exact List.subset_append_of_subset_right _ (ih later)

theorem Statement.Assigns.mem_names {name : String} {s : Statement} (assigns : s.Assigns name) :
    name ∈ s.names := by
  induction assigns with
  | here op value => exact List.mem_cons_self
  | inside mem _ ih => exact Statement.subset_allNames mem ih

/-! ## Frames that agree on some names -/

namespace Lexical

/-- The frames have the same for each of the names. -/
def SameOn (names : List String) (frame other : Frame) : Prop :=
  ∀ name ∈ names, frame.lookup name = other.lookup name

section Frames

variable {names : List String} {frame other : Frame} {env env' : Env} {name : String}

theorem SameOn.refl (frame : Frame) : SameOn names frame frame :=
  fun _ _ => rfl

theorem SameOn.mem_iff (same : SameOn names frame other) (mem : name ∈ names) :
    name ∈ frame ↔ name ∈ other := by
  rw [← Finmap.lookup_isSome, same name mem, Finmap.lookup_isSome]

theorem SameOn.insert (same : SameOn names frame other) (name : String) (v : Variable) :
    SameOn names (frame.insert name v) (other.insert name v) := by
  intro key mem
  by_cases here : key = name
  · rw [here, Finmap.lookup_insert, Finmap.lookup_insert]
  · rw [Finmap.lookup_insert_of_ne _ here, Finmap.lookup_insert_of_ne _ here, same key mem]

variable (same : List.Forall₂ (SameOn names) env env') (mem : name ∈ names)
include same mem

theorem find?_of_sameOn : env.find? name = env'.find? name := by
  induction same with
  | nil => rfl
  | cons top _ ih => rw [Env.find?, Env.find?, top name mem, ih]

theorem put_of_sameOn (v : Variable) :
    List.Forall₂ (SameOn names) (env.put name v) (env'.put name v) := by
  induction same with
  | nil => exact .nil
  | @cons frame _ _ _ top rest ih =>
    rw [Env.put, Env.put]
    by_cases here : name ∈ frame
    · rw [if_pos here, if_pos ((top.mem_iff mem).mp here)]
      exact .cons (top.insert name v) rest
    · rw [if_neg here, if_neg (mt (top.mem_iff mem).mpr here)]
      exact .cons top ih

end Frames

/-! ## Two runs -/

section Runs

variable {names : List String} {env env' : Env}

theorem Yields.of_sameOn {e : Expression} {result : Except EvalError Value}
    (yields : Yields env e result) (same : List.Forall₂ (SameOn names) env env')
    (within : e.names ⊆ names) : Yields env' e result := by
  induction yields with
  | literal v => exact .literal v
  | name found =>
    rw [find?_of_sameOn same (within List.mem_cons_self)] at found
    exact .name found
  | unknown missing =>
    rw [find?_of_sameOn same (within List.mem_cons_self)] at missing
    exact .unknown missing
  | operation op _ _ ihl ihr =>
    rw [op.names_eq, List.append_subset] at within
    exact .operation op (ihl within.1) (ihr within.2)
  | left_error op _ ih =>
    rw [op.names_eq, List.append_subset] at within
    exact .left_error op (ih within.1)
  | right_error op _ _ ihl ihr =>
    rw [op.names_eq, List.append_subset] at within
    exact .right_error op (ihl within.1) (ihr within.2)
  | negation _ ih => exact .negation (ih within)
  | negation_error _ ih => exact .negation_error (ih within)

theorem Initial.of_sameOn {value : Option Expression} {result : Except EvalError Value}
    (initial : Initial env value result) (same : List.Forall₂ (SameOn names) env env')
    (within : value.elim [] Expression.names ⊆ names) : Initial env' value result := by
  cases initial with
  | none => exact .none
  | some yields => exact .some (yields.of_sameOn same within)

theorem Assigned.of_sameOn {name : String} {op : Option ArithmeticOp} {e : Expression}
    {result : Except EvalError Value} (assigned : Assigned env name op e result)
    (same : List.Forall₂ (SameOn names) env env') (mem : name ∈ names)
    (within : e.names ⊆ names) : Assigned env' name op e result := by
  cases assigned with
  | plain value => exact .plain (value.of_sameOn same within)
  | compound value found =>
    rw [find?_of_sameOn same mem] at found
    exact .compound (value.of_sameOn same within) found
  | compound_unknown value missing =>
    rw [find?_of_sameOn same mem] at missing
    exact .compound_unknown (value.of_sameOn same within) missing
  | compound_error value => exact .compound_error (value.of_sameOn same within)

end Runs

mutual

/-- A statement does the same in frames that agree on its names, and they agree afterwards. -/
theorem Executes.of_sameOn {names : List String} {env env' after : Env} {s : Statement}
    {result : Except EvalError Value} (run : Executes env s result after)
    (same : List.Forall₂ (SameOn names) env env') (within : s.names ⊆ names) :
    ∃ after', Executes env' s result after' ∧ List.Forall₂ (SameOn names) after after' := by
  match run with
  | .expression value => exact ⟨env', .expression (value.of_sameOn same within), same⟩
  | .declaration value fresh =>
    obtain ⟨mem, init⟩ := List.cons_subset.mp within
    have value := value.of_sameOn same init
    cases same with
    | cons top rest =>
      exact ⟨_, .declaration value (mt (top.mem_iff mem).mpr fresh), .cons (top.insert _ _) rest⟩
  | .redeclaration value taken =>
    obtain ⟨mem, init⟩ := List.cons_subset.mp within
    have value := value.of_sameOn same init
    cases same with
    | cons top rest =>
      exact ⟨_, .redeclaration value ((top.mem_iff mem).mp taken), .cons top rest⟩
  | .declaration_error value =>
    obtain ⟨_, init⟩ := List.cons_subset.mp within
    exact ⟨env', .declaration_error (value.of_sameOn same init), same⟩
  | .assignment value found =>
    obtain ⟨mem, inside⟩ := List.cons_subset.mp within
    have found := (find?_of_sameOn same mem).symm.trans found
    exact ⟨_, .assignment (value.of_sameOn same mem inside) found, put_of_sameOn same mem _⟩
  | .constant_assignment value found =>
    obtain ⟨mem, inside⟩ := List.cons_subset.mp within
    have found := (find?_of_sameOn same mem).symm.trans found
    exact ⟨env', .constant_assignment (value.of_sameOn same mem inside) found, same⟩
  | .unknown_assignment value missing =>
    obtain ⟨mem, inside⟩ := List.cons_subset.mp within
    have missing := (find?_of_sameOn same mem).symm.trans missing
    exact ⟨env', .unknown_assignment (value.of_sameOn same mem inside) missing, same⟩
  | .assignment_error value =>
    obtain ⟨mem, inside⟩ := List.cons_subset.mp within
    exact ⟨env', .assignment_error (value.of_sameOn same mem inside), same⟩
  | .block inside =>
    obtain ⟨after', run', kept⟩ := inside.of_sameOn (.cons (.refl ∅) same) within
    cases kept with
    | cons _ rest => exact ⟨_, .block run', rest⟩

theorem ExecutesBlock.of_sameOn {names : List String} {env env' after : Env} {last : Value}
    {body : List Statement} {result : Except EvalError Value}
    (run : ExecutesBlock env last body result after)
    (same : List.Forall₂ (SameOn names) env env') (within : Statement.allNames body ⊆ names) :
    ∃ after', ExecutesBlock env' last body result after' ∧
      List.Forall₂ (SameOn names) after after' := by
  match run with
  | .done last => exact ⟨env', .done last, same⟩
  | .error first =>
    obtain ⟨here, _⟩ := List.append_subset.mp within
    obtain ⟨after', run', kept⟩ := first.of_sameOn same here
    exact ⟨after', .error run', kept⟩
  | .next first later =>
    obtain ⟨here, rest⟩ := List.append_subset.mp within
    obtain ⟨middle', run', kept⟩ := first.of_sameOn same here
    obtain ⟨after', runs', kept'⟩ := later.of_sameOn kept rest
    exact ⟨after', .next run' runs', kept'⟩

end

theorem Completes.of_sameOn {names : List String} {env env' after : Env} {body : List Statement}
    {result : Except EvalError (List Value)} (run : Completes env body result after)
    (same : List.Forall₂ (SameOn names) env env') (within : Statement.allNames body ⊆ names) :
    ∃ after', Completes env' body result after' ∧ List.Forall₂ (SameOn names) after after' := by
  induction run generalizing env' with
  | done env => exact ⟨env', .done env', same⟩
  | error first =>
    obtain ⟨here, _⟩ := List.append_subset.mp within
    obtain ⟨after', run', kept⟩ := first.of_sameOn same here
    exact ⟨after', .error run', kept⟩
  | next first _ ih =>
    obtain ⟨here, rest⟩ := List.append_subset.mp within
    obtain ⟨middle', run', kept⟩ := first.of_sameOn same here
    obtain ⟨after', runs', kept'⟩ := ih kept rest
    exact ⟨after', .next run' runs', kept'⟩

end Lexical

/-! ## Names that are not touched -/

/-- A name that does not occur in a statement stands for the same in each scope afterwards. -/
theorem Statement.binding?_of_unmentioned (scope : Handle) (memory : Memory) {s : Statement}
    {name : String} (unmentioned : name ∉ s.names) (h : Handle) :
    (s.evaluate scope memory).2.arena.binding? h name = memory.arena.binding? h name := by
  have changes := s.changes_evaluate scope memory
  cases before : memory.arena.binding? h name with
  | none =>
    by_contra bound
    obtain ⟨_, ⟨constant, value, rfl⟩, _⟩ := changes.gained before bound
    exact unmentioned List.mem_cons_self
  | some v =>
    obtain ⟨w, bound, flag⟩ := changes.kept before
    have value : w.value = v.value := by
      by_contra changed
      exact unmentioned (changes.assigned before bound changed).mem_names
    obtain ⟨_, _⟩ := w
    cases value
    cases flag
    exact bound

namespace Session

/-- What the root scope itself has for a name. -/
def rootBinding? (session : Session) (name : String) : Option Variable :=
  session.memory.arena.binding? session.root name

theorem rootBinding?_of_unmentioned (session : Session) {body : List Statement} {name : String}
    (unmentioned : name ∉ Statement.allNames body) :
    (session.evaluateAll body).2.rootBinding? name = session.rootBinding? name := by
  induction body generalizing session with
  | nil => rfl
  | cons s more ih =>
    obtain ⟨here, later⟩ := not_or.mp (mt List.mem_append.mpr unmentioned)
    have first : (session.evaluate s session.root).2.rootBinding? name =
        session.rootBinding? name :=
      Statement.binding?_of_unmentioned session.root session.memory here session.root
    rw [evaluateAll]
    split
    · rename_i failed
      rw [failed] at first
      exact first
    · rename_i after done
      rw [done] at first
      exact (ih after later).trans first

/-- Two sessions whose roots have the same for the names of some statements. -/
theorem evaluateAll_of_sameOn {a b : Session} {frame other : Frame} (ha : a.Holds frame)
    (hb : b.Holds other) {names : List String} (same : SameOn names frame other)
    {body : List Statement} (within : Statement.allNames body ⊆ names) :
    (a.evaluateAll body).1 = (b.evaluateAll body).1 ∧
      ∃ frame' other', (a.evaluateAll body).2.Holds frame' ∧
        (b.evaluateAll body).2.Holds other' ∧ SameOn names frame' other' := by
  obtain ⟨frame', kept, run⟩ := ha.evaluateAll body
  obtain ⟨other', kept', run'⟩ := hb.evaluateAll body
  -- The run of the one is also a run over the frame of the other, and that has only one run.
  obtain ⟨after, moved, agree⟩ :=
    ((run _ _).mpr ⟨rfl, rfl⟩).of_sameOn (.cons same .nil) within
  obtain ⟨result, rfl⟩ := (run' _ _).mp moved
  cases agree with
  | cons top _ => exact ⟨result.symm, frame', other', kept, kept', top⟩

/-- A program does the same in two sessions, whatever happened to them before, if their roots
have the same for all names that occur in it: the same value and flag, or nothing. It gives
the same values or the same error, and the roots have the same for these names afterwards.
For every other name each of the two roots has what it had before. -/
theorem evaluateTree_of_sameOn {serial serial' : Nat} {calls calls' : List Call} {tree : Tree}
    (agree : ∀ name ∈ tree.names, ((start serial).after calls).rootBinding? name =
      ((start serial').after calls').rootBinding? name) :
    let a := (start serial).after calls
    let b := (start serial').after calls'
    (a.evaluateTree tree).1 = (b.evaluateTree tree).1 ∧
      (∀ name ∈ tree.names,
        (a.evaluateTree tree).2.rootBinding? name = (b.evaluateTree tree).2.rootBinding? name) ∧
      ∀ name ∉ tree.names,
        (a.evaluateTree tree).2.rootBinding? name = a.rootBinding? name ∧
          (b.evaluateTree tree).2.rootBinding? name = b.rootBinding? name := by
  intro a b
  obtain ⟨bindings, root⟩ := atRoot_after serial calls
  obtain ⟨bindings', root'⟩ := atRoot_after serial' calls'
  have ha : a.Holds bindings.frame := ⟨bindings, root, rfl⟩
  have hb : b.Holds bindings'.frame := ⟨bindings', root', rfl⟩
  have same : SameOn tree.names bindings.frame bindings'.frame := by
    intro name mem
    rw [← ha.binding?, ← hb.binding?]
    exact agree name mem
  obtain ⟨result, frame, other, kept, kept', left⟩ :=
    evaluateAll_of_sameOn ha hb same (List.Subset.refl tree.names)
  refine ⟨result, fun name mem => ?_, fun name unmentioned => ?_⟩
  · exact (kept.binding? name).trans ((left name mem).trans (kept'.binding? name).symm)
  · exact ⟨a.rootBinding?_of_unmentioned unmentioned, b.rootBinding?_of_unmentioned unmentioned⟩

/-- A program that gives `x` another value and fails at the constant `c`, which it hides in a
block before. -/
private def stumbling : Tree :=
  ⟨[.assign "x" none (.literal (.boolean true)),
    .block [.declare "c" false none, .assign "c" none (.identifier "x")],
    .assign "c" none (.identifier "x")]⟩

/-- Calls that define the names of that program, perhaps after another one. -/
private def defining (more : List Call) (root : Handle) : List Call :=
  more ++ [.evaluate (.declare "c" true none) root, .evaluate (.declare "x" false none) root]

theorem evaluateTree_of_sameOn_stumbling :
    let a := (start 0).after (defining [.evaluate (.declare "z" true none) ⟨0, 0⟩] ⟨0, 0⟩)
    let b := (start 7).after (defining [.elsewhere 2] ⟨0, 7⟩)
    (∀ name ∈ stumbling.names, a.rootBinding? name = b.rootBinding? name) ∧
      (a.evaluateTree stumbling).1 = .error (.scope (.constant "c")) ∧
      (a.evaluateTree stumbling).1 = (b.evaluateTree stumbling).1 ∧
      (b.evaluateTree stumbling).2.rootBinding? "x" = some ⟨.boolean true, false⟩ ∧
      (a.evaluateTree stumbling).2.rootBinding? "x" =
        (b.evaluateTree stumbling).2.rootBinding? "x" ∧
      (a.evaluateTree stumbling).2.rootBinding? "z" = some ⟨.null, true⟩ := by
  intro a b
  have agree : ∀ name ∈ stumbling.names, a.rootBinding? name = b.rootBinding? name := by decide
  obtain ⟨result, mentioned, others⟩ := evaluateTree_of_sameOn agree
  have x : "x" ∈ stumbling.names := by decide
  have z : "z" ∉ stumbling.names := by decide
  exact ⟨agree, rfl, result, rfl, mentioned "x" x, (others "z" z).1.trans rfl⟩

end Session

end KindScript
