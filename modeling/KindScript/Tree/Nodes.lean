import KindScript.Tree

/-!
# Nodes of a tree

The kinds of the nodes of a tree, listed from the root down and from left to
right, each with its depth. An expression that stands as a statement has no node
of its own, and of an assignment only the value is listed.
-/

namespace KindScript

namespace Tree

inductive NodeKind where
  | tree
  | scopeStatement
  | variableStatement
  | assignmentStatement
  | binaryExpression
  | booleanComparisonExpression
  | booleanJointExpression
  | booleanNotExpression
  | identifier
  | integer
  | long
  | float
  | double
  | byte
  | null
  | boolean
  | string
  | char
deriving DecidableEq, Repr

def NodeKind.name : NodeKind → String
  | tree => "Tree"
  | scopeStatement => "ScopeStatement"
  | variableStatement => "VariableStatement"
  | assignmentStatement => "AssignmentStatement"
  | binaryExpression => "BinaryExpression"
  | booleanComparisonExpression => "BooleanComparisonExpression"
  | booleanJointExpression => "BooleanJointExpression"
  | booleanNotExpression => "BooleanNotExpression"
  | identifier => "Identifier"
  | integer => "Integer"
  | long => "Long"
  | float => "Float"
  | double => "Double"
  | byte => "Byte"
  | null => "Null"
  | boolean => "Boolean"
  | string => "String"
  | char => "Char"

end Tree

open KindScript.Tree (NodeKind)

/-- The kind of a literal's node. -/
def Value.nodeKind : Value → NodeKind
  | null => .null
  | boolean _ => .boolean
  | string _ => .string
  | number n =>
    match n.kind with
    | .byte => .byte
    | .integer => .integer
    | .float => .float
    | .long => .long
    | .double => .double
    | .char => .char

/-- The nodes of an expression, itself at a given depth. -/
def Expression.nodes (depth : Nat) : Expression → List (Nat × NodeKind)
  | literal value => [(depth, value.nodeKind)]
  | identifier _ => [(depth, .identifier)]
  | binary _ left right =>
    (depth, .binaryExpression) :: (left.nodes (depth + 1) ++ right.nodes (depth + 1))
  | comparison _ left right =>
    (depth, .booleanComparisonExpression) :: (left.nodes (depth + 1) ++ right.nodes (depth + 1))
  | joint _ left right =>
    (depth, .booleanJointExpression) :: (left.nodes (depth + 1) ++ right.nodes (depth + 1))
  | not operand => (depth, .booleanNotExpression) :: operand.nodes (depth + 1)

mutual

/-- The nodes of a statement, itself at a given depth. -/
def Statement.nodes (depth : Nat) : Statement → List (Nat × NodeKind)
  | .block body => (depth, .scopeStatement) :: Statement.listNodes (depth + 1) body
  | .declare _ _ none => [(depth, .variableStatement)]
  | .declare _ _ (some value) => (depth, .variableStatement) :: value.nodes (depth + 1)
  | .assign _ _ value => (depth, .assignmentStatement) :: value.nodes (depth + 1)
  | .expression value => value.nodes depth

/-- The nodes of a run of statements at a given depth. -/
def Statement.listNodes (depth : Nat) : List Statement → List (Nat × NodeKind)
  | [] => []
  | statement :: rest => statement.nodes depth ++ Statement.listNodes depth rest

end

/-- The nodes of a whole program. -/
def Tree.nodes (tree : Tree) : List (Nat × NodeKind) :=
  (0, .tree) :: Statement.listNodes 1 tree.body

end KindScript
