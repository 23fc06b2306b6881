import KindScript.Json
import KindScript.Token
import KindScript.Tree

/-!
# Dumps

Tokens, trees and values as JSON. A choice between forms is an object with the
name of the form as its only key, or the bare name where the form holds nothing;
the fields of a form stand in a fixed order. Floating-point numbers have their
shortest digits, with an exponent outside a range of orders that depends on the
kind; JSON has no infinity, so numbers that are not finite are written as text.
-/

namespace KindScript

open Json (tagged)

def Position.toJson (p : Position) : Json :=
  .object [("line", .ofNat p.line), ("column", .ofNat p.column)]

def Token.toJson (t : Token) : Json :=
  .object [("kind", .string t.kind.name), ("value", .string t.text), ("start", t.start.toJson),
    ("end", t.stop.toJson)]

def Token.listToJson (ts : List Token) : Json :=
  .array (ts.map Token.toJson)

namespace Number

/-- Floats are written positionally from a millionth on and below ten trillion. -/
def singleStyle : Decimal.Style :=
  ⟨some (-6, 12), true⟩

/-- Doubles are written positionally from a hundred-thousandth on and below ten quadrillion. -/
def doubleStyle : Decimal.Style :=
  ⟨some (-5, 15), true⟩

def floatToJson {f : Format} (style : Decimal.Style) (x : Binary f) : Json :=
  let text := x.write .even style
  if x.isFinite then .number text else .string text

/-- The number without its kind. -/
def payloadToJson : Number → Json
  | byte v => .ofNat v.toNat
  | integer v => .ofInt v.toInt
  | float v => floatToJson singleStyle v
  | long v => .ofInt v.toInt
  | double v => floatToJson doubleStyle v
  | char v => .string v.toString

def toJson (n : Number) : Json :=
  tagged n.kind.name n.payloadToJson

end Number

def Value.toJson : Value → Json
  | null => .string "Null"
  | boolean b => tagged "Boolean" (.boolean b)
  | string s => tagged "String" (.string s)
  | number n => tagged "Number" n.toJson

def Value.listToJson (values : List Value) : Json :=
  .array (values.map Value.toJson)

/-- A literal is like a value, but numbers stand by themselves. -/
def Value.literalToJson : Value → Json
  | number n => n.toJson
  | v => v.toJson

def Expression.toJson : Expression → Json
  | literal v => tagged "Literal" v.literalToJson
  | identifier name => tagged "Identifier" (.string name)
  | binary op left right =>
    tagged "Binary" (operation left.toJson right.toJson op.name)
  | comparison op left right =>
    tagged "Comparison" (operation left.toJson right.toJson op.name)
  | joint op left right =>
    tagged "Joint" (operation left.toJson right.toJson op.name)
  | not operand => tagged "Not" operand.toJson
where
  operation (left right : Json) (op : String) : Json :=
    .object [("left", left), ("right", right), ("operator", .string op)]

/-- A value that may be absent. -/
def Json.ofOption {α : Type} (toJson : α → Json) : Option α → Json
  | none => .null
  | some value => toJson value

mutual

def Statement.toJson : Statement → Json
  | .block body => tagged "Scope" (.array (Statement.listToJson body))
  | .declare name constant value =>
    tagged "Variable" (.object [("identifier", .string name), ("constant", .boolean constant),
      ("value", .ofOption Expression.toJson value)])
  | .assign name op value =>
    tagged "Assignment" (.object [("identifier", .string name),
      ("operator", .ofOption (fun op => .string op.name) op), ("value", value.toJson)])
  | .expression value => tagged "Expression" value.toJson

def Statement.listToJson : List Statement → List Json
  | [] => []
  | s :: more => s.toJson :: Statement.listToJson more

end

def Tree.toJson (tree : Tree) : Json :=
  .object [("body", .array (Statement.listToJson tree.body))]

end KindScript
