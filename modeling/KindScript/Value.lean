import KindScript.Number

/-!
# Values

What an expression of the language has as its result, and what a literal stands
for.
-/

namespace KindScript

inductive Value where
  | null
  | boolean (value : Bool)
  | string (value : String)
  | number (value : Number)
deriving DecidableEq

namespace Value

/-- The name of a value's type in messages. -/
def typeName : Value → String
  | null => "Null"
  | boolean _ => "Boolean"
  | string _ => "String"
  | number n => n.kind.name

/-- The text of a value by itself. -/
def text : Value → String
  | null => "null"
  | boolean b => if b then "true" else "false"
  | string s => s
  | number n => n.text

end Value

end KindScript
