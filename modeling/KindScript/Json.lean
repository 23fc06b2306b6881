/-!
# JSON values

A JSON value with its numbers as they are written and its fields in their order,
and its two written forms: without any space, and indented by two spaces.
-/

namespace KindScript

inductive Json where
  | null
  | boolean (value : Bool)
  | number (text : String)
  | string (text : String)
  | array (items : List Json)
  | object (fields : List (String × Json))

namespace Json

def ofNat (n : Nat) : Json :=
  number n.repr

def ofInt (n : Int) : Json :=
  number n.repr

/-- A value under a single name. -/
def tagged (name : String) (value : Json) : Json :=
  object [(name, value)]

/-- The escape of a control character without a short form. -/
def controlEscape (c : Char) : String :=
  "\\u00" ++ String.ofList [Nat.digitChar (c.toNat / 16), Nat.digitChar (c.toNat % 16)]

def escapedChar (c : Char) : String :=
  match c with
  | '"' => "\\\""
  | '\\' => "\\\\"
  | '\x08' => "\\b"
  | '\x0c' => "\\f"
  | '\n' => "\\n"
  | '\r' => "\\r"
  | '\t' => "\\t"
  | _ => if c.toNat < 32 then controlEscape c else c.toString

/-- A text between double quotes. Only quotes, backslashes and controls are escaped. -/
def stringText (text : String) : String :=
  "\"" ++ String.join (text.toList.map escapedChar) ++ "\""

mutual

/-- The written form without spaces. -/
def compact : Json → String
  | null => "null"
  | boolean value => if value then "true" else "false"
  | number text => text
  | string text => stringText text
  | array items => "[" ++ ",".intercalate (compactItems items) ++ "]"
  | object fields => "\x7b" ++ ",".intercalate (compactFields fields) ++ "\x7d"

def compactItems : List Json → List String
  | [] => []
  | item :: more => item.compact :: compactItems more

def compactFields : List (String × Json) → List String
  | [] => []
  | (name, value) :: more => (stringText name ++ ":" ++ value.compact) :: compactFields more

end

/-- A new line with its indentation. -/
def lineBreak (depth : Nat) : String :=
  "\n" ++ String.ofList (List.replicate (2 * depth) ' ')

/-- Texts on lines of their own between brackets; nothing but the brackets where there is none. -/
def onLines (depth : Nat) (left right : String) (texts : List String) : String :=
  if texts.isEmpty then left ++ right
  else
    left ++ lineBreak (depth + 1) ++ ("," ++ lineBreak (depth + 1)).intercalate texts ++
      lineBreak depth ++ right

mutual

/-- The indented form, inside `depth` other values. -/
def pretty (depth : Nat) : Json → String
  | null => "null"
  | boolean value => if value then "true" else "false"
  | number text => text
  | string text => stringText text
  | array items => onLines depth "[" "]" (prettyItems (depth + 1) items)
  | object fields => onLines depth "\x7b" "\x7d" (prettyFields (depth + 1) fields)

def prettyItems (depth : Nat) : List Json → List String
  | [] => []
  | item :: more => item.pretty depth :: prettyItems depth more

def prettyFields (depth : Nat) : List (String × Json) → List String
  | [] => []
  | (name, value) :: more =>
    (stringText name ++ ": " ++ value.pretty depth) :: prettyFields depth more

end

end Json

end KindScript
