/-!
JSON documents, written compactly.

Numbers are kept as the text they are to be written with, so that the choice between `2` and
`2.0`, or the digits of a fraction, is made by whoever builds the document. Strings are
written with `"`, `\` and the control characters escaped, and everything else as is.

Besides the compact form there is an indented one for files: every item and member on a line
of its own, two spaces deeper than its array or object, a member's name followed by `: `, and
an empty array or object written `[]` or as an empty pair of braces.
-/

namespace SweptSpectrum.Text

/-- A JSON value; object members keep their order. -/
inductive Json where
  | null
  | bool (b : Bool)
  | num (text : String)
  | str (s : String)
  | arr (items : List Json)
  | obj (members : List (String × Json))
  deriving Repr, Inhabited

namespace Json

/-- An integer. -/
def int (i : Int) : Json := .num (toString i)

/-- A natural number. -/
def nat (n : Nat) : Json := .num (toString n)

/-- An optional value, `null` when absent. -/
def opt {α : Type} (f : α → Json) : Option α → Json
  | some a => f a
  | none => .null

/-- The escape of one character inside a string. -/
def escapeChar (c : Char) : String :=
  if c = '"' then "\\\""
  else if c = '\\' then "\\\\"
  else if c = '\n' then "\\n"
  else if c = '\r' then "\\r"
  else if c = '\t' then "\\t"
  else if c.toNat < 0x20 then
    let h := Nat.toDigits 16 c.toNat
    "\\u" ++ String.ofList (List.replicate (4 - h.length) '0' ++ h)
  else c.toString

/-- A string literal. -/
def quote (s : String) : String := "\"" ++ String.join (s.toList.map escapeChar) ++ "\""

mutual

/-- The compact text of a value. -/
def render : Json → String
  | .null => "null"
  | .bool b => if b then "true" else "false"
  | .num t => t
  | .str s => quote s
  | .arr items => renderItems "[" true items ++ "]"
  | .obj members => renderMembers "\x7b" true members ++ "\x7d"

/-- Appends the items of an array to `acc`, separated by commas; `first` says no item
has been written yet. -/
def renderItems (acc : String) (first : Bool) : List Json → String
  | [] => acc
  | x :: xs => renderItems (acc ++ (if first then "" else ",") ++ render x) false xs

/-- Appends the members of an object to `acc`, separated by commas; `first` says no
member has been written yet. -/
def renderMembers (acc : String) (first : Bool) : List (String × Json) → String
  | [] => acc
  | (k, v) :: rest =>
    renderMembers (acc ++ (if first then "" else ",") ++ quote k ++ ":" ++ render v) false rest

end

mutual

/-- The indented text of a value whose line starts with `indent`. -/
def pretty (indent : String) : Json → String
  | .arr [] => "[]"
  | .arr items => "[" ++ prettyItems indent true items ++ "\n" ++ indent ++ "]"
  | .obj [] => "\x7b\x7d"
  | .obj members => "\x7b" ++ prettyMembers indent true members ++ "\n" ++ indent ++ "\x7d"
  | v => render v

/-- The items of an array, each on a new line two spaces deeper than `indent`. -/
def prettyItems (indent : String) (first : Bool) : List Json → String
  | [] => ""
  | x :: xs =>
    (if first then "\n" else ",\n") ++ indent ++ "  " ++ pretty (indent ++ "  ") x ++
      prettyItems indent false xs

/-- The members of an object, each on a new line two spaces deeper than `indent`. -/
def prettyMembers (indent : String) (first : Bool) : List (String × Json) → String
  | [] => ""
  | (k, v) :: rest =>
    (if first then "\n" else ",\n") ++ indent ++ "  " ++ quote k ++ ": " ++
      pretty (indent ++ "  ") v ++ prettyMembers indent false rest

end

end Json

end SweptSpectrum.Text
