import InfraGraph.Decimal.Layout
import InfraGraph.Json.Basic

/-!
# Printer — JSON texts

* `Json.quoted` — a text between quotes, with the escapes JSON asks for and no others;
* `Json.compact` — a value on one line without blanks;
* `Json.pretty` — a value with one item or member to a line, indented by two blanks a level.
-/

namespace InfraGraph
namespace Json

/-! ## Scalars -/

def hexDigit (n : Nat) : Char := (Nat.digitChar n)

def escaped (c : Char) : List Char :=
  if c = '"' then ['\\', '"']
  else if c = '\\' then ['\\', '\\']
  else if c = '\n' then ['\\', 'n']
  else if c = '\r' then ['\\', 'r']
  else if c = '\t' then ['\\', 't']
  else if c = '\x08' then ['\\', 'b']
  else if c = '\x0c' then ['\\', 'f']
  else if c.toNat < 32 then
    ['\\', 'u', '0', '0', hexDigit (c.toNat / 16), hexDigit (c.toNat % 16)]
  else [c]

def quoted (s : String) : String :=
  String.ofList ('"' :: s.toList.flatMap escaped ++ ['"'])

/-- Text of a value other than an array or an object. -/
def scalarText : Json → String
  | null => "null"
  | bool true => "true"
  | bool false => "false"
  | int n => toString n
  | float x => Decimal.exponential.text x
  | str s => quoted s
  | arr _ => "[]"
  | obj _ => "\x7b\x7d"

/-! ## One line -/

mutual

def compact : Json → String
  | arr items => "[" ++ compactItems items ++ "]"
  | obj members => "\x7b" ++ compactMembers members ++ "\x7d"
  | v => scalarText v

def compactItems : List Json → String
  | [] => ""
  | [v] => compact v
  | v :: rest => compact v ++ "," ++ compactItems rest

def compactMembers : List (String × Json) → String
  | [] => ""
  | [m] => quoted m.1 ++ ":" ++ compact m.2
  | m :: rest => quoted m.1 ++ ":" ++ compact m.2 ++ "," ++ compactMembers rest

end

/-! ## Indented -/

def lineStart (depth : Nat) : String := String.ofList ('\n' :: List.replicate (2 * depth) ' ')

mutual

/-- A value at a depth; empty arrays and objects stay on one line. -/
def prettyAt (depth : Nat) : Json → String
  | arr (v :: rest) =>
      "[" ++ prettyItems (depth + 1) (v :: rest) ++ lineStart depth ++ "]"
  | obj (m :: rest) =>
      "\x7b" ++ prettyMembers (depth + 1) (m :: rest) ++ lineStart depth ++ "\x7d"
  | v => scalarText v

def prettyItems (depth : Nat) : List Json → String
  | [] => ""
  | [v] => lineStart depth ++ prettyAt depth v
  | v :: rest => lineStart depth ++ prettyAt depth v ++ "," ++ prettyItems depth rest

def prettyMembers (depth : Nat) : List (String × Json) → String
  | [] => ""
  | [m] => lineStart depth ++ quoted m.1 ++ ": " ++ prettyAt depth m.2
  | m :: rest =>
      lineStart depth ++ quoted m.1 ++ ": " ++ prettyAt depth m.2 ++ "," ++
        prettyMembers depth rest

end

/-- A value with one item or member to a line. -/
def pretty (v : Json) : String := prettyAt 0 v

end Json
end InfraGraph
