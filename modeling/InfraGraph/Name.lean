import InfraGraph.Text.Runs

/-!
# Name — identifiers derived from texts

Every resource name is computed from the texts of the schema, so two resources that speak of the
same thing agree on its name without talking to each other.  Only the ASCII letters and digits of a
text count; their maximal runs are lowercased and joined:

* `Name.tokens` — the lowercase alphanumeric runs of a list of texts;
* `Name.identifier` — the name of a resource inside the graph, joined with underscores;
* `Name.cloud` — the name a provider sees, joined with hyphens and at most 64 characters long.
-/

namespace InfraGraph
namespace Name

/-- Name of what has no letter or digit at all. -/
def root : String := "root"

/-- Longest cloud-side name, in characters. -/
def cloudLimit : Nat := 64

/-- Lowercase ASCII alphanumeric runs of each part, in order. -/
def tokens (parts : List String) : List (List Char) :=
  parts.flatMap fun part =>
    (Text.runs Char.isAlphanum part.toList).map fun run => run.map Char.toLower

def joined (separator : Char) (ts : List (List Char)) : List Char :=
  [separator].intercalate ts

/-- Identifier legal in the resource language: lowercase ASCII letters, digits and underscores,
never empty and never starting with a digit. -/
def identifier (parts : List String) : String :=
  match joined '_' (tokens parts) with
  | [] => root
  | c :: cs => String.ofList (if c.isDigit then '_' :: c :: cs else c :: cs)

/-- Cut to `limit` characters, then drop hyphens at the end. -/
def cut (limit : Nat) (cs : List Char) : List Char :=
  ((cs.take limit).reverse.dropWhile (· = '-')).reverse

/-- Cloud-side name: lowercase ASCII letters, digits and hyphens, at most 64 characters, not ending
in a hyphen. -/
def cloud (parts : List String) : String :=
  match joined '-' (tokens parts) with
  | [] => root
  | c :: cs => String.ofList (cut cloudLimit (c :: cs))

end Name
end InfraGraph
