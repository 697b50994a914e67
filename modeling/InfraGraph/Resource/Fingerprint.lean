import InfraGraph.Digest
import InfraGraph.Resource.Basic

/-!
# Fingerprint — content hashes of resources

A resource is hashed through a canonical text: its address, its fields in order and its
dependencies, a line for each.

* `FieldValue.canonical`, `Resource.canonical` — the canonical texts;
* `Resource.hash` — the hash of one resource;
* `Resource.hashAll` — the digest of a list of resources, which depends on their order.
-/

namespace InfraGraph

namespace FieldValue

/-- Character after every entry of a map and every item of a list. -/
def separator : String := "\x1f"

mutual

/-- Canonical text of a value: a letter for its sort, or brackets around its parts. -/
def canonical : FieldValue → String
  | text s => "s:" ++ s
  | number n => "n:" ++ toString n.toInt
  | bool b => "b:" ++ (if b then "true" else "false")
  | ref r => "r:" ++ r
  | expr e => "e:" ++ e
  | map entries => "\x7b" ++ canonicalEntries entries ++ "\x7d"
  | list items => "[" ++ canonicalItems items ++ "]"

def canonicalEntries : List (String × FieldValue) → String
  | [] => ""
  | e :: rest => e.1 ++ "=" ++ canonical e.2 ++ separator ++ canonicalEntries rest

def canonicalItems : List FieldValue → String
  | [] => ""
  | v :: rest => canonical v ++ separator ++ canonicalItems rest

end

end FieldValue

namespace Resource

def fieldLine (field : String × FieldValue) : String :=
  field.1 ++ "=" ++ field.2.canonical ++ "\n"

def dependencyLine (address : String) : String := "depends_on=" ++ address ++ "\n"

def canonical (r : Resource) : String :=
  r.address ++ "\n" ++ String.join (r.fields.entries.map fieldLine) ++
    String.join (r.dependsOn.map dependencyLine)

def hash (r : Resource) : String := Digest.ofText r.canonical

def hashAll (rs : List Resource) : String := Digest.composite (rs.map hash)

end Resource
end InfraGraph
