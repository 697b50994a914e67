import InfraGraph.Graph.Decode
import InfraGraph.Storage.Program
import InfraGraph.Storage.Tree

/-!
# Store — the graph file of an output directory

A graph is written to a file next to its own and then put in its place, so that the graph file is
at all times either the old one or the new one.

* `Graph.load` — the stored graph, none if there is no file;
* `Graph.save` — store a graph; the value is the path of its file;
* `LoadError`, `SaveError` — why this fails.
-/

namespace InfraGraph

inductive LoadError where
  | unreadable (path : String) (error : OsError)
  | invalid (path : String) (failure : Decode.Failure)

namespace LoadError

def message : LoadError → String
  | unreadable path e => "cannot read " ++ path ++ ": " ++ e.message
  | invalid path f => "invalid graph file " ++ path ++ ": " ++ f.bare Json.wording

end LoadError

inductive SaveError where
  | noDirectory (path : String) (error : OsError)
  | unwritable (path : String) (error : OsError)
  | unmovable (source target : String) (error : OsError)
deriving DecidableEq

namespace SaveError

def message : SaveError → String
  | noDirectory path e => "cannot create dir " ++ path ++ ": " ++ e.message
  | unwritable path e => "cannot write " ++ path ++ ": " ++ e.message
  | unmovable source target e =>
      "cannot rename " ++ source ++ " → " ++ target ++ ": " ++ e.message

end SaveError

namespace Graph

def filePath (dir : String) : String := Path.join dir "graph.json"

/-- Path of the file that a graph is first written to. -/
def draftPath (dir : String) : String := Path.join dir "graph.json.tmp"

def load (dir : String) : Attempt LoadError (Option Graph) := do
  let path := filePath dir
  let there : Bool ← Attempt.ask (.isThere path)
  if there then
    let text ← Attempt.read path (.unreadable path)
    return some (← Attempt.ofExcept (.invalid path) (ofText text))
  else return none

def save (dir : String) (g : Graph) : Attempt SaveError String := do
  let path := filePath dir
  let draft := draftPath dir
  Attempt.makeDirs dir (.noDirectory dir)
  Attempt.write draft g.text (.unwritable draft)
  Attempt.rename draft path (.unmovable draft path)
  return path

end Graph
end InfraGraph
