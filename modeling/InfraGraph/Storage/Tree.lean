import InfraGraph.Collection.OrderedMap
import InfraGraph.Storage.Program

/-!
# Tree — a file system as a value

* `Path.join`, `Path.components` — paths of files, and the names between their slashes;
* `FileTree` — files and directories;
* `FileTree.get?`, `FileTree.set`, `FileTree.erase` — what stands at a place;
* `FileTree.locate` — the place of a path: empty names and single dots stay where they are, double
  dots go up, but not beyond the top;
* `FileTree.makeDirs` — make a directory and those above it;
* `FileTree.answer` — how a tree answers requests.
-/

namespace InfraGraph

/-! ## Paths -/

namespace Path

/-- A path below another one; an absolute path stands for itself. -/
def join (base path : String) : String :=
  if path.toList.head? = some '/' ∨ base.isEmpty then path
  else if base.toList.getLast? = some '/' then base ++ path
  else base ++ "/" ++ path

/-- Names between slashes; two slashes have an empty name between them. -/
def components (path : String) : List String :=
  (path.toList.splitOn '/').map String.ofList

end Path

/-! ## Trees -/

/-- A file, or a directory with its entries. -/
inductive FileTree where
  | file (text : String)
  | dir (entries : List (String × FileTree))

namespace FileTree

def empty : FileTree := dir []

instance : Inhabited FileTree := ⟨empty⟩

/-! ## Places -/

def get? : FileTree → List String → Option FileTree
  | t, [] => some t
  | file _, _ :: _ => none
  | dir entries, name :: rest =>
      match Entries.get? name entries with
      | some t => get? t rest
      | none => none

/-- Put something at a place; directories on the way are made. -/
def set : FileTree → List String → FileTree → FileTree
  | _, [], new => new
  | file s, _ :: _, _ => file s
  | dir entries, name :: rest, new =>
      let inner := (Entries.get? name entries).getD empty
      dir (Entries.insert name (set inner rest new) entries)

/-- Remove what stands at a place. -/
def erase : FileTree → List String → FileTree
  | t, [] => t
  | file s, _ :: _ => file s
  | dir entries, [name] => dir (entries.filter fun e => e.1 != name)
  | dir entries, name :: next :: rest =>
      match Entries.get? name entries with
      | some t => dir (Entries.insert name (erase t (next :: rest)) entries)
      | none => dir entries

/-- The place that names lead to, from a reversed place.  The names on the way must be those
of directories. -/
def locateFrom (t : FileTree) : List String → List String → Except OsError (List String)
  | place, [] => .ok place.reverse
  | place, name :: rest =>
      match t.get? place.reverse with
      | some (dir _) =>
          if name = "" ∨ name = "." then locateFrom t place rest
          else if name = ".." then locateFrom t place.tail rest
          else locateFrom t (name :: place) rest
      | some (file _) => .error .notDirectory
      | none => .error .notFound

def locate (t : FileTree) (path : String) : Except OsError (List String) :=
  locateFrom t [] (Path.components path)

/-! ## Requests -/

def isThere (t : FileTree) (path : String) : Bool :=
  match t.locate path with
  | .ok place => (t.get? place).isSome
  | .error _ => false

def read (t : FileTree) (path : String) : Except OsError String := do
  match t.get? (← t.locate path) with
  | some (file text) => return text
  | some (dir _) => .error .isDirectory
  | none => .error .notFound

def isDirectory (t : FileTree) (names : List String) : Bool :=
  match t.locateFrom [] names with
  | .ok place =>
      match t.get? place with
      | some (dir _) => true
      | _ => false
  | .error _ => false

/-- Make the directory that names lead to, in a directory that is there.  Dots at the end name a
directory that is there already, or none at all. -/
def makeDir (t : FileTree) (names : List String) : Except OsError FileTree :=
  match names.reverse.dropWhile String.isEmpty with
  | [] => .error .alreadyExists
  | last :: above => do
      let place ← t.locateFrom [] (last :: above).reverse
      if last = "." ∨ last = ".." ∨ (t.get? place).isSome then .error .alreadyExists
      else return t.set place empty

/-- Make the directory that names lead to, unless it is there. -/
def ensureDir (t : FileTree) (names : List String) : Except OsError FileTree :=
  match t.makeDir names with
  | .ok t => .ok t
  | .error e => if t.isDirectory names then .ok t else .error e

/-- Make the directories that names lead through, after those `above`, each in turn. -/
def ensureDirs (t : FileTree) (above : List String) :
    List String → Except OsError Unit × FileTree
  | [] => (.ok (), t)
  | name :: rest =>
      match t.ensureDir (above ++ [name]) with
      | .ok t => ensureDirs t (above ++ [name]) rest
      | .error e => (.error e, t)

/-- Names that do not stay where they are. -/
def properNames (names : List String) : List String :=
  names.filter fun name => name != "" && name != "."

/-- Make the directory that names lead to and, where it cannot be made for want of them, those above
it first.  The ones that were made stay when a later one fails. -/
def makeDirsAt (t : FileTree) (names : List String) : Except OsError Unit × FileTree :=
  match t.ensureDir names with
  | .ok t => (.ok (), t)
  | .error .notFound =>
      match ensureDirs t [] (properNames names).dropLast with
      | (.ok (), t) =>
          match t.ensureDir names with
          | .ok t => (.ok (), t)
          | .error e => (.error e, t)
      | (.error e, t) => (.error e, t)
  | .error e => (.error e, t)

/-- Make the directory of a path and those above it. -/
def makeDirs (t : FileTree) (path : String) : Except OsError Unit × FileTree :=
  t.makeDirsAt (Path.components path)

def write (t : FileTree) (path text : String) : Except OsError FileTree := do
  let place ← t.locate path
  match t.get? place with
  | some (dir _) => .error .isDirectory
  | _ => return t.set place (file text)

/-- Put the file at a path in the place of another one. -/
def rename (t : FileTree) (source target : String) : Except OsError FileTree := do
  let place ← t.locate source
  let goal ← t.locate target
  match t.get? place, t.get? goal with
  | none, _ => .error .notFound
  | some _, some (dir _) => .error .isDirectory
  | some moved, _ => return (t.erase place).set goal moved

/-- The state after a request that may fail; a failure changes nothing. -/
def commit (t : FileTree) (r : Except OsError FileTree) : Except OsError Unit × FileTree :=
  match r with
  | .ok t => (.ok (), t)
  | .error e => (.error e, t)

def answer (seconds : UInt64) (t : FileTree) : (r : Request) → r.Response × FileTree
  | .isThere path => (t.isThere path, t)
  | .read path => (t.read path, t)
  | .makeDirs path => t.makeDirs path
  | .write path text => t.commit (t.write path text)
  | .rename source target => t.commit (t.rename source target)
  | .now => (seconds, t)

end FileTree
end InfraGraph
