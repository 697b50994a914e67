import InfraGraph.Text.Runs

/-!
# UriPath — resource paths of HTTP routes

A path is the list of its segments.  Segments are not empty and hold no slash, and the type keeps
that, so the displayed text determines the path:

* `UriPath.parse` — read a text, dropping empty segments;
* `UriPath.ofAbsolute?` — the same for texts that must begin with a slash;
* `UriPath.parent?`, `UriPath.prefixes` — the tree above a path;
* `UriPath.nameParts` — the segments as they enter resource names.
-/

namespace InfraGraph

/-- A segment is not empty and has no slash. -/
def IsSegment (s : String) : Prop := s ≠ "" ∧ ¬ '/' ∈ s.toList

/-- Path of an HTTP route; the root has no segments. -/
structure UriPath where
  segments : List String
  areSegments : ∀ s ∈ segments, IsSegment s

namespace UriPath

@[ext]
theorem ext {p q : UriPath} (h : p.segments = q.segments) : p = q := by
  cases p
  cases q
  cases h
  rfl

instance : DecidableEq UriPath := fun p q =>
  if h : p.segments = q.segments then .isTrue (ext h)
  else .isFalse fun e => h (congrArg segments e)

/-! ## Order

Paths are ordered by their segments, so a proper prefix comes before its extensions. -/

instance : Ord UriPath := ⟨compareOn segments⟩

instance : Std.TransOrd UriPath := inferInstanceAs (Std.TransCmp (compareOn segments))

instance : Std.LawfulEqOrd UriPath where
  eq_of_compare {p q} h := ext (Std.LawfulEqOrd.eq_of_compare (a := p.segments) (b := q.segments) h)

/-! ## Reading and showing -/

def root : UriPath := ⟨[], by simp⟩

instance : Inhabited UriPath := ⟨root⟩

/-- Segments of a text: the runs between slashes. -/
def segmentsOf (text : String) : List String :=
  (Text.runs (fun c => c != '/') text.toList).map String.ofList

/-- Segments are not empty and have no slash. -/
theorem isSegment_of_mem_segmentsOf {text s : String} (h : s ∈ segmentsOf text) : IsSegment s := by
  obtain ⟨run, hrun, rfl⟩ := List.mem_map.mp h
  refine ⟨fun e => ?_, fun hslash => ?_⟩
  · have : run = [] := by
      have := congrArg String.toList e
      simpa using this
    exact Text.ne_nil_of_mem_runs hrun this
  · rw [String.toList_ofList] at hslash
    have := Text.runs_forall hrun _ hslash
    simp at this

def parse (text : String) : UriPath :=
  ⟨segmentsOf text, fun _ h => isSegment_of_mem_segmentsOf h⟩

/-- Read a path that must begin with a slash. -/
def ofAbsolute? (text : String) : Option UriPath :=
  if text.toList.head? = some '/' then some (parse text) else none

/-- Segments with slashes between them; empty for the root. -/
def display (p : UriPath) : String := "/".intercalate p.segments

/-- Display text after a leading slash. -/
def absolute (p : UriPath) : String := "/" ++ p.display

/-! ## The tree of paths -/

def isRoot (p : UriPath) : Bool := p.segments.isEmpty

def last? (p : UriPath) : Option String := p.segments.getLast?

def take (p : UriPath) (n : Nat) : UriPath :=
  ⟨p.segments.take n, fun s h => p.areSegments s (List.mem_of_mem_take h)⟩

def parent? (p : UriPath) : Option UriPath :=
  if p.isRoot then none else some (p.take (p.segments.length - 1))

/-- Every prefix but the root, shortest first. -/
def prefixes (p : UriPath) : List UriPath :=
  (List.range p.segments.length).map fun n => p.take (n + 1)

/-! ## Names -/

/-- A segment in braces is a parameter and enters names as the word `param` after its name. -/
def segmentName (segment : String) : String :=
  match segment.toList with
  | '{' :: rest =>
      if rest.getLast? = some '}' then String.ofList rest.dropLast ++ "_param" else segment
  | _ => segment

/-- Segments as they enter resource names. -/
def nameParts (p : UriPath) : List String := p.segments.map segmentName

end UriPath
end InfraGraph
