import InfraGraph.Proofs.Name.Runs
import InfraGraph.Proofs.UriPath
import Mathlib.Order.Bounds.Defs
import Mathlib.Data.Set.Basic

/-!
# The normal form of paths, and their order

A text is read as the list of what stands between its slashes, so texts that differ in repeated,
leading or trailing slashes are one path.  In the order of paths, what lies above a path comes
before it.  Main statements:

* `UriPath.pieces`, `UriPath.segments_parse` — the nonempty texts between slashes are the segments;
* `UriPath.IsAbove`, `UriPath.compare_of_isAbove` — a proper prefix of a path is smaller;
* `UriPath.prefixes_of_parent` — the prefixes of a path are those of its parent, and itself;
* `UriPath.IsTree`, `Schema.isLeast_routePaths` — the route paths of a schema are the smallest tree
  that holds the paths of its routes;
* `UriPath.normal_form` — all of it together.
-/

namespace InfraGraph

/-! ## Runs by splitting -/

namespace Text

variable {p : Char → Bool} {cs : List Char} {rs : List (List Char)}

/-- The maximal blocks of a text are left where it is split at the unwanted characters, and what is
empty is dropped. -/
theorem Blocks.filter_splitOnP (h : Blocks p cs rs) :
    (cs.splitOnP fun c => !p c).filter (· ≠ []) = rs := by
  induction h with
  | nil => simp [List.splitOnP_nil]
  | skip hc _ ih => simpa [List.splitOnP_cons_eq_if_modifyHead, hc] using ih
  | @block r cs rs hne hr hend _ ih =>
      have hpiece : (r.splitOnP fun c => !p c) = [r] :=
        List.splitOnP_eq_singleton fun c hc => by simp [hr c hc]
      cases cs with
      | nil =>
          have hrest : [] = rs := by simpa [List.splitOnP_nil] using ih
          simp [hpiece, hne, ← hrest]
      | cons c cs =>
          -- the block ends at an unwanted character
          have hc : (!p c) = true := by simp [hend c rfl]
          rw [List.splitOnP_cons_eq_if_modifyHead, if_pos hc] at ih
          rw [List.splitOnP_append_cons r cs hc, hpiece]
          simpa [hne] using ih

end Text

namespace UriPath

variable {p q parent : UriPath}

/-! ## Texts -/

/-- What stands between the slashes of a text, where it is not empty. -/
def pieces (text : String) : List String :=
  ((text.toList.splitOn '/').map String.ofList).filter (· ≠ "")

/-- The segments are the pieces of the text between slashes that are not empty. -/
theorem segments_parse (text : String) : (parse text).segments = pieces text := by
  have hsplit : text.toList.splitOn '/' = text.toList.splitOnP fun c => !(c != '/') := by
    simp only [List.splitOn_eq_splitOnP, bne, Bool.not_not]
  have hblocks := (Text.blocks_runs (fun c => c != '/') text.toList).filter_splitOnP
  show (Text.runs (fun c => c != '/') text.toList).map String.ofList = pieces text
  rw [pieces, hsplit, ← hblocks, List.filter_map]
  refine congrArg (List.map String.ofList) (List.filter_congr fun cs _ => ?_)
  simp

/-- Two texts name one path when they have the same pieces. -/
theorem parse_eq_parse_iff {text other : String} :
    parse text = parse other ↔ pieces text = pieces other := by
  rw [← segments_parse, ← segments_parse]
  exact ⟨congrArg segments, ext⟩

/-- Slashes are neither counted nor kept. -/
example : parse "//users///{id}/" = parse "/users/{id}" :=
  parse_eq_parse_iff.mpr (by decide)

/-! ## What lies above a path -/

/-- The paths above a path are its proper prefixes, the root among them. -/
def IsAbove (p q : UriPath) : Prop := p ≠ q ∧ p.segments <+: q.segments

/-- A beginning comes before what continues it. -/
theorem compare_append {front rest : List String} (h : rest ≠ []) :
    compare front (front ++ rest) = .lt := by
  induction front with
  | nil =>
      cases rest with
      | nil => exact absurd rfl h
      | cons s rest => rfl
  | cons s front ih =>
      have hself : compare s s = .eq := Std.ReflCmp.compare_self
      change List.compareLex compare (s :: front) (s :: (front ++ rest)) = .lt
      rw [List.compareLex_cons_cons, hself]
      exact ih

/-- A path comes before the paths below it. -/
theorem compare_of_isAbove (h : p.IsAbove q) : compare p q = .lt := by
  obtain ⟨hne, rest, hrest⟩ := h
  have hsome : rest ≠ [] := by
    rintro rfl
    exact hne (ext (by simpa using hrest))
  change compare p.segments q.segments = .lt
  rw [← hrest]
  exact compare_append hsome

/-- A parent is above its children. -/
theorem isAbove_of_parent (h : p.parent? = some parent) : parent.IsAbove p := by
  refine ⟨fun he => ?_, ?_⟩
  · have hlt := length_parent_lt h
    rw [he] at hlt
    exact lt_irrefl _ hlt
  · rw [(parent?_eq_some_iff.mp h).2]
    exact List.take_prefix _ _

/-- A path adds itself to the prefixes of its parent. -/
theorem prefixes_of_parent (h : p.parent? = some parent) :
    p.prefixes = parent.prefixes ++ [p] := by
  obtain ⟨_, segment, _, hlast⟩ := exists_parent_last (parent?_eq_some_iff.mp h).1
  have hsegments := segments_eq h hlast
  have hlength : p.segments.length = parent.segments.length + 1 := by simp [hsegments]
  have hbelow : ∀ n ∈ List.range parent.segments.length, p.take (n + 1) = parent.take (n + 1) := by
    intro n hn
    refine ext ?_
    simp only [take, hsegments]
    exact List.take_append_of_le_length (List.mem_range.mp hn)
  have hself : p.take (parent.segments.length + 1) = p :=
    ext (List.take_of_length_le hlength.le)
  rw [prefixes, hlength, List.range_succ, List.map_append, List.map_congr_left hbelow,
    List.map_singleton, hself, prefixes]

/-! ## Trees of paths -/

/-- Paths other than the root, with every prefix that is not the root. -/
structure IsTree (tree : Set UriPath) : Prop where
  root_not_mem : ¬root ∈ tree
  mem_of_prefix : ∀ p ∈ tree, ∀ q, q ≠ root → q.segments <+: p.segments → q ∈ tree

/-- A list in which every path stands before the paths above it. -/
def ListsUpwards (paths : List UriPath) : Prop :=
  ∀ i j (hi : i < paths.length) (hj : j < paths.length), paths[i].IsAbove paths[j] → j < i

/-- A set of paths is listed upwards when it is listed backwards. -/
theorem listsUpwards_reverse (paths : OrderedSet UriPath) : ListsUpwards paths.toList.reverse := by
  intro i j hi hj habove
  have hdescending : paths.toList.reverse.Pairwise fun p q => compare q p = .lt :=
    List.pairwise_reverse.mpr paths.ascending
  by_contra hle
  rcases (not_lt.mp hle).eq_or_lt with heq | hlt
  · subst heq
    exact habove.1 rfl
  · have hdown := List.pairwise_iff_getElem.mp hdescending i j hi hj hlt
    exact Std.OrientedCmp.not_lt_of_lt hdown (compare_of_isAbove habove)

end UriPath

namespace Schema

open UriPath

/-- The route paths of a schema are the smallest tree with the paths of its routes, up to the
root. -/
theorem isLeast_routePaths (s : Schema) :
    IsLeast {tree : Set UriPath | IsTree tree ∧ ∀ p ∈ s.routes.paths, p ≠ root → p ∈ tree}
      {p | p ∈ s.routePaths} := by
  constructor
  · refine ⟨⟨root_not_mem_routePaths, fun p hp q hq hpre => ?_⟩, fun p hp hne => ?_⟩
    · obtain ⟨route, hroute, hmem⟩ := mem_routePaths_iff.mp hp
      have hlong := hpre.trans (mem_prefixes_iff.mp hmem).2
      exact mem_routePaths_iff.mpr ⟨route, hroute, mem_prefixes_iff.mpr ⟨hq, hlong⟩⟩
    · exact (mem_routePaths_of_mem_paths hp).resolve_left hne
  · rintro tree ⟨htree, hpaths⟩ p hp
    obtain ⟨route, hroute, hmem⟩ := mem_routePaths_iff.mp hp
    obtain ⟨hne, hpre⟩ := mem_prefixes_iff.mp hmem
    -- only the root is a prefix of the root
    have hbelow : route ≠ root := by
      rintro rfl
      exact hne (ext (List.prefix_nil.mp hpre))
    exact htree.mem_of_prefix route (hpaths route hroute hbelow) p hne hpre

end Schema

namespace UriPath

/-- A text is read as the path of its pieces, so two texts are the same path iff their pieces are
the same.  Both texts of a path are read as the path, and with its leading slash a text is read iff
it has one.  Stepping up from a path drops its last segment, and with it the path from its prefixes.
What lies above a path comes before it, the route paths are the smallest tree with the paths of the
routes, and backwards they are listed from below. -/
theorem normal_form (s : Schema) (text other : String) (p q : UriPath) :
    (parse text).segments = pieces text ∧
      (∀ segment ∈ (parse text).segments, segment ≠ "" ∧ ¬ '/' ∈ segment.toList) ∧
      (parse text = parse other ↔ pieces text = pieces other) ∧
      ofAbsolute? p.absolute = some p ∧
      parse p.display = p ∧
      (p.display = q.display ↔ p = q) ∧
      (∀ r, ofAbsolute? text = some r ↔ (∃ rest, text = "/" ++ rest) ∧ r = parse text) ∧
      (p ≠ root → ∃ parent segment, p.parent? = some parent ∧ p.last? = some segment ∧
        p.segments = parent.segments ++ [segment] ∧ p.prefixes = parent.prefixes ++ [p]) ∧
      (p.IsAbove q → compare p q = .lt) ∧
      IsLeast {tree : Set UriPath | IsTree tree ∧ ∀ r ∈ s.routes.paths, r ≠ root → r ∈ tree}
        {r | r ∈ s.routePaths} ∧
      ListsUpwards s.routePaths.toList.reverse := by
  refine ⟨segments_parse text, (parse text).areSegments, parse_eq_parse_iff, ofAbsolute?_absolute p,
    parse_display p, ⟨display_injective, congrArg display⟩, fun r => ofAbsolute?_eq_some_iff,
    fun hne => ?_, compare_of_isAbove, s.isLeast_routePaths, listsUpwards_reverse s.routePaths⟩
  obtain ⟨parent, segment, hparent, hlast⟩ := exists_parent_last hne
  exact ⟨parent, segment, hparent, hlast, segments_eq hparent hlast, prefixes_of_parent hparent⟩

end UriPath
end InfraGraph
