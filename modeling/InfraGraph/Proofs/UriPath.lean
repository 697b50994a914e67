import InfraGraph.Proofs.Name
import InfraGraph.Schema.Basic

/-!
# Paths, their texts and their prefixes

Main statements:

* `UriPath.parse_display`, `UriPath.ofAbsolute?_absolute` — the texts of a path are read as the
  path, so they determine it;
* `UriPath.ofAbsolute?_eq_some_iff` — which texts are read with their leading slash;
* `UriPath.mem_prefixes_iff` — the prefixes of a path are the nonempty starts of its segments;
* `UriPath.parent_cases` — the parent of a prefix is the root or a prefix again;
* `Schema.mem_routePaths_iff`, `Schema.mem_servedPaths_iff` — the paths of a schema.
-/

namespace InfraGraph
namespace UriPath

/-! ## Displayed text -/

theorem isRoot_iff {p : UriPath} : p.isRoot = true ↔ p = root := by
  constructor
  · intro h
    exact ext (List.isEmpty_iff.mp h)
  · rintro rfl
    rfl

theorem toList_display (p : UriPath) :
    p.display.toList = Name.joined '/' (p.segments.map String.toList) := by
  simp [display, Name.joined, String.toList_intercalate]

/-- Segments hold no slash, so they are the segments of the displayed text. -/
theorem segmentsOf_display (p : UriPath) : segmentsOf p.display = p.segments := by
  have hruns : Text.runs (fun c => c != '/') p.display.toList = p.segments.map String.toList := by
    rw [toList_display]
    refine Name.runs_joined_of_forall (by decide) (List.forall_mem_map.mpr fun s hs => ?_)
    have hsegment := p.areSegments s hs
    refine ⟨fun he => hsegment.1 (String.toList_injective he), fun c hc => bne_iff_ne.mpr ?_⟩
    rintro rfl
    exact hsegment.2 hc
  rw [segmentsOf, hruns, List.map_map]
  simp [Function.comp_def]

/-- A path is read back from its displayed text. -/
theorem parse_display (p : UriPath) : parse p.display = p :=
  ext (segmentsOf_display p)

/-- The displayed text determines a path. -/
theorem display_injective {p q : UriPath} (h : p.display = q.display) : p = q := by
  rw [← parse_display p, h, parse_display]

/-- Paths with the same absolute text are the same. -/
theorem absolute_injective {p q : UriPath} (h : p.absolute = q.absolute) : p = q := by
  have hlist := congrArg String.toList h
  simp only [absolute, String.toList_append] at hlist
  exact display_injective (String.toList_injective (List.append_cancel_left hlist))

/-- Reading with a leading slash takes every text that has one, and reads it like any other. -/
theorem ofAbsolute?_eq_some_iff {text : String} {p : UriPath} :
    ofAbsolute? text = some p ↔ (∃ rest, text = "/" ++ rest) ∧ p = parse text := by
  have hslash : text.toList.head? = some '/' ↔ ∃ rest, text = "/" ++ rest := by
    constructor
    · intro h
      obtain ⟨cs, hcs⟩ := List.head?_eq_some_iff.mp h
      refine ⟨String.ofList cs, String.toList_injective ?_⟩
      simp [hcs, String.toList_append]
    · rintro ⟨rest, rfl⟩
      simp [String.toList_append]
  rw [ofAbsolute?, ← hslash]
  split
  · next h => simp [h, eq_comm]
  · next h => simp [h]

/-- A path is read back from its text. -/
theorem ofAbsolute?_absolute (p : UriPath) : ofAbsolute? p.absolute = some p := by
  refine ofAbsolute?_eq_some_iff.mpr ⟨⟨p.display, rfl⟩, ext ?_⟩
  -- the leading slash is in no segment
  have habsolute : p.absolute.toList = '/' :: p.display.toList := by simp [absolute]
  have hsegments : segmentsOf p.absolute = segmentsOf p.display := by
    rw [segmentsOf, habsolute, Text.runs_cons_of_neg (by decide), segmentsOf]
  exact (segmentsOf_display p).symm.trans hsegments.symm

/-! ## Prefixes -/

/-- The prefixes of a path are the nonempty starts of its segments. -/
theorem mem_prefixes_iff {p q : UriPath} :
    q ∈ p.prefixes ↔ q ≠ root ∧ q.segments <+: p.segments := by
  constructor
  · intro h
    rcases List.mem_map.mp h with ⟨n, hn, rfl⟩
    have hlt : n < p.segments.length := List.mem_range.mp hn
    refine ⟨fun e => ?_, List.take_prefix _ _⟩
    -- a start of `n + 1` segments is not empty
    have hnil : p.segments.take (n + 1) = [] := congrArg segments e
    have hlen := congrArg List.length hnil
    simp only [List.length_take, List.length_nil] at hlen
    omega
  · rintro ⟨hne, hpre⟩
    have hpos : q.segments.length ≠ 0 := fun e => hne (ext (List.length_eq_zero_iff.mp e))
    have hle : q.segments.length ≤ p.segments.length := hpre.length_le
    refine List.mem_map.mpr ⟨q.segments.length - 1, List.mem_range.mpr (by omega), ?_⟩
    apply ext
    have hsucc : q.segments.length - 1 + 1 = q.segments.length := by omega
    simp only [take, hsucc]
    exact (List.prefix_iff_eq_take.mp hpre).symm

/-- A path below the root is the last of its own prefixes. -/
theorem self_mem_prefixes {p : UriPath} (h : p ≠ root) : p ∈ p.prefixes :=
  mem_prefixes_iff.mpr ⟨h, List.prefix_refl _⟩

/-- The parent is the path without its last segment, and only the root has none. -/
theorem parent?_eq_some_iff {p q : UriPath} :
    p.parent? = some q ↔ p ≠ root ∧ q = p.take (p.segments.length - 1) := by
  unfold parent?
  split
  · next h => simp [isRoot_iff.mp h]
  · next h =>
    have hne : p ≠ root := fun e => h (isRoot_iff.mpr e)
    simp [hne, eq_comm]

/-- The parent of a path is shorter. -/
theorem length_parent_lt {p q : UriPath} (h : p.parent? = some q) :
    q.segments.length < p.segments.length := by
  rcases parent?_eq_some_iff.mp h with ⟨hne, rfl⟩
  have hpos : p.segments.length ≠ 0 := fun e => hne (ext (List.length_eq_zero_iff.mp e))
  simp only [take, List.length_take]
  omega

/-- The parent of a prefix is the root or a prefix again. -/
theorem parent_cases {p q parent : UriPath} (h : q ∈ p.prefixes) (hp : q.parent? = some parent) :
    parent = root ∨ parent ∈ p.prefixes := by
  by_cases hroot : parent = root
  · exact Or.inl hroot
  · right
    -- a start of a start is a start
    rcases parent?_eq_some_iff.mp hp with ⟨_, rfl⟩
    exact mem_prefixes_iff.mpr ⟨hroot, (List.take_prefix _ _).trans (mem_prefixes_iff.mp h).2⟩

/-- A path other than the root has a parent and a last segment. -/
theorem exists_parent_last {p : UriPath} (h : p ≠ root) :
    ∃ parent segment, p.parent? = some parent ∧ p.last? = some segment := by
  have hne : p.segments ≠ [] := fun e => h (ext e)
  refine ⟨_, p.segments.getLast hne, parent?_eq_some_iff.mpr ⟨h, rfl⟩, ?_⟩
  exact List.getLast?_eq_some_getLast hne

/-- A path is its parent with its last segment behind it. -/
theorem segments_eq {p parent : UriPath} {segment : String} (hparent : p.parent? = some parent)
    (hlast : p.last? = some segment) : p.segments = parent.segments ++ [segment] := by
  rcases parent?_eq_some_iff.mp hparent with ⟨_, rfl⟩
  obtain ⟨front, hfront⟩ := List.getLast?_eq_some_iff.mp hlast
  simp [take, hfront]

end UriPath

namespace Schema

/-! ## The paths of a schema -/

variable {s : Schema} {p : UriPath}

/-- Routes need their paths and everything above them. -/
theorem mem_routePaths_iff : p ∈ s.routePaths ↔ ∃ q ∈ s.routes.paths, p ∈ q.prefixes := by
  simp [routePaths]

/-- What is served is the root and the paths of the routes. -/
theorem mem_servedPaths_iff : p ∈ s.servedPaths ↔ p = .root ∨ p ∈ s.routes.paths := by
  simp [servedPaths]

/-- The root is served without a resource of its own. -/
theorem root_not_mem_routePaths : ¬UriPath.root ∈ s.routePaths := by
  intro h
  rcases mem_routePaths_iff.mp h with ⟨q, _, hq⟩
  exact (UriPath.mem_prefixes_iff.mp hq).1 rfl

/-- The path of a route is the root or stands in the tree of paths. -/
theorem mem_routePaths_of_mem_paths (h : p ∈ s.routes.paths) : p = .root ∨ p ∈ s.routePaths := by
  by_cases hroot : p = .root
  · exact Or.inl hroot
  · exact Or.inr (mem_routePaths_iff.mpr ⟨p, h, UriPath.self_mem_prefixes hroot⟩)

theorem mem_routePaths_of_mem_servedPaths (h : p ∈ s.servedPaths) :
    p = .root ∨ p ∈ s.routePaths := by
  rcases mem_servedPaths_iff.mp h with hroot | hpath
  · exact Or.inl hroot
  · exact mem_routePaths_of_mem_paths hpath

/-- What is above a path with a resource has one, up to the root. -/
theorem parent_mem_routePaths {parent : UriPath} (h : p ∈ s.routePaths)
    (hp : p.parent? = some parent) : parent = .root ∨ parent ∈ s.routePaths := by
  rcases mem_routePaths_iff.mp h with ⟨q, hq, hpq⟩
  rcases UriPath.parent_cases hpq hp with hroot | hpre
  · exact Or.inl hroot
  · exact Or.inr (mem_routePaths_iff.mpr ⟨q, hq, hpre⟩)

theorem dynamic_path_mem {r : DynamicRoute} (h : r ∈ s.routes.dynamic) :
    r.path ∈ s.routes.paths :=
  List.mem_append_left _ (List.mem_map_of_mem h)

theorem static_path_mem {r : StaticRoute} (h : r ∈ s.routes.static) :
    r.path ∈ s.routes.paths :=
  List.mem_append_right _ (List.mem_map_of_mem h)

end Schema
end InfraGraph
