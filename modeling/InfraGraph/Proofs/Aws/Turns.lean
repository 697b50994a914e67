import Mathlib.Data.Finset.Lattice.Fold
import Mathlib.Data.List.Pairwise
import Mathlib.Order.Lattice.Nat
import InfraGraph.Proofs.Aws.Completion
import InfraGraph.Proofs.Generation.Pace
import InfraGraph.Proofs.UriPath.NormalForm

/-!
# The sweeps of a pass on AWS

Paths are offered in descending order, so a path always comes before the paths above it and waits
for the next sweep.  A path of depth `k` is generated in sweep `k`, a route together with its path,
and all else in the first sweep.  Main statements:

* `UriPath.depth`, `Entity.turn` — the sweep in which an entity is generated for;
* `Aws.entity_cases` — paths, routes served under one, and the other entities;
* `Aws.InOrder`, `Aws.pairwise_inOrder` — the order in which work items stand;
* `Aws.has_iff_of_before`, `Aws.has_above_iff` — what is registered when an item has its turn;
* `Aws.paced` — every item becomes ready in its turn;
* `Schema.aws_sweeps` — the sweeps of a pass, and what is generated in each.
-/

namespace InfraGraph

/-! ## Depth -/

namespace UriPath

def depth (p : UriPath) : Nat := p.segments.length

variable {p parent : UriPath}

theorem one_le_depth (h : p ≠ root) : 1 ≤ p.depth :=
  List.length_pos_iff.mpr fun hnil => h (ext hnil)

/-- A path is one segment deeper than the path above it. -/
theorem depth_eq_of_parent (h : p.parent? = some parent) : p.depth = parent.depth + 1 := by
  obtain ⟨hne, rfl⟩ := parent?_eq_some_iff.mp h
  have hpos : 1 ≤ p.segments.length := one_le_depth hne
  simp only [depth, take, List.length_take]
  omega

/-- No prefix is deeper than the path. -/
theorem depth_le_of_mem_prefixes {q : UriPath} (h : q ∈ p.prefixes) : q.depth ≤ p.depth :=
  (mem_prefixes_iff.mp h).2.length_le

end UriPath

/-- Sweep in which an entity of an AWS schema is generated for. -/
def Entity.turn : Entity → Nat
  | .path p => p.depth
  | .route r => max 1 r.path.depth
  | .static r => max 1 r.path.depth
  | _ => 1

/-- Depth of the deepest path of a route, if the schema has an API. -/
def Schema.depth (s : Schema) : Nat :=
  if s.api.isSome then s.routes.paths.toFinset.sup UriPath.depth else 0

/-- No route is deeper than the deepest one. -/
theorem Schema.depth_le {s : Schema} {api : Api} (hapi : s.api = some api) {p : UriPath}
    (hp : p ∈ s.routes.paths) : p.depth ≤ s.depth := by
  rw [Schema.depth, if_pos (by rw [hapi]; rfl)]
  exact Finset.le_sup (List.mem_toFinset.mpr hp)

namespace Aws

variable {s : Schema} {grants : Grants} {ctx : Context}

/-! ## The order of the items -/

/-- Place of a producer among the others. -/
def rank (p : Producer) : Nat := (Platform.aws.producers.map Producer.name).idxOf p.name

/-- Items stand in the order of their producers, and paths in descending order. -/
def InOrder (i j : WorkItem) : Prop :=
  rank i.producer < rank j.producer ∨ (rank i.producer = rank j.producer ∧
    ∀ p q, i.entity = .path p → j.entity = .path q → compare q p = .lt)

/-- An entity stands for a path, for a route that is served under one, or for neither. -/
theorem entity_cases {p : Producer} {e : Entity} (hp : p ∈ Platform.aws.producers)
    (he : e ∈ p.entities s) :
    (∃ api, s.api = some api ∧ ∃ q ∈ s.routePaths, p = PathResource.producer ∧ e = .path q) ∨
      (∃ api, s.api = some api ∧ ∃ q ∈ s.routes.paths, e.turn = max 1 q.depth ∧
        ∀ q', e ≠ .path q') ∨
      (e.turn = 1 ∧ ∀ q, e ≠ .path q) := by
  simp only [Platform.producers, List.mem_cons, List.not_mem_nil, or_false] at hp
  rcases hp with rfl | rfl | rfl | rfl | rfl | rfl | rfl | rfl | rfl
  · obtain ⟨_, _, rfl⟩ := RestApi.mem_entities_iff.mp he
    exact Or.inr (Or.inr ⟨rfl, by simp⟩)
  · obtain ⟨api, hapi, q, hq, rfl⟩ := PathResource.mem_entities_iff.mp he
    exact Or.inl ⟨api, hapi, q, hq, rfl, rfl⟩
  · obtain ⟨_, _, _, rfl⟩ := Function.mem_entities_iff.mp he
    exact Or.inr (Or.inr ⟨rfl, by simp⟩)
  · obtain ⟨api, hapi, r, hr, rfl⟩ := Route.mem_entities_iff.mp he
    exact Or.inr (Or.inl ⟨api, hapi, r.path, Schema.dynamic_path_mem hr, rfl, by simp⟩)
  · obtain ⟨api, hapi, r, hr, rfl⟩ := StaticFile.mem_entities_iff.mp he
    exact Or.inr (Or.inl ⟨api, hapi, r.path, Schema.static_path_mem hr, rfl, by simp⟩)
  · obtain ⟨_, _, rfl⟩ := Publication.mem_entities_iff.mp he
    exact Or.inr (Or.inr ⟨rfl, by simp⟩)
  · obtain ⟨_, _, _, rfl⟩ := Preflight.mem_entities_iff.mp he
    exact Or.inr (Or.inr ⟨rfl, by simp⟩)
  · obtain ⟨_, _, rfl⟩ := Timers.mem_entities_iff.mp he
    exact Or.inr (Or.inr ⟨rfl, by simp⟩)
  · obtain ⟨_, _, _, _, rfl⟩ := DomainAlias.mem_entities_iff.mp he
    exact Or.inr (Or.inr ⟨rfl, by simp⟩)

/-- Paths are entities of one producer alone. -/
theorem eq_of_path_mem {p : Producer} (hp : p ∈ Platform.aws.producers) {q : UriPath}
    (hq : .path q ∈ p.entities s) : p = PathResource.producer := by
  rcases entity_cases hp hq with ⟨_, _, _, _, hpath, _⟩ | ⟨_, _, _, _, _, hne⟩ | ⟨_, hne⟩
  · exact hpath
  · exact absurd rfl (hne q)
  · exact absurd rfl (hne q)

/-- Paths are offered in descending order. -/
theorem pairwise_paths {p : Producer} (hp : p ∈ Platform.aws.producers) :
    (p.entities s).Pairwise fun e e' =>
      ∀ q q', e = .path q → e' = .path q' → compare q' q = .lt := by
  by_cases hpath : p = PathResource.producer
  · subst hpath
    simp only [PathResource.producer]
    split
    · exact List.Pairwise.nil
    · rw [List.pairwise_map, List.pairwise_reverse]
      refine s.routePaths.ascending.imp ?_
      rintro a b hlt q q' hq hq'
      cases hq
      cases hq'
      exact hlt
  · apply List.pairwise_of_forall_mem_list
    rintro e he e' _ q q' rfl _
    exact absurd (eq_of_path_mem hp he) hpath

/-- Items stand in the order of their producers, and paths in descending order. -/
theorem pairwise_inOrder (s : Schema) :
    (Schedule.items Platform.aws.producers s).Pairwise InOrder := by
  have hranks : Platform.aws.producers.Pairwise fun p q => rank p < rank q := by decide
  rw [Schedule.items, List.pairwise_flatMap]
  constructor
  · intro p hp
    rw [List.pairwise_map]
    exact (pairwise_paths hp).imp fun hdescending => Or.inr ⟨rfl, hdescending⟩
  · refine hranks.imp ?_
    intro p q hlt i hi j hj
    obtain ⟨_, _, rfl⟩ := List.mem_map.mp hi
    obtain ⟨_, _, rfl⟩ := List.mem_map.mp hj
    exact Or.inl hlt

/-- Turn of the item at a place. -/
def turnAt (x : WorkItem × Nat) : Nat := x.1.entity.turn

/-- The items whose turn it is are told without their places. -/
theorem map_fst_filter_turnAt (work : List WorkItem) (sweep : Nat) :
    (work.zipIdx.filter fun y => turnAt y = sweep).map Prod.fst =
      work.filter fun i => i.entity.turn = sweep := by
  conv_rhs => rw [← List.zipIdx_map_fst 0 work, List.filter_map]
  rfl

/-! ## What is registered when an item has its turn -/

theorem le_iff_max_eq {sweep n : Nat} (hsweep : 1 ≤ sweep) (hpending : sweep ≤ max 1 n) :
    n ≤ sweep ↔ max 1 n = sweep := by
  omega

section Turn

variable {passed later : List (WorkItem × Nat)} {x : WorkItem × Nat} {sweep : Nat}
  (hwork : (Schedule.items Platform.aws.producers s).zipIdx = passed ++ x :: later)
  (hkept : Schedule.KeptTo turnAt (Schedule.items Platform.aws.producers s).zipIdx
    (.initial s grants) sweep passed ctx)

include hwork

/-- Items that were passed stand in front of the item, and the others behind. -/
theorem inOrder_around :
    (∀ y ∈ passed, InOrder y.1 x.1) ∧ ∀ y ∈ later, InOrder x.1 y.1 := by
  have hpairs := pairwise_inOrder s
  rw [← List.zipIdx_map_fst 0 (Schedule.items Platform.aws.producers s), List.pairwise_map,
    hwork] at hpairs
  obtain ⟨_, hbehind, hbefore⟩ := List.pairwise_append.mp hpairs
  exact ⟨fun y hy => hbefore y hy x List.mem_cons_self, (List.pairwise_cons.mp hbehind).1⟩

/-- What an earlier producer generates for has been passed. -/
theorem mem_passed_of_rank_lt {y : WorkItem × Nat}
    (hy : y ∈ (Schedule.items Platform.aws.producers s).zipIdx)
    (hrank : rank y.1.producer < rank x.1.producer) : y ∈ passed := by
  have hafter := (inOrder_around hwork).2
  rw [hwork] at hy
  rcases List.mem_append.mp hy with hmem | hmem
  · exact hmem
  · rcases List.mem_cons.mp hmem with rfl | hmem
    · exact absurd hrank (Nat.lt_irrefl _)
    · rcases hafter y hmem with hlt | ⟨heq, _⟩
      · exact absurd hrank (Nat.lt_asymm hlt)
      · rw [heq] at hrank
        exact absurd hrank (Nat.lt_irrefl _)

theorem mem_items_of_turn : x.1 ∈ Schedule.items Platform.aws.producers s := by
  have hx : x ∈ (Schedule.items Platform.aws.producers s).zipIdx := by
    rw [hwork]
    exact List.mem_append_right _ List.mem_cons_self
  exact List.fst_mem_of_mem_zipIdx hx

include hkept

/-- What an earlier producer generates in its turn is there from then on. -/
theorem has_iff_of_before {p : Producer} {e : Entity} (hp : p ∈ Platform.aws.producers)
    (he : e ∈ p.entities s) (hrank : rank p < rank x.1.producer) :
    ctx.has p.name e.id = true ↔ e.turn ≤ sweep := by
  have hitem : ⟨p, e⟩ ∈ Schedule.items Platform.aws.producers s :=
    Schedule.mem_items_iff.mpr ⟨hp, he⟩
  obtain ⟨place, hy⟩ := Schedule.exists_place hitem
  have hpassed := mem_passed_of_rank_lt hwork hy hrank
  rw [hkept.has_iff _ hy]
  simp only [hpassed, and_true, turnAt]
  omega

/-- The path above one that has its turn is there iff it is from an earlier sweep. -/
theorem has_above_iff {p parent : UriPath} (hx : x.1.entity = .path p)
    (hparent : p.parent? = some parent) (he : .path parent ∈ PathResource.producer.entities s) :
    ctx.has PathResource.name (.path parent) = true ↔ parent.depth < sweep := by
  have hitem : ⟨PathResource.producer, .path parent⟩ ∈
      Schedule.items Platform.aws.producers s :=
    Schedule.mem_items_iff.mpr ⟨by simp [Platform.producers], he⟩
  obtain ⟨place, hy⟩ := Schedule.exists_place hitem
  obtain ⟨hproducer, hentity⟩ := Schedule.mem_items_iff.mp (mem_items_of_turn hwork)
  rw [hx] at hentity
  -- the path above stands behind, so it has not passed
  have hnot : ¬(⟨PathResource.producer, .path parent⟩, place) ∈ passed := by
    intro hmem
    rcases (inOrder_around hwork).1 _ hmem with hlt | ⟨_, hdescending⟩
    · rw [eq_of_path_mem hproducer hentity] at hlt
      exact Nat.lt_irrefl _ hlt
    · have habove := UriPath.compare_of_isAbove (UriPath.isAbove_of_parent hparent)
      have hsame := Std.TransCmp.lt_trans habove (hdescending parent p rfl hx)
      have hself : compare parent parent = .eq := Std.ReflCmp.compare_self
      rw [hself] at hsame
      cases hsame
  have hhas := hkept.has_iff _ hy
  simp only [hnot, and_false, or_false, turnAt] at hhas
  exact hhas

/-! ## Readiness -/

variable (hsweep : 1 ≤ sweep)

include hsweep

/-- An item of a later producer finds the REST API. -/
theorem restApi_there_of_turn {api : Api} (hapi : s.api = some api)
    (hrank : rank RestApi.producer < rank x.1.producer) :
    ctx.has RestApi.name (.api api.name) = true :=
  (has_iff_of_before hwork hkept (by simp [Platform.producers])
    (RestApi.mem_entities_iff.mpr ⟨api, hapi, rfl⟩) hrank).mpr hsweep

/-- An item of a later producer waits for no lambda. -/
theorem function_ready_of_turn (id : String)
    (hrank : rank Function.producer < rank x.1.producer) : Function.isReady ctx id = true := by
  cases hlambda : ctx.hasLambda id with
  -- nobody waits for a lambda that the schema lacks
  | false => simp [Function.isReady, hlambda]
  | true =>
      obtain ⟨l, hl⟩ := Option.isSome_iff_exists.mp hlambda
      rw [hkept.extended.schema_eq, OrderedMap.get?_eq_some_iff] at hl
      have hthere : Function.isThere ctx id = true :=
        (has_iff_of_before hwork hkept (by simp [Platform.producers])
          (Function.mem_entities_iff.mpr ⟨id, l, hl, rfl⟩) hrank).mpr hsweep
      simp [Function.isReady, hthere]

/-- A path is ready for what is served under it from the sweep of its depth on. -/
theorem path_ready_iff_of_turn {api : Api} (hapi : s.api = some api) {p : UriPath}
    (hp : p = .root ∨ p ∈ s.routePaths)
    (hrank : rank PathResource.producer < rank x.1.producer) :
    PathResource.isReady ctx p = true ↔ p.depth ≤ sweep := by
  by_cases hroot : p = .root
  · subst hroot
    have hbefore : rank RestApi.producer < rank PathResource.producer := by decide
    have hthere := restApi_there_of_turn hwork hkept hsweep hapi (Nat.lt_trans hbefore hrank)
    rw [PathResource.isReady_root (by rw [hkept.extended.schema_eq]; exact hapi)]
    exact iff_of_true hthere (Nat.zero_le _)
  · rw [PathResource.isReady_of_ne_root hroot]
    exact has_iff_of_before hwork hkept (by simp [Platform.producers])
      (PathResource.mem_entities_iff.mpr ⟨api, hapi, p, hp.resolve_left hroot, rfl⟩) hrank

/-- A path itself is ready in the sweep of its depth and later. -/
theorem path_resource_ready_iff {api : Api} (hapi : s.api = some api) {p : UriPath}
    (hp : p ∈ s.routePaths) (hx : x.1 = ⟨PathResource.producer, .path p⟩) :
    x.1.ready ctx = true ↔ p.depth ≤ sweep := by
  have hne : p ≠ .root := fun e => Schema.root_not_mem_routePaths (e ▸ hp)
  obtain ⟨parent, _, hparent, _⟩ := UriPath.exists_parent_last hne
  have hready : x.1.ready ctx = PathResource.isReady ctx parent := by
    simp only [hx, WorkItem.ready, PathResource.producer, hparent]
  rw [hready, UriPath.depth_eq_of_parent hparent]
  rcases Schema.parent_mem_routePaths hp hparent with rfl | hmem
  · -- below the root only the API is waited for, which is there from the first sweep on
    have hranks : rank RestApi.producer < rank PathResource.producer := by decide
    have hbefore : rank RestApi.producer < rank x.1.producer := by rwa [hx]
    rw [PathResource.isReady_root (by rw [hkept.extended.schema_eq]; exact hapi)]
    exact iff_of_true (restApi_there_of_turn hwork hkept hsweep hapi hbefore) hsweep
  · have hparentNe : parent ≠ .root := fun e => Schema.root_not_mem_routePaths (e ▸ hmem)
    rw [PathResource.isReady_of_ne_root hparentNe]
    exact has_above_iff hwork hkept (congrArg WorkItem.entity hx) hparent
      (PathResource.mem_entities_iff.mpr ⟨api, hapi, parent, hmem, rfl⟩)

/-- An item that is pending in a sweep is ready iff it is in its turn. -/
theorem ready_iff_of_turn (haws : s.platform = .aws) (hpending : sweep ≤ turnAt x) :
    x.1.ready ctx = true ↔ turnAt x = sweep := by
  obtain ⟨⟨p, e⟩, place⟩ := x
  obtain ⟨hp, he⟩ := Schedule.mem_items_iff.mp (mem_items_of_turn hwork)
  have hschema : ctx.schema = s := hkept.extended.schema_eq
  simp only at hp he
  simp only [turnAt] at hpending ⊢
  simp only [Platform.producers, List.mem_cons, List.not_mem_nil, or_false] at hp
  rcases hp with rfl | rfl | rfl | rfl | rfl | rfl | rfl | rfl | rfl
  · obtain ⟨api, _, rfl⟩ := RestApi.mem_entities_iff.mp he
    exact iff_of_true rfl (Nat.le_antisymm hsweep hpending)
  · obtain ⟨api, hapi, p, hp, rfl⟩ := PathResource.mem_entities_iff.mp he
    rw [path_resource_ready_iff hwork hkept hsweep hapi hp rfl]
    exact ⟨fun h => Nat.le_antisymm h hpending, fun h => Nat.le_of_eq h⟩
  · obtain ⟨_, _, _, rfl⟩ := Function.mem_entities_iff.mp he
    exact iff_of_true rfl (Nat.le_antisymm hsweep hpending)
  · obtain ⟨api, hapi, r, hr, rfl⟩ := Route.mem_entities_iff.mp he
    have hpaths : rank PathResource.producer < rank Route.producer := by decide
    have hfunctions : rank Function.producer < rank Route.producer := by decide
    have hpath := path_ready_iff_of_turn hwork hkept hsweep hapi
      (Schema.mem_routePaths_of_mem_paths (Schema.dynamic_path_mem hr)) hpaths
    have hfunction := function_ready_of_turn hwork hkept hsweep r.lambda hfunctions
    simp only [WorkItem.ready, Route.producer, hfunction, Bool.true_and, hpath]
    exact le_iff_max_eq hsweep hpending
  · obtain ⟨api, hapi, r, hr, rfl⟩ := StaticFile.mem_entities_iff.mp he
    have hpaths : rank PathResource.producer < rank StaticFile.producer := by decide
    have hpath := path_ready_iff_of_turn hwork hkept hsweep hapi
      (Schema.mem_routePaths_of_mem_paths (Schema.static_path_mem hr)) hpaths
    simp only [WorkItem.ready, StaticFile.producer, hpath]
    exact le_iff_max_eq hsweep hpending
  · obtain ⟨api, hapi, rfl⟩ := Publication.mem_entities_iff.mp he
    have hapis : rank RestApi.producer < rank Publication.producer := by decide
    refine iff_of_true ?_ (Nat.le_antisymm hsweep hpending)
    exact (RestApi.isSchemaApiThere_iff (by rw [hschema, hapi])).mpr
      (restApi_there_of_turn hwork hkept hsweep hapi hapis)
  · obtain ⟨api, hapi, hcors, rfl⟩ := Preflight.mem_entities_iff.mp he
    have hapis : rank RestApi.producer < rank Preflight.producer := by decide
    refine iff_of_true ?_ (Nat.le_antisymm hsweep hpending)
    simp only [WorkItem.ready, Preflight.producer, Bool.and_eq_true]
    exact ⟨hcors, restApi_there_of_turn hwork hkept hsweep hapi hapis⟩
  · obtain ⟨t, _, rfl⟩ := Timers.mem_entities_iff.mp he
    have hfunctions : rank Function.producer < rank Timers.producer := by decide
    refine iff_of_true ?_ (Nat.le_antisymm hsweep hpending)
    simp only [WorkItem.ready, Timers.producer, hschema, haws]
    exact function_ready_of_turn hwork hkept hsweep t.lambda hfunctions
  · obtain ⟨api, d, hapi, _, rfl⟩ := DomainAlias.mem_entities_iff.mp he
    have hpublications : rank Publication.producer < rank DomainAlias.producer := by decide
    refine iff_of_true ?_ (Nat.le_antisymm hsweep hpending)
    simp only [WorkItem.ready, DomainAlias.producer, hschema, hapi]
    exact (has_iff_of_before hwork hkept (by simp [Platform.producers])
      (Publication.mem_entities_iff.mpr ⟨api, hapi, rfl⟩) hpublications).mpr hsweep

end Turn

/-! ## Every item in its turn -/

/-- Turns begin with the first sweep, and the last one is that of the deepest path. -/
theorem turn_bounds {item : WorkItem} (h : item ∈ Schedule.items Platform.aws.producers s) :
    1 ≤ item.entity.turn ∧ item.entity.turn ≤ max 1 s.depth := by
  obtain ⟨p, e⟩ := item
  obtain ⟨hp, he⟩ := Schedule.mem_items_iff.mp h
  rcases entity_cases hp he with ⟨api, hapi, q, hq, _, rfl⟩ | ⟨api, hapi, q, hq, hturn, _⟩ |
    ⟨hturn, _⟩
  · have hne : q ≠ .root := fun e => Schema.root_not_mem_routePaths (e ▸ hq)
    obtain ⟨served, hserved, hprefix⟩ := Schema.mem_routePaths_iff.mp hq
    have hdepth := (UriPath.depth_le_of_mem_prefixes hprefix).trans (Schema.depth_le hapi hserved)
    exact ⟨UriPath.one_le_depth hne, hdepth.trans (Nat.le_max_right 1 _)⟩
  · simp only at hturn ⊢
    rw [hturn]
    exact ⟨Nat.le_max_left 1 _, max_le_max_left 1 (Schema.depth_le hapi hq)⟩
  · simp only at hturn ⊢
    rw [hturn]
    exact ⟨Nat.le_refl 1, Nat.le_max_left 1 _⟩

/-- Every path of a route is the path of an item whose turn is not before its depth. -/
theorem exists_item_of_path {api : Api} (hapi : s.api = some api) {p : UriPath}
    (hp : p ∈ s.routes.paths) :
    ∃ item ∈ Schedule.items Platform.aws.producers s, p.depth ≤ item.entity.turn := by
  rcases List.mem_append.mp hp with hdynamic | hstatic
  · obtain ⟨r, hr, rfl⟩ := List.mem_map.mp hdynamic
    refine ⟨⟨Route.producer, .route r⟩, Schedule.mem_items_iff.mpr ⟨?_, ?_⟩, Nat.le_max_right 1 _⟩
    · simp [Platform.producers]
    · exact Route.mem_entities_iff.mpr ⟨api, hapi, r, hr, rfl⟩
  · obtain ⟨r, hr, rfl⟩ := List.mem_map.mp hstatic
    refine ⟨⟨StaticFile.producer, .static r⟩, Schedule.mem_items_iff.mpr ⟨?_, ?_⟩,
      Nat.le_max_right 1 _⟩
    · simp [Platform.producers]
    · exact StaticFile.mem_entities_iff.mpr ⟨api, hapi, r, hr, rfl⟩

/-- Every item is ready in the sweep of its turn and in no earlier one. -/
theorem paced (haws : s.platform = .aws)
    (hkeys : ((Schedule.items Platform.aws.producers s).map WorkItem.key).Nodup) :
    Schedule.Paced turnAt (Schedule.items Platform.aws.producers s).zipIdx
      (.initial s grants) := by
  constructor
  · rwa [List.zipIdx_map_fst]
  · intro y _
    rfl
  · intro y hy
    exact (turn_bounds (List.fst_mem_of_mem_zipIdx hy)).1
  · intro passed x later sweep ctx hwork hsweep hpending hkept
    exact ready_iff_of_turn hwork hkept hsweep haws hpending

/-- The last sweep is that of the deepest path, and the first one where there is none. -/
theorem sweeps_eq {sweeps : Nat}
    (hbound : ∀ i ∈ Schedule.items Platform.aws.producers s, i.entity.turn ≤ sweeps)
    (hlast : sweeps ≠ 0 → ∃ i ∈ Schedule.items Platform.aws.producers s, i.entity.turn = sweeps) :
    sweeps = if Schedule.items Platform.aws.producers s = [] then 0 else max 1 s.depth := by
  by_cases hempty : Schedule.items Platform.aws.producers s = []
  · rw [if_pos hempty]
    by_contra hne
    obtain ⟨i, hi, _⟩ := hlast hne
    rw [hempty] at hi
    cases hi
  · rw [if_neg hempty]
    obtain ⟨first, hfirst⟩ := List.exists_mem_of_ne_nil _ hempty
    have hpos : 1 ≤ sweeps := (turn_bounds hfirst).1.trans (hbound first hfirst)
    apply Nat.le_antisymm
    · obtain ⟨i, hi, hturn⟩ := hlast (Nat.ne_of_gt hpos)
      rw [← hturn]
      exact (turn_bounds hi).2
    · -- the deepest path is that of a route, whose item has its turn by then
      refine max_le hpos ?_
      unfold Schema.depth
      cases hapi : s.api with
      | none => exact Nat.zero_le _
      | some api =>
          simp only [Option.isSome_some, if_true]
          apply Finset.sup_le
          intro p hp
          obtain ⟨i, hi, hdepth⟩ := exists_item_of_path hapi (List.mem_toFinset.mp hp)
          exact hdepth.trans (hbound i hi)

end Aws

namespace Schema

variable {s : Schema} {library : List Declaration}

/-- A pass takes as many sweeps as the deepest path of a route has segments, and one at least where
there is anything to generate for.  In each sweep it generates for the entities whose turn it is, in
order: for paths of its depth, for the routes served under them, and in the first one for all
else. -/
theorem aws_sweeps (haws : s.platform = .aws) {pass : Pass} (h : s.generate library = .ok pass) :
    (pass.report.sweeps =
        if Schedule.items Platform.aws.producers s = [] then 0 else max 1 s.depth) ∧
      ∃ grants calls next, s.grants library = .ok grants ∧
        Schedule.trace Platform.aws.producers (.initial s grants) = (calls, next, .ok ()) ∧
        pass.resources = next.resources ∧
        calls.map (List.map Call.item) = (List.range pass.report.sweeps).map fun k =>
          (Schedule.items Platform.aws.producers s).filter fun i => i.entity.turn = k + 1 := by
  obtain ⟨grants, ctx, hgrants, hrun, hresources, _⟩ := generate_run h
  rw [haws] at hrun
  obtain ⟨_, done, hdone, hperm⟩ := Schedule.run_ok hrun
  -- a pass that succeeds has registered each key once
  have hkeys : ((Schedule.items Platform.aws.producers s).map WorkItem.key).Nodup := by
    apply (hperm.map WorkItem.key).nodup_iff.mpr
    rw [List.map_map]
    exact hdone.nodup_keys.1
  obtain ⟨calls, next, outcome, htrace⟩ : ∃ calls next outcome,
      Schedule.trace Platform.aws.producers (.initial s grants) = (calls, next, outcome) :=
    ⟨_, _, _, rfl⟩
  have hsame := Schedule.run_of_trace htrace
  rw [hrun] at hsame
  cases outcome with
  | error e => cases (Prod.mk.inj hsame).2
  | ok u =>
      obtain ⟨rfl, hreport⟩ := Prod.mk.inj hsame
      have hsweeps : pass.report.sweeps = calls.length := by
        rw [Except.ok.inj hreport]
      obtain ⟨hplaced, hbound, hlast⟩ := Schedule.trace_paced (Aws.paced haws hkeys) htrace
      simp only [Context.initial] at hplaced hbound hlast
      rw [hsweeps]
      refine ⟨Aws.sweeps_eq ?_ ?_, grants, calls, ctx, hgrants, htrace, hresources, ?_⟩
      · intro i hi
        obtain ⟨place, hplace⟩ := Schedule.exists_place hi
        exact hbound (i, place) hplace
      · intro hne
        obtain ⟨y, hy, hturn⟩ := hlast fun hnil => hne (by rw [hnil]; rfl)
        exact ⟨y.1, List.fst_mem_of_mem_zipIdx hy, hturn⟩
      · refine (Schedule.map_of_placed hplaced Prod.fst).trans (List.map_congr_left fun k _ => ?_)
        exact Aws.map_fst_filter_turnAt _ (k + 1)

/-- The small application takes two sweeps, for its path of two segments. -/
theorem aws_sweeps_shop : ∃ pass, shop.generate [] = .ok pass ∧ pass.report.sweeps = 2 := by
  obtain ⟨pass, hpass⟩ := exists_of_isOk isOk_generate_shop
  obtain ⟨hsweeps, _⟩ := aws_sweeps rfl hpass
  refine ⟨pass, hpass, ?_⟩
  have hitem : ⟨Aws.RestApi.producer, .api ⟨"shop-api", true, .unnamed,
      some ⟨"api", "shop.example", none⟩⟩⟩ ∈ Schedule.items Platform.aws.producers shop :=
    Schedule.mem_items_iff.mpr ⟨by simp [Platform.producers], by simp [Aws.RestApi.producer, shop]⟩
  have hdepth : shop.depth = 2 := by decide +kernel
  rw [hsweeps, hdepth, if_neg (List.ne_nil_of_mem hitem)]
  rfl

end Schema
end InfraGraph
