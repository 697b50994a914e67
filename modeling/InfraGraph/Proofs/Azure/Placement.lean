import InfraGraph.Proofs.Azure.Completion
import InfraGraph.Proofs.Azure.Prescription
import InfraGraph.Proofs.Schema.Artifact

/-!
# Where binding documents stand

Every route and every timer has a function, and its document stands in a directory of that name next
to the artifact of its lambda, wherever that is.  Directories of artifacts may be shared, and one
may be written in several ways.  But no two functions have one name, and the name of the function is
the last but one of every path.  Main statements:

* `Azure.Binding.components_place`, `Azure.Binding.eq_of_locate` — a place tells the function;
* `Schema.functions`, `Schema.nodup_functions` — the functions, each with its lambda, and their
  names;
* `Azure.filenames_generated`, `Schema.filenames_of_generate` — the documents of an item, of a pass;
* `Schema.azure_bindings_apart` — no document of a pass is written over another.
-/

namespace InfraGraph

/-- An identifier stands for itself in a path. -/
theorem Name.isProper_identifier (parts : List String) : FileTree.IsProper (identifier parts) := by
  have hdot : ∀ s : String, '.' ∈ s.toList → identifier parts ≠ s := by
    rintro s hs rfl
    exact dot_not_mem_identifier parts hs
  constructor
  · rintro (hempty | hhere)
    · exact identifier_ne_empty parts hempty
    · exact hdot "." (by decide) hhere
  · exact hdot ".." (by decide)

namespace Azure

namespace Binding

variable {l l' : Lambda} {function other : String}

/-! ## Places -/

/-- The last names of a place are those of the function and the document. -/
theorem components_place (hslash : '/' ∉ function.toList) :
    Path.components (place l function) =
      Path.components l.artifactBase ++ [function, "function.json"] := by
  have hdocument : function ++ "/function.json" = function ++ "/" ++ "function.json" := by
    rw [String.append_assoc]
    rfl
  have hlast : Path.components "function.json" = ["function.json"] :=
    Path.components_of_no_slash (by decide)
  rw [place, l.besideArtifact_eq, Path.components_append_slash, hdocument,
    Path.components_append_slash, Path.components_of_no_slash hslash, hlast]
  rfl

/-- Equal texts are those of one function. -/
theorem eq_of_place_eq (hslash : '/' ∉ function.toList) (hslash' : '/' ∉ other.toList)
    (h : place l function = place l' other) : function = other := by
  have hnames := congrArg Path.components h
  rw [components_place hslash, components_place hslash'] at hnames
  exact (List.cons.inj (List.append_inj' hnames rfl).2).1

/-- In every file system, the document of a function stands in a directory with its name. -/
theorem exists_of_locate {t : FileTree} {goal : List String} (hslash : '/' ∉ function.toList)
    (hproper : FileTree.IsProper function) (h : t.locate (place l function) = .ok goal) :
    ∃ above, goal = above ++ [function, "function.json"] := by
  have hdocument : FileTree.IsProper "function.json" := ⟨by decide, by decide⟩
  have hsplit : [function, "function.json"] = [function] ++ ["function.json"] := rfl
  rw [FileTree.locate, components_place hslash, hsplit, FileTree.locateFrom_append_iff] at h
  obtain ⟨above, _, h⟩ := h
  obtain ⟨dir, hdir, h⟩ := FileTree.locateFrom_append_iff.mp h
  obtain ⟨_, rfl⟩ := (FileTree.locateFrom_singleton_iff hproper).mp hdir
  obtain ⟨_, rfl⟩ := (FileTree.locateFrom_singleton_iff hdocument).mp h
  exact ⟨above, by rw [List.append_assoc]; rfl⟩

/-- Paths that lead to one place in some file system are those of one function. -/
theorem eq_of_locate {t : FileTree} {goal : List String} (hslash : '/' ∉ function.toList)
    (hproper : FileTree.IsProper function) (hslash' : '/' ∉ other.toList)
    (hproper' : FileTree.IsProper other) (h : t.locate (place l function) = .ok goal)
    (h' : t.locate (place l' other) = .ok goal) : function = other := by
  obtain ⟨above, rfl⟩ := exists_of_locate hslash hproper h
  obtain ⟨above', hgoal⟩ := exists_of_locate hslash' hproper' h'
  exact (List.cons.inj (List.append_inj' hgoal rfl).2).1

end Binding

/-! ## Functions -/

/-- Function that a document is written for, with the lambda that it runs. -/
def functionOf : Entity → Option (String × String)
  | .route r => some (r.lambda, HttpBinding.functionName r)
  | .timer t => some (t.lambda, t.fqId)
  | _ => none

/-- The function of a route is not that of a timer. -/
theorem functionName_ne_fqId (r : DynamicRoute) (t : Timer) :
    HttpBinding.functionName r ≠ t.fqId := by
  intro he
  have htimer : Name.tokens ["timer"] = ["timer".toList] := Name.tokens_of_isToken (by decide)
  have htokens : Name.tokens [t.fqId] = "timer".toList :: Name.tokens [t.id] := by
    have hwords : Name.tokens ["timer", t.id] = "timer".toList :: Name.tokens [t.id] := by
      rw [Name.tokens_cons, htimer]
      rfl
    rw [Timer.fqId, Name.tokens_identifier, Name.words_of_tokens_ne_nil (by simp [hwords]), hwords]
  rw [← he, HttpBinding.tokens_functionName] at htokens
  have hfirst := (List.cons.inj htokens).1
  revert hfirst
  decide

end Azure

namespace Schema

open Azure (functionOf)

variable {s : Schema} {grants : Grants} {library : List Declaration} {done : List Completion}
  {ctx : Context}

/-- Functions of the routes and of the timers, each with the lambda that it runs. -/
def functions (s : Schema) : List (String × String) :=
  s.routes.dynamic.map (fun r => (r.lambda, Azure.HttpBinding.functionName r)) ++
    s.timers.map fun t => (t.lambda, t.fqId)

/-- Where the document of a function stands; nowhere without its lambda. -/
def placeOf? (s : Schema) (function : String × String) : Option String :=
  (s.lambdas.get? function.1).map fun l => Azure.Binding.place l function.2

theorem placeOf?_of_get? {id function : String} {l : Lambda} (hl : s.lambdas.get? id = some l) :
    s.placeOf? (id, function) = some (Azure.Binding.place l function) :=
  congrArg (Option.map fun l => Azure.Binding.place l function) hl

def bindingPlaces (s : Schema) : List String := s.functions.filterMap s.placeOf?

/-- The functions of a schema are those of its items, in order. -/
theorem functions_eq (s : Schema) : s.functions =
    (Schedule.items Platform.azure.producers s).filterMap fun i => functionOf i.entity := by
  have hroutes : (s.routes.dynamic.filterMap fun r => functionOf (.route r)) =
      s.routes.dynamic.map fun r => (r.lambda, Azure.HttpBinding.functionName r) :=
    List.filterMap_eq_map_iff_forall_eq_some.mpr fun _ _ => rfl
  have htimers : (s.timers.filterMap fun t => functionOf (.timer t)) =
      s.timers.map fun t => (t.lambda, t.fqId) :=
    List.filterMap_eq_map_iff_forall_eq_some.mpr fun _ _ => rfl
  have hlambdas : (s.lambdas.entries.filterMap fun entry => functionOf (.lambda entry.1 entry.2)) =
      [] := List.filterMap_eq_nil_iff.mpr fun _ _ => rfl
  simp only [Azure.items_eq, List.filterMap_append, List.filterMap_map, Function.comp_def, hroutes,
    htimers, hlambdas, List.nil_append, functions]

/-- Functions have identifiers for names. -/
theorem exists_identifier {function : String × String} (h : function ∈ s.functions) :
    ∃ parts, function.2 = Name.identifier parts := by
  rcases List.mem_append.mp h with h | h
  · obtain ⟨r, _, rfl⟩ := List.mem_map.mp h
    exact ⟨_, rfl⟩
  · obtain ⟨t, _, rfl⟩ := List.mem_map.mp h
    exact ⟨_, rfl⟩

/-- Where labels are distinct, no two functions have one name. -/
theorem nodup_functions (hlabels : (s.azureLabels grants).Nodup) :
    (s.functions.map Prod.snd).Nodup := by
  obtain ⟨hroutes, htimers, _⟩ := List.nodup_append.mp (List.nodup_append.mp hlabels).2.1
  have hnames : s.functions.map Prod.snd =
      s.routes.dynamic.map Azure.HttpBinding.functionName ++ s.timers.map Timer.fqId := by
    rw [functions, List.map_append, List.map_map, List.map_map]
    rfl
  rw [hnames]
  refine List.nodup_append.mpr ⟨?_, ?_, ?_⟩
  · -- the label of a document is made from the name of the function
    refine List.Nodup.of_map
      (fun f => (Azure.Binding.kind, Name.identifier ["http_binding", f])) ?_
    rw [List.map_map]
    exact hroutes
  · refine List.Nodup.of_map
      (fun f => (Azure.Binding.kind, Name.identifier ["timer_binding", f])) ?_
    rw [List.map_map]
    exact htimers
  · intro f hf f' hf'
    obtain ⟨r, _, rfl⟩ := List.mem_map.mp hf
    obtain ⟨t, _, rfl⟩ := List.mem_map.mp hf'
    exact Azure.functionName_ne_fqId r t

end Schema

/-! ## Documents -/

namespace Azure

variable {s : Schema} {grants : Grants} {e : Entity} {g : Generated}

/-- Names of the files that resources write. -/
def filenames (rs : List Resource) : List (Option FieldValue) :=
  (rs.filter fun r => r.kind = Binding.kind).map fun r => r.fields.get? "filename"

/-- An entity has the document of its function, which has a place, and no other file. -/
theorem filenames_generated (hg : prescribed s grants e = some g) :
    filenames g.resources =
        ((functionOf e).bind s.placeOf?).toList.map (fun place => some (.text place)) ∧
      ∀ function ∈ functionOf e, (s.placeOf? function).isSome = true := by
  cases e with
  | lambda id l =>
      cases hg
      -- an app writes no file, nor do the assignments of its roles
      refine ⟨?_, by simp [functionOf]⟩
      have hkinds : ∀ r ∈ (FunctionApp.generateFor (.initial s grants) id l).resources,
          r.kind ≠ Binding.kind := by
        refine List.forall_mem_cons.mpr ⟨kinds_distinct.2.1, ?_⟩
        intro r hr
        obtain ⟨role, _, rfl⟩ := List.mem_map.mp hr
        exact kinds_distinct.2.2
      rw [filenames, List.filter_eq_nil_iff.mpr (by simpa using hkinds)]
      rfl
  | route r =>
      obtain ⟨l, hl, hgenerated⟩ := Option.bind_eq_some_iff.mp hg
      cases hgenerated
      simp only [functionOf, Option.bind_some, Schema.placeOf?_of_get? hl, Option.mem_some_iff,
        forall_eq']
      exact ⟨rfl, rfl⟩
  | timer t =>
      obtain ⟨l, hl, hgenerated⟩ := Option.bind_eq_some_iff.mp hg
      cases hgenerated
      simp only [functionOf, Option.bind_some, Schema.placeOf?_of_get? hl, Option.mem_some_iff,
        forall_eq']
      exact ⟨rfl, rfl⟩
  | _ => cases hg

end Azure

namespace Schema

open Azure (functionOf)

variable {s : Schema} {grants : Grants} {library : List Declaration}

/-- What a pass has emitted has the labels of everything that the schema stands for, all
distinct. -/
theorem nodup_azureLabels (hazure : s.platform = .azure) (hgrants : s.grants library = .ok grants)
    {pass : Pass} (hgen : s.generate library = .ok pass) : (s.azureLabels grants).Nodup := by
  have haddresses := addresses_nodup_of_generate hgen
  obtain ⟨done, ctx, hist, hitems, rfl⟩ := azure_pass_in_order hazure hgrants hgen
  rw [← flatMap_labels_azure, ← hitems, ← map_label_azure hazure hist]
  -- an address is made from the label
  refine List.Nodup.of_map (fun label => label.1 ++ "." ++ label.2) ?_
  rw [List.map_map]
  exact haddresses

/-- The files of a pass are the documents of all functions, in order. -/
theorem filenames_of_generate (hazure : s.platform = .azure) {pass : Pass}
    (hgen : s.generate library = .ok pass) :
    Azure.filenames pass.resources = s.bindingPlaces.map (fun place => some (.text place)) ∧
      s.bindingPlaces.length = s.functions.length := by
  obtain ⟨grants, _, hgrants, _⟩ := generate_run hgen
  obtain ⟨done, ctx, hist, hitems, rfl⟩ := azure_pass_in_order hazure hgrants hgen
  have hwritten : ∀ c ∈ done, _ := fun c hc =>
    Azure.filenames_generated (Azure.prescribed_of_mem hist hazure hc)
  have hplaces : s.bindingPlaces = done.filterMap fun c =>
      (functionOf c.item.entity).bind s.placeOf? := by
    rw [bindingPlaces, functions_eq, ← hitems, List.filterMap_map, List.filterMap_filterMap]
    rfl
  constructor
  · calc
      Azure.filenames ctx.resources
          = done.flatMap fun c => Azure.filenames c.generated.resources := by
            rw [hist.resources_eq, Azure.filenames, List.filter_flatMap, List.map_flatMap]
            rfl
      _ = done.flatMap fun c => ((functionOf c.item.entity).bind s.placeOf?).toList.map
            fun place => some (.text place) :=
            List.flatMap_congr fun c hc => (hwritten c hc).1
      _ = s.bindingPlaces.map fun place => some (.text place) := by
            rw [hplaces, List.filterMap_eq_flatMap_toList, List.map_flatMap]
  · refine List.filterMap_length_eq_length.mpr ?_
    intro function hfunction
    rw [functions_eq, ← hitems, List.filterMap_map] at hfunction
    obtain ⟨c, hc, hof⟩ := List.mem_filterMap.mp hfunction
    exact (hwritten c hc).2 function hof

/-- A relation between the places of functions with different names relates all places. -/
theorem pairwise_bindingPlaces (hnodup : (s.functions.map Prod.snd).Nodup)
    {R : String → String → Prop}
    (hR : ∀ (l l' : Lambda) (ps qs : List String), Name.identifier ps ≠ Name.identifier qs →
      R (Azure.Binding.place l (Name.identifier ps))
        (Azure.Binding.place l' (Name.identifier qs))) :
    s.bindingPlaces.Pairwise R := by
  -- each place is that of one function, so the names of the functions tell the places apart
  refine List.pairwise_filterMap.mpr ((List.pairwise_map.mp hnodup).imp_of_mem ?_)
  intro f g hf hg hne place hplace other hother
  obtain ⟨ps, hps⟩ := exists_identifier hf
  obtain ⟨qs, hqs⟩ := exists_identifier hg
  obtain ⟨l, _, rfl⟩ := Option.map_eq_some_iff.mp hplace
  obtain ⟨l', _, rfl⟩ := Option.map_eq_some_iff.mp hother
  rw [hps, hqs] at hne ⊢
  exact hR l l' ps qs hne

/-- In a pass on Azure, whether the schema is accepted or not, every route and every timer has a
document of its own: no two have one path, and in no file system do two paths lead to one place, so
no document is written over another. -/
theorem azure_bindings_apart (hazure : s.platform = .azure) {pass : Pass}
    (hgen : s.generate library = .ok pass) :
    Azure.filenames pass.resources = s.bindingPlaces.map (fun place => some (.text place)) ∧
      s.bindingPlaces.length = s.routes.dynamic.length + s.timers.length ∧
      s.bindingPlaces.Nodup ∧
      ∀ t : FileTree, s.bindingPlaces.Pairwise fun place other =>
        ∀ goal, t.locate place = .ok goal → t.locate other ≠ .ok goal := by
  obtain ⟨grants, _, hgrants, _⟩ := generate_run hgen
  obtain ⟨hfilenames, hlength⟩ := filenames_of_generate hazure hgen
  have hnodup := nodup_functions (nodup_azureLabels hazure hgrants hgen)
  refine ⟨hfilenames, ?_, ?_, ?_⟩
  · rw [hlength, functions, List.length_append, List.length_map, List.length_map]
  · refine pairwise_bindingPlaces hnodup ?_
    intro l l' ps qs hne hplace
    exact hne (Azure.Binding.eq_of_place_eq (Name.slash_not_mem_identifier ps)
      (Name.slash_not_mem_identifier qs) hplace)
  · intro t
    refine pairwise_bindingPlaces hnodup ?_
    intro l l' ps qs hne goal hgoal hgoal'
    exact hne (Azure.Binding.eq_of_locate (Name.slash_not_mem_identifier ps)
      (Name.isProper_identifier ps) (Name.slash_not_mem_identifier qs)
      (Name.isProper_identifier qs) hgoal hgoal')

/-- Two documents next to one artifact, and one next to another. -/
theorem azure_bindings_apart_notes :
    notes.platform = .azure ∧ ∃ pass, notes.generate [] = .ok pass ∧
      Azure.filenames pass.resources =
        [some (.text "./http_get_users_id_param/function.json"),
          some (.text "./http_post/function.json"),
          some (.text "jobs/timer_nightly/function.json")] ∧
      notes.bindingPlaces.Nodup := by
  have hok : (notes.generate []).isOk = true := by decide +kernel
  obtain ⟨pass, hgen⟩ := exists_of_isOk hok
  obtain ⟨hfilenames, _, hnodup, _⟩ := azure_bindings_apart rfl hgen
  have hplaces : notes.bindingPlaces = ["./http_get_users_id_param/function.json",
      "./http_post/function.json", "jobs/timer_nightly/function.json"] := by decide +kernel
  rw [hplaces] at hfilenames
  exact ⟨rfl, pass, hgen, hfilenames, hnodup⟩

end Schema
end InfraGraph
