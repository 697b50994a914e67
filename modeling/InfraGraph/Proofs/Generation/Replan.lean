import InfraGraph.Proofs.Generation.Storable
import InfraGraph.Proofs.Graph.Store
import InfraGraph.Proofs.Resource.Growth
import InfraGraph.Proofs.Schema.Acceptance

/-!
# Nothing changes when the same inputs are planned again

What a pass generates is saved and loaded as it was, and addresses are distinct, so a plan for the
same inputs finds every resource under its address with the hash that it had.  Main statements:

* `Plan.changes_self` — a plan for what is stored keeps everything;
* `Graph.ofPass` — the graph that is stored for a pass;
* `Graph.file_round_trip` — graphs are read back as they were, and so are those of passes.
-/

namespace InfraGraph

open Json

namespace Plan

variable {rs : List Resource} {app : String}

/-- A plan for what is stored keeps everything. -/
theorem changes_self (h : (rs.map Resource.address).Nodup) :
    (compare app rs rs).changes = rs.map fun r => ⟨r.address, .keep⟩ := by
  rw [changes_of_subset (List.Subset.refl rs) h]
  exact List.map_congr_left fun r hr => by rw [if_pos hr]

/-- It is empty, and counts every resource as unchanged. -/
theorem isEmpty_self (h : (rs.map Resource.address).Nodup) :
    (compare app rs rs).isEmpty = true ∧ (compare app rs rs).unchanged = .ofNat rs.length := by
  have hkeep : ∀ c ∈ (compare app rs rs).changes, c.action = .keep :=
    keep_of_subset (List.Subset.refl rs) h (List.Subset.refl rs)
  exact ⟨isEmpty_of_keep hkeep, (fields_of_subset (List.Subset.refl rs) h (h.of_map _)).2.2.1⟩

end Plan

namespace Graph

def ofPass (s : Schema) (pass : Pass) (seconds : UInt64) : Graph :=
  ofResources s.name pass.resources pass.manifest seconds

/-- The graph of a pass is read back from the text of its file. -/
theorem ofText_ofPass {s : Schema} {library : List Declaration} {pass : Pass}
    (hgen : s.generate library = .ok pass) (seconds : UInt64) :
    ofText (ofPass s pass seconds).text = .ok (ofPass s pass seconds) := by
  obtain ⟨hresources, hmanifest⟩ := Schema.storable_of_generate hgen
  exact ofText_text_of_storable hresources hmanifest

/-- A graph is read back from its JSON form with the order of its resources, fields, map entries,
dependencies and outputs, and from the text of its file where outputs hold no floating point number
and nothing is deeper than a reader follows.  The graph of a pass is saved and loaded as it was; it
holds the digest of its resources, and a plan for the same inputs keeps all of them. -/
theorem file_round_trip :
    (∀ g : Graph, g.IsDistinct →
      (ofView ⟨.ofJson g.toJson, none⟩).result = .ok g ∧
        ((∀ output ∈ g.manifest.outputs.entries, output.2.IsExact) →
          g.toJson.depth ≤ maxDepth → ofText g.text = .ok g)) ∧
      ∀ (s : Schema) (library : List Declaration) (pass : Pass) (seconds : UInt64),
        s.generate library = .ok pass →
          ∀ (dir path : String) (t t' : FileTree) (now later : UInt64),
            (save dir (ofPass s pass seconds)).run.run (FileTree.answer now) t = (.ok path, t') →
              ∃ loaded, (load dir).run.run (FileTree.answer later) t' = (.ok (some loaded), t') ∧
                loaded = ofPass s pass seconds ∧
                Resource.hashAll loaded.resources = loaded.digest ∧
                ∀ again, s.generate library = .ok again →
                  (Plan.compare s.name again.resources loaded.resources).changes =
                      again.resources.map (fun r => ⟨r.address, .keep⟩) ∧
                    (Plan.compare s.name again.resources loaded.resources).isEmpty = true ∧
                    (Plan.compare s.name again.resources loaded.resources).unchanged =
                      .ofNat again.resources.length := by
  constructor
  · intro g hg
    constructor
    · rw [ofView_toJson hg Source.hasRoom_none, Decode.Decoded.result_pure]
    · exact fun hexact hdepth => ofText_text hg (isExact_toJson hexact) hdepth
  · intro s library pass seconds hgen dir path t t' now later hsave
    have hload := load_of_save (ofText_ofPass hgen seconds) hsave later
    refine ⟨_, hload, rfl, rfl, fun again hagain => ?_⟩
    -- the same inputs generate the same resources, which have an address each
    rw [hgen] at hagain
    cases hagain
    have haddresses := Schema.addresses_nodup_of_generate hgen
    exact ⟨Plan.changes_self haddresses, Plan.isEmpty_self haddresses⟩

/-- A graph with maps and lists in each other, and texts that are not written as they are. -/
def nested : Graph where
  format := "1.0"
  app := "a \"b\"\n"
  generatedAt := ""
  generator := ""
  digest := ""
  resources := [⟨"kind", "é\t", .ofList [("z", .map [("b", .list [.number Int64.minValue, .map []]),
    ("a", .text "\\")]), ("a", .bool true)], ["kind.b", "kind.a"]⟩]
  manifest := ⟨.ofList [("p/z", .obj [("m", .arr [.null]), ("n", .int (-1))]), ("p/a", .str "")]⟩

/-- The nested value holds no key twice. -/
theorem isDistinct_nested : nested.IsDistinct := by
  refine ⟨List.forall_mem_singleton.mpr (OrderedMap.forall_mem_ofList ?_),
    OrderedMap.forall_mem_ofList ?_⟩
  · simp [FieldValue.IsDistinct, FieldValue.EntriesDistinct, FieldValue.ItemsDistinct]
  · exact List.forall_mem_cons.mpr ⟨rfl, List.forall_mem_singleton.mpr rfl⟩

theorem isExact_nested : ∀ output ∈ nested.manifest.outputs.entries, output.2.IsExact :=
  OrderedMap.forall_mem_ofList (by simp [IsExact, MembersExact, ItemsExact, maxWhole])

/-- Saving to a directory that is not there yet. -/
theorem save_empty (g : Graph) : (save "out" g).run.run (FileTree.answer 0) .empty =
    (.ok "out/graph.json", .dir [("out", .dir [("graph.json", .file g.text)])]) :=
  rfl

/-- The small application is stored, loaded and planned again, and nothing changes. -/
theorem file_round_trip_shop :
    (ofView ⟨.ofJson nested.toJson, none⟩).result = .ok nested ∧ ofText nested.text = .ok nested ∧
      ∃ pass t' loaded, Schema.shop.generate [] = .ok pass ∧ pass.resources.length = 31 ∧
        (save "out" (ofPass Schema.shop pass 0)).run.run (FileTree.answer 0) .empty =
          (.ok "out/graph.json", t') ∧
        (load "out").run.run (FileTree.answer 1) t' = (.ok (some loaded), t') ∧
        loaded = ofPass Schema.shop pass 0 ∧
        Resource.hashAll loaded.resources = loaded.digest ∧
        (Plan.compare "shop" pass.resources loaded.resources).isEmpty = true ∧
        (Plan.compare "shop" pass.resources loaded.resources).unchanged = 31 := by
  obtain ⟨hgraphs, hpasses⟩ := file_round_trip
  obtain ⟨htree, htext⟩ := hgraphs nested isDistinct_nested
  obtain ⟨pass, hgen, hlength⟩ : ∃ pass, Schema.shop.generate [] = .ok pass ∧
      pass.resources.length = 31 := exists_of_map_toOption (by decide +kernel)
  obtain ⟨loaded, hload, hsame, hdigest, hplan⟩ :=
    hpasses _ _ pass 0 hgen "out" _ _ _ 0 1 (save_empty _)
  obtain ⟨-, hempty, hunchanged⟩ := hplan pass hgen
  rw [hlength] at hunchanged
  exact ⟨htree, htext isExact_nested (by decide), pass, _, loaded, hgen, hlength, save_empty _,
    hload, hsame, hdigest, hempty, hunchanged⟩

end Graph
end InfraGraph
