import InfraGraph.Graph.Decode
import InfraGraph.Proofs.Resource.RoundTrip

/-!
# Graphs are read back from their file

A graph is read back from its JSON form with the order of its resources, of their fields,
dependencies and map entries, and of its outputs.  From its text it is read back where no output
holds a floating point number and nothing is deeper than a reader follows.  Main statements:

* `Graph.IsDistinct` — no map of a graph holds a key twice, and the members of outputs are by key;
* `Graph.ofView_toJson` — a graph is read back from its JSON form;
* `Graph.ofText_text` — a graph is read back from the text of its file.
-/

namespace InfraGraph

open Decode Json

variable {room : Option Nat}

/-! ## Outputs -/

namespace Manifest

/-- Objects inside outputs hold their members by key, and no key twice. -/
def IsDistinct (m : Manifest) : Prop := ∀ output ∈ m.outputs.entries, output.2.sorted = output.2

/-- Outputs are read back from their JSON form. -/
theorem ofView_toJson {m : Manifest} (h : m.IsDistinct)
    (hroom : Source.HasRoom room (Json.obj [("outputs", .obj m.outputs.entries)]).depth) :
    ofView ⟨.ofJson (.obj [("outputs", .obj m.outputs.entries)]), room⟩ = pure m := by
  have hless := hroom.inside.2
  have houtputs : map output (⟨.ofJson (.obj m.outputs.entries), room.map Nat.pred⟩ : View) =
      pure m.outputs := by
    have hroom : Source.HasRoom (room.map Nat.pred) (Json.obj m.outputs.entries).depth :=
      hless.of_mem_members (m := ("outputs", _)) (by simp)
    have hentries : m.outputs.entries = m.outputs.entries.map fun e => (e.1, id e.2) := by simp
    rw [hentries]
    refine View.map_of_forall id hroom fun e he => ?_
    have hvalue := Source.decodeValue_ofJson ((room.map Nat.pred).map Nat.pred) e.2
      (hroom.inside.2.of_mem_members he)
    show Json.sorted <$> Source.decodeValue _ (.ofJson e.2) = pure e.2
    rw [hvalue, map_pure, h e he]
  have hread := Fields.reads_required (by simp [View.keys_entriesOf])
    (View.mem_entriesOf "outputs" (List.mem_singleton_self _)) houtputs
  exact View.record_of_reads hroom (hread.map Manifest.mk)

end Manifest

/-! ## Graphs -/

namespace Graph

/-- No map of a graph holds a key twice, and objects inside outputs hold their members by key. -/
structure IsDistinct (g : Graph) : Prop where
  resources : ∀ r ∈ g.resources, r.IsDistinct
  manifest : g.manifest.IsDistinct

/-- A graph is read back from its JSON form. -/
theorem ofView_toJson {g : Graph} (h : g.IsDistinct)
    (hroom : Source.HasRoom room g.toJson.depth) : ofView ⟨.ofJson g.toJson, room⟩ = pure g := by
  let members : List (String × Json) :=
    [("schema", .str g.format), ("app", .str g.app), ("generated_at", .str g.generatedAt),
      ("generator", .str g.generator), ("digest", .str g.digest),
      ("resources", .arr (g.resources.map Resource.toJson)),
      ("outputs", .obj [("outputs", .obj g.manifest.outputs.entries)])]
  have hkeys : ((View.entriesOf (room.map Nat.pred) members).map Prod.fst).Nodup := by
    rw [View.keys_entriesOf]
    show (["schema", "app", "generated_at", "generator", "digest", "resources", "outputs"] :
      List String).Nodup
    decide
  have hless : Source.HasRoom (room.map Nat.pred) (depthOfMembers members) := hroom.inside.2
  have hresources : list Resource.ofView
      (⟨.ofJson (.arr (g.resources.map Resource.toJson)), room.map Nat.pred⟩ : View) =
        pure g.resources := by
    have hroom : Source.HasRoom (room.map Nat.pred)
        (Json.arr (g.resources.map Resource.toJson)).depth :=
      hless.of_mem_members (m := ("resources", _)) (by simp [members])
    exact View.list_of_forall hroom fun r hr => Resource.ofView_toJson (h.resources r hr)
      (hroom.inside.2.of_mem_items (List.mem_map_of_mem hr))
  have hmanifest := Manifest.ofView_toJson h.manifest
    (hless.of_mem_members (m := ("outputs", _)) (by simp [members]))
  have hformat := View.reads_text hkeys (show ("schema", .str g.format) ∈ members by simp [members])
  have happ := View.reads_text hkeys (show ("app", .str g.app) ∈ members by simp [members])
  have hgeneratedAt := View.reads_text hkeys
    (show ("generated_at", .str g.generatedAt) ∈ members by simp [members])
  have hgenerator := View.reads_text hkeys
    (show ("generator", .str g.generator) ∈ members by simp [members])
  have hdigest := View.reads_text hkeys (show ("digest", .str g.digest) ∈ members by simp [members])
  have hresources := Fields.reads_required hkeys
    (View.mem_entriesOf "resources" (by simp [members])) hresources
  have hmanifest := Fields.reads_withDefault hkeys
    (View.mem_entriesOf "outputs" (by simp [members])) hmanifest .empty
  exact View.record_of_reads hroom
    (((((((hformat.map Graph.mk).seq happ (by decide)).seq hgeneratedAt (by decide)).seq
      hgenerator (by decide)).seq hdigest (by decide)).seq hresources (by decide)).seq
      hmanifest (by decide))

/-- No output of a graph holds a floating point number. -/
theorem isExact_toJson {g : Graph} (h : ∀ output ∈ g.manifest.outputs.entries, output.2.IsExact) :
    g.toJson.IsExact := by
  have hresources : (Json.arr (g.resources.map Resource.toJson)).IsExact :=
    isExact_arr_iff.mpr (List.forall_mem_map.mpr fun r _ => r.isExact_toJson)
  have houtputs : (Json.obj [("outputs", .obj g.manifest.outputs.entries)]).IsExact :=
    isExact_obj_iff.mpr (List.forall_mem_singleton.mpr (isExact_obj_iff.mpr h))
  exact isExact_obj_iff.mpr (by simp [hresources, houtputs, -isExact_obj_iff, -isExact_arr_iff])

/-- A graph is read back from the text of its file. -/
theorem ofText_text {g : Graph} (h : g.IsDistinct) (hexact : g.toJson.IsExact)
    (hdepth : g.toJson.depth ≤ maxDepth) : Graph.ofText g.text = .ok g := by
  refine decode_pretty hexact ?_
  exact ofView_toJson h (Source.hasRoom_some hdepth)

end Graph
end InfraGraph
