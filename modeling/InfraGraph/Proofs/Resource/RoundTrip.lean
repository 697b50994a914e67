import InfraGraph.Proofs.Json.Text
import InfraGraph.Resource.Decode
import InfraGraph.Resource.Encode

/-!
# Resources are read back from their JSON form

A value of a field is an object with one member that is named after its sort, so it is read back
with the order of its entries and items, however deep it is.  Maps must not hold a key twice, as
those that are built never do.  Main statements:

* `FieldValue.IsDistinct`, `Resource.IsDistinct` — no map at any depth holds a key twice;
* `FieldValue.ofSource_toJson` — values;
* `Resource.ofView_toJson` — resources, with the order of fields and dependencies.
-/

namespace InfraGraph

open Decode Json

/-! ## Values -/

namespace FieldValue

mutual

/-- No map in a value, at any depth, holds a key twice. -/
def IsDistinct : FieldValue → Prop
  | map entries => (entries.map Prod.fst).Nodup ∧ EntriesDistinct entries
  | list items => ItemsDistinct items
  | _ => True

def EntriesDistinct : List (String × FieldValue) → Prop
  | [] => True
  | e :: rest => IsDistinct e.2 ∧ EntriesDistinct rest

def ItemsDistinct : List FieldValue → Prop
  | [] => True
  | v :: rest => IsDistinct v ∧ ItemsDistinct rest

end

theorem entriesDistinct_iff {entries : List (String × FieldValue)} :
    EntriesDistinct entries ↔ ∀ e ∈ entries, e.2.IsDistinct := by
  induction entries with
  | nil => simp [EntriesDistinct]
  | cons e rest ih => simp only [EntriesDistinct, ih, List.forall_mem_cons]

theorem itemsDistinct_iff {items : List FieldValue} :
    ItemsDistinct items ↔ ∀ v ∈ items, v.IsDistinct := by
  induction items with
  | nil => simp [ItemsDistinct]
  | cons v rest ih => simp [ItemsDistinct, ih]

theorem entriesToJson_eq_map (entries : List (String × FieldValue)) :
    entriesToJson entries = entries.map fun e => (e.1, e.2.toJson) := by
  induction entries with
  | nil => rfl
  | cons e rest ih => rw [entriesToJson, ih, List.map_cons]

theorem itemsToJson_eq_map (items : List FieldValue) :
    itemsToJson items = items.map FieldValue.toJson := by
  induction items with
  | nil => rfl
  | cons v rest ih => rw [itemsToJson, ih, List.map_cons]

variable {room : Option Nat}

/-- A number of 64 bits is within the bounds that the decoder checks. -/
theorem toInt_bounds (n : Int64) :
    Int64.minValue.toInt ≤ n.toInt ∧ n.toInt ≤ Int64.maxValue.toInt :=
  ⟨Int64.le_iff_toInt_le.mp (Int64.minValue_le n), Int64.le_iff_toInt_le.mp (Int64.le_maxValue n)⟩

/-- A number is read within its bounds. -/
theorem int64_int (n : Int64) : int64 ⟨.int n.toInt, room⟩ = pure n := by
  simp only [int64, View.integer, if_pos (toInt_bounds n), pure_bind, Int64.ofInt_toInt]

/-- The one member of an object is read by its name. -/
theorem ofSource_singleton {sort : String} {content : Source} {v : FieldValue} {levels : Nat}
    (hroom : Source.HasRoom room (levels + 1))
    (hcontent : ∀ room, Source.HasRoom room levels → ofContent room sort content = pure v) :
    ofSource room (.obj [(.ok sort, content)]) = pure v := by
  obtain ⟨hinside, hless⟩ := hroom.inside
  rw [ofSource, hinside, pure_bind, ofMember, Source.keyText, pure_bind, hcontent _ hless,
    pure_bind, Source.oneMember, pure_bind]

mutual

/-- A value is read back from its JSON form. -/
theorem ofSource_toJson : ∀ (v : FieldValue) {room : Option Nat}, v.IsDistinct →
    Source.HasRoom room v.toJson.depth → ofSource room (.ofJson v.toJson) = pure v
  | text s, room, _, hroom => ofSource_singleton hroom fun room _ => by
      simp [ofContent, Source.ofJson, View.text, View.textFor]
  | number n, room, _, hroom => ofSource_singleton hroom fun room _ => by
      simp [ofContent, Source.ofJson, int64_int]
  | bool b, room, _, hroom => ofSource_singleton hroom fun room _ => by
      simp [ofContent, Source.ofJson, View.flag]
  | ref r, room, _, hroom => ofSource_singleton hroom fun room _ => by
      simp [ofContent, Source.ofJson, View.text, View.textFor]
  | expr e, room, _, hroom => ofSource_singleton hroom fun room _ => by
      simp [ofContent, Source.ofJson, View.text, View.textFor]
  | map entries, room, hdistinct, hroom => ofSource_singleton hroom fun room hroom => by
      obtain ⟨hinside, hless⟩ := (hroom.mono (Nat.le_max_left _ _)).inside
      simp only [ofContent, Source.ofJson]
      rw [hinside, pure_bind, ofMembers_entriesToJson entries hdistinct.2 hless, map_pure, ofPairs,
        OrderedMap.entries_ofList hdistinct.1]
  | list items, room, hdistinct, hroom => ofSource_singleton hroom fun room hroom => by
      obtain ⟨hinside, hless⟩ := (hroom.mono (Nat.le_max_left _ _)).inside
      simp only [ofContent, Source.ofJson]
      rw [hinside, pure_bind, ofItems_itemsToJson items hdistinct hless, map_pure]

/-- Entries with distinct keys are read back, as long as there is room for them. -/
theorem ofMembers_entriesToJson : ∀ (entries : List (String × FieldValue)) {room : Option Nat},
    EntriesDistinct entries → Source.HasRoom room (depthOfMembers (entriesToJson entries)) →
      ofMembers room (Source.ofMembers (entriesToJson entries)) = pure entries
  | [], _, _, _ => rfl
  | e :: rest, room, hdistinct, hroom => by
      rw [entriesToJson, Source.ofMembers, ofMembers, Source.keyText, pure_bind,
        ofSource_toJson e.2 hdistinct.1 (hroom.mono (Nat.le_max_left _ _)), pure_bind,
        ofMembers_entriesToJson rest hdistinct.2 (hroom.mono (Nat.le_max_right _ _)), pure_bind]

/-- Items are read back, as long as there is room for them. -/
theorem ofItems_itemsToJson : ∀ (items : List FieldValue) {room : Option Nat},
    ItemsDistinct items → Source.HasRoom room (depthOfItems (itemsToJson items)) →
      ofItems room (Source.ofItems (itemsToJson items)) = pure items
  | [], _, _, _ => rfl
  | v :: rest, room, hdistinct, hroom => by
      rw [itemsToJson, Source.ofItems, ofItems,
        ofSource_toJson v hdistinct.1 (hroom.mono (Nat.le_max_left _ _)), pure_bind,
        ofItems_itemsToJson rest hdistinct.2 (hroom.mono (Nat.le_max_right _ _)), pure_bind]

end

mutual

/-- All numbers of values fit 64 bits. -/
theorem isExact_toJson : ∀ v : FieldValue, v.toJson.IsExact
  | text _ | bool _ | ref _ | expr _ => ⟨trivial, trivial⟩
  | number n => ⟨⟨(toInt_bounds n).1, (toInt_bounds n).2.trans (by decide)⟩, trivial⟩
  | map entries => ⟨membersExact_entriesToJson entries, trivial⟩
  | list items => ⟨itemsExact_itemsToJson items, trivial⟩

theorem membersExact_entriesToJson : ∀ entries : List (String × FieldValue),
    MembersExact (entriesToJson entries)
  | [] => trivial
  | e :: rest => ⟨isExact_toJson e.2, membersExact_entriesToJson rest⟩

theorem itemsExact_itemsToJson : ∀ items : List FieldValue, ItemsExact (itemsToJson items)
  | [] => trivial
  | v :: rest => ⟨isExact_toJson v, itemsExact_itemsToJson rest⟩

end

end FieldValue

/-! ## Resources -/

namespace Resource

/-- No map in a field of a resource holds a key twice. -/
def IsDistinct (r : Resource) : Prop := ∀ field ∈ r.fields.entries, field.2.IsDistinct

/-- A resource is read back from its JSON form. -/
theorem ofView_toJson {r : Resource} {room : Option Nat} (h : r.IsDistinct)
    (hroom : Source.HasRoom room r.toJson.depth) : ofView ⟨.ofJson r.toJson, room⟩ = pure r := by
  let members : List (String × Json) :=
    [("kind", .str r.kind), ("name", .str r.name),
      ("fields", .obj (FieldValue.entriesToJson r.fields.entries)),
      ("depends_on", .arr (r.dependsOn.map .str))]
  have hkeys : ((View.entriesOf (room.map Nat.pred) members).map Prod.fst).Nodup := by
    rw [View.keys_entriesOf]
    show (["kind", "name", "fields", "depends_on"] : List String).Nodup
    decide
  have hless : Source.HasRoom (room.map Nat.pred) (depthOfMembers members) := hroom.inside.2
  have hfields : map FieldValue.ofView (⟨.ofJson (.obj (FieldValue.entriesToJson r.fields.entries)),
      room.map Nat.pred⟩ : View) = pure r.fields := by
    have hroom : Source.HasRoom (room.map Nat.pred)
        (Json.obj (FieldValue.entriesToJson r.fields.entries)).depth :=
      hless.of_mem_members (m := ("fields", _)) (by simp [members])
    rw [FieldValue.entriesToJson_eq_map] at hroom ⊢
    refine View.map_of_forall FieldValue.toJson hroom fun e he => ?_
    exact FieldValue.ofSource_toJson e.2 (h e he)
      (hroom.inside.2.of_mem_members (List.mem_map.mpr ⟨e, he, rfl⟩))
  have hdeps : list View.text (⟨.ofJson (.arr (r.dependsOn.map .str)), room.map Nat.pred⟩ : View) =
      pure r.dependsOn := by
    have hroom : Source.HasRoom (room.map Nat.pred) (Json.arr (r.dependsOn.map .str)).depth :=
      hless.of_mem_members (m := ("depends_on", _)) (by simp [members])
    exact View.list_of_forall hroom fun _ _ => rfl
  have hkind := View.reads_text hkeys (show ("kind", .str r.kind) ∈ members by simp [members])
  have hname := View.reads_text hkeys (show ("name", .str r.name) ∈ members by simp [members])
  have hfields := Fields.reads_withDefault hkeys
    (View.mem_entriesOf "fields" (by simp [members])) hfields .empty
  have hdeps := Fields.reads_withDefault hkeys
    (View.mem_entriesOf "depends_on" (by simp [members])) hdeps []
  exact View.record_of_reads hroom
    ((((hkind.map Resource.mk).seq hname (by decide)).seq hfields (by decide)).seq hdeps
      (by decide))

/-- The tree of a resource is well formed, so that its text is read back. -/
theorem isExact_toJson (r : Resource) : r.toJson.IsExact := by
  have hfields : (Json.obj (FieldValue.entriesToJson r.fields.entries)).IsExact :=
    FieldValue.membersExact_entriesToJson r.fields.entries
  simp [toJson, hfields]

end Resource
end InfraGraph
