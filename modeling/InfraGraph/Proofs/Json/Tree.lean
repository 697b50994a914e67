import InfraGraph.Json.Format
import InfraGraph.Proofs.Decode.Record
import Mathlib.Order.MinMax

/-!
# Values and their trees

A value is decoded from its own tree as it is, where arrays and objects are not contained in each
other deeper than there is room for.  The members of a sorted value have their keys in order, so
sorting it once more changes nothing.  Main statements:

* `Json.depth`, `Source.HasRoom` — how deep a value is, and what may be decoded;
* `Source.decodeValue_ofJson` — a value is decoded from its tree;
* `View.members_ofJson`, `View.elements_ofJson` — the entries of an object's tree, and the items of
  an array's;
* `View.record_of_reads`, `View.list_of_forall`, `View.map_of_forall` — records, lists and maps are
  decoded from trees;
* `Json.sorted_sorted`, `Json.depth_sorted_le` — sorting.
-/

namespace InfraGraph

open Decode

namespace Json

/-! ## Depth -/

mutual

/-- How many arrays and objects of a value contain each other. -/
def depth : Json → Nat
  | arr items => depthOfItems items + 1
  | obj members => depthOfMembers members + 1
  | _ => 0

def depthOfItems : List Json → Nat
  | [] => 0
  | v :: rest => max (depth v) (depthOfItems rest)

def depthOfMembers : List (String × Json) → Nat
  | [] => 0
  | m :: rest => max (depth m.2) (depthOfMembers rest)

end

@[simp]
theorem depth_str (s : String) : (str s).depth = 0 := rfl

theorem depthOfItems_le_iff {items : List Json} {n : Nat} :
    depthOfItems items ≤ n ↔ ∀ v ∈ items, v.depth ≤ n := by
  induction items with
  | nil => simp [depthOfItems]
  | cons v rest ih => simp [depthOfItems, ih]

theorem depthOfMembers_le_iff {members : List (String × Json)} {n : Nat} :
    depthOfMembers members ≤ n ↔ ∀ m ∈ members, m.2.depth ≤ n := by
  induction members with
  | nil => simp [depthOfMembers]
  | cons m rest ih => simp only [depthOfMembers, Nat.max_le, ih, List.forall_mem_cons]

@[simp]
theorem depth_arr_le_iff {items : List Json} {n : Nat} :
    (arr items).depth ≤ n + 1 ↔ ∀ v ∈ items, v.depth ≤ n := by
  rw [depth, Nat.add_le_add_iff_right, depthOfItems_le_iff]

@[simp]
theorem depth_obj_le_iff {members : List (String × Json)} {n : Nat} :
    (obj members).depth ≤ n + 1 ↔ ∀ m ∈ members, m.2.depth ≤ n := by
  rw [depth, Nat.add_le_add_iff_right, depthOfMembers_le_iff]

/-! ## Room -/

namespace Source

/-- There is room for a number of levels; without a bound there always is. -/
def HasRoom (room : Option Nat) (levels : Nat) : Prop := ∀ n ∈ room, levels ≤ n

variable {room : Option Nat} {levels : Nat}

theorem hasRoom_none : HasRoom none levels := fun _ h => absurd h (by simp)

theorem hasRoom_some {n : Nat} (h : levels ≤ n) : HasRoom (some n) levels := by
  intro m hm
  rw [← Option.some.inj hm]
  exact h

theorem HasRoom.mono {fewer : Nat} (h : HasRoom room levels) (hle : fewer ≤ levels) :
    HasRoom room fewer :=
  fun n hn => Nat.le_trans hle (h n hn)

/-- Inside there is room for one level less. -/
theorem HasRoom.inside (h : HasRoom room (levels + 1)) :
    Source.inside room = pure (room.map Nat.pred) ∧ HasRoom (room.map Nat.pred) levels := by
  cases room with
  | none => exact ⟨rfl, hasRoom_none⟩
  | some n =>
      have hle : levels + 1 ≤ n := h n rfl
      cases n with
      | zero => omega
      | succ n => exact ⟨rfl, hasRoom_some (by simpa using hle)⟩

theorem HasRoom.of_mem_items {items : List Json} (h : HasRoom room (depthOfItems items)) {v : Json}
    (hv : v ∈ items) : HasRoom room v.depth :=
  h.mono (depthOfItems_le_iff.mp le_rfl v hv)

theorem HasRoom.of_mem_members {members : List (String × Json)}
    (h : HasRoom room (depthOfMembers members)) {m : String × Json} (hm : m ∈ members) :
    HasRoom room m.2.depth :=
  h.mono (depthOfMembers_le_iff.mp le_rfl m hm)

/-! ## Values from their trees -/

mutual

/-- A value is decoded from its tree. -/
theorem decodeValue_ofJson (room : Option Nat) : ∀ v : Json, HasRoom room v.depth →
    decodeValue room (ofJson v) = pure v
  | .null, _ => rfl
  | .bool _, _ => rfl
  | .int _, _ => rfl
  | .float _, _ => rfl
  | .str _, _ => rfl
  | .arr items, h => by
      -- the level that is entered is one of those that there is room for
      obtain ⟨hinside, hroom⟩ := HasRoom.inside h
      rw [ofJson, decodeValue, hinside, pure_bind, decodeItems_ofItems _ items hroom, pure_bind]
  | .obj members, h => by
      obtain ⟨hinside, hroom⟩ := HasRoom.inside h
      rw [ofJson, decodeValue, hinside, pure_bind, decodeMembers_ofMembers _ members hroom,
        pure_bind]

/-- Items are decoded as they are, as long as there is room for them. -/
theorem decodeItems_ofItems (room : Option Nat) : ∀ items : List Json,
    HasRoom room (depthOfItems items) → decodeItems room (ofItems items) = pure items
  | [], _ => rfl
  | v :: rest, h => by
      rw [ofItems, decodeItems, decodeValue_ofJson room v (h.mono (Nat.le_max_left _ _)),
        pure_bind, decodeItems_ofItems room rest (h.mono (Nat.le_max_right _ _)), pure_bind]

/-- Members are decoded as they are, as long as there is room for them. -/
theorem decodeMembers_ofMembers (room : Option Nat) : ∀ members : List (String × Json),
    HasRoom room (depthOfMembers members) → decodeMembers room (ofMembers members) = pure members
  | [], _ => rfl
  | m :: rest, h => by
      rw [ofMembers, decodeMembers, keyText, pure_bind,
        decodeValue_ofJson room m.2 (h.mono (Nat.le_max_left _ _)), pure_bind,
        decodeMembers_ofMembers room rest (h.mono (Nat.le_max_right _ _)), pure_bind]

end

/-! ## Trees of values -/

theorem ofItems_eq_map (items : List Json) : ofItems items = items.map ofJson := by
  induction items with
  | nil => rfl
  | cons v rest ih => rw [ofItems, ih, List.map_cons]

theorem ofMembers_eq_map (members : List (String × Json)) :
    ofMembers members = members.map fun m => (.ok m.1, ofJson m.2) := by
  induction members with
  | nil => rfl
  | cons m rest ih => rw [ofMembers, ih, List.map_cons]

mutual

/-- The tree of a value is well formed. -/
theorem isWhole_ofJson : ∀ v : Json, isWhole (ofJson v) = true
  | .null | .bool _ | .int _ | .float _ | .str _ => rfl
  | .arr items => itemsWhole_ofItems items
  | .obj members => membersWhole_ofMembers members

theorem itemsWhole_ofItems : ∀ items : List Json, itemsWhole (ofItems items) = true
  | [] => rfl
  | v :: rest => by rw [ofItems, itemsWhole, isWhole_ofJson v, itemsWhole_ofItems rest]; rfl

theorem membersWhole_ofMembers : ∀ members : List (String × Json),
    membersWhole (ofMembers members) = true
  | [] => rfl
  | m :: rest => by
      rw [ofMembers, membersWhole, isWhole_ofJson m.2, membersWhole_ofMembers rest]
      rfl

end

end Source

namespace View

variable {α : Type} {room : Option Nat} {levels : Nat}

/-- The members of an object as entries of a record. -/
def entriesOf (room : Option Nat) (members : List (String × Json)) : List (String × View) :=
  members.map fun m => (m.1, ⟨.ofJson m.2, room⟩)

/-- A member of an object is an entry of its tree. -/
theorem mem_entriesOf (name : String) {members : List (String × Json)} {v : Json}
    (h : (name, v) ∈ members) : (name, ⟨.ofJson v, room⟩) ∈ entriesOf room members :=
  List.mem_map.mpr ⟨_, h, rfl⟩

theorem keys_entriesOf (room : Option Nat) (members : List (String × Json)) :
    (entriesOf room members).map Prod.fst = members.map Prod.fst := by
  rw [entriesOf, List.map_map]
  rfl

/-- A text is read from the member that holds it. -/
theorem reads_text {members : List (String × Json)} {name s : String}
    (hkeys : ((entriesOf room members).map Prod.fst).Nodup) (h : (name, .str s) ∈ members) :
    (Fields.required name text).Reads [name] (entriesOf room members) s :=
  Fields.reads_required hkeys (mem_entriesOf name h) rfl

def memberIn (room : Option Nat) (m : String × Json) : Member View :=
  ⟨pure m.1, .key m.1, ⟨.ofJson m.2, room⟩⟩

/-- The entries of the tree of an object. -/
theorem members_ofJson (hroom : Source.HasRoom room (levels + 1)) (shape : Shape)
    (members : List (String × Json)) :
    Format.members shape (⟨.ofJson (.obj members), room⟩ : View) =
      pure (members.map (memberIn (room.map Nat.pred))) := by
  simp only [Format.members, View.members, Source.ofJson, hroom.inside.1, pure_bind,
    Source.ofMembers_eq_map, List.map_map]
  rfl

/-- The items of the tree of an array. -/
theorem elements_ofJson (hroom : Source.HasRoom room (levels + 1)) (items : List Json) :
    Format.elements (⟨.ofJson (.arr items), room⟩ : View) =
      pure (items.map fun v => (⟨.ofJson v, room.map Nat.pred⟩ : View)) := by
  simp only [Format.elements, View.elements, View.ofItems, Source.ofJson, hroom.inside.1,
    pure_bind, Source.ofItems_eq_map, List.map_map]
  rfl

/-- An object is decoded as a record that is read from its members. -/
theorem record_of_reads {name : String} {fields : Fields View α} {names : List String}
    {members : List (String × Json)} {a : α} (hroom : Source.HasRoom room (levels + 1))
    (h : fields.Reads names (entriesOf (room.map Nat.pred) members) a) :
    record name fields ⟨.ofJson (.obj members), room⟩ = pure a := by
  have hmembers : members.map (memberIn (room.map Nat.pred)) =
      (entriesOf (room.map Nat.pred) members).map fun e =>
        (⟨pure e.1, .key e.1, e.2⟩ : Member View) := by
    rw [entriesOf, List.map_map]
    rfl
  have hskip : ∀ e ∈ entriesOf (room.map Nat.pred) members, Format.skip e.2 = pure () := by
    intro e he
    obtain ⟨m, _, rfl⟩ := List.mem_map.mp he
    exact if_pos (Source.isWhole_ofJson m.2)
  have hread := Fields.ofMembers_of_reads (fun e => ⟨pure e.1, .key e.1, e.2⟩) h
    (fun _ => rfl) (fun _ => rfl) hskip
  have hentries := members_ofJson hroom (.record name) members
  simp only [record, Format.tuple?, View.tuple?, Source.ofJson] at hentries ⊢
  rw [hentries, pure_bind, hmembers, hread, Decoded.here_pure]

/-- An array is decoded item by item. -/
theorem list_of_forall {decode : View → Decoded α} {toJson : α → Json} {as : List α}
    (hroom : Source.HasRoom room (levels + 1))
    (h : ∀ a ∈ as, decode ⟨.ofJson (toJson a), room.map Nat.pred⟩ = pure a) :
    Decode.list decode ⟨.ofJson (.arr (as.map toJson)), room⟩ = pure as := by
  rw [Decode.list, elements_ofJson hroom, pure_bind, List.map_map]
  exact congrArg Decoded.here (listFrom_map h 0)

/-- An object is decoded as a map, member by member. -/
theorem map_of_forall {decode : View → Decoded α} (toJson : α → Json) {m : OrderedMap α}
    (hroom : Source.HasRoom room (levels + 1))
    (h : ∀ e ∈ m.entries, decode ⟨.ofJson (toJson e.2), room.map Nat.pred⟩ = pure e.2) :
    Decode.map decode ⟨.ofJson (.obj (m.entries.map fun e => (e.1, toJson e.2))), room⟩ =
      pure m := by
  have hentries : Decode.entries decode ((m.entries.map fun e => (e.1, toJson e.2)).map
      (memberIn (room.map Nat.pred))) = pure m.entries := by
    rw [List.map_map]
    exact entries_map (fun _ _ => rfl) h
  rw [Decode.map, members_ofJson hroom, pure_bind, hentries, pure_bind, OrderedMap.ofList_entries,
    Decoded.here_pure]

end View

/-! ## Sorting -/

/-- Members have their keys in order, each of them once. -/
def InOrder (members : List (String × Json)) : Prop :=
  members.Pairwise fun a b => compare a.1 b.1 = .lt

variable {key : String} {value : Json} {members : List (String × Json)}

/-- Putting a member in brings in no other one. -/
theorem mem_putMember {m : String × Json} (h : m ∈ putMember key value members) :
    m = (key, value) ∨ m ∈ members := by
  induction members with
  | nil => simpa [putMember] using h
  | cons first rest ih =>
      unfold putMember at h
      split at h
      · exact List.mem_cons.mp h
      · rcases List.mem_cons.mp h with h | h
        · exact Or.inl h
        · exact Or.inr (List.mem_cons_of_mem _ h)
      · rcases List.mem_cons.mp h with h | h
        · exact Or.inr (h ▸ List.mem_cons_self)
        · exact (ih h).imp_right fun hrest => List.mem_cons_of_mem _ hrest

/-- Members stay in order when one is put in. -/
theorem inOrder_putMember (h : InOrder members) : InOrder (putMember key value members) := by
  induction members with
  | nil => simp [putMember, InOrder]
  | cons first rest ih =>
      obtain ⟨hfirst, hrest⟩ := List.pairwise_cons.mp h
      unfold putMember
      -- the member goes in front, in the place of the first one, or further back
      split
      · next hlt =>
        refine List.pairwise_cons.mpr ⟨List.forall_mem_cons.mpr ⟨hlt, fun m hm => ?_⟩, h⟩
        exact Std.TransCmp.lt_trans hlt (hfirst m hm)
      · next heq =>
        refine List.pairwise_cons.mpr ⟨fun m hm => ?_, hrest⟩
        rw [Std.LawfulEqOrd.eq_of_compare heq]
        exact hfirst m hm
      · next hgt =>
        refine List.pairwise_cons.mpr ⟨fun m hm => ?_, ih hrest⟩
        rcases mem_putMember hm with rfl | hm
        · exact Std.OrientedCmp.lt_of_gt hgt
        · exact hfirst m hm

/-- A member whose key comes after all others goes to the end. -/
theorem putMember_eq_append (h : ∀ m ∈ members, compare m.1 key = .lt) :
    putMember key value members = members ++ [(key, value)] := by
  induction members with
  | nil => rfl
  | cons first rest ih =>
      obtain ⟨hfirst, hrest⟩ := List.forall_mem_cons.mp h
      rw [putMember, Std.OrientedCmp.gt_of_lt hfirst]
      simp only [ih hrest, List.cons_append]

/-- Members that are in order already are put in one behind the other. -/
theorem foldl_putMember_eq_append (sorted : List (String × Json))
    (h : InOrder (sorted ++ members)) :
    members.foldl (fun sorted m => putMember m.1 m.2 sorted) sorted = sorted ++ members := by
  induction members generalizing sorted with
  | nil => simp
  | cons m rest ih =>
      -- what is in order already all comes before the next member
      have hput : putMember m.1 m.2 sorted = sorted ++ [m] :=
        putMember_eq_append fun a ha => (List.pairwise_append.mp h).2.2 a ha m List.mem_cons_self
      rw [List.foldl_cons, hput, ih _ (by simpa using h)]
      simp

/-- Members that are in order stay as they are. -/
theorem sortMembers_eq_self (h : InOrder members) : sortMembers members = members :=
  foldl_putMember_eq_append [] h

/-- Sorted members are in order. -/
theorem inOrder_sortMembers (members : List (String × Json)) : InOrder (sortMembers members) := by
  have hfold : ∀ (members sorted : List (String × Json)), InOrder sorted →
      InOrder (members.foldl (fun sorted m => putMember m.1 m.2 sorted) sorted) := by
    intro members
    induction members with
    | nil => exact fun _ h => h
    | cons m rest ih => exact fun _ h => ih _ (inOrder_putMember h)
  exact hfold members [] List.Pairwise.nil

theorem mem_sortMembers {m : String × Json} (h : m ∈ sortMembers members) : m ∈ members := by
  have hfold : ∀ (members sorted : List (String × Json)),
      m ∈ members.foldl (fun sorted m => putMember m.1 m.2 sorted) sorted →
        m ∈ members ∨ m ∈ sorted := by
    intro members
    induction members with
    | nil => exact fun _ h => Or.inr h
    | cons first rest ih =>
        intro sorted h
        rcases ih _ h with h | h
        · exact Or.inl (List.mem_cons_of_mem _ h)
        · rcases mem_putMember h with rfl | h
          · exact Or.inl List.mem_cons_self
          · exact Or.inr h
  exact (hfold members [] h).resolve_right List.not_mem_nil

/-- Where the values are sorted already, sorting them changes nothing. -/
theorem sortedValues_eq_self (h : ∀ m ∈ members, m.2.sorted = m.2) :
    sortedValues members = members := by
  induction members with
  | nil => rfl
  | cons first rest ih =>
      obtain ⟨hfirst, hrest⟩ := List.forall_mem_cons.mp h
      rw [sortedValues, hfirst, ih hrest]

mutual

/-- Sorting a sorted value changes nothing. -/
theorem sorted_sorted : ∀ v : Json, v.sorted.sorted = v.sorted
  | null => rfl
  | bool _ => rfl
  | int _ => rfl
  | float _ => rfl
  | str _ => rfl
  | arr items => by rw [sorted, sorted, sortedItems_sortedItems items]
  | obj members => by
      have hvalues : ∀ m ∈ sortMembers (sortedValues members), m.2.sorted = m.2 := fun m hm =>
        sorted_of_mem_sortedValues members m (mem_sortMembers hm)
      rw [sorted, sorted, sortedValues_eq_self hvalues,
        sortMembers_eq_self (inOrder_sortMembers _)]

/-- Sorting twice is sorting once. -/
theorem sortedItems_sortedItems : ∀ items : List Json,
    sortedItems (sortedItems items) = sortedItems items
  | [] => rfl
  | v :: rest => by rw [sortedItems, sortedItems, sorted_sorted v, sortedItems_sortedItems rest]

theorem sorted_of_mem_sortedValues : ∀ (members : List (String × Json)),
    ∀ m ∈ sortedValues members, m.2.sorted = m.2
  | [], m, h => absurd h List.not_mem_nil
  | first :: rest, m, h => by
      rw [sortedValues, List.mem_cons] at h
      rcases h with rfl | h
      · exact sorted_sorted first.2
      · exact sorted_of_mem_sortedValues rest m h

end

/-- Sorting makes members no deeper. -/
theorem depthOfMembers_sortMembers_le (members : List (String × Json)) :
    depthOfMembers (sortMembers members) ≤ depthOfMembers members :=
  depthOfMembers_le_iff.mpr fun m hm => depthOfMembers_le_iff.mp le_rfl m (mem_sortMembers hm)

mutual

/-- Sorting does not make a value deeper. -/
theorem depth_sorted_le : ∀ v : Json, v.sorted.depth ≤ v.depth
  | null => le_rfl
  | bool _ => le_rfl
  | int _ => le_rfl
  | float _ => le_rfl
  | str _ => le_rfl
  | arr items => Nat.succ_le_succ (depthOfItems_sortedItems_le items)
  | obj members => Nat.succ_le_succ <|
      (depthOfMembers_sortMembers_le _).trans (depthOfMembers_sortedValues_le members)

theorem depthOfItems_sortedItems_le : ∀ items : List Json,
    depthOfItems (sortedItems items) ≤ depthOfItems items
  | [] => le_rfl
  | v :: rest => max_le_max (depth_sorted_le v) (depthOfItems_sortedItems_le rest)

theorem depthOfMembers_sortedValues_le : ∀ members : List (String × Json),
    depthOfMembers (sortedValues members) ≤ depthOfMembers members
  | [] => le_rfl
  | m :: rest => max_le_max (depth_sorted_le m.2) (depthOfMembers_sortedValues_le rest)

end

end Json
end InfraGraph
