import InfraGraph.Proofs.Json.Omission

/-!
# What is read back from its JSON form

A decoder reads a value back from a JSON form if it does so whichever members are left out that hold
their default.  This is said of one part of a form at a time: of scalars, of lists and maps of parts
that are read back, and of records whose fields are.  Main statements:

* `Json.ReadsBack` — a decoder reads a value back from a form with defaults;
* `ReadsBack.text`, `ReadsBack.name`, `ReadsBack.natural32` — scalars;
* `ReadsBack.optional_some`, `ReadsBack.list`, `ReadsBack.map` — what may be absent, lists and maps;
* `Fields.ReadsBack`, `ReadsBack.record` — records, field by field.
-/

namespace InfraGraph

open Decode Json Json.Source

namespace Json

variable {α β : Type}

/-- A decoder reads a value back from a form of some depth, whichever members are left out that hold
their default. -/
def ReadsBack (decode : View → Decoded α) (defaults : Defaults) (levels : Nat) (v : Json) (a : α) :
    Prop :=
  ∀ chosen room, defaults.Permits chosen v → HasRoom room levels →
    decode ⟨.ofJson (v.without chosen), room⟩ = pure a

namespace ReadsBack

variable {decode : View → Decoded α} {defaults : Defaults} {levels : Nat} {v : Json} {a : α}

/-- A form of some depth is also one of a greater depth. -/
theorem mono {more : Nat} (h : ReadsBack decode defaults levels v a) (hle : levels ≤ more) :
    ReadsBack decode defaults more v a :=
  fun chosen room hpermits hroom => h chosen room hpermits (hroom.mono hle)

/-! ## Scalars -/

theorem text (s : String) : ReadsBack Format.text defaults levels (.str s) s :=
  fun _ _ _ _ => rfl

theorem flag (b : Bool) : ReadsBack Format.flag defaults levels (.bool b) b :=
  fun _ _ _ _ => rfl

/-- One of several names. -/
theorem name {names : List (String × α)} {s : String} (h : Entries.get? s names = some a) :
    ReadsBack (Format.name names) defaults levels (.str s) a := by
  intro chosen room _ _
  show (lookupName names s >>= fun a => pure a) = pure a
  rw [lookupName, h]
  rfl

/-- A 32-bit number is within its own bounds. -/
theorem natural32 (n : UInt32) :
    ReadsBack Format.natural32 defaults levels (.int n.toNat) n := by
  intro chosen room _ _
  have hbounds : (0 : Int) ≤ n.toNat ∧ (n.toNat : Int) ≤ UInt32.size - 1 := by
    have := n.toNat_lt_size
    omega
  simp only [Format.natural32, View.natural32, View.integer, without, Source.ofJson,
    if_pos hbounds, pure_bind, Int.toNat_natCast, UInt32.ofNat_toNat]

/-! ## What may be absent -/

theorem optional_null : ReadsBack (Decode.optional decode) defaults levels .null none :=
  fun _ _ _ _ => rfl

/-- What is there is an object or a text, so it is not taken for absent. -/
theorem optional_some (h : ReadsBack decode defaults levels v a)
    (hv : (∃ s, v = .str s) ∨ ∃ members, v = .obj members) :
    ReadsBack (Decode.optional decode) defaults levels v (some a) := by
  intro chosen room hpermits hroom
  have hdecode := h chosen room hpermits hroom
  have hpresent : Format.present (⟨.ofJson (v.without chosen), room⟩ : View) =
      pure (some ⟨.ofJson (v.without chosen), room⟩) := by
    rcases hv with ⟨s, rfl⟩ | ⟨members, rfl⟩ <;> rfl
  rw [Decode.optional, hpresent, pure_bind]
  simp only [hdecode, pure_bind]

theorem optional_text (o : Option String) :
    ReadsBack (Decode.optional Format.text) defaults levels (Json.optional o) o := by
  cases o with
  | none => exact optional_null
  | some s => exact optional_some (text s) (.inl ⟨s, rfl⟩)

/-! ## Lists and maps -/

/-- Of each item other members may be left out, since items are told apart by their places. -/
theorem listFrom_itemsWithout {chosen : List Step → Bool} {room : Option Nat} {toJson : α → Json}
    {as : List α} {n : Nat}
    (h : ∀ i a, as[i]? = some a → decode ⟨.ofJson ((toJson a).without
      (beneath chosen (.index (n + i)))), room⟩ = pure a) :
    listFrom decode n ((itemsWithout chosen n (as.map toJson)).map fun v =>
      (⟨.ofJson v, room⟩ : View)) = pure as := by
  induction as generalizing n with
  | nil => rfl
  | cons a rest ih =>
      have hfirst := h 0 a rfl
      have hrest := ih (n := n + 1) fun i b hb => by
        simpa only [Nat.add_assoc, Nat.add_comm 1] using h (i + 1) b hb
      simp only [Nat.add_zero] at hfirst
      simp only [List.map_cons, itemsWithout, listFrom]
      rw [hfirst, Decoded.under_pure, pure_bind, hrest, pure_bind]

/-- A list is read back where its items are. -/
theorem list {toJson : α → Json} {as : List α}
    (h : ∀ a ∈ as, ReadsBack decode defaults levels (toJson a) a) :
    ReadsBack (Decode.list decode) (.each defaults) (levels + 1) (.arr (as.map toJson)) as := by
  intro chosen room hpermits hroom
  have hitems : ∀ i a, as[i]? = some a → decode ⟨.ofJson ((toJson a).without
      (beneath chosen (.index (0 + i)))), room.map Nat.pred⟩ = pure a := by
    intro i a ha
    rw [Nat.zero_add]
    exact h a (List.mem_of_getElem? ha) _ _
      (hpermits.beneath (by simp [child?, ha]) fun _ _ => rfl) hroom.inside.2
  rw [without, Decode.list, View.elements_ofJson hroom, pure_bind, listFrom_itemsWithout hitems,
    Decoded.here_pure]

/-- No entry of a map has a default, so all of them are there. -/
theorem map {toJson : α → Json} {m : OrderedMap α}
    (h : ∀ e ∈ m.entries, ReadsBack decode defaults levels (toJson e.2) e.2) :
    ReadsBack (Decode.map decode) (.each defaults) (levels + 1)
      (.obj (m.entries.map fun e => (e.1, toJson e.2))) m := by
  intro chosen room hpermits hroom
  have hchild : ∀ e ∈ m.entries, child? (.key e.1)
      (.obj (m.entries.map fun e => (e.1, toJson e.2))) = some (toJson e.2) := by
    intro e he
    refine child?_of_mem ?_ (List.mem_map.mpr ⟨e, he, rfl⟩)
    simpa [Function.comp_def] using m.distinct
  have hkept : ∀ member ∈ m.entries.map fun e => (e.1, toJson e.2),
      chosen [.key member.1] = false := by
    refine List.forall_mem_map.mpr fun e he => Bool.eq_false_iff.mpr fun hchosen => ?_
    simpa [Defaults.each] using hpermits.eq_some (hchild e he) hchosen
  have hvalues : ∀ e ∈ m.entries, decode ⟨.ofJson ((toJson e.2).without
      (beneath chosen (.key e.1))), room.map Nat.pred⟩ = pure e.2 := fun e he =>
    h e he _ _ (hpermits.beneath (hchild e he) fun _ _ => rfl) hroom.inside.2
  have hentries : Decode.entries decode ((membersWithout chosen (m.entries.map fun e =>
      (e.1, toJson e.2))).map (View.memberIn (room.map Nat.pred))) = pure m.entries := by
    rw [membersWithout_eq_map hkept, List.map_map, List.map_map]
    exact entries_map (fun _ _ => rfl) hvalues
  rw [without, Decode.map, View.members_ofJson hroom, pure_bind, hentries, pure_bind,
    OrderedMap.ofList_entries, Decoded.here_pure]

end ReadsBack
end Json

/-! ## Records -/

namespace Decode
namespace Fields

variable {α β : Type}

/-- Fields are read back from members with names of their own, whichever are left out that hold
their default. -/
def ReadsBack (fields : Fields View α) (names : List String)
    (defaults : List (String × Json × Defaults)) (levels : Nat) (members : List (String × Json))
    (a : α) : Prop :=
  (members.map Prod.fst).Nodup → ∀ chosen room,
    (Defaults.record defaults).Permits chosen (.obj members) → HasRoom room levels →
      fields.Reads names (View.entriesOf room (membersWithout chosen members)) a

namespace ReadsBack

variable {fields : Fields View α} {names : List String}
  {defaults : List (String × Json × Defaults)} {levels : Nat} {members : List (String × Json)}
  {name : String} {decode : View → Decoded α} {v : Json} {a : α}

/-- Members that are left in have keys of their own. -/
theorem nodup_entriesOf (hkeys : (members.map Prod.fst).Nodup) (chosen : List Step → Bool)
    (room : Option Nat) :
    ((View.entriesOf room (membersWithout chosen members)).map Prod.fst).Nodup := by
  rw [View.keys_entriesOf]
  exact hkeys.sublist (keys_membersWithout_sublist chosen members)

/-- A field without a default is there. -/
theorem required (hmember : (name, v) ∈ members)
    (hname : Entries.get? name defaults = none)
    (h : Json.ReadsBack decode .none levels v a) :
    (Fields.required name decode).ReadsBack [name] defaults levels members a := by
  intro hkeys chosen room hpermits hroom
  have hchild := child?_of_mem hkeys hmember
  have hchosen : chosen [.key name] = false := Bool.eq_false_iff.mpr fun hchosen => by
    simpa [Defaults.record, hname] using hpermits.eq_some hchild hchosen
  have hinner : Defaults.none.Permits (beneath chosen (.key name)) v :=
    hpermits.beneath hchild fun _ _ => by simp [Defaults.record, hname, Defaults.none]
  exact reads_required (nodup_entriesOf hkeys chosen room)
    (View.mem_entriesOf name (mem_membersWithout_of_mem hmember hchosen)) (h _ _ hinner hroom)

/-- A field that is missing had its default. -/
theorem withDefault {inner : Defaults} {held : Json} {default : α}
    (hmember : (name, v) ∈ members)
    (hname : Entries.get? name defaults = some (held, inner))
    (h : Json.ReadsBack decode inner levels v a) (hdefault : v = held → a = default) :
    (Fields.withDefault name default decode).ReadsBack [name] defaults levels members a := by
  intro hkeys chosen room hpermits hroom
  have hchild := child?_of_mem hkeys hmember
  cases hchosen : chosen [.key name] with
  | true =>
      have hheld : held = v := by
        simpa [Defaults.record, hname] using hpermits.eq_some hchild hchosen
      have hmissing : ¬name ∈ (View.entriesOf room (membersWithout chosen members)).map Prod.fst :=
        by
          rw [View.keys_entriesOf]
          intro hmem
          rcases List.mem_map.mp hmem with ⟨m, hm, rfl⟩
          rcases mem_membersWithout hm with ⟨_, _, hkept, _⟩
          rw [hchosen] at hkept
          cases hkept
      rw [hdefault hheld.symm]
      exact reads_default hmissing default
  | false =>
      have hinner : inner.Permits (beneath chosen (.key name)) v :=
        hpermits.beneath hchild fun _ _ => by simp [Defaults.record, hname]
      exact reads_withDefault (nodup_entriesOf hkeys chosen room)
        (View.mem_entriesOf name (mem_membersWithout_of_mem hmember hchosen)) (h _ _ hinner hroom)
        default

/-- What is made of the fields is read back with them. -/
theorem map (h : fields.ReadsBack names defaults levels members a) (f : α → β) :
    (f <$> fields).ReadsBack names defaults levels members (f a) :=
  fun hkeys chosen room hpermits hroom => (h hkeys chosen room hpermits hroom).map f

/-- Fields read one after the other are read back where their names differ. -/
theorem seq {first : Fields View (α → β)} {x : Fields View α} {f : α → β} {more : List String}
    (hfirst : first.ReadsBack names defaults levels members f)
    (hx : x.ReadsBack more defaults levels members a) (hapart : ∀ name ∈ more, ¬name ∈ names) :
    (first <*> x).ReadsBack (names ++ more) defaults levels members (f a) :=
  fun hkeys chosen room hpermits hroom =>
    (hfirst hkeys chosen room hpermits hroom).seq (hx hkeys chosen room hpermits hroom) hapart

end ReadsBack
end Fields
end Decode

/-- A record is read back where its fields are. -/
theorem Json.ReadsBack.record {α : Type} {name : String} {fields : Fields View α}
    {names : List String} {defaults : List (String × Json × Defaults)} {levels : Nat}
    {members : List (String × Json)} {a : α}
    (hkeys : (members.map Prod.fst).Nodup) (h : fields.ReadsBack names defaults levels members a) :
    ReadsBack (Decode.record name fields) (.record defaults) (levels + 1) (.obj members) a :=
  fun chosen _ hpermits hroom =>
    View.record_of_reads hroom (h hkeys chosen _ hpermits hroom.inside.2)

end InfraGraph
