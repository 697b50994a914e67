import InfraGraph.Proofs.Decode.ReadsBack
import InfraGraph.Schema.Decode
import InfraGraph.Schema.Encode

/-!
# Declarations are read back from their JSON form

A declaration is one flat object: kind and fields of its resource stand beside its level and its
source.  A reader takes level and source as it meets them and holds everything else back, so what is
held back is the resource, in whatever order the members stand.  Main statements:

* `Declaration.defaults` — a source may be left out;
* `Decode.heldResource_members` — what is held back is read as the resource;
* `Declaration.readsBack` — a declaration is read back.
-/

namespace InfraGraph

open Decode Json Json.Source

namespace Declaration

/-- Only the source of a declaration may be missing. -/
def defaults : Defaults := .record [("source", .null, .none)]

end Declaration

namespace DeclaredResource

/-- Kind and fields of a resource, as members of a declaration. -/
def flattened (r : DeclaredResource) : List (String × Json) :=
  ("kind", .str r.kind.text) :: r.members

/-- They are texts, and none of them is named as a member of the declaration itself. -/
theorem flattened_forall (r : DeclaredResource) :
    ∀ m ∈ r.flattened, (∃ s, m.2 = .str s) ∧ m.1 ≠ "level" ∧ m.1 ≠ "source" := by
  cases r <;> simp [flattened, members]

end DeclaredResource

namespace Decode

variable {room : Option Nat}

/-- What is held back is read as the resource. -/
theorem heldResource_members (r : DeclaredResource) :
    heldResource (r.flattened.map fun m => (m.1, found m.2)) = pure r := by
  cases r <;> rfl

namespace DeclarationSlots

/-- Texts that are neither level nor source are held back. -/
theorem takeMembers_held {slots : DeclarationSlots} {held : List (String × Json)}
    {rest : List (Member View)}
    (h : ∀ m ∈ held, (∃ s, m.2 = .str s) ∧ m.1 ≠ "level" ∧ m.1 ≠ "source") :
    slots.takeMembers (held.map (View.memberIn room) ++ rest) =
      takeMembers { slots with held := slots.held ++ held.map fun m => (m.1, found m.2) } rest := by
  induction held generalizing slots with
  | nil => simp
  | cons m others ih =>
      rcases List.forall_mem_cons.mp h with ⟨⟨⟨s, hs⟩, hlevel, hsource⟩, hrest⟩
      have htake : slots.take m.1 (⟨.ofJson m.2, room⟩ : View) =
          pure { slots with held := slots.held ++ [(m.1, found m.2)] } := by
        rw [take, if_neg hlevel, if_neg hsource, hs]
        rfl
      simp only [List.map_cons, List.cons_append, takeMembers, View.memberIn, pure_bind]
      rw [htake, Decoded.under_pure, pure_bind]
      refine (ih hrest).trans ?_
      simp

end DeclarationSlots
end Decode

namespace Declaration

variable {d : Declaration} {chosen : List Step → Bool} {room : Option Nat}

/-- Members of a declaration, with its source or without. -/
def keptMembers (d : Declaration) (source : Bool) : List (String × Json) :=
  d.resource.flattened ++ ("level", .str d.level.text) ::
    if source then [("source", .optional d.source)] else []

theorem toJson_eq (d : Declaration) : d.toJson = .obj (d.keptMembers true) := rfl

theorem nodup_keys (d : Declaration) : ((d.keptMembers true).map Prod.fst).Nodup := by
  unfold keptMembers
  cases d.resource <;> simp [DeclaredResource.flattened, DeclaredResource.members]

/-- Of the members at most the source is left out. -/
theorem membersWithout_keptMembers (h : defaults.Permits chosen d.toJson) :
    membersWithout chosen (d.keptMembers true) = d.keptMembers !chosen [.key "source"] := by
  have hchosen : ∀ m ∈ d.keptMembers true, m.1 ≠ "source" → chosen [.key m.1] = false := by
    intro m hm hsource
    refine Bool.eq_false_iff.mpr fun hchosen => ?_
    have hdefault := h.eq_some (child?_of_mem d.nodup_keys hm) hchosen
    simp [defaults, Defaults.record, Entries.get?, hsource.symm] at hdefault
  have hflattened : membersWithout chosen d.resource.flattened = d.resource.flattened := by
    rw [membersWithout_eq_map fun m hm => hchosen m (List.mem_append_left _ hm)
      (d.resource.flattened_forall m hm).2.2]
    refine (List.map_congr_left fun m hm => ?_).trans (List.map_id _)
    rcases (d.resource.flattened_forall m hm).1 with ⟨s, hs⟩
    rw [hs, without_str, ← hs, id]
  have hlevel : chosen [.key "level"] = false :=
    hchosen ("level", .str d.level.text) (by simp [keptMembers]) (by simp)
  unfold keptMembers
  rw [membersWithout_append, hflattened]
  cases hsource : chosen [.key "source"] <;> simp [membersWithout, hlevel, hsource]

/-- The members are read as the declaration, where a source that is left out was absent. -/
theorem takeMembers_keptMembers (d : Declaration) (source : Bool) (room : Option Nat) :
    DeclarationSlots.takeMembers ⟨none, none, []⟩
        ((d.keptMembers source).map (View.memberIn room)) =
      pure ⟨some d.level, if source then some d.source else none,
        d.resource.flattened.map fun m => (m.1, found m.2)⟩ := by
  rw [keptMembers, List.map_append,
    DeclarationSlots.takeMembers_held d.resource.flattened_forall]
  rcases d with ⟨resource, level, location⟩
  cases source <;> cases level <;> cases location <;> rfl

/-- A declaration is read back from its JSON form. -/
theorem readsBack (d : Declaration) : ReadsBack declaration defaults 1 d.toJson d := by
  intro chosen room hpermits hroom
  have hmembers : Format.members (.record "PermissionDeclaration")
      (⟨.ofJson (d.toJson.without chosen), room⟩ : View) =
        pure ((d.keptMembers !chosen [.key "source"]).map
          (View.memberIn (room.map Nat.pred))) := by
    rw [toJson_eq, without, membersWithout_keptMembers hpermits, View.members_ofJson hroom]
  have hsource : (if (!chosen [.key "source"]) = true then some d.source else none).getD none =
      d.source := by
    cases hchosen : chosen [.key "source"] with
    | false => rfl
    | true =>
        -- a source that is left out holds its default
        have hmember : ("source", .optional d.source) ∈ d.keptMembers true := by
          simp [keptMembers]
        have hdefault := hpermits.eq_some (child?_of_mem d.nodup_keys hmember) hchosen
        cases hsource : d.source with
        | none => rfl
        | some s =>
            simp [defaults, Defaults.record, Entries.get?, hsource, Json.optional] at hdefault
  rw [declaration, hmembers, pure_bind, takeMembers_keptMembers, pure_bind,
    DeclarationSlots.finish]
  simp only [heldResource_members, pure_bind, hsource, Decoded.here_pure]

/-- A declaration holds texts only. -/
theorem isExact_toJson (d : Declaration) : d.toJson.IsExact := by
  have hflattened : ∀ m ∈ d.resource.flattened, m.2.IsExact := by
    intro m hm
    rcases (d.resource.flattened_forall m hm).1 with ⟨s, hs⟩
    rw [hs]
    trivial
  have hsource : (Json.optional d.source).IsExact := by
    cases d.source <;> trivial
  rw [toJson_eq, isExact_obj_iff, keptMembers]
  refine List.forall_mem_append.mpr ⟨hflattened, ?_⟩
  simp [hsource]

end Declaration
end InfraGraph
