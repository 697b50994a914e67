import InfraGraph.Proofs.Distinct
import InfraGraph.Proofs.Marker
import InfraGraph.Resource.Basic

/-!
# What an address tells

Resources refer to one another by text.  Where names have no dot, an address determines kind and
name; where kinds are a single word, or a word behind `data.`, an attribute determines the address
of the resource it belongs to.  Main statements:

* `Resource.kind_name_of_address_eq` — equal addresses have the same kind and name;
* `Resource.address_eq_of_attr_eq` — equal attributes belong to the same address;
* `Resource.label_eq_of_address_eq`, `Resource.nodup_addresses` — addresses are as good as labels.
-/

namespace InfraGraph

/-- Word in front of the kinds that are looked up and not created. -/
def lookupWord : String := "data"

/-- A kind is a word without a dot, or such a word behind `data.`. -/
def IsKind (kind : String) : Prop :=
  (¬ '.' ∈ kind.toList ∧ kind ≠ lookupWord) ∨
    ∃ word : String, ¬ '.' ∈ word.toList ∧ kind = lookupWord ++ "." ++ word

namespace Resource

/-- A resource that can be told from its address: its name has no dot and its kind is one. -/
structure Addressable (r : Resource) : Prop where
  name_free : ¬ '.' ∈ r.name.toList
  kind_plain : IsKind r.kind

theorem toList_address (r : Resource) :
    r.address.toList = r.kind.toList ++ '.' :: r.name.toList := by
  simp [address]

theorem toList_attr (r : Resource) (part : String) :
    (r.attr part).toList = r.kind.toList ++ '.' :: (r.name.toList ++ '.' :: part.toList) := by
  simp [attr, toList_address]

/-- Equal addresses have the same kind and name. -/
theorem kind_name_of_address_eq {r t : Resource} (hr : ¬ '.' ∈ r.name.toList)
    (ht : ¬ '.' ∈ t.name.toList) (h : r.address = t.address) :
    r.kind = t.kind ∧ r.name = t.name := by
  have hlist := congrArg String.toList h
  rw [toList_address, toList_address] at hlist
  -- names have no dot, so the last dot ends the kind
  rcases Marker.eq_of_append_cons_last hr ht hlist with ⟨hkind, hname⟩
  exact ⟨String.toList_injective hkind, String.toList_injective hname⟩

/-- An attribute of a plain kind is no attribute of a kind that is looked up. -/
theorem attr_ne_of_lookup {r t : Resource} {word part piece : String}
    (hr : ¬ '.' ∈ r.kind.toList) (hne : r.kind ≠ lookupWord)
    (ht : t.kind = lookupWord ++ "." ++ word) : r.attr part ≠ t.attr piece := by
  intro h
  have hlist := congrArg String.toList h
  rw [toList_attr, toList_attr, ht] at hlist
  -- the first dot of one ends its kind, that of the other the word in front of the kind
  have hsplit : r.kind.toList ++ '.' :: (r.name.toList ++ '.' :: part.toList) =
      lookupWord.toList ++ '.' ::
        (word.toList ++ '.' :: (t.name.toList ++ '.' :: piece.toList)) := by
    simpa using hlist
  exact hne (Marker.text_eq_of_append_cons hr (by decide) hsplit).1

/-- Equal attributes belong to the same address. -/
theorem address_eq_of_attr_eq {r t : Resource} {part piece : String} (hr : r.Addressable)
    (ht : t.Addressable) (h : r.attr part = t.attr piece) : r.address = t.address := by
  have hlist := congrArg String.toList h
  rw [toList_attr, toList_attr] at hlist
  apply String.toList_injective
  rw [toList_address, toList_address]
  -- kinds of one sort end at the same dot, and no attribute has kinds of both sorts
  rcases hr.kind_plain with ⟨hrk, hrne⟩ | ⟨rword, hrw, hrkind⟩
  · rcases ht.kind_plain with ⟨htk, _⟩ | ⟨tword, _, htkind⟩
    · rcases Marker.text_eq_of_append_cons hrk htk hlist with ⟨hkind, hrest⟩
      rcases Marker.text_eq_of_append_cons hr.name_free ht.name_free hrest with ⟨hname, _⟩
      rw [hkind, hname]
    · exact absurd h (attr_ne_of_lookup hrk hrne htkind)
  · rcases ht.kind_plain with ⟨htk, htne⟩ | ⟨tword, htw, htkind⟩
    · exact absurd h.symm (attr_ne_of_lookup htk htne hrkind)
    · rw [hrkind, htkind] at hlist ⊢
      have hwords : rword.toList ++ '.' :: (r.name.toList ++ '.' :: part.toList) =
          tword.toList ++ '.' :: (t.name.toList ++ '.' :: piece.toList) := by
        simpa using hlist
      rcases Marker.text_eq_of_append_cons hrw htw hwords with ⟨hword, hrest⟩
      rcases Marker.text_eq_of_append_cons hr.name_free ht.name_free hrest with ⟨hname, _⟩
      simp [hword, hname]

/-! ## Labels -/

def label (r : Resource) : String × String := (r.kind, r.name)

/-- An address tells the label. -/
theorem label_eq_of_address_eq {r t : Resource} (hr : r.Addressable) (ht : t.Addressable)
    (h : r.address = t.address) : r.label = t.label := by
  rcases kind_name_of_address_eq hr.name_free ht.name_free h with ⟨hkind, hname⟩
  exact Prod.ext hkind hname

/-- Resources with different labels have different addresses. -/
theorem nodup_addresses {rs : List Resource} (hplain : ∀ r ∈ rs, r.Addressable)
    (h : (rs.map label).Nodup) : (rs.map address).Nodup := by
  refine Distinct.nodup_map_of_key h fun r hr t ht he => ?_
  exact label_eq_of_address_eq (hplain r hr) (hplain t ht) he

end Resource
end InfraGraph
