import Mathlib.Data.List.Forall2
import Mathlib.Data.List.Nodup
import Mathlib.Data.List.Pairwise

/-!
# Lists whose elements are told apart by a key

* `nodup_map_of_key` — a function that tells the key leaves the elements distinct;
* `eq_of_mem_flatMap` — what occurs once in a list of lists tells the list that it is in;
* `filter_eq_singleton` — what occurs once is all that a test for it leaves;
* `exists_of_forall₂`, `exists_split_of_forall₂`, `forall₂_iff_map_eq`, `exists_forall₂` — partners
  in related lists;
* `nodup_flatMap_named`, `nodup_flatMap_kinds` — naming a few things for each element leaves them
  distinct, where each of the things tells the element from its name.
-/

namespace InfraGraph
namespace Distinct

variable {α β γ δ : Type}

/-- Where keys are distinct, so are values that tell the key. -/
theorem nodup_map_of_key {xs : List α} {key : α → β} {value : α → γ} (h : (xs.map key).Nodup)
    (htells : ∀ a ∈ xs, ∀ b ∈ xs, value a = value b → key a = key b) : (xs.map value).Nodup := by
  refine List.Nodup.map_on ?_ (List.Nodup.of_map key h)
  intro a ha b hb hab
  exact List.inj_on_of_nodup_map h ha hb (htells a ha b hb hab)

/-- What occurs once in a list of lists tells the list that it is in. -/
theorem eq_of_mem_flatMap {xs : List α} {f : α → List β} (h : (xs.flatMap f).Nodup) {a b : α}
    {c : β} (ha : a ∈ xs) (hb : b ∈ xs) (hca : c ∈ f a) (hcb : c ∈ f b) : a = b := by
  have hsymm : Std.Symm (Function.onFun List.Disjoint f) := ⟨fun _ _ hd _ hx hy => hd hy hx⟩
  by_contra hne
  exact (List.nodup_flatMap.mp h).2.forall ha hb hne hca hcb

/-- What occurs once is all that a test for it leaves. -/
theorem filter_eq_singleton {xs : List α} {test : α → Bool} {a : α} (h : xs.Nodup) (ha : a ∈ xs)
    (htest : ∀ b ∈ xs, test b = true ↔ b = a) : xs.filter test = [a] := by
  refine List.perm_singleton.mp ?_
  refine (List.perm_ext_iff_of_nodup (h.filter test) (List.nodup_singleton a)).mpr fun b => ?_
  rw [List.mem_filter, List.mem_singleton]
  constructor
  · rintro ⟨hb, hbtest⟩
    exact (htest b hb).mp hbtest
  · rintro rfl
    exact ⟨ha, (htest b ha).mpr rfl⟩

/-- Elements of related lists have partners on the other side. -/
theorem exists_of_forall₂ {R : α → β → Prop} {xs : List α} {ys : List β}
    (h : List.Forall₂ R xs ys) : (∀ a ∈ xs, ∃ b ∈ ys, R a b) ∧ ∀ b ∈ ys, ∃ a ∈ xs, R a b := by
  induction h with
  | nil => simp
  | cons hab _ ih =>
      obtain ⟨hleft, hright⟩ := ih
      refine ⟨List.forall_mem_cons.mpr ⟨⟨_, List.mem_cons_self, hab⟩, fun c hc => ?_⟩,
        List.forall_mem_cons.mpr ⟨⟨_, List.mem_cons_self, hab⟩, fun d hd => ?_⟩⟩
      · obtain ⟨d, hd, hcd⟩ := hleft c hc
        exact ⟨d, List.mem_cons_of_mem _ hd, hcd⟩
      · obtain ⟨c, hc, hcd⟩ := hright d hd
        exact ⟨c, List.mem_cons_of_mem _ hc, hcd⟩

/-- Related lists split at an element and its partner. -/
theorem exists_split_of_forall₂ {R : α → β → Prop} {xs : List α} {ys : List β}
    (h : List.Forall₂ R xs ys) {a : α} (ha : a ∈ xs) :
    ∃ before after before' b after', xs = before ++ a :: after ∧ ys = before' ++ b :: after' ∧
      List.Forall₂ R before before' ∧ R a b ∧ List.Forall₂ R after after' := by
  induction h with
  | nil => cases ha
  | cons hcd hrest ih =>
      rcases List.mem_cons.mp ha with rfl | ha
      · exact ⟨[], _, [], _, _, rfl, rfl, .nil, hcd, hrest⟩
      · obtain ⟨before, after, before', b, after', rfl, rfl, hbefore, hab, hafter⟩ := ih ha
        exact ⟨_ :: before, after, _ :: before', b, after', rfl, rfl, .cons hcd hbefore, hab,
          hafter⟩

/-- Partners have the same value iff the lists have the same values. -/
theorem forall₂_iff_map_eq {xs : List α} {ys : List β} {f : α → γ} {g : β → γ} :
    List.Forall₂ (fun a b => f a = g b) xs ys ↔ xs.map f = ys.map g := by
  rw [← List.forall₂_eq_eq_eq, List.forall₂_map_left_iff, List.forall₂_map_right_iff]

/-- Where partners have the same value, related lists have the same values. -/
theorem map_eq_of_forall₂ {xs : List α} {ys : List β} {f : α → γ} {g : β → γ}
    (h : List.Forall₂ (fun a b => f a = g b) xs ys) : xs.map f = ys.map g :=
  forall₂_iff_map_eq.mp h

/-- Where each element has a partner, a list is related to a list of partners. -/
theorem exists_forall₂ {R : α → β → Prop} {xs : List α} (h : ∀ a ∈ xs, ∃ b, R a b) :
    ∃ ys, List.Forall₂ R xs ys := by
  induction xs with
  | nil => exact ⟨[], .nil⟩
  | cons a rest ih =>
      obtain ⟨⟨b, hab⟩, hrest⟩ := List.forall_mem_cons.mp h
      obtain ⟨ys, hys⟩ := ih hrest
      exact ⟨b :: ys, .cons hab hys⟩

/-- Things of distinct kinds, each named after the element it belongs to. -/
theorem nodup_flatMap_named {xs : List α} {things : List β} (kind : β → δ) (name : β → α → γ)
    (hxs : xs.Nodup) (hkinds : (things.map kind).Nodup)
    (hnames : ∀ t ∈ things, ∀ a ∈ xs, ∀ b ∈ xs, name t a = name t b → a = b) :
    (xs.flatMap fun a => things.map fun t => (kind t, name t a)).Nodup := by
  rw [List.nodup_flatMap]
  constructor
  · intro a _
    exact nodup_map_of_key hkinds fun t _ u _ he => (Prod.mk.inj he).1
  · refine hxs.pairwise_of_forall_ne ?_
    intro a ha b hb hne pair hpa hpb
    rcases List.mem_map.mp hpa with ⟨t, ht, rfl⟩
    rcases List.mem_map.mp hpb with ⟨u, hu, he⟩
    rcases Prod.mk.inj he with ⟨hkind, hname⟩
    -- of one kind there is one thing, so the names are those of the same thing
    rw [List.inj_on_of_nodup_map hkinds hu ht hkind] at hname
    exact hne (hnames t ht b hb a ha hname).symm

/-- The same for kinds, where all things of an element bear one name. -/
theorem nodup_flatMap_kinds {xs : List α} {kinds : List δ} {name : α → γ} (hxs : xs.Nodup)
    (hkinds : kinds.Nodup) (hnames : ∀ a ∈ xs, ∀ b ∈ xs, name a = name b → a = b) :
    (xs.flatMap fun a => kinds.map fun k => (k, name a)).Nodup := by
  have hself : (kinds.map fun k => k).Nodup := by
    rw [List.map_id']
    exact hkinds
  exact nodup_flatMap_named (fun k => k) (fun _ => name) hxs hself fun _ _ => hnames

end Distinct
end InfraGraph
