/-!
# Texts around a marker

Addresses, paths and entity ids are made by writing texts one behind the other with a marker
between them.  A marker that stands in only one of the two texts can be found again:

* `eq_of_append_cons_last` — a marker that the text behind it lacks;
* `eq_of_append_cons_first`, `text_eq_of_append_cons`, `texts_eq_of_between` — a marker that the
  text in front of it lacks;
* `subset_of_append_eq` — a list without the marker, in front of others;
* `takeWhile_of_boundary`, `dropWhile_of_boundary` — a list that is split where something unwanted
  stands.
-/

namespace InfraGraph
namespace Marker

variable {α : Type} {m : α} {xs ys us vs : List α}

/-- The last marker splits a list in one way. -/
theorem eq_of_append_cons_last (hy : ¬m ∈ ys) (hv : ¬m ∈ vs)
    (h : xs ++ m :: ys = us ++ m :: vs) : xs = us ∧ ys = vs := by
  rcases List.append_eq_append_iff.mp h with ⟨zs, hu, htail⟩ | ⟨zs, hx, htail⟩
  · cases zs with
    | nil => exact ⟨by simpa using hu.symm, by simpa using htail⟩
    | cons z zs =>
        -- otherwise the marker of one side stands behind that of the other
        have hys : ys = zs ++ m :: vs := by simpa using (List.cons.inj htail).2
        exact absurd (by simp [hys]) hy
  · cases zs with
    | nil => exact ⟨by simpa using hx, by simpa using htail.symm⟩
    | cons z zs =>
        have hvs : vs = zs ++ m :: ys := by simpa using (List.cons.inj htail).2
        exact absurd (by simp [hvs]) hv

/-- The first marker splits a list in one way. -/
theorem eq_of_append_cons_first (hx : ¬m ∈ xs) (hu : ¬m ∈ us)
    (h : xs ++ m :: ys = us ++ m :: vs) : xs = us ∧ ys = vs := by
  -- read backwards, the first marker is the last one
  have hreverse : ys.reverse ++ m :: xs.reverse = vs.reverse ++ m :: us.reverse := by
    simpa using congrArg List.reverse h
  rcases eq_of_append_cons_last (by simpa using hx) (by simpa using hu) hreverse with ⟨hys, hxs⟩
  exact ⟨List.reverse_inj.mp hxs, List.reverse_inj.mp hys⟩

/-- A text that lacks the marker ends at the first one. -/
theorem text_eq_of_append_cons {s t : String} {c : Char} {cs ds : List Char}
    (hs : ¬c ∈ s.toList) (ht : ¬c ∈ t.toList) (h : s.toList ++ c :: cs = t.toList ++ c :: ds) :
    s = t ∧ cs = ds := by
  rcases eq_of_append_cons_first hs ht h with ⟨htext, hrest⟩
  exact ⟨String.toList_injective htext, hrest⟩

/-- Two texts on either side of one that begins with a marker, of which the first lacks it. -/
theorem texts_eq_of_between {front middle s t u v : String} {c : Char} {cs : List Char}
    (hmiddle : middle.toList = c :: cs) (hs : ¬c ∈ s.toList) (ht : ¬c ∈ t.toList)
    (h : front ++ s ++ middle ++ u = front ++ t ++ middle ++ v) : s = t ∧ u = v := by
  have hlist := congrArg String.toList h
  simp only [String.toList_append, List.append_assoc, List.append_right_inj, hmiddle,
    List.cons_append] at hlist
  rcases text_eq_of_append_cons hs ht hlist with ⟨htext, hrest⟩
  exact ⟨htext, String.toList_injective (List.append_cancel_left hrest)⟩

/-- A list in front that lacks the marker stands in front of the marker. -/
theorem subset_of_append_eq (hx : ¬m ∈ xs) (h : xs ++ ys = us ++ m :: vs) : xs ⊆ us := by
  rcases List.append_eq_append_iff.mp h with ⟨zs, rfl, _⟩ | ⟨zs, rfl, htail⟩
  · exact List.subset_append_left _ _
  · cases zs with
    | nil => simp
    | cons z zs =>
        have hz : m = z := (List.cons.inj htail).1
        exact absurd (by simp [hz]) hx

/-! ## Splitting at a boundary -/

section Boundary

variable {p : α → Bool}

/-- What is wanted reaches as far as the first that is not. -/
theorem takeWhile_of_boundary (hx : ∀ x ∈ xs, p x = true) (hy : ∀ y ∈ ys.head?, p y = false) :
    (xs ++ ys).takeWhile p = xs := by
  rw [List.takeWhile_append_of_pos hx]
  cases ys with
  | nil => simp
  | cons y ys => simp [hy y rfl]

/-- What begins at a boundary is what is left behind it. -/
theorem dropWhile_of_boundary (hx : ∀ x ∈ xs, p x = true) (hy : ∀ y ∈ ys.head?, p y = false) :
    (xs ++ ys).dropWhile p = ys := by
  rw [List.dropWhile_append_of_pos hx]
  cases ys with
  | nil => rfl
  | cons y ys => simp [hy y rfl]

end Boundary
end Marker
end InfraGraph
