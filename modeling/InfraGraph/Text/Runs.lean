/-!
# Runs — maximal blocks of characters of one kind

Identifiers are made of the alphanumeric runs of a text, and paths of the runs between slashes.
Both are instances of one function:

* `runs p cs` — the maximal blocks of consecutive characters of `cs` that satisfy `p`, in order;
* `runs_eq_singleton` — a text of wanted characters is one run;
* `runs_forall` — a run holds only characters that satisfy `p`;
* `ne_nil_of_mem_runs` — a run is never empty.
-/

namespace InfraGraph
namespace Text

/-- The maximal blocks of consecutive characters that satisfy `p`, in order. -/
def runs (p : Char → Bool) : List Char → List (List Char)
  | [] => []
  | c :: cs =>
      if p c then
        (c :: cs.takeWhile p) :: runs p (cs.dropWhile p)
      else
        runs p cs
termination_by cs => cs.length
decreasing_by
  · have h := (List.dropWhile_sublist p (l := cs)).length_le
    simp only [List.length_cons]
    omega
  · simp

theorem runs_nil (p : Char → Bool) : runs p [] = [] := by
  rw [runs]

theorem runs_cons_of_pos {p : Char → Bool} {c : Char} (h : p c = true) (cs : List Char) :
    runs p (c :: cs) = (c :: cs.takeWhile p) :: runs p (cs.dropWhile p) := by
  rw [runs, if_pos h]

theorem runs_cons_of_neg {p : Char → Bool} {c : Char} (h : p c = false) (cs : List Char) :
    runs p (c :: cs) = runs p cs := by
  rw [runs, if_neg (by simp [h])]

/-- A text of the wanted characters only is one run. -/
theorem runs_eq_singleton {p : Char → Bool} {cs : List Char} (hne : cs ≠ [])
    (h : ∀ c ∈ cs, p c = true) : runs p cs = [cs] := by
  cases cs with
  | nil => exact absurd rfl hne
  | cons c cs =>
      have hc : p c = true := h c (by simp)
      have hcs : ∀ d ∈ cs, p d = true := fun d hd => h d (by simp [hd])
      have htake : (cs ++ []).takeWhile p = cs ++ [].takeWhile p :=
        List.takeWhile_append_of_pos hcs
      have hdrop : (cs ++ []).dropWhile p = [].dropWhile p := List.dropWhile_append_of_pos hcs
      simp only [List.append_nil, List.takeWhile_nil, List.dropWhile_nil] at htake hdrop
      rw [runs_cons_of_pos hc, htake, hdrop, runs_nil]

/-- No run is empty. -/
theorem ne_nil_of_mem_runs {p : Char → Bool} {cs r : List Char} (h : r ∈ runs p cs) : r ≠ [] := by
  fun_induction runs p cs with
  | case1 => simp at h
  | case2 c cs hc ih =>
      rcases List.mem_cons.mp h with rfl | h
      · simp
      · exact ih h
  | case3 c cs hc ih => exact ih h

/-- Every character of a run satisfies the predicate. -/
theorem runs_forall {p : Char → Bool} {cs r : List Char} (h : r ∈ runs p cs) :
    ∀ c ∈ r, p c = true := by
  fun_induction runs p cs with
  | case1 => simp at h
  | case2 c cs hc ih =>
      rcases List.mem_cons.mp h with rfl | h
      · intro d hd
        rcases List.mem_cons.mp hd with rfl | hd
        · exact hc
        · exact List.all_eq_true.mp (List.all_takeWhile (l := cs)) d hd
      · exact ih h
  | case3 c cs hc ih => exact ih h

end Text
end InfraGraph
