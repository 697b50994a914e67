import InfraGraph.Proofs.Marker
import InfraGraph.Proofs.Storage.Place
import InfraGraph.Schema.Basic
import Mathlib.Data.List.TakeWhile

/-!
# Next to an artifact

The directory and the name of an artifact are cut from the text of its path, and what stands next to
it gets the directory, a slash and a path of its own.  The text may have no slash, one at its end,
or several in a row; the names between its slashes are kept in all cases.  Main statements:

* `Path.names`, `Path.IsAbsolute` — what a path is made of;
* `Lambda.beforeLastSlash?_append`, `Lambda.afterLastSlash_append` — how the last slash splits a
  text;
* `Lambda.artifactBase`, `Lambda.besideArtifact_eq` — what stands in front of a path that is placed
  next to an artifact;
* `Lambda.names_artifact`, `Lambda.isAbsolute_besideArtifact_iff` — this and the name of the
  artifact make up its path.
-/

namespace InfraGraph

/-! ## Names of a path -/

namespace Path

/-- Names between the slashes of a path, but for those that stay where they are. -/
def names (path : String) : List String := FileTree.properNames (components path)

def IsAbsolute (path : String) : Prop := path.toList.head? = some '/'

instance (path : String) : Decidable (IsAbsolute path) :=
  inferInstanceAs (Decidable (path.toList.head? = some '/'))

/-- Names are taken apart at a slash. -/
theorem names_append_slash (above below : String) :
    names (above ++ "/" ++ below) = names above ++ names below := by
  unfold names
  rw [components_append_slash, FileTree.properNames, List.filter_append]
  rfl

/-- A slash at the very beginning makes a path absolute. -/
theorem isAbsolute_append_slash_iff {above below : String} :
    IsAbsolute (above ++ "/" ++ below) ↔ above = "" ∨ IsAbsolute above := by
  unfold IsAbsolute
  cases habove : above.toList with
  | nil => simp [String.toList_eq_nil_iff.mp habove]
  | cons c cs =>
      have hne : above ≠ "" := by
        rintro rfl
        cases habove
      simp [habove, hne]

end Path

/-! ## The last slash -/

namespace Lambda

variable {cs front back : List Char}

theorem ne_slash_of_mem_reverse (h : '/' ∉ cs) : ∀ c ∈ cs.reverse, (c != '/') = true := by
  intro c hc
  refine bne_iff_ne.mpr ?_
  rintro rfl
  exact h (List.mem_reverse.mp hc)

theorem afterLastSlash_of_not_mem (h : '/' ∉ cs) : afterLastSlash cs = cs := by
  rw [afterLastSlash, List.takeWhile_eq_self_iff.mpr (ne_slash_of_mem_reverse h),
    List.reverse_reverse]

theorem beforeLastSlash?_of_not_mem (h : '/' ∉ cs) : beforeLastSlash? cs = none := by
  rw [beforeLastSlash?, List.dropWhile_eq_nil_iff.mpr (ne_slash_of_mem_reverse h)]

theorem afterLastSlash_append (h : '/' ∉ back) : afterLastSlash (front ++ '/' :: back) = back := by
  have hreverse : (front ++ '/' :: back).reverse = back.reverse ++ '/' :: front.reverse := by simp
  rw [afterLastSlash, hreverse,
    Marker.takeWhile_of_boundary (ne_slash_of_mem_reverse h) (by simp), List.reverse_reverse]

theorem beforeLastSlash?_append (h : '/' ∉ back) :
    beforeLastSlash? (front ++ '/' :: back) = some front := by
  have hreverse : (front ++ '/' :: back).reverse = back.reverse ++ '/' :: front.reverse := by simp
  rw [beforeLastSlash?, hreverse,
    Marker.dropWhile_of_boundary (ne_slash_of_mem_reverse h) (by simp)]
  simp

/-- The last slash has none behind it. -/
theorem exists_lastSlash (h : '/' ∈ cs) : ∃ front back, cs = front ++ '/' :: back ∧ '/' ∉ back := by
  obtain ⟨xs, ys, hsplit, hfirst⟩ := List.eq_append_cons_of_mem (List.mem_reverse.mpr h)
  refine ⟨ys.reverse, xs.reverse, ?_, by simpa using hfirst⟩
  simpa using congrArg List.reverse hsplit

/-! ## Next to the artifact -/

variable (l : Lambda)

/-- What stands in front of the slash of a path that is placed next to the artifact. -/
def artifactBase : String := if l.artifactDir = "/" then "" else l.artifactDir

/-- A file beside the artifact is named by the artifact's base and a slash. -/
theorem besideArtifact_eq (relative : String) :
    l.besideArtifact relative = l.artifactBase ++ "/" ++ relative := by
  unfold besideArtifact artifactBase
  split
  · rfl
  · rfl

/-- A path without a slash is a name next to which everything is placed.  Otherwise the last slash
stands between the name and the directory, or behind the top. -/
theorem artifact_cases :
    ('/' ∉ l.file.toList ∧ l.artifactBase = "." ∧ l.artifactName = l.file) ∨
      ∃ above, l.file = above ++ "/" ++ l.artifactName ∧
        (l.artifactBase = above ∧ above ≠ "" ∨
          l.artifactBase = "" ∧ (above = "" ∨ above = "/")) := by
  by_cases hslash : '/' ∈ l.file.toList
  · obtain ⟨front, back, hfile, hback⟩ := exists_lastSlash hslash
    refine Or.inr ⟨String.ofList front, ?_, ?_⟩
    · apply String.toList_injective
      simp [artifactName, hfile, afterLastSlash_append hback]
    · have hdir : l.artifactDir = if front = [] then "/" else String.ofList front := by
        unfold artifactDir
        rw [hfile, beforeLastSlash?_append hback]
        cases front <;> rfl
      unfold artifactBase
      rw [hdir]
      -- the directory is the top for a name behind a single slash, and for one behind two
      by_cases hfront : front = []
      · simp [hfront]
      · rw [if_neg hfront]
        by_cases htop : String.ofList front = "/"
        · simp [htop]
        · rw [if_neg htop]
          exact Or.inl ⟨rfl, by simpa using hfront⟩
  · refine Or.inl ⟨hslash, ?_, ?_⟩
    · simp [artifactBase, artifactDir, beforeLastSlash?_of_not_mem hslash]
    · rw [artifactName, afterLastSlash_of_not_mem hslash, String.ofList_toList]

/-- What stands in front and the name of the artifact have the names of its path. -/
theorem names_artifact :
    Path.names l.artifactBase ++ Path.names l.artifactName = Path.names l.file := by
  have hhere : Path.names "." = [] := by decide
  have htop : Path.names "" = [] ∧ Path.names "/" = [] := by decide
  rcases l.artifact_cases with ⟨_, hbase, hname⟩ |
    ⟨above, hfile, ⟨hbase, _⟩ | ⟨hbase, rfl | rfl⟩⟩
  · rw [hbase, hname, hhere, List.nil_append]
  · rw [hfile, hbase, Path.names_append_slash]
  -- behind the top, with one slash and with two
  · rw [hfile, hbase, Path.names_append_slash]
  · rw [hfile, hbase, Path.names_append_slash, htop.1, htop.2]

/-- What is placed next to the artifact is absolute where the path of the artifact is. -/
theorem isAbsolute_besideArtifact_iff (relative : String) :
    Path.IsAbsolute (l.besideArtifact relative) ↔ Path.IsAbsolute l.file := by
  rw [besideArtifact_eq, Path.isAbsolute_append_slash_iff]
  rcases l.artifact_cases with ⟨hslash, hbase, _⟩ |
    ⟨above, hfile, ⟨hbase, hne⟩ | ⟨hbase, htop⟩⟩
  · rw [hbase]
    refine iff_of_false (by decide) ?_
    exact fun h => hslash (List.mem_of_head? h)
  · rw [hfile, hbase, Path.isAbsolute_append_slash_iff]
  · rw [hfile, hbase, Path.isAbsolute_append_slash_iff]
    refine iff_of_true (Or.inl rfl) ?_
    rcases htop with rfl | rfl
    · exact Or.inl rfl
    · exact Or.inr rfl

end Lambda
end InfraGraph
