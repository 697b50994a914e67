import InfraGraph.Proofs.Storage.Tree
import InfraGraph.Storage.Tree

/-!
# Where the files of a directory are

The path of a file in a directory leads to the place of the directory, and from there to the name of
the file.  Where a path does not go up, its place is made of its names, whether or not all of them
are there.  Main statements:

* `Path.components_join` — the names of a path below another one;
* `FileTree.locate_join_iff` — the place of a file in a directory;
* `FileTree.locateFrom_iff_of_no_up`, `FileTree.locate_join_iff_of_no_up` — the places of paths that
  do not go up.
-/

namespace InfraGraph

/-! ## Names -/

namespace Path

/-- Names of the directories that a path below `dir` goes through. -/
def within (dir : String) : List String :=
  if dir.isEmpty then []
  else if dir.toList.getLast? = some '/' then (components dir).dropLast
  else components dir

variable {dir name : String}

theorem components_of_no_slash (h : '/' ∉ name.toList) : components name = [name] := by
  rw [components, List.splitOn_eq_singleton h, List.map_singleton, String.ofList_toList]

/-- Components are taken apart at a slash. -/
theorem components_append_slash (above below : String) :
    components (above ++ "/" ++ below) = components above ++ components below := by
  have hchars : (above ++ "/" ++ below).toList = above.toList ++ '/' :: below.toList := by simp
  rw [components, hchars, List.splitOn_append_cons_self, List.map_append]
  rfl

/-- Behind a slash at the end there is an empty name. -/
theorem components_of_slash (h : dir.toList.getLast? = some '/') :
    ∃ above, dir = above ++ "/" ∧ components dir = components above ++ [""] := by
  obtain ⟨above, habove⟩ := List.getLast?_eq_some_iff.mp h
  have hdir : dir = String.ofList above ++ "/" := String.toList_injective (by simp [habove])
  have hnames := components_append_slash (String.ofList above) ""
  rw [String.append_empty, ← hdir] at hnames
  exact ⟨_, hdir, hnames⟩

/-- The names of a path below another one. -/
theorem components_join (h : '/' ∉ name.toList) :
    components (join dir name) = within dir ++ [name] := by
  have hrelative : name.toList.head? ≠ some '/' := fun hhead => h (List.mem_of_head? hhead)
  have hname := components_of_no_slash h
  by_cases hempty : dir.isEmpty = true
  · rw [join, within, if_pos (Or.inr hempty), if_pos hempty, hname, List.nil_append]
  rw [join, within, if_neg (by simp [hrelative, hempty]), if_neg hempty]
  by_cases hslash : dir.toList.getLast? = some '/'
  · obtain ⟨above, hdir, hnames⟩ := components_of_slash hslash
    rw [if_pos hslash, if_pos hslash, hnames, List.dropLast_concat, hdir,
      components_append_slash, hname]
  · rw [if_neg hslash, if_neg hslash, components_append_slash, hname]

theorem mem_components_of_mem_within (h : name ∈ within dir) : name ∈ components dir := by
  rw [within] at h
  split at h
  · cases h
  · split at h
    · exact List.dropLast_subset _ h
    · exact h

end Path

namespace FileTree

variable {t t' : FileTree} {dir name : String} {place goal names : List String}

/-- A path below a directory has the proper names of the directory's path above it. -/
theorem properNames_within : properNames (Path.within dir) = properNames (Path.components dir) := by
  rw [Path.within]
  split
  · next hempty =>
    rw [String.isEmpty_iff.mp hempty]
    rfl
  · split
    · next hslash =>
      obtain ⟨above, _, hnames⟩ := Path.components_of_slash hslash
      simp [hnames, properNames]
    · rfl

/-! ## Places -/

/-- Names that stand for themselves. -/
structure IsProper (name : String) : Prop where
  not_here : ¬(name = "" ∨ name = ".")
  not_up : name ≠ ".."

/-- One step: an empty name or a dot stays, two dots go up, and any other name goes down. -/
theorem locateFrom_cons (h : t.IsDir place.reverse) : t.locateFrom place (name :: names) =
    if name = "" ∨ name = "." then t.locateFrom place names
    else if name = ".." then t.locateFrom place.tail names
    else t.locateFrom (name :: place) names := by
  obtain ⟨entries, h⟩ := h
  rw [locateFrom, h]

/-- Only a directory can be left for a name below it or above. -/
theorem isDir_of_locateFrom_cons (h : t.locateFrom place (name :: names) = .ok goal) :
    t.IsDir place.reverse := by
  rw [locateFrom] at h
  split at h
  · next entries hdir => exact ⟨entries, hdir⟩
  · cases h
  · cases h

/-- Names lead on from where the names before them lead to. -/
theorem locateFrom_append_iff {above below : List String} :
    t.locateFrom place (above ++ below) = .ok goal ↔
      ∃ p, t.locateFrom place above = .ok p ∧ t.locateFrom p.reverse below = .ok goal := by
  induction above generalizing place with
  | nil => simp [locateFrom]
  | cons name rest ih =>
      by_cases hdir : t.IsDir place.reverse
      · rw [List.cons_append, locateFrom_cons hdir, locateFrom_cons hdir]
        split
        · exact ih
        · split
          · exact ih
          · exact ih
      · refine iff_of_false (fun h => hdir (isDir_of_locateFrom_cons h)) ?_
        rintro ⟨p, h, _⟩
        exact hdir (isDir_of_locateFrom_cons h)

/-- A single name leads to an entry of the directory. -/
theorem locateFrom_singleton_iff (hname : IsProper name) :
    t.locateFrom place.reverse [name] = .ok goal ↔ t.IsDir place ∧ goal = place ++ [name] := by
  constructor
  · intro h
    have hdir := isDir_of_locateFrom_cons h
    rw [locateFrom_cons hdir, if_neg hname.not_here, if_neg hname.not_up, locateFrom] at h
    rw [List.reverse_reverse] at hdir
    exact ⟨hdir, by simpa using (Except.ok.inj h).symm⟩
  · rintro ⟨hdir, rfl⟩
    rw [← List.reverse_reverse place] at hdir
    rw [locateFrom_cons hdir, if_neg hname.not_here, if_neg hname.not_up, locateFrom]
    simp

/-- The place of a file is the one of its directory, and then its name. -/
theorem locate_join_iff (hslash : '/' ∉ name.toList) (hname : IsProper name) :
    t.locate (Path.join dir name) = .ok goal ↔
      ∃ p, t.locateFrom [] (Path.within dir) = .ok p ∧ t.IsDir p ∧ goal = p ++ [name] := by
  rw [locate, Path.components_join hslash, locateFrom_append_iff]
  simp only [locateFrom_singleton_iff hname]

/-! ## Paths that do not go up -/

/-- Empty names and dots are no proper names. -/
theorem properNames_cons (name : String) (names : List String) : properNames (name :: names) =
    if name = "" ∨ name = "." then properNames names else name :: properNames names := by
  by_cases h : name = "" ∨ name = "."
  · rw [if_pos h]
    rcases h with rfl | rfl <;> rfl
  · rw [if_neg h]
    rw [not_or] at h
    simp [properNames, h.1, h.2]

/-- Names that do not go up lead to a directory iff it is the one of their own names. -/
theorem locateFrom_iff_of_no_up (hup : ".." ∉ names) (hgoal : t.IsDir goal) :
    t.locateFrom place names = .ok goal ↔ goal = place.reverse ++ properNames names := by
  induction names generalizing place with
  | nil => simp [locateFrom, properNames, eq_comm]
  | cons name rest ih =>
      rw [List.mem_cons, not_or] at hup
      -- either side is possible only where the names so far lead to a directory
      have hstep : t.IsDir place.reverse → (t.locateFrom place (name :: rest) = .ok goal ↔
          goal = place.reverse ++ properNames (name :: rest)) := by
        intro hdir
        rw [locateFrom_cons hdir, properNames_cons]
        split
        · exact ih hup.2
        · rw [if_neg (Ne.symm hup.1), ih hup.2, List.reverse_cons, List.append_assoc,
            List.singleton_append]
      constructor
      · exact fun h => (hstep (isDir_of_locateFrom_cons h)).mp h
      · intro h
        refine (hstep ?_).mpr h
        rw [h] at hgoal
        exact hgoal.of_append

/-- Where the path of a directory does not go up, a file in it has the place of its own names. -/
theorem locate_join_iff_of_no_up (hslash : '/' ∉ name.toList) (hname : IsProper name)
    (hup : ".." ∉ Path.components dir) : t.locate (Path.join dir name) = .ok goal ↔
      goal = properNames (Path.components dir) ++ [name] ∧
        t.IsDir (properNames (Path.components dir)) := by
  have hwithin : ".." ∉ Path.within dir := fun h => hup (Path.mem_components_of_mem_within h)
  have hnames : properNames (Path.within dir) = _ := properNames_within
  rw [locate_join_iff hslash hname]
  constructor
  · rintro ⟨p, hp, hdir, rfl⟩
    rw [locateFrom_iff_of_no_up hwithin hdir, List.reverse_nil, List.nil_append, hnames] at hp
    subst hp
    exact ⟨rfl, hdir⟩
  · rintro ⟨rfl, hdir⟩
    refine ⟨_, (locateFrom_iff_of_no_up hwithin hdir).mpr ?_, hdir, rfl⟩
    rw [List.reverse_nil, List.nil_append, hnames]

end FileTree
end InfraGraph
