import InfraGraph.Proofs.Storage.Place

/-!
# What requests change

Making a directory brings in directories where nothing was before, writing and renaming change the
places of the files that they name, and no request removes a directory.  Main statements:

* `FileTree.look`, `FileTree.textAt?` — what stands at a place, and the text of a file there;
* `FileTree.look_set`, `FileTree.look_erase_of_ne` — putting and removing change a single place;
* `FileTree.Grows`, `FileTree.grows_makeDirs` — directories that are made;
* `FileTree.AltersOnly`, `FileTree.altersOnly_of_write`, `FileTree.altersOnly_of_rename` — files
  that are written and renamed.
-/

namespace InfraGraph
namespace FileTree

/-- A file with its text, or a directory without its entries. -/
inductive Node where
  | file (text : String)
  | directory
deriving DecidableEq

def node : FileTree → Node
  | file text => .file text
  | dir _ => .directory

/-- What stands at a place, without what is below it. -/
def look (t : FileTree) (place : List String) : Option Node := (t.get? place).map node

def textAt? (t : FileTree) (place : List String) : Option String :=
  match t.look place with
  | some (.file text) => some text
  | _ => none

variable {t t' t'' new : FileTree} {entries : List (String × FileTree)}
  {name path target text : String} {place other rest names above : List String}

/-! ## Single places -/

/-- A file is read by what is found at its place. -/
theorem textAt?_congr (h : t'.look place = t.look place) : t'.textAt? place = t.textAt? place := by
  rw [textAt?, textAt?, h]

/-- A file holds its text. -/
theorem textAt?_eq_some (h : t.look place = some (.file text)) : t.textAt? place = some text := by
  rw [textAt?, h]

theorem textAt?_eq_none (h : t.look place = none ∨ t.look place = some .directory) :
    t.textAt? place = none := by
  rcases h with h | h <;> rw [textAt?, h]

/-- What is in a directory is found name by name. -/
theorem look_dir_cons : (dir entries).look (name :: rest) =
    (Entries.get? name entries).bind fun t => t.look rest := by
  rw [look, get?_dir_cons, Option.map_bind]
  rfl

theorem isDir_iff_look : t.IsDir place ↔ t.look place = some .directory := by
  rw [IsDir, look, Option.map_eq_some_iff]
  constructor
  · rintro ⟨entries, h⟩
    exact ⟨_, h, rfl⟩
  · rintro ⟨found, h, hnode⟩
    cases found with
    | file text => cases hnode
    | dir entries => exact ⟨entries, h⟩

/-- Reading succeeds at a place that the path leads to and that holds a file. -/
theorem read_eq_ok_iff :
    t.read path = .ok text ↔
      ∃ place, t.locate path = .ok place ∧ t.look place = some (.file text) := by
  unfold read look
  cases hplace : t.locate path with
  | error e => simp [bind, Except.bind]
  | ok place =>
      simp only [bind, Except.bind, Except.ok.injEq, exists_eq_left']
      cases t.get? place with
      | none => simp
      | some found => cases found <;> simp [node, pure, Except.pure]

/-- A path is there when it leads to a place that holds something. -/
theorem isThere_iff :
    t.isThere path = true ↔ ∃ place, t.locate path = .ok place ∧ t.look place ≠ none := by
  unfold isThere look
  cases t.locate path with
  | error e => simp
  | ok place => simp [Option.isSome_iff_ne_none]

/-- What is there is in a directory. -/
theorem inDirectory_of_look (h : t.look place ≠ none) : t.InDirectory place := by
  intro hne
  obtain ⟨above, last, rfl⟩ : ∃ above last, place = above ++ [last] :=
    ⟨_, _, (List.dropLast_concat_getLast hne).symm⟩
  rw [List.dropLast_concat]
  clear hne
  induction above generalizing t with
  | nil =>
      cases t with
      | file text => exact absurd rfl h
      | dir entries => exact ⟨entries, rfl⟩
  | cons name rest ih =>
      cases t with
      | file text => exact absurd rfl h
      | dir entries =>
          rw [List.cons_append, look_dir_cons] at h
          cases hentry : Entries.get? name entries with
          | none => exact absurd (by rw [hentry]; rfl) h
          | some u =>
              rw [hentry] at h
              exact isDir_dir_cons_iff.mpr ⟨u, hentry, ih h⟩

/-- Where a file or an empty directory is put, only its place changes. -/
theorem look_set (hleaf : ∀ name rest, new.look (name :: rest) = none) (h : t.InDirectory place)
    (hfree : ¬t.IsDir place) :
    (t.set place new).look other = if other = place then some new.node else t.look other := by
  induction place generalizing t other with
  | nil =>
      cases t with
      | dir entries => exact absurd ⟨entries, rfl⟩ hfree
      | file text =>
          cases other with
          | nil => rfl
          | cons first below => exact (hleaf first below).trans rfl
  | cons name rest ih =>
      obtain ⟨entries, rfl, hinner⟩ := h.of_cons
      rw [set]
      cases other with
      | nil => rfl
      | cons first below =>
          rw [look_dir_cons, look_dir_cons]
          by_cases hname : name = first
          · subst hname
            rw [Entries.get?_insert_self, Option.bind_some]
            cases hentry : Entries.get? name entries with
            | some u =>
                rw [hentry, Option.getD_some] at hinner
                have hfree' : ¬u.IsDir rest := fun hdir =>
                  hfree (isDir_dir_cons_iff.mpr ⟨u, hentry, hdir⟩)
                simp [ih hinner hfree']
            | none =>
                -- only the last name can be new
                have hlast : rest = [] := Decidable.byContradiction fun hrest => by
                  have habove := h (by simp)
                  rw [List.dropLast_cons_of_ne_nil hrest] at habove
                  obtain ⟨u, hu, _⟩ := isDir_dir_cons_iff.mp habove
                  rw [hentry] at hu
                  cases hu
                subst hlast
                cases below with
                | nil => simp [set, look, get?]
                | cons next below => simp [set, hleaf]
          · rw [Entries.get?_insert_of_ne hname, if_neg (by simp [Ne.symm hname])]

/-- Where no directory is removed, other places stay as they are. -/
theorem look_erase_of_ne (hfree : ¬t.IsDir place) (hne : other ≠ place) :
    (t.erase place).look other = t.look other := by
  induction place generalizing t other with
  | nil => rfl
  | cons name rest ih =>
      cases t with
      | file text => rfl
      | dir entries =>
          cases other with
          | nil =>
              cases rest with
              | nil => rfl
              | cons next rest =>
                  rw [erase]
                  split <;> rfl
          | cons first below =>
              cases rest with
              | nil =>
                  rw [erase, look_dir_cons, look_dir_cons]
                  by_cases hname : name = first
                  · -- nothing is below the entry that is removed
                    subst hname
                    rw [get?_filter_self]
                    cases hentry : Entries.get? name entries with
                    | none => rfl
                    | some u =>
                        cases u with
                        | dir inner =>
                            exact absurd (isDir_dir_cons_iff.mpr ⟨_, hentry, inner, rfl⟩) hfree
                        | file text =>
                            cases below with
                            | nil => exact absurd rfl hne
                            | cons next below => rfl
                  · rw [get?_filter_of_ne hname]
              | cons next rest =>
                  rw [erase]
                  cases hentry : Entries.get? name entries with
                  | none => rfl
                  | some u =>
                      rw [look_dir_cons, look_dir_cons]
                      by_cases hname : name = first
                      · subst hname
                        have hfree' : ¬u.IsDir (next :: rest) := fun hdir =>
                          hfree (isDir_dir_cons_iff.mpr ⟨u, hentry, hdir⟩)
                        rw [Entries.get?_insert_self, hentry]
                        exact ih hfree' fun heq => hne (heq ▸ rfl)
                      · rw [Entries.get?_insert_of_ne hname]

/-! ## Directories that are made -/

/-- Nothing changes but that directories are made where nothing was. -/
def Grows (t t' : FileTree) (made : List String → Prop) : Prop :=
  ∀ place, t'.look place = t.look place ∨
    t.look place = none ∧ t'.look place = some .directory ∧ made place

/-- Places of the directories that names lead through, unless they go up. -/
def OnWay (names place : List String) : Prop := ".." ∉ names → place <+: properNames names

section Grows

variable {made made' : List String → Prop}

theorem Grows.refl (t : FileTree) (made : List String → Prop) : t.Grows t made :=
  fun _ => Or.inl rfl

theorem Grows.trans (h : t.Grows t' made) (h' : t'.Grows t'' made) : t.Grows t'' made := by
  intro place
  rcases h place with hsame | ⟨hnone, hdir, hmade⟩
  · rw [← hsame]
    exact h' place
  · rcases h' place with hsame | ⟨hnone', _⟩
    · exact Or.inr ⟨hnone, hsame.trans hdir, hmade⟩
    · rw [hdir] at hnone'
      cases hnone'

theorem Grows.mono (h : t.Grows t' made) (hmade : ∀ place, made place → made' place) :
    t.Grows t' made' :=
  fun place => (h place).imp_right fun ⟨hnone, hdir, hplace⟩ => ⟨hnone, hdir, hmade place hplace⟩

end Grows

theorem properNames_append (names names' : List String) :
    properNames (names ++ names') = properNames names ++ properNames names' :=
  List.filter_append ..

theorem OnWay.append_right {below : List String} (h : OnWay names place) :
    OnWay (names ++ below) place := by
  intro hup
  rw [properNames_append]
  exact (h fun hmem => hup (List.mem_append_left _ hmem)).trans (List.prefix_append ..)

/-- What stands before the empty names at the end. -/
theorem eq_append_of_dropWhile (h : names.reverse.dropWhile String.isEmpty = name :: above) :
    name ≠ "" ∧
     ∃ empties, names = above.reverse ++ [name] ++ empties ∧ properNames empties = [] := by
  have hname := List.head?_dropWhile_not String.isEmpty names.reverse
  rw [h] at hname
  refine ⟨fun hempty => by simp [hempty] at hname, (names.reverse.takeWhile String.isEmpty).reverse,
    ?_, ?_⟩
  · calc names
        = (names.reverse.takeWhile String.isEmpty ++ name :: above).reverse := by
          rw [← h, List.takeWhile_append_dropWhile, List.reverse_reverse]
      _ = above.reverse ++ [name] ++ (names.reverse.takeWhile String.isEmpty).reverse := by simp
  · refine List.filter_eq_nil_iff.mpr fun e he => ?_
    have hempty := List.all_eq_true.mp List.all_takeWhile e (List.mem_reverse.mp he)
    simp [String.isEmpty_iff.mp hempty]

/-- A directory that is made is put where nothing was. -/
theorem makeDir_ok (h : t.makeDir names = .ok t') : ∃ place, t.InDirectory place ∧
    t.get? place = none ∧ t' = t.set place empty ∧ (".." ∉ names → place = properNames names) := by
  unfold makeDir at h
  split at h
  · cases h
  · next last above hlast =>
    obtain ⟨hempty, empties, rfl, hempties⟩ := eq_append_of_dropWhile hlast
    rw [List.reverse_cons] at h
    cases hplace : t.locateFrom [] (above.reverse ++ [last]) with
    | error e => simp [hplace, bind, Except.bind] at h
    | ok place =>
        simp only [hplace, bind, Except.bind] at h
        split at h
        · cases h
        · next hnew =>
          simp only [not_or, Option.not_isSome_iff_eq_none] at hnew
          cases h
          have hproper : IsProper last := ⟨not_or.mpr ⟨hempty, hnew.1⟩, hnew.2.1⟩
          refine ⟨place, inDirectory_of_locateFrom (fun hne => absurd rfl hne) hplace, hnew.2.2,
            rfl,
            fun hup => ?_⟩
          -- the last name leads on from the place of the names before it
          rw [locateFrom_append_iff] at hplace
          obtain ⟨p, hp, hlast⟩ := hplace
          obtain ⟨hdir, rfl⟩ := (locateFrom_singleton_iff hproper).mp hlast
          have habove : ".." ∉ above.reverse := fun hmem =>
            hup (List.mem_append_left _ (List.mem_append_left _ hmem))
          obtain rfl := (locateFrom_iff_of_no_up habove hdir).mp hp
          rw [properNames_append, properNames_append, hempties, List.append_nil,
            properNames_cons last, if_neg hproper.not_here]
          rfl

/-- Making a directory adds directories on the way to it, and changes nothing else. -/
theorem grows_makeDir (h : t.makeDir names = .ok t') : t.Grows t' (OnWay names) := by
  obtain ⟨place, hin, hnone, rfl, hplace⟩ := makeDir_ok h
  have hfree : ¬t.IsDir place := by
    rintro ⟨entries, hdir⟩
    rw [hnone] at hdir
    cases hdir
  intro other
  rw [look_set (fun _ _ => rfl) hin hfree]
  split
  · next hother =>
    subst hother
    exact Or.inr ⟨by rw [look, hnone]; rfl, rfl, fun hup => hplace hup ▸ List.prefix_refl _⟩
  · exact Or.inl rfl

/-- Ensuring a directory adds those that are missing on the way, and changes nothing else. -/
theorem grows_ensureDir (h : t.ensureDir names = .ok t') : t.Grows t' (OnWay names) := by
  unfold ensureDir at h
  split at h
  · next made hmade =>
    cases h
    exact grows_makeDir hmade
  · split at h
    · cases h
      exact .refl t _
    · cases h

/-- Those that were made stay when a later one fails. -/
theorem grows_ensureDirs : t.Grows (t.ensureDirs above names).2 (OnWay (above ++ names)) := by
  induction names generalizing t above with
  | nil => exact .refl t _
  | cons name rest ih =>
      rw [ensureDirs]
      split
      · next made hmade =>
        have hstep : t.Grows made (OnWay (above ++ [name] ++ rest)) :=
          (grows_ensureDir hmade).mono fun _ h => h.append_right
        have hrest := hstep.trans ih
        rwa [List.append_assoc, List.singleton_append] at hrest
      · exact .refl t _

theorem OnWay.of_take {n : Nat} (h : OnWay ((properNames names).take n) place) :
    OnWay names place := by
  intro hup
  have hsub : (properNames names).take n ⊆ names :=
    List.Subset.trans (List.take_subset _ _) (List.filter_subset_self _)
  -- the names that are left are proper already
  have hproper : properNames ((properNames names).take n) = (properNames names).take n :=
    List.filter_eq_self.mpr fun name hname => (List.mem_filter.mp (List.take_subset _ _ hname)).2
  have hplace := h fun hmem => hup (hsub hmem)
  rw [hproper] at hplace
  exact hplace.trans (List.take_prefix _ _)

/-- The first directories on the way. -/
theorem grows_ensureDirs_take (n : Nat) :
    t.Grows (t.ensureDirs [] ((properNames names).take n)).2 (OnWay names) :=
  grows_ensureDirs.mono fun _ h => OnWay.of_take h

/-- Whether or not all directories can be made, nothing else changes. -/
theorem grows_makeDirs : t.Grows (t.makeDirs path).2 (OnWay (Path.components path)) := by
  rw [makeDirs, makeDirsAt]
  split
  · next made hmade => exact grows_ensureDir hmade
  · have habove : t.Grows _ (OnWay (Path.components path)) :=
      grows_ensureDirs_take ((properNames (Path.components path)).length - 1)
    rw [← List.dropLast_eq_take] at habove
    split
    · next above hall =>
      rw [hall] at habove
      split
      · next made hmade => exact habove.trans (grows_ensureDir hmade)
      · exact habove
    · next e above hall =>
      rw [hall] at habove
      exact habove
  · exact .refl t _

/-! ## Files that are written and renamed -/

/-- Only some places change, and none of them is one of a directory. -/
def AltersOnly (t t' : FileTree) (touched : List String → Prop) : Prop :=
  ∀ place, t'.look place = t.look place ∨ t.look place ≠ some .directory ∧ touched place

section AltersOnly

variable {touched touched' : List String → Prop}

theorem AltersOnly.refl (t : FileTree) (touched : List String → Prop) : t.AltersOnly t touched :=
  fun _ => Or.inl rfl

/-- One change after another: what has changed before counts where it is as it was left. -/
theorem AltersOnly.trans {changed : List String → Prop} (h : t.AltersOnly t' touched)
    (h' : t'.AltersOnly t'' touched')
    (hfirst : ∀ place, t''.look place = t'.look place → touched place → changed place)
    (hnext : ∀ place, touched' place → changed place) : t.AltersOnly t'' changed := by
  intro place
  rcases h' place with hsame | ⟨hfree, hplace⟩
  · exact (h place).imp hsame.trans fun ⟨hfree, hplace⟩ => ⟨hfree, hfirst place hsame hplace⟩
  · -- where no directory stands in between, none stood before
    refine Or.inr ⟨fun hdir => hfree ?_, hnext place hplace⟩
    rcases h place with hsame | ⟨hfree', _⟩
    · exact hsame.trans hdir
    · exact absurd hdir hfree'

theorem AltersOnly.mono (h : t.AltersOnly t' touched)
    (himp : ∀ place, touched place → touched' place) : t.AltersOnly t' touched' :=
  fun place => (h place).imp_right fun ⟨hfree, hplace⟩ => ⟨hfree, himp place hplace⟩

/-- A tree that has grown is altered only where there was nothing. -/
theorem Grows.altersOnly {made : List String → Prop} (h : t.Grows t' made) :
    t.AltersOnly t' fun place =>
      t.look place = none ∧ t'.look place = some .directory ∧ made place := by
  intro place
  refine (h place).imp_right fun hplace => ⟨?_, hplace⟩
  rw [hplace.1]
  exact nofun

/-- Directories stay. -/
theorem AltersOnly.isDir (h : t.AltersOnly t' touched) (hdir : t.IsDir place) : t'.IsDir place := by
  rw [isDir_iff_look] at hdir ⊢
  rcases h place with hsame | ⟨hfree, _⟩
  · exact hsame.trans hdir
  · exact absurd hdir hfree

/-- Paths keep their places. -/
theorem AltersOnly.locate (h : t.AltersOnly t' touched) (hplace : t.locate path = .ok place) :
    t'.locate path = .ok place :=
  locate_mono (fun _ hdir => h.isDir hdir) hplace

end AltersOnly

/-- Putting a file where no directory stands. -/
theorem altersOnly_set (hin : t.InDirectory place) (hfree : ¬t.IsDir place) :
    t.AltersOnly (t.set place (file text)) (· = place) := by
  intro other
  rw [look_set (fun _ _ => rfl) hin hfree]
  split
  · next hother => exact Or.inr ⟨fun hdir => hfree (hother ▸ isDir_iff_look.mpr hdir), hother⟩
  · exact Or.inl rfl

/-- A write alters the one place that its path leads to. -/
theorem altersOnly_of_write (h : t.write path text = .ok t') :
    ∃ place, t.locate path = .ok place ∧ t.AltersOnly t' (· = place) ∧
      t'.look place = some (.file text) := by
  obtain ⟨place, hplace, hfree, rfl⟩ := write_ok h
  have hin := inDirectory_of_locate hplace
  refine ⟨place, hplace, altersOnly_set hin hfree, ?_⟩
  rw [look_set (fun _ _ => rfl) hin hfree, if_pos rfl]
  rfl

/-- A file is moved to another place. -/
theorem altersOnly_of_rename (hplace : t.locate path = .ok place)
    (hfile : t.look place = some (.file text)) (h : t.rename path target = .ok t') :
    ∃ goal, t.locate target = .ok goal ∧ t.AltersOnly t' (fun p => p = place ∨ p = goal) ∧
      t'.look goal = some (.file text) := by
  obtain ⟨place', goal, moved, hplace', hgoal, hmoved, hfree, rfl⟩ := rename_ok h
  obtain rfl : place = place' := Except.ok.inj (hplace.symm.trans hplace')
  obtain rfl : moved = file text := by
    rw [look, hmoved] at hfile
    cases moved with
    | file text' =>
        cases hfile
        rfl
    | dir entries => cases hfile
  have hsource : ¬t.IsDir place := by
    rw [isDir_iff_look, hfile]
    exact nofun
  -- the target keeps its place while the file is away
  have herased : (t.erase place).locate target = .ok goal :=
    locate_mono (fun _ hdir => (isDir_erase_iff hsource).mpr hdir) hgoal
  have hin := inDirectory_of_locate herased
  have hfree' : ¬(t.erase place).IsDir goal := fun hdir => hfree ((isDir_erase_iff hsource).mp hdir)
  refine ⟨goal, hgoal, fun other => ?_, ?_⟩
  · rw [look_set (fun _ _ => rfl) hin hfree']
    by_cases hother : other = goal
    · exact Or.inr ⟨fun hdir => hfree (hother ▸ isDir_iff_look.mpr hdir), Or.inr hother⟩
    · rw [if_neg hother]
      by_cases hsame : other = place
      · exact Or.inr ⟨fun hdir => hsource (hsame ▸ isDir_iff_look.mpr hdir), Or.inl hsame⟩
      · exact Or.inl (look_erase_of_ne hsource hsame)
  · rw [look_set (fun _ _ => rfl) hin hfree', if_pos rfl]
    rfl

end FileTree
end InfraGraph
