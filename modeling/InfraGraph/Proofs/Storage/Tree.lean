import InfraGraph.Storage.Tree
import Mathlib.Data.List.Basic

/-!
# Files stay where they are put

The place of a path is found through directories alone, and files are put and removed only where no
directory stands.  So paths keep their places, and a file that is renamed is read under its new
path.  Main statements:

* `FileTree.IsDir`, `FileTree.InDirectory` — places of directories, and places in one;
* `FileTree.get?_set_self` — what is put at a place stands there;
* `FileTree.IsDir.set`, `FileTree.isDir_erase_iff` — directories stay;
* `FileTree.locate_mono` — paths keep their places;
* `FileTree.read_of_rename` — a file that is written and renamed is read under its new path.
-/

namespace InfraGraph
namespace FileTree

variable {t t' : FileTree} {entries : List (String × FileTree)} {name : String}
  {place other rest : List String} {new : FileTree}

/-! ## Directories -/

def IsDir (t : FileTree) (place : List String) : Prop :=
  ∃ entries, t.get? place = some (dir entries)

/-- There is a directory right above a place, unless it is the top. -/
def InDirectory (t : FileTree) (place : List String) : Prop := place ≠ [] → t.IsDir place.dropLast

theorem get?_dir_cons : (dir entries).get? (name :: rest) =
    (Entries.get? name entries).bind fun t => t.get? rest := by
  rw [get?]
  cases Entries.get? name entries <;> rfl

/-- A place below a directory is reached by its first name. -/
theorem isDir_dir_cons_iff :
    (dir entries).IsDir (name :: rest) ↔
      ∃ u, Entries.get? name entries = some u ∧ u.IsDir rest := by
  simp only [IsDir, get?_dir_cons, Option.bind_eq_some_iff]
  exact ⟨fun ⟨inner, u, hu, h⟩ => ⟨u, hu, inner, h⟩, fun ⟨u, hu, inner, h⟩ => ⟨inner, u, hu, h⟩⟩

theorem not_isDir_file {text : String} : ¬(file text).IsDir place := by
  cases place <;> simp [IsDir, get?]

/-- There is a directory above every directory. -/
theorem IsDir.of_append {below : List String} (h : t.IsDir (place ++ below)) : t.IsDir place := by
  induction place generalizing t with
  | nil =>
      cases t with
      | file text => exact absurd h not_isDir_file
      | dir entries => exact ⟨entries, rfl⟩
  | cons name rest ih =>
      cases t with
      | file text => exact absurd h not_isDir_file
      | dir entries =>
          obtain ⟨u, hu, h⟩ := isDir_dir_cons_iff.mp h
          exact isDir_dir_cons_iff.mpr ⟨u, hu, ih h⟩

theorem IsDir.top (h : t.IsDir place) : t.IsDir [] := by
  have habove : t.IsDir ([] ++ place) := h
  exact habove.of_append

/-- In the tree at a name, what stands in a directory stands in one as well. -/
theorem InDirectory.of_cons (h : t.InDirectory (name :: rest)) :
    ∃ entries, t = dir entries ∧ ((Entries.get? name entries).getD empty).InDirectory rest := by
  have habove := h (by simp)
  cases t with
  | file text => exact absurd habove not_isDir_file
  | dir entries =>
      refine ⟨entries, rfl, fun hrest => ?_⟩
      rw [List.dropLast_cons_of_ne_nil hrest] at habove
      obtain ⟨u, hu, habove⟩ := isDir_dir_cons_iff.mp habove
      rwa [hu]

/-! ## Putting and removing -/

/-- What is put at a place stands there. -/
theorem get?_set_self (h : t.InDirectory place) : (t.set place new).get? place = some new := by
  induction place generalizing t with
  | nil => simp [set, get?]
  | cons name rest ih =>
      obtain ⟨entries, rfl, hinner⟩ := h.of_cons
      rw [set, get?_dir_cons, Entries.get?_insert_self, Option.bind_some, ih hinner]

/-- Directories stay where something is put in the place of no directory. -/
theorem IsDir.set (h : t.IsDir other) (hfree : ¬t.IsDir place) : (t.set place new).IsDir other := by
  induction place generalizing t other with
  | nil => exact absurd h.top hfree
  | cons name rest ih =>
      cases t with
      | file text => exact h
      | dir entries =>
          cases other with
          | nil => exact ⟨_, rfl⟩
          | cons first below =>
              obtain ⟨u, hu, hbelow⟩ := isDir_dir_cons_iff.mp h
              refine isDir_dir_cons_iff.mpr ?_
              -- below another name nothing changes
              by_cases hname : name = first
              · subst hname
                refine ⟨_, Entries.get?_insert_self, ?_⟩
                rw [hu]
                exact ih hbelow fun hrest => hfree (isDir_dir_cons_iff.mpr ⟨u, hu, hrest⟩)
              · exact ⟨u, (Entries.get?_insert_of_ne hname).trans hu, hbelow⟩

theorem get?_filter_self :
    Entries.get? name (entries.filter fun e => e.1 != name) = none :=
  Entries.get?_eq_none_iff.mpr (by simp)

theorem get?_filter_of_ne {first : String} (hne : name ≠ first) :
    Entries.get? first (entries.filter fun e => e.1 != name) = Entries.get? first entries := by
  induction entries with
  | nil => rfl
  | cons e rest ih =>
      by_cases h : e.1 = name
      · simp [h, Entries.get?, ih, hne]
      · simp [h, Entries.get?, ih]

/-- Where no directory is removed, the directories are the same. -/
theorem isDir_erase_iff (hfree : ¬t.IsDir place) : (t.erase place).IsDir other ↔ t.IsDir other := by
  induction place generalizing t other with
  | nil => rfl
  | cons name rest ih =>
      cases t with
      | file text => rfl
      | dir entries =>
          cases other with
          | nil =>
              refine iff_of_true ?_ ⟨entries, rfl⟩
              cases rest with
              | nil => exact ⟨_, rfl⟩
              | cons next rest =>
                  rw [erase]
                  split <;> exact ⟨_, rfl⟩
          | cons first below =>
              cases rest with
              | nil =>
                  rw [erase, isDir_dir_cons_iff, isDir_dir_cons_iff]
                  by_cases hname : name = first
                  · -- the entry that is removed is no directory
                    subst hname
                    rw [get?_filter_self]
                    refine iff_of_false (by simp) fun ⟨u, hu, hbelow⟩ => ?_
                    exact hfree (isDir_dir_cons_iff.mpr ⟨u, hu, hbelow.top⟩)
                  · rw [get?_filter_of_ne hname]
              | cons next rest =>
                  rw [erase]
                  cases hentry : Entries.get? name entries with
                  | none => rfl
                  | some u =>
                      rw [isDir_dir_cons_iff, isDir_dir_cons_iff]
                      by_cases hname : name = first
                      · subst hname
                        have hu : ¬u.IsDir (next :: rest) := fun h =>
                          hfree (isDir_dir_cons_iff.mpr ⟨u, hentry, h⟩)
                        simp [Entries.get?_insert_self, hentry, ih hu]
                      · rw [Entries.get?_insert_of_ne hname]

/-! ## Places of paths -/

/-- A path leads to the top, or to a place in a directory. -/
theorem inDirectory_of_locateFrom {place names goal : List String}
    (h : t.InDirectory place.reverse) (hgoal : t.locateFrom place names = .ok goal) :
    t.InDirectory goal := by
  induction names generalizing place with
  | nil =>
      cases hgoal
      exact h
  | cons name rest ih =>
      rw [locateFrom] at hgoal
      split at hgoal
      · next entries hdir =>
        split at hgoal
        · exact ih h hgoal
        · split at hgoal
          · -- the place above a directory is in the directory above that
            refine ih (fun _ => ?_) hgoal
            have hplace : t.IsDir (place.tail.reverse ++ place.head?.toList) := by
              cases place <;> exact ⟨entries, by simpa using hdir⟩
            obtain ⟨last, hlast⟩ := List.dropLast_prefix place.tail.reverse
            have habove := hplace.of_append
            rw [← hlast] at habove
            exact habove.of_append
          · exact ih (fun _ => ⟨entries, by simpa using hdir⟩) hgoal
      · cases hgoal
      · cases hgoal

/-- Where a path leads is in a directory: each step but the last went through one. -/
theorem inDirectory_of_locate {path : String} (h : t.locate path = .ok place) :
    t.InDirectory place :=
  inDirectory_of_locateFrom (fun hne => absurd rfl hne) h

/-- Where all directories stay, names lead to the same place. -/
theorem locateFrom_mono (hstay : ∀ place, t.IsDir place → t'.IsDir place)
    {place names goal : List String} (h : t.locateFrom place names = .ok goal) :
    t'.locateFrom place names = .ok goal := by
  induction names generalizing place with
  | nil => exact h
  | cons name rest ih =>
      rw [locateFrom] at h ⊢
      split at h
      · next entries hdir =>
        obtain ⟨entries', hdir'⟩ := hstay _ ⟨entries, hdir⟩
        simp only [hdir']
        split at h
        · next hdot => rw [if_pos hdot, ih h]
        · next hdot =>
          rw [if_neg hdot]
          split at h
          · next hup => rw [if_pos hup, ih h]
          · next hup => rw [if_neg hup, ih h]
      · cases h
      · cases h

/-- Where all directories stay, a path keeps its place. -/
theorem locate_mono (hstay : ∀ place, t.IsDir place → t'.IsDir place) {path : String}
    (h : t.locate path = .ok place) : t'.locate path = .ok place :=
  locateFrom_mono hstay h

/-! ## Files -/

/-- Writing puts a file in the place of no directory. -/
theorem write_ok {path text : String} (h : t.write path text = .ok t') :
    ∃ place, t.locate path = .ok place ∧ ¬t.IsDir place ∧ t' = t.set place (file text) := by
  unfold write at h
  cases hplace : t.locate path with
  | error e => simp [hplace, bind, Except.bind] at h
  | ok place =>
      simp only [hplace, bind, Except.bind] at h
      split at h
      · cases h
      · next hfree =>
        cases h
        exact ⟨place, rfl, fun ⟨entries, hdir⟩ => hfree entries hdir, rfl⟩

/-- Renaming puts what stands at one place in the place of no directory. -/
theorem rename_ok {source target : String} (h : t.rename source target = .ok t') :
    ∃ place goal moved, t.locate source = .ok place ∧ t.locate target = .ok goal ∧
      t.get? place = some moved ∧ ¬t.IsDir goal ∧ t' = (t.erase place).set goal moved := by
  unfold rename at h
  cases hplace : t.locate source with
  | error e => simp [hplace, bind, Except.bind] at h
  | ok place =>
      cases hgoal : t.locate target with
      | error e => simp [hplace, hgoal, bind, Except.bind] at h
      | ok goal =>
          simp only [hplace, hgoal, bind, Except.bind] at h
          split at h
          · cases h
          · cases h
          · next moved hmoved hfree =>
            cases h
            exact ⟨place, goal, moved, rfl, rfl, hmoved,
              fun ⟨entries, hdir⟩ => hfree entries hdir, rfl⟩

/-- A file that is written and renamed is read under its new path. -/
theorem read_of_rename {draft target text : String} {t₁ t₂ : FileTree}
    (hwrite : t.write draft text = .ok t₁) (hrename : t₁.rename draft target = .ok t₂) :
    t₂.read target = .ok text := by
  obtain ⟨place, hplace, hfree, rfl⟩ := write_ok hwrite
  obtain ⟨place', goal, moved, hplace', hgoal, hmoved, hnodir, rfl⟩ := rename_ok hrename
  set written := t.set place (file text)
  have hfile : written.get? place = some (file text) := get?_set_self (inDirectory_of_locate hplace)
  -- the draft keeps its place, so what is moved is what was written
  obtain rfl : place = place' := by
    have hstay : written.locate draft = .ok place := locate_mono (fun _ h => h.set hfree) hplace
    rw [hplace'] at hstay
    exact (Except.ok.inj hstay).symm
  obtain rfl : moved = file text := by
    rw [hfile] at hmoved
    exact (Option.some.inj hmoved).symm
  have hdraft : ¬written.IsDir place := by
    rintro ⟨entries, hdir⟩
    rw [hfile] at hdir
    cases hdir
  -- no directory is removed or replaced, so the target has its place in all three trees
  have herase : (written.erase place).locate target = .ok goal :=
    locate_mono (fun _ h => (isDir_erase_iff hdraft).mpr h) hgoal
  have hgoal' : ¬(written.erase place).IsDir goal := fun h => hnodir ((isDir_erase_iff hdraft).mp h)
  have hset : ((written.erase place).set goal (file text)).locate target = .ok goal :=
    locate_mono (fun _ h => h.set hgoal') herase
  rw [read, hset]
  simp [bind, Except.bind, get?_set_self (inDirectory_of_locate herase)]
  rfl

/-- What is read is there. -/
theorem isThere_of_read {path text : String} (h : t.read path = .ok text) :
    t.isThere path = true := by
  unfold read at h
  unfold isThere
  cases hplace : t.locate path with
  | error e => simp [hplace, bind, Except.bind] at h
  | ok place =>
      simp only [hplace, bind, Except.bind] at h
      cases hget : t.get? place with
      | none => simp [hget] at h
      | some found => simp [hget]

end FileTree
end InfraGraph
