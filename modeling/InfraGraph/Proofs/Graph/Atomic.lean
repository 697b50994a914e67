import InfraGraph.Graph.Store
import InfraGraph.Proofs.Storage.Faults

/-!
# The graph file is the old one or the new one

A graph is saved by three requests, each of which may fail.  Before the last one only the draft is
written, which is never the graph file itself; the last one puts the whole text in its place, or
does nothing.  Main statements:

* `Graph.OnlyDrafted`, `Graph.AllOrNothing` — what has changed before a graph is stored, and at all
  times;
* `Graph.OnlyDrafted.file` — the graph file is untouched until then;
* `Graph.OnlyDrafted.textAt?_eq`, `Graph.AllOrNothing.textAt?_eq` — its text is the old or the new
  one;
* `Graph.save_upholds` — what holds at every moment of saving, and at its end.
-/

namespace InfraGraph
namespace Graph

open FileTree (Node OnWay MayAnswer IsProper properNames)

variable {dir text : String} {t t' t'' : FileTree} {place : List String}

/-- A directory was made for a graph where nothing was. -/
def MadeFor (dir : String) (t t' : FileTree) (place : List String) : Prop :=
  t.look place = none ∧ t'.look place = some .directory ∧ OnWay (Path.components dir) place

/-- Nothing has changed but the draft, and directories that were made. -/
def OnlyDrafted (dir : String) (t t' : FileTree) : Prop :=
  t.AltersOnly t' fun place => t'.locate (draftPath dir) = .ok place ∨ MadeFor dir t t' place

/-- The graph file is what it was, or the whole of a text; nothing else has changed but the draft,
and directories that were made.  The path of the graph file may have led nowhere before, but it
leads to a directory that was made only where the path of the output directory goes up. -/
structure AllOrNothing (dir text : String) (t t' : FileTree) : Prop where
  alters : t.AltersOnly t' fun place => t'.locate (filePath dir) = .ok place ∨
    t'.locate (draftPath dir) = .ok place ∨ MadeFor dir t t' place
  file : ∀ place, t'.locate (filePath dir) = .ok place → t'.look place = t.look place ∨
    t'.look place = some (.file text) ∨ ".." ∈ Path.components dir ∧ MadeFor dir t t' place

/-! ## Places -/

/-- The draft is never the graph file. -/
theorem draft_ne_file (h : t.locate (draftPath dir) = .ok place) :
    t.locate (filePath dir) ≠ .ok place := by
  intro hfile
  obtain ⟨p, _, _, rfl⟩ :=
    (FileTree.locate_join_iff (by decide) ⟨by decide, by decide⟩).mp h
  obtain ⟨q, _, _, hq⟩ :=
    (FileTree.locate_join_iff (by decide) ⟨by decide, by decide⟩).mp hfile
  exact absurd (List.append_inj_right' hq rfl) (by decide)

/-- No directory of the way to the output directory is the graph file, unless the way goes up. -/
theorem up_of_madeFor (h : MadeFor dir t t' place) (hfile : t'.locate (filePath dir) = .ok place) :
    ".." ∈ Path.components dir := by
  refine Decidable.byContradiction fun hup => ?_
  have hnames : t'.locate (filePath dir) = .ok place ↔ _ :=
    FileTree.locate_join_iff_of_no_up (by decide) ⟨by decide, by decide⟩ hup
  obtain ⟨rfl, _⟩ := hnames.mp hfile
  have hlength := (h.2.2 hup).length_le
  simp only [List.length_append, List.length_singleton] at hlength
  omega

/-! ## What has changed -/

/-- Where a directory was made, there was no text and there is none. -/
theorem MadeFor.textAt?_eq (h : MadeFor dir t t' place) : t'.textAt? place = t.textAt? place := by
  rw [FileTree.textAt?_eq_none (Or.inl h.1), FileTree.textAt?_eq_none (Or.inr h.2.1)]

theorem OnlyDrafted.refl (dir : String) (t : FileTree) : OnlyDrafted dir t t :=
  FileTree.AltersOnly.refl t _

/-- Making directories is no writing. -/
theorem onlyDrafted_of_grows (h : t.Grows t' (OnWay (Path.components dir))) :
    OnlyDrafted dir t t' :=
  h.altersOnly.mono fun _ hmade => Or.inr hmade

/-- The graph file is untouched until the graph is stored. -/
theorem OnlyDrafted.file (h : OnlyDrafted dir t t')
    (hplace : t'.locate (filePath dir) = .ok place) :
    t'.look place = t.look place ∨ ".." ∈ Path.components dir ∧ MadeFor dir t t' place := by
  refine (h place).imp_right ?_
  rintro ⟨_, hdraft | hmade⟩
  · exact absurd hplace (draft_ne_file hdraft)
  · exact ⟨up_of_madeFor hmade hplace, hmade⟩

/-- As long as only the draft is written, the graph file is untouched. -/
theorem OnlyDrafted.allOrNothing (h : OnlyDrafted dir t t') (text : String) :
    AllOrNothing dir text t t' where
  alters := h.mono fun _ => Or.inr
  file := fun _ hplace => (h.file hplace).imp_right Or.inr

/-- The graph file has the text that it had, or is absent as it was. -/
theorem OnlyDrafted.textAt?_eq (h : OnlyDrafted dir t t')
    (hplace : t'.locate (filePath dir) = .ok place) : t'.textAt? place = t.textAt? place := by
  rcases h.file hplace with hsame | ⟨_, hmade⟩
  · exact FileTree.textAt?_congr hsame
  · exact hmade.textAt?_eq

/-- The graph file has the text that it had, or is absent as it was, or has the whole of the new
text. -/
theorem AllOrNothing.textAt?_eq (h : AllOrNothing dir text t t')
    (hplace : t'.locate (filePath dir) = .ok place) :
    t'.textAt? place = t.textAt? place ∨ t'.textAt? place = some text := by
  rcases h.file place hplace with hsame | hnew | ⟨_, hmade⟩
  · exact Or.inl (FileTree.textAt?_congr hsame)
  · exact Or.inr (FileTree.textAt?_eq_some hnew)
  · exact Or.inl hmade.textAt?_eq

/-- What was made stays, where nothing else changes. -/
theorem MadeFor.of_look_eq (h : MadeFor dir t t' place) (hsame : t''.look place = t'.look place) :
    MadeFor dir t t'' place :=
  ⟨h.1, hsame.trans h.2.1, h.2.2⟩

/-- The draft is written after directories were made. -/
theorem OnlyDrafted.write (h : OnlyDrafted dir t t')
    (hplace : t'.locate (draftPath dir) = .ok place) (hwrite : t'.AltersOnly t'' (· = place)) :
    OnlyDrafted dir t t'' := by
  refine FileTree.AltersOnly.trans h hwrite (fun other hsame htouched => ?_) ?_
  · exact htouched.imp hwrite.locate fun hmade => hmade.of_look_eq hsame
  · rintro _ rfl
    exact Or.inl (hwrite.locate hplace)

/-- The draft takes the place of the graph file. -/
theorem OnlyDrafted.rename {goal : List String} (h : OnlyDrafted dir t t')
    (hplace : t'.locate (draftPath dir) = .ok place) (hgoal : t'.locate (filePath dir) = .ok goal)
    (hrename : t'.AltersOnly t'' fun p => p = place ∨ p = goal)
    (htext : t''.look goal = some (.file text)) : AllOrNothing dir text t t'' where
  alters := by
    refine FileTree.AltersOnly.trans h hrename (fun other hsame htouched => Or.inr ?_) ?_
    · exact htouched.imp hrename.locate fun hmade => hmade.of_look_eq hsame
    · rintro _ (rfl | rfl)
      · exact Or.inr (Or.inl (hrename.locate hplace))
      · exact Or.inl (hrename.locate hgoal)
  file := by
    intro other hother
    obtain rfl : goal = other := Except.ok.inj ((hrename.locate hgoal).symm.trans hother)
    exact Or.inr (Or.inl htext)

/-! ## Saving -/

/-- At every moment of saving the graph file is what it was, or the whole text of the graph; where
saving fails, it is what it was. -/
theorem save_upholds (dir : String) (g : Graph) (t : FileTree) :
    (save dir g).run.Upholds MayAnswer (AllOrNothing dir g.text t)
      (fun r t' => AllOrNothing dir g.text t t' ∧ match r with
        | .ok _ => t'.read (filePath dir) = .ok g.text
        | .error _ => OnlyDrafted dir t t') t := by
  have hkept : ∀ {t' : FileTree}, OnlyDrafted dir t t' → AllOrNothing dir g.text t t' :=
    fun h => h.allOrNothing _
  refine Attempt.upholds_bind ⟨hkept (.refl dir t), fun made t₁ hmade => ?_⟩
  have hdirs := onlyDrafted_of_grows hmade.of_makeDirs
  cases made with
  | error e => exact ⟨hkept hdirs, hdirs⟩
  | ok u =>
      -- the draft: whatever a failure leaves of it, its place is not that of the graph file
      refine Attempt.upholds_bind ⟨hkept hdirs, fun written t₂ hwritten => ?_⟩
      rcases hwritten.of_write with ⟨⟨e, rfl⟩, rfl⟩ | ⟨place, hplace, hwrite, hfile⟩
      · exact ⟨hkept hdirs, hdirs⟩
      · have hdraft := hdirs.write hplace hwrite
        cases written with
        | error e => exact ⟨hkept hdraft, hdraft⟩
        | ok u =>
            -- the draft holds the whole text by now, so that is what is put in place
            refine Attempt.upholds_bind ⟨hkept hdraft, fun moved t₃ hmoved => ?_⟩
            have hstay := hwrite.locate hplace
            rcases hmoved.of_rename hstay (hfile rfl) with
              ⟨⟨e, rfl⟩, rfl⟩ | ⟨rfl, goal, hgoal, hrename, htext⟩
            · exact ⟨hkept hdraft, hdraft⟩
            · exact ⟨hdraft.rename hstay hgoal hrename htext,
                FileTree.read_eq_ok_iff.mpr ⟨goal, hrename.locate hgoal, htext⟩⟩

end Graph
end InfraGraph
