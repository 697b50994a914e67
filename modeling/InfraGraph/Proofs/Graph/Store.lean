import InfraGraph.Graph.Store
import InfraGraph.Proofs.Storage.Program
import InfraGraph.Proofs.Storage.Tree

/-!
# Saved graphs are loaded

A graph is saved by writing the text of its file to a draft, which then takes the place of the
stored file.  Whatever stood there before, that text is what is loaded next.  Main statements:

* `Graph.save_ok` — what has happened where a graph was saved;
* `Graph.load_of_read` — what is loaded from the text of a file;
* `Graph.load_of_save` — a graph that is read back from its text is loaded once it is saved.
-/

namespace InfraGraph

/-- A state is left by a request that succeeds. -/
theorem FileTree.commit_ok {t : FileTree} {r : Except OsError FileTree} {u : Unit}
    (h : (t.commit r).1 = .ok u) : r = .ok (t.commit r).2 := by
  cases r with
  | ok t' => rfl
  | error e => cases h

namespace Graph

variable {dir path : String} {g : Graph} {t t' : FileTree} {now : UInt64}

theorem mapError_eq_ok_iff {α δ ε : Type} {error : δ → ε} {r : Except δ α} {a : α} :
    r.mapError error = .ok a ↔ r = .ok a := by
  cases r <;> simp [Except.mapError]

/-- A graph was saved: the directory is there, and the text was written to the draft and put in the
place of the file. -/
theorem save_ok (h : (save dir g).run.run (FileTree.answer now) t = (.ok path, t')) :
    ∃ t₁ t₂, t.makeDirs dir = (.ok (), t₁) ∧ t₁.write (draftPath dir) g.text = .ok t₂ ∧
      t₂.rename (draftPath dir) (filePath dir) = .ok t' ∧ path = filePath dir := by
  simp only [save, Attempt.run_bind_eq_ok_iff, Attempt.run_makeDirs, Attempt.run_write,
    Attempt.run_rename, Attempt.run_pure, FileTree.answer, Prod.mk.injEq, mapError_eq_ok_iff] at h
  obtain ⟨_, t₁, ⟨hdir, rfl⟩, _, t₂, ⟨hwrite, rfl⟩, _, t₃, ⟨hrename, rfl⟩, hpath, rfl⟩ := h
  exact ⟨_, _, Prod.ext hdir rfl, FileTree.commit_ok hwrite, FileTree.commit_ok hrename,
    (Except.ok.inj hpath).symm⟩

/-- What is loaded from the text of a file. -/
theorem load_of_read {text : String} (h : t.read (filePath dir) = .ok text)
    (hg : ofText text = .ok g) :
    (load dir).run.run (FileTree.answer now) t = (.ok (some g), t) := by
  refine Attempt.run_bind_eq_ok_iff.mpr ⟨true, t, ?_, ?_⟩
  · show (Except.ok (t.isThere (filePath dir)), t) = (Except.ok true, t)
    rw [FileTree.isThere_of_read h]
  rw [if_pos rfl]
  refine Attempt.run_bind_eq_ok_iff.mpr ⟨text, t, ?_, ?_⟩
  · rw [Attempt.run_read, FileTree.answer, h]
    rfl
  · refine Attempt.run_bind_eq_ok_iff.mpr ⟨g, t, ?_, rfl⟩
    rw [Attempt.run_ofExcept, hg]
    rfl

/-- A graph that is read back from its text is loaded once it is saved. -/
theorem load_of_save (hg : ofText g.text = .ok g)
    (h : (save dir g).run.run (FileTree.answer now) t = (.ok path, t')) (later : UInt64) :
    (load dir).run.run (FileTree.answer later) t' = (.ok (some g), t') := by
  obtain ⟨_, _, _, hwrite, hrename, _⟩ := save_ok h
  exact load_of_read (FileTree.read_of_rename hwrite hrename) hg

end Graph
end InfraGraph
