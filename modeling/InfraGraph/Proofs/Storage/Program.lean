import InfraGraph.Storage.Program

/-!
# Running programs step by step

A program that may fail runs to a value iff each of its steps does, one after the other, on the
state that the steps before have left.  Main statements:

* `Program.run_bind` — a program that goes on with another one;
* `Attempt.run_bind_eq_ok_iff` — the same of programs that may fail, where the value is there;
* `Attempt.run_read`, `Attempt.run_write` and others — single requests.
-/

namespace InfraGraph

variable {σ α β δ ε : Type} {answer : σ → (r : Request) → r.Response × σ} {s s' : σ}

/-- A program runs first, and the next goes on from where it ended. -/
theorem Program.run_bind (p : Program α) (k : α → Program β) (s : σ) :
    (p >>= k).run answer s = (k (p.run answer s).1).run answer (p.run answer s).2 := by
  induction p generalizing s with
  | done a => rfl
  | ask r next ih => exact ih _ _

namespace Attempt

/-- A value comes out iff one comes out of the first program, and then out of the rest. -/
theorem run_bind_eq_ok_iff {x : Attempt ε α} {f : α → Attempt ε β} {b : β} :
    (x >>= f).run.run answer s = (.ok b, s') ↔
      ∃ a s₁, x.run.run answer s = (.ok a, s₁) ∧ (f a).run.run answer s₁ = (.ok b, s') := by
  have hbind : (x >>= f).run.run answer s =
      (ExceptT.bindCont f (x.run.run answer s).1).run answer (x.run.run answer s).2 :=
    Program.run_bind x.run (ExceptT.bindCont f) s
  rw [hbind]
  rcases x.run.run answer s with ⟨result, s₁⟩
  cases result with
  | ok a =>
      constructor
      · exact fun h => ⟨a, s₁, rfl, h⟩
      · rintro ⟨_, _, ⟨⟩, h⟩
        exact h
  | error e =>
      constructor
      · rintro ⟨⟩
      · rintro ⟨_, _, ⟨⟩, _⟩

@[simp]
theorem run_pure (a : α) : (pure a : Attempt ε α).run.run answer s = (.ok a, s) := rfl

@[simp]
theorem run_ask (r : Request) :
    (ask r : Attempt ε r.Response).run.run answer s = (.ok (answer s r).1, (answer s r).2) := rfl

@[simp]
theorem run_ofExcept (error : δ → ε) (r : Except δ α) :
    (ofExcept error r).run.run answer s = (r.mapError error, s) := rfl

/-- Running a request that fails with an error of the file system. -/
theorem run_makeDirs (path : String) (error : OsError → ε) :
    (makeDirs path error).run.run answer s =
      (Except.mapError error (answer s (.makeDirs path)).1, (answer s (.makeDirs path)).2) := rfl

theorem run_read (path : String) (error : OsError → ε) :
    (read path error).run.run answer s =
      (Except.mapError error (answer s (.read path)).1, (answer s (.read path)).2) := rfl

theorem run_write (path text : String) (error : OsError → ε) :
    (write path text error).run.run answer s =
      (Except.mapError error (answer s (.write path text)).1,
        (answer s (.write path text)).2) := rfl

theorem run_rename (source target : String) (error : OsError → ε) :
    (rename source target error).run.run answer s =
      (Except.mapError error (answer s (.rename source target)).1,
        (answer s (.rename source target)).2) := rfl

end Attempt
end InfraGraph
