import InfraGraph.Proofs.Storage.Change
import InfraGraph.Proofs.Storage.Course

/-!
# Requests that may fail

A file system that works answers every request as the tree does.  One that may fail can instead
answer that a request was not possible, at any time and for any reason: some of the directories on
the way are made then, and any text may stand in the file that was to be written.  Renaming does its
work or does nothing.  Main statements:

* `FileTree.MayAnswer` — the answers that are possible;
* `FileTree.MayAnswer.of_makeDirs` and others — what is left by each request;
* `Attempt.OnlyReads`, `Attempt.OnlyReads.bind` — programs that only read, whose values are right
  whichever requests fail.
-/

namespace InfraGraph

namespace FileTree

variable {t t' : FileTree} {path source target text : String} {place : List String}

/-- How a tree may answer a request, and what it leaves. -/
inductive MayAnswer (t : FileTree) : (r : Request) → r.Response → FileTree → Prop where
  /-- The request is served, at some time. -/
  | served (seconds : UInt64) (r : Request) :
      MayAnswer t r (t.answer seconds r).1 (t.answer seconds r).2
  | unread (path : String) (e : OsError) : MayAnswer t (.read path) (Except.error e) t
  /-- Only the first directories on the way are made. -/
  | unmade (path : String) (e : OsError) (n : Nat) : MayAnswer t (.makeDirs path) (Except.error e)
      (t.ensureDirs [] ((properNames (Path.components path)).take n)).2
  | unwritten (path text : String) (e : OsError) : MayAnswer t (.write path text) (Except.error e) t
  /-- Some other text is left, such as a part of the one to be written. -/
  | torn (path text part : String) (e : OsError) {t' : FileTree} (h : t.write path part = .ok t') :
      MayAnswer t (.write path text) (Except.error e) t'
  | unmoved (source target : String) (e : OsError) :
      MayAnswer t (.rename source target) (Except.error e) t

namespace MayAnswer

/-- The answer says whether there is something, and the files stay. -/
theorem of_isThere {response : Bool} (h : t.MayAnswer (.isThere path) response t') :
    response = t.isThere path ∧ t' = t := by
  cases h with
  | served seconds => exact ⟨rfl, rfl⟩

/-- The clock may say anything, and the files stay. -/
theorem of_now {response : UInt64} (h : t.MayAnswer .now response t') : t' = t := by
  cases h with
  | served seconds => rfl

/-- A text that is read is the one of the file. -/
theorem of_read {response : Except OsError String} (h : t.MayAnswer (.read path) response t') :
    t' = t ∧ ∀ text, response = .ok text → t.read path = .ok text := by
  cases h with
  | served seconds => exact ⟨rfl, fun _ => id⟩
  | unread path e => exact ⟨rfl, nofun⟩

/-- Whether or not directories could be made, nothing else has changed. -/
theorem of_makeDirs {response : Except OsError Unit}
    (h : t.MayAnswer (.makeDirs path) response t') :
    t.Grows t' (OnWay (Path.components path)) := by
  cases h with
  | served seconds => exact grows_makeDirs
  | unmade path e n => exact grows_ensureDirs_take n

/-- A file that could not be written is as it was, or else its place alone has changed. -/
theorem of_write {response : Except OsError Unit} (h : t.MayAnswer (.write path text) response t') :
    (∃ e, response = .error e) ∧ t' = t ∨
      ∃ place, t.locate path = .ok place ∧ t.AltersOnly t' (· = place) ∧
        (response = .ok () → t'.look place = some (.file text)) := by
  cases h with
  | served seconds =>
      rw [answer]
      cases hwrite : t.write path text with
      | error e => exact Or.inl ⟨⟨e, rfl⟩, rfl⟩
      | ok written =>
          obtain ⟨place, hplace, halters, hfile⟩ := altersOnly_of_write hwrite
          exact Or.inr ⟨place, hplace, halters, fun _ => hfile⟩
  | unwritten path text e => exact Or.inl ⟨⟨e, rfl⟩, rfl⟩
  | torn path text part e hwrite =>
      obtain ⟨place, hplace, halters, _⟩ := altersOnly_of_write hwrite
      exact Or.inr ⟨place, hplace, halters, nofun⟩

/-- A file is moved, or nothing has changed. -/
theorem of_rename {response : Except OsError Unit} (hplace : t.locate source = .ok place)
    (hfile : t.look place = some (.file text))
    (h : t.MayAnswer (.rename source target) response t') :
    (∃ e, response = .error e) ∧ t' = t ∨
      response = .ok () ∧ ∃ goal, t.locate target = .ok goal ∧
        t.AltersOnly t' (fun p => p = place ∨ p = goal) ∧ t'.look goal = some (.file text) := by
  cases h with
  | served seconds =>
      rw [answer]
      cases hrename : t.rename source target with
      | error e => exact Or.inl ⟨⟨e, rfl⟩, rfl⟩
      | ok moved => exact Or.inr ⟨rfl, altersOnly_of_rename hplace hfile hrename⟩
  | unmoved source target e => exact Or.inl ⟨⟨e, rfl⟩, rfl⟩

end MayAnswer
end FileTree

/-! ## Programs that only read -/

namespace Attempt

open FileTree (MayAnswer)

variable {α β δ ε : Type} {x : Attempt ε α} {t t' : FileTree}

/-- Nothing is changed, and a value that comes out is the one that comes out where nothing fails. -/
def OnlyReads (x : Attempt ε α) : Prop := ∀ t, x.run.Upholds MayAnswer (· = t)
  (fun r t' => t' = t ∧ ∀ a, r = .ok a →
    ∀ seconds, x.run.run (FileTree.answer seconds) t = (.ok a, t)) t

theorem onlyReads_pure (a : α) : (pure a : Attempt ε α).OnlyReads := by
  refine fun t => upholds_pure ⟨rfl, ?_⟩
  rintro _ ⟨⟩ seconds
  rfl

theorem onlyReads_throw (e : ε) : (throw e : Attempt ε α).OnlyReads :=
  fun _ => upholds_throw ⟨rfl, nofun⟩

theorem onlyReads_ofExcept (error : δ → ε) (r : Except δ α) : (ofExcept error r).OnlyReads := by
  cases r with
  | ok a => exact onlyReads_pure a
  | error e => exact onlyReads_throw (error e)

theorem onlyReads_isThere (path : String) :
    (ask (.isThere path) : Attempt ε (Request.isThere path).Response).OnlyReads := by
  refine fun t => ⟨rfl, fun response t' hanswer => ?_⟩
  obtain ⟨hthere, rfl⟩ := MayAnswer.of_isThere hanswer
  refine ⟨rfl, ?_⟩
  rintro _ ⟨⟩ seconds
  rw [hthere]
  rfl

theorem onlyReads_read (path : String) (error : OsError → ε) : (read path error).OnlyReads := by
  refine fun t => ⟨rfl, fun response t' hanswer => ?_⟩
  obtain ⟨rfl, htext⟩ := MayAnswer.of_read hanswer
  cases response with
  | error e => exact ⟨rfl, nofun⟩
  | ok text =>
      refine ⟨rfl, ?_⟩
      rintro _ ⟨⟩ seconds
      rw [run_read, FileTree.answer, htext text rfl]
      rfl

theorem OnlyReads.bind {f : α → Attempt ε β} (hx : x.OnlyReads) (hf : ∀ a, (f a).OnlyReads) :
    (x >>= f).OnlyReads := by
  refine fun t => upholds_bind ((hx t).mono (fun _ => id) ?_)
  rintro (e | a) t' ⟨rfl, hvalue⟩
  · exact ⟨rfl, nofun⟩
  · refine (hf a t').mono (fun _ => id) ?_
    rintro r t'' ⟨rfl, hnext⟩
    exact ⟨rfl, fun b hb seconds =>
      run_bind_eq_ok_iff.mpr ⟨a, _, hvalue a rfl seconds, hnext b hb seconds⟩⟩

/-- An error may be turned into another one. -/
theorem OnlyReads.adapt (hx : x.OnlyReads) (f : ε → δ) : OnlyReads (x.adapt f) := by
  refine fun t => upholds_adapt ((hx t).mono (fun _ => id) ?_)
  rintro (e | a) t' ⟨rfl, hvalue⟩
  · exact ⟨rfl, nofun⟩
  · refine ⟨rfl, ?_⟩
    rintro _ ⟨⟩ seconds
    have hrun : (x.adapt f).run.run (FileTree.answer seconds) t' =
        ((x.run.run (FileTree.answer seconds) t').1.mapError f,
          (x.run.run (FileTree.answer seconds) t').2) :=
      Program.run_bind x.run (fun r => .done (r.mapError f)) t'
    rw [hrun, hvalue a rfl seconds]
    rfl

/-- A program that only reads leaves every tree as it is. -/
theorem OnlyReads.eq_of_leads (hx : x.OnlyReads) {p : Program (Except ε α)}
    (h : Program.Leads MayAnswer (x.run, t) (p, t')) : t' = t :=
  (hx t).kept_of_leads (fun _ _ hend => hend.1) h

end Attempt
end InfraGraph
