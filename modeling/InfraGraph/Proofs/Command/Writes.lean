import InfraGraph.Command.Run
import InfraGraph.Proofs.Graph.Atomic

/-!
# What commands write

Commands that show something only read.  Generating reads everything it needs, and fails there if it
fails, before it saves a graph; beginning a project looks whether there is one before anything else.
All of this holds where requests fail, whichever they are and for whatever reason.  Main statements:

* `Command.onlyReads_readPass`, `Command.onlyReads_planLines` and others — what only reads;
* `Command.generateLines_upholds` — nothing is written before a pass is done;
* `Command.initLines_upholds` — what beginning a project changes;
* `Command.all_or_nothing` — commands write all or nothing.
-/

namespace InfraGraph

open FileTree (MayAnswer)
open Attempt (OnlyReads onlyReads_pure onlyReads_throw onlyReads_ofExcept onlyReads_isThere
  onlyReads_read)

/-! ## Commands that only read -/

/-- Loading looks whether there is a file, and reads it. -/
theorem Graph.onlyReads_load (dir : String) : OnlyReads (load dir) := by
  refine (onlyReads_isThere _).bind fun there => ?_
  cases there with
  | false => exact onlyReads_pure none
  | true =>
      exact (onlyReads_read _ _).bind fun text => (onlyReads_ofExcept _ _).bind
        fun g => onlyReads_pure (some g)

namespace Command

variable {directory : String} {t t' t'' : FileTree}

theorem onlyReads_readSchema (file : String) : OnlyReads (readSchema file) :=
  (onlyReads_read _ _).bind fun _ => onlyReads_ofExcept _ _

theorem onlyReads_readValidSchema (file : String) (counted : Bool) :
    OnlyReads (readValidSchema file counted) := by
  refine (onlyReads_readSchema file).bind fun s => ?_
  cases s.violations with
  | nil => exact onlyReads_pure s
  | cons v rest => exact onlyReads_throw _

theorem onlyReads_readLibrary (s : Schema) (library : Option String) :
    OnlyReads (readLibrary s library) := by
  cases library with
  | none => exact onlyReads_pure _
  | some path =>
      exact (onlyReads_read _ _).bind fun text => (onlyReads_ofExcept _ _).bind
        fun further => onlyReads_pure _

/-- Everything that generating needs is read, checked and generated without a change. -/
theorem onlyReads_readPass (file : String) (library : Option String) :
    OnlyReads (readPass file library) :=
  (onlyReads_readValidSchema file false).bind fun s => (onlyReads_readLibrary s library).bind
    fun _ => (onlyReads_ofExcept _ _).bind fun pass => onlyReads_pure (s, pass)

theorem onlyReads_validateLines (file : String) : OnlyReads (validateLines file) :=
  (onlyReads_readValidSchema file true).bind fun _ => onlyReads_pure _

theorem onlyReads_permissionsLines (file : String) (library : Option String) :
    OnlyReads (permissionsLines file library) := by
  refine (onlyReads_readValidSchema file false).bind fun s => (onlyReads_readLibrary s library).bind
    fun _ => (onlyReads_ofExcept _ _).bind fun grants => ?_
  split
  · exact onlyReads_pure _
  · exact onlyReads_pure _

/-- Planning reads the inputs and the stored graph. -/
theorem onlyReads_planLines (file out : String) (library : Option String) :
    OnlyReads (planLines file out library) :=
  (onlyReads_readPass file library).bind fun _ => ((Graph.onlyReads_load out).adapt _).bind
    fun _ => onlyReads_pure _

theorem onlyReads_statusLines (out : String) : OnlyReads (statusLines out) := by
  refine ((Graph.onlyReads_load out).adapt _).bind fun stored => ?_
  cases stored with
  | none => exact onlyReads_pure _
  | some g => exact onlyReads_pure _

/-! ## Generating -/

/-- A graph that is generated from the files of a tree as they are, at some time. -/
def Generates (file : String) (library : Option String) (t : FileTree) (g : Graph) : Prop :=
  ∃ s pass seconds, g = Graph.ofResources s.name pass.resources pass.manifest seconds ∧
    ∀ now, (readPass file library).run.run (FileTree.answer now) t = (.ok (s, pass), t)

/-- At every moment nothing has changed yet, or a graph was generated and is being stored; where
generating fails, the draft is all that may have been written, and only by saving. -/
theorem generateLines_upholds (file out : String) (library : Option String) (t : FileTree) :
    (generateLines file out library).run.Upholds MayAnswer
      (fun t' => t' = t ∨ ∃ g, Generates file library t g ∧ Graph.AllOrNothing out g.text t t')
      (fun r t' => match r with
        | .ok _ => ∃ g, Generates file library t g ∧ Graph.AllOrNothing out g.text t t' ∧
            t'.read (Graph.filePath out) = .ok g.text
        | .error e => t' = t ∨ (∃ cause, e = .save cause) ∧
            ∃ g, Generates file library t g ∧ Graph.OnlyDrafted out t t') t := by
  refine Attempt.upholds_bind ((onlyReads_readPass file library t).mono (fun _ => Or.inl) ?_)
  rintro (e | ⟨s, pass⟩) t' ⟨rfl, hpass⟩
  · exact Or.inl rfl
  -- the tree is still the one that was read
  refine Attempt.upholds_bind ⟨Or.inl rfl, fun seconds t₁ hnow => ?_⟩
  obtain rfl := hnow.of_now
  let g := Graph.ofResources s.name pass.resources pass.manifest seconds
  have hg : Generates file library t₁ g := ⟨s, pass, seconds, rfl, hpass _ rfl⟩
  refine Attempt.upholds_bind (Attempt.upholds_adapt
    ((Graph.save_upholds out g t₁).mono (fun t' h => Or.inr ⟨g, hg, h⟩) ?_))
  rintro (cause | path) t₂ ⟨hall, hend⟩
  · exact Or.inr ⟨⟨cause, rfl⟩, g, hg, hend⟩
  · exact ⟨g, hg, hall, hend⟩

/-! ## Beginning a project -/

def projectPath (directory : String) : String := Path.join directory "app.yaml"

/-- What has changed is a directory that was made, or stands at the place of the schema, where its
path led to nothing before. -/
def OnlyBegun (directory : String) (t t' : FileTree) : Prop :=
  t.AltersOnly t' fun place => t'.locate (projectPath directory) = .ok place ∧
      (∀ p, t.locate (projectPath directory) = .ok p → t.look p = none) ∨
    t.look place = none ∧ t'.look place = some .directory

/-- Directories that were made are all that has changed. -/
theorem onlyBegun_of_grows {made : List String → Prop} (h : t.Grows t' made) :
    OnlyBegun directory t t' :=
  h.altersOnly.mono fun _ hmade => Or.inr ⟨hmade.1, hmade.2.1⟩

/-- The schema is written after directories were made. -/
theorem OnlyBegun.write {place : List String} (h : OnlyBegun directory t t')
    (hnew : t.isThere (projectPath directory) = false)
    (hplace : t'.locate (projectPath directory) = .ok place)
    (hwrite : t'.AltersOnly t'' (· = place)) : OnlyBegun directory t t'' := by
  have hfree : ∀ p, t.locate (projectPath directory) = .ok p → t.look p = none := by
    intro p hp
    refine Decidable.byContradiction fun hsome => ?_
    rw [FileTree.isThere_iff.mpr ⟨p, hp, hsome⟩] at hnew
    cases hnew
  refine FileTree.AltersOnly.trans h hwrite (fun other hsame htouched => ?_) ?_
  · exact htouched.imp (fun ⟨hother, hp⟩ => ⟨hwrite.locate hother, hp⟩)
      (fun ⟨hnone, hdir⟩ => ⟨hnone, hsame.trans hdir⟩)
  · rintro _ rfl
    exact Or.inl ⟨hwrite.locate hplace, hfree⟩

/-- A schema that is there is left alone, with all else; where a project was begun, its schema is
read. -/
theorem initLines_upholds (directory : String) (t : FileTree) :
    (initLines directory).run.Upholds MayAnswer
      (fun t' => (t.isThere (projectPath directory) = true → t' = t) ∧ OnlyBegun directory t t')
      (fun r t' =>
        ((t.isThere (projectPath directory) = true → t' = t) ∧ OnlyBegun directory t t') ∧
        ∀ lines, r = .ok lines → t'.read (projectPath directory) = .ok projectText) t := by
  have hrefl : OnlyBegun directory t t := FileTree.AltersOnly.refl t _
  refine Attempt.upholds_bind ⟨⟨fun _ => rfl, hrefl⟩, fun there t' hthere => ?_⟩
  obtain ⟨rfl, rfl⟩ := hthere.of_isThere
  cases hfound : t'.isThere (Path.join directory "app.yaml") with
  | true => exact Attempt.upholds_bind (Attempt.upholds_throw ⟨⟨fun _ => rfl, hrefl⟩, nofun⟩)
  | false =>
      have hkept : ∀ {t'' : FileTree}, OnlyBegun directory t' t'' →
          (t'.isThere (projectPath directory) = true → t'' = t') ∧ OnlyBegun directory t' t'' := by
        refine fun h => ⟨fun hthere => ?_, h⟩
        rw [projectPath, hfound] at hthere
        cases hthere
      refine Attempt.upholds_bind ⟨hkept hrefl, fun made t₁ hmade => ?_⟩
      have hdirs : OnlyBegun directory t' t₁ := onlyBegun_of_grows hmade.of_makeDirs
      cases made with
      | error e => exact ⟨hkept hdirs, nofun⟩
      | ok u =>
          refine Attempt.upholds_bind ⟨hkept hdirs, fun written t₂ hwritten => ?_⟩
          rcases hwritten.of_write with ⟨⟨e, rfl⟩, rfl⟩ | ⟨place, hplace, hwrite, htext⟩
          · exact ⟨hkept hdirs, nofun⟩
          · have hend := hdirs.write hfound hplace hwrite
            cases written with
            | error e => exact ⟨hkept hend, nofun⟩
            | ok u =>
                exact ⟨hkept hend, fun _ _ =>
                  FileTree.read_eq_ok_iff.mpr ⟨place, hwrite.locate hplace, htext rfl⟩⟩

/-- A file that was there changes only where the path of the schema has come to lead to it, which
it does only where it goes up. -/
theorem OnlyBegun.file {place : List String} {text : String} (h : OnlyBegun directory t t')
    (hfile : t.look place = some (.file text)) (hchanged : t'.look place ≠ some (.file text)) :
    t'.locate (projectPath directory) = .ok place ∧
      (∀ p, t.locate (projectPath directory) ≠ .ok p) ∧ ".." ∈ Path.components directory := by
  rcases h place with hsame | ⟨_, ⟨hplace, hnew⟩ | ⟨hnone, _⟩⟩
  · exact absurd (hsame.trans hfile) hchanged
  · have hnowhere : ∀ p, t.locate (projectPath directory) ≠ .ok p := by
      intro p hp
      -- the path would still lead to the place of the file, where nothing was
      obtain rfl : p = place := Except.ok.inj ((h.locate hp).symm.trans hplace)
      rw [hnew p hp] at hfile
      cases hfile
    refine ⟨hplace, hnowhere, Decidable.byContradiction fun hup => ?_⟩
    have hnames (u : FileTree) : u.locate (projectPath directory) = .ok place ↔ _ :=
      FileTree.locate_join_iff_of_no_up (by decide) ⟨by decide, by decide⟩ hup
    obtain ⟨rfl, _⟩ := (hnames t').mp hplace
    -- the file stood in the directory that its own names lead to, so the path led there before
    have hin := FileTree.inDirectory_of_look (by rw [hfile]; exact nofun)
    rw [FileTree.InDirectory, List.dropLast_concat] at hin
    exact hnowhere _ ((hnames t).mpr ⟨rfl, hin (by simp)⟩)
  · rw [hnone] at hfile
    cases hfile

/-! ## All commands -/

/-- A command comes to a program and a tree, whichever requests have failed. -/
def Leads (c : Command) (t : FileTree) (p : Program (Except Error (List String)))
    (t' : FileTree) : Prop :=
  Program.Leads MayAnswer (c.lines.run, t) (p, t')

/-- A command comes to its end where every request is served. -/
theorem leads_served (c : Command) (t : FileTree) :
    c.Leads t (.done (c.lines.run.run (FileTree.answer 0) t).1)
      (c.lines.run.run (FileTree.answer 0) t).2 :=
  Program.leads_run (fun _ r => MayAnswer.served 0 r) c.lines.run t

/-- At every moment of saving, the graph file is absent or has its old text, as before, or has the
whole of the new text; where saving fails it is as before, and where it succeeds the new text is
read.  Generating changes nothing before a graph was generated from valid files, and where it fails
changes nothing unless saving does.  Commands that show something change nothing at all.  Beginning
a project changes nothing where a schema is found, so that one is left alone with all else.  Files
that are found nowhere by that path are safe too, unless it goes up: then one changes only if the
path leads to it in the end and led to nothing in the beginning.  The text that the path leads to
where beginning succeeds is the one of a new project. -/
theorem all_or_nothing (g : Graph) (file out directory : String) (library : Option String)
    (t t' : FileTree) :
    (∀ p, Program.Leads MayAnswer ((g.save out).run, t) (p, t') →
      Graph.AllOrNothing out g.text t t' ∧
        (∀ place, t'.locate (Graph.filePath out) = .ok place →
          t'.textAt? place = t.textAt? place ∨ t'.textAt? place = some g.text) ∧
        (∀ e, p = .done (.error e) → Graph.OnlyDrafted out t t' ∧
          ∀ place, t'.locate (Graph.filePath out) = .ok place →
            t'.textAt? place = t.textAt? place) ∧
        ∀ path, p = .done (.ok path) → t'.read (Graph.filePath out) = .ok g.text) ∧
    (∀ p, (generate file out library).Leads t p t' →
      (t' = t ∨ ∃ g, Generates file library t g ∧ Graph.AllOrNothing out g.text t t') ∧
        (∀ e, p = .done (.error e) → t' = t ∨ (∃ cause, e = .save cause) ∧
          ∃ g, Generates file library t g ∧ Graph.OnlyDrafted out t t') ∧
        ∀ lines, p = .done (.ok lines) → ∃ g, Generates file library t g ∧
          Graph.AllOrNothing out g.text t t' ∧ t'.read (Graph.filePath out) = .ok g.text) ∧
    (∀ c ∈ [validate file, permissions file library, plan file out library, status out],
      ∀ p, c.Leads t p t' → t' = t) ∧
    ∀ p, (init directory).Leads t p t' →
      (t.isThere (projectPath directory) = true → t' = t) ∧
        (∀ place text, t.look place = some (.file text) → t'.look place ≠ some (.file text) →
          t'.locate (projectPath directory) = .ok place ∧
            (∀ p, t.locate (projectPath directory) ≠ .ok p) ∧
            ".." ∈ Path.components directory) ∧
        ∀ lines, p = .done (.ok lines) → t'.read (projectPath directory) = .ok projectText := by
  refine ⟨?_, ?_, ?_, ?_⟩
  · intro p hleads
    have hsave := Graph.save_upholds out g t
    have hall := hsave.kept_of_leads (fun _ _ hend => hend.1) hleads
    refine ⟨hall, fun place => hall.textAt?_eq, ?_, ?_⟩
    · rintro e rfl
      have hdrafted : Graph.OnlyDrafted out t t' := (hsave.post_of_leads hleads).2
      exact ⟨hdrafted, fun place => hdrafted.textAt?_eq⟩
    · rintro path rfl
      exact (hsave.post_of_leads hleads).2
  · intro p hleads
    have hgenerate := generateLines_upholds file out library t
    refine ⟨hgenerate.kept_of_leads ?_ hleads, ?_, ?_⟩
    · rintro (e | lines) t' hend
      · exact hend.imp_right fun ⟨_, g, hg, hdraft⟩ => ⟨g, hg, hdraft.allOrNothing _⟩
      · obtain ⟨g, hg, hall, _⟩ := hend
        exact Or.inr ⟨g, hg, hall⟩
    · rintro e rfl
      exact hgenerate.post_of_leads hleads
    · rintro lines rfl
      exact hgenerate.post_of_leads hleads
  · intro c hc p hleads
    have hreads : Attempt.OnlyReads c.lines := by
      simp only [List.mem_cons, List.not_mem_nil, or_false] at hc
      rcases hc with rfl | rfl | rfl | rfl
      · exact onlyReads_validateLines file
      · exact onlyReads_permissionsLines file library
      · exact onlyReads_planLines file out library
      · exact onlyReads_statusLines out
    exact hreads.eq_of_leads hleads
  · intro p hleads
    have hinit := initLines_upholds directory t
    obtain ⟨hthere, hbegun⟩ := hinit.kept_of_leads (fun _ _ hend => hend.1) hleads
    refine ⟨hthere, fun place text => hbegun.file, ?_⟩
    rintro lines rfl
    exact (hinit.post_of_leads hleads).2 lines rfl

/-- How a tree answers where there is no room for the text of a file. -/
def fullDisk (t : FileTree) : (r : Request) → r.Response × FileTree
  | .write path _ =>
      match t.write path "" with
      | .ok t' => (Except.error (.other "No space left on device (os error 28)"), t')
      | .error e => (Except.error e, t)
  | r => t.answer 0 r

/-- A full disk is a way in which a tree may answer. -/
theorem mayAnswer_fullDisk (t : FileTree) (r : Request) :
    t.MayAnswer r (fullDisk t r).1 (fullDisk t r).2 := by
  cases r with
  | write path text =>
      rw [fullDisk]
      split
      · next t' hwrite => exact .torn path text _ _ hwrite
      · next e _ => exact .unwritten path text e
  | _ => exact .served 0 _

/-- A project whose graph was generated before. -/
def begunProject : FileTree :=
  .dir [("app.yaml", .file "version: \"1.0\"\nname: shop\nregion: us-east-1\naccount: root\n"),
    ("out", .dir [("graph.json", .file "old")])]

/-- On a full disk a draft is begun, and the graph file stays.  Otherwise it is replaced, but not
where the schema is missing; showing the graph or beginning the project again changes nothing. -/
theorem all_or_nothing_fullDisk :
    (∃ cause t',
      (generate "app.yaml" "out" none).Leads begunProject (.done (.error (.save cause))) t' ∧
      t'.look ["out", "graph.json.tmp"] = some (.file "") ∧
      t'.look ["out", "graph.json"] = some (.file "old")) ∧
    (∃ g lines t', (generate "app.yaml" "out" none).Leads begunProject (.done (.ok lines)) t' ∧
      Generates "app.yaml" none begunProject g ∧ t'.read "out/graph.json" = .ok g.text) ∧
    (∃ e t', (generate "other.yaml" "out" none).Leads begunProject (.done (.error e)) t' ∧
      t' = begunProject) ∧
    (∃ lines t', (status "out").Leads begunProject (.done lines) t' ∧ t' = begunProject) ∧
    ∃ e t', (init ".").Leads begunProject (.done (.error e)) t' ∧ t' = begunProject := by
  have hstart (t' : FileTree) (file : String) :=
    all_or_nothing (Graph.ofResources "shop" [] .empty 0) file "out" "." none begunProject t'
  refine ⟨?_, ?_, ?_, ?_, ?_⟩
  · let full := (generate "app.yaml" "out" none).lines.run.run fullDisk begunProject
    have hleads : (generate "app.yaml" "out" none).Leads begunProject (.done full.1) full.2 :=
      Program.leads_run mayAnswer_fullDisk _ begunProject
    have hdraft : full.2.look ["out", "graph.json.tmp"] = some (.file "") := by decide +kernel
    have hfails : full.1.toOption.isNone = true := by decide +kernel
    cases hend : full.1 with
    | ok lines => simp [hend, Except.toOption] at hfails
    | error e =>
        rw [hend] at hleads
        obtain ⟨_, hgenerate, _⟩ := hstart full.2 "app.yaml"
        rcases (hgenerate _ hleads).2.1 e rfl with hsame | ⟨⟨cause, rfl⟩, _, _, hdrafted⟩
        · rw [hsame] at hdraft
          cases hdraft
        · refine ⟨cause, _, hleads, hdraft, ?_⟩
          have hplace : full.2.locate (Graph.filePath "out") = .ok ["out", "graph.json"] :=
            hdrafted.locate rfl
          rcases hdrafted.file hplace with hfile | ⟨hup, _⟩
          · exact hfile
          · exact absurd hup (by decide)
  · let served := (generate "app.yaml" "out" none).lines.run.run (FileTree.answer 0) begunProject
    have hsucceeds : served.1.toOption.isSome = true := by decide +kernel
    have hleads := leads_served (generate "app.yaml" "out" none) begunProject
    cases hend : served.1 with
    | error e => simp [hend, Except.toOption] at hsucceeds
    | ok lines =>
        rw [hend] at hleads
        obtain ⟨_, hgenerate, _⟩ := hstart served.2 "app.yaml"
        obtain ⟨g, hg, _, hread⟩ := (hgenerate _ hleads).2.2 lines rfl
        exact ⟨g, lines, _, hleads, hg, hread⟩
  · let served := (generate "other.yaml" "out" none).lines.run.run (FileTree.answer 0) begunProject
    have hleads : (generate "other.yaml" "out" none).Leads begunProject
        (.done (.error (.unreadableSchema "other.yaml" .notFound))) served.2 :=
      leads_served (generate "other.yaml" "out" none) begunProject
    obtain ⟨_, hgenerate, _⟩ := hstart served.2 "other.yaml"
    exact ⟨_, _, hleads, by simpa using (hgenerate _ hleads).2.1 _ rfl⟩
  · have hleads := leads_served (status "out") begunProject
    obtain ⟨_, _, hshow, _⟩ := hstart _ ""
    exact ⟨_, _, hleads, hshow (status "out") (by simp) _ hleads⟩
  · let served := (init ".").lines.run.run (FileTree.answer 0) begunProject
    have hleads : (init ".").Leads begunProject (.done (.error (.projectExists "./app.yaml")))
        served.2 :=
      leads_served (init ".") begunProject
    obtain ⟨_, _, _, hinit⟩ := hstart served.2 ""
    exact ⟨_, _, hleads, (hinit _ hleads).1 rfl⟩

end Command
end InfraGraph
