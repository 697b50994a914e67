import InfraGraph.Proofs.Distinct
import InfraGraph.Proofs.Name

/-!
# The runs that names are made of

A name sees of its texts their maximal alphanumeric runs, one text after the other, and of these not
the case of the letters.  Main statements:

* `Text.Blocks` — the maximal blocks of a text, said by taking the text apart, and
  `Text.blocks_iff`, by which `Text.runs` finds them;
* `Name.HasRuns`, `Name.hasRuns_iff` — the same for a list of texts;
* `Name.SameRuns` — runs that are equal but for the case of letters;
* `Name.words_eq_iff` — texts have the same words iff they have the same runs, where the single run
  `root` counts as much as no run at all.
-/

namespace InfraGraph

namespace Text

variable {p : Char → Bool} {cs : List Char} {rs : List (List Char)}

/-- A text and its maximal blocks of wanted characters, in order. -/
inductive Blocks (p : Char → Bool) : List Char → List (List Char) → Prop
  | nil : Blocks p [] []
  | skip {c : Char} {cs : List Char} {rs : List (List Char)} (hc : p c = false)
      (hrest : Blocks p cs rs) : Blocks p (c :: cs) rs
  /-- A block goes on for as long as it can. -/
  | block {r cs : List Char} {rs : List (List Char)} (hne : r ≠ []) (hr : ∀ c ∈ r, p c = true)
      (hend : ∀ c ∈ cs.head?, p c = false) (hrest : Blocks p cs rs) : Blocks p (r ++ cs) (r :: rs)

/-- The runs that the function takes are blocks of the text. -/
theorem blocks_runs (p : Char → Bool) (cs : List Char) : Blocks p cs (runs p cs) := by
  fun_induction runs p cs with
  | case1 => exact .nil
  | case2 c cs hc ih =>
      have hwanted : ∀ d ∈ c :: cs.takeWhile p, p d = true :=
        List.forall_mem_cons.mpr ⟨hc, List.all_eq_true.mp List.all_takeWhile⟩
      have hend : ∀ d ∈ (cs.dropWhile p).head?, p d = false := fun d hd => by
        simpa [Option.mem_def.mp hd] using List.head?_dropWhile_not p cs
      have hblock := Blocks.block (List.cons_ne_nil _ _) hwanted hend ih
      rwa [List.cons_append, List.takeWhile_append_dropWhile] at hblock
  | case3 c cs hc ih => exact .skip (by simpa using hc) ih

/-- There is one way to take a text apart into blocks. -/
theorem Blocks.eq_runs (h : Blocks p cs rs) : rs = runs p cs := by
  induction h with
  | nil => exact (runs_nil p).symm
  | skip hc _ ih => rw [runs_cons_of_neg hc, ih]
  | @block r cs rs hne hr hend _ ih =>
      cases r with
      | nil => exact absurd rfl hne
      | cons c r =>
          obtain ⟨hc, hr⟩ := List.forall_mem_cons.mp hr
          rw [List.cons_append, runs_cons_of_pos hc, Marker.takeWhile_of_boundary hr hend,
            Marker.dropWhile_of_boundary hr hend, ih]

/-- An unwanted character keeps the blocks on either side of it apart. -/
theorem Blocks.append_cons {c : Char} {ds : List Char} {ss : List (List Char)}
    (h : Blocks p cs rs) (hc : p c = false) (hrest : Blocks p ds ss) :
    Blocks p (cs ++ c :: ds) (rs ++ ss) := by
  induction h with
  | nil => exact .skip hc hrest
  | skip hd _ ih => exact .skip hd ih
  | @block r cs rs hne hr hend _ ih =>
      rw [List.append_assoc, List.cons_append]
      refine .block hne hr ?_ ih
      cases cs with
      | nil => simpa using hc
      | cons d cs => simpa using hend

/-- The runs of a text are its maximal blocks. -/
theorem blocks_iff : Blocks p cs rs ↔ rs = runs p cs :=
  ⟨Blocks.eq_runs, fun h => h ▸ blocks_runs p cs⟩

end Text

namespace Name

variable {ps qs : List String} {rs ss : List (List Char)}

/-! ## Runs of a list of texts -/

/-- Maximal alphanumeric runs of some texts, one text after the other. -/
def runsOf (parts : List String) : List (List Char) :=
  parts.flatMap fun part => Text.runs Char.isAlphanum part.toList

/-- Texts and their maximal alphanumeric runs. -/
inductive HasRuns : List String → List (List Char) → Prop
  | nil : HasRuns [] []
  | cons {p : String} {ps : List String} {rs ss : List (List Char)}
      (hp : Text.Blocks Char.isAlphanum p.toList rs) (hps : HasRuns ps ss) :
      HasRuns (p :: ps) (rs ++ ss)

/-- The runs of texts are the ones that the function takes, text by text. -/
theorem hasRuns_iff : HasRuns ps rs ↔ rs = runsOf ps := by
  constructor
  · intro h
    induction h with
    | nil => rfl
    | cons hp _ ih => rw [Text.blocks_iff.mp hp, ih, runsOf, runsOf, List.flatMap_cons]
  · rintro rfl
    induction ps with
    | nil => exact .nil
    | cons p ps ih => exact .cons (Text.blocks_iff.mpr rfl) ih

theorem joined_singleton {separator : Char} {t : List Char} : joined separator [t] = t := by
  simp [joined]

theorem joined_cons_cons {separator : Char} {t u : List Char} {ts : List (List Char)} :
    joined separator (t :: u :: ts) = t ++ separator :: joined separator (u :: ts) := by
  simp [joined]

/-- Texts that are put into one, with something between them that belongs to no run, keep their
runs. -/
theorem HasRuns.joined (h : HasRuns ps rs) {gap : Char} (hgap : gap.isAlphanum = false) :
    Text.Blocks Char.isAlphanum (joined gap (ps.map String.toList)) rs := by
  induction h with
  | nil => exact .nil
  | @cons p ps rs ss hp hps ih =>
      cases hps with
      | nil => simpa [joined_singleton] using hp
      | cons hq hqs =>
          rw [List.map_cons, List.map_cons, joined_cons_cons]
          exact hp.append_cons hgap ih

/-- A space between two texts ends a run, as the end of a text does. -/
theorem runsOf_intercalate (ps : List String) : runsOf [" ".intercalate ps] = runsOf ps := by
  have hblocks := (hasRuns_iff.mpr rfl : HasRuns ps (runsOf ps)).joined
    (show ' '.isAlphanum = false by decide)
  rw [Text.blocks_iff.mp hblocks, runsOf, List.flatMap_singleton, String.toList_intercalate]
  rfl

/-! ## Runs without their case -/

def lowered (rs : List (List Char)) : List (List Char) := rs.map fun r => r.map Char.toLower

/-- The tokens are the runs in lower case. -/
theorem tokens_eq_lowered (parts : List String) : tokens parts = lowered (runsOf parts) := by
  simp [tokens, lowered, runsOf, List.map_flatMap]

theorem tokens_eq_nil_iff : tokens ps = [] ↔ runsOf ps = [] := by
  rw [tokens_eq_lowered, lowered, List.map_eq_nil_iff]

/-- The same runs, but for the case of letters. -/
def SameRuns (rs ss : List (List Char)) : Prop :=
  List.Forall₂ (List.Forall₂ fun c d : Char => c.toLower = d.toLower) rs ss

/-- Runs are the same up to case when they are equal in lower case. -/
theorem sameRuns_iff : SameRuns rs ss ↔ lowered rs = lowered ss := by
  have hrun : List.Forall₂ (fun c d : Char => c.toLower = d.toLower) =
      fun r s => r.map Char.toLower = s.map Char.toLower := by
    funext r s
    exact propext Distinct.forall₂_iff_map_eq
  rw [SameRuns, hrun]
  exact Distinct.forall₂_iff_map_eq

/-! ## Words -/

/-- Without runs, the words are those of the text `root`. -/
theorem words_eq_root (h : runsOf ps = []) : words ps = [root.toList] :=
  if_pos (tokens_eq_nil_iff.mpr h)

theorem words_eq_lowered (h : runsOf ps ≠ []) : words ps = lowered (runsOf ps) := by
  rw [words_of_tokens_ne_nil (mt tokens_eq_nil_iff.mp h), tokens_eq_lowered]

/-- Texts that a name does not tell apart: their runs are the same, or one of them has no run and
the other the single run `root`. -/
def Alike (ps qs : List String) : Prop :=
  SameRuns (runsOf ps) (runsOf qs) ∨
    runsOf ps = [] ∧ SameRuns (runsOf qs) [root.toList] ∨
    SameRuns (runsOf ps) [root.toList] ∧ runsOf qs = []

/-- Texts have the same words when they are alike: their runs differ at most in case. -/
theorem words_eq_iff : words ps = words qs ↔ Alike ps qs := by
  have hroot : lowered [root.toList] = [root.toList] := by decide
  simp only [Alike, sameRuns_iff, hroot]
  by_cases hp : runsOf ps = [] <;> by_cases hq : runsOf qs = []
  · simp [words_eq_root hp, words_eq_root hq, hp, hq]
  · -- the left side has no run, so the right one needs the run `root`
    have hnil : lowered [] ≠ lowered (runsOf qs) := fun h =>
      hq (List.map_eq_nil_iff.mp h.symm)
    rw [words_eq_root hp, words_eq_lowered hq]
    simp [hp, hq, hnil, eq_comm]
  · have hnil : lowered (runsOf ps) ≠ lowered [] := fun h => hp (List.map_eq_nil_iff.mp h)
    rw [words_eq_root hq, words_eq_lowered hp]
    simp [hp, hq, hnil]
  · rw [words_eq_lowered hp, words_eq_lowered hq]
    simp [hp, hq]

end Name
end InfraGraph
