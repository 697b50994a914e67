import InfraGraph.Name
import InfraGraph.Proofs.Marker

/-!
# What an identifier keeps of the texts it is made of

An identifier forgets case, punctuation and the division into parts, and nothing else: it is as
good as the list of words of its texts.  Main statements:

* `Name.words` — the tokens of some texts, with the word `root` standing for none at all;
* `Name.identifier_eq_iff` — two identifiers are equal iff the texts have the same words;
* `Name.tokens_identifier` — an identifier has the words of its texts as tokens;
* `Name.dot_not_mem_identifier`, `Name.slash_not_mem_identifier` — an identifier has no dot and no
  slash, so it ends an address unambiguously, and it is one name of a path.
-/

namespace InfraGraph
namespace Name

/-! ## Tokens -/

/-- A token is not empty and holds lowercase ASCII letters and digits. -/
def IsToken (t : List Char) : Prop := t ≠ [] ∧ ∀ c ∈ t, c.isLower = true ∨ c.isDigit = true

instance (t : List Char) : Decidable (IsToken t) :=
  decidable_of_iff (t ≠ [] ∧ t.all (fun c => c.isLower || c.isDigit) = true) (by simp [IsToken])

@[simp]
theorem tokens_nil : tokens [] = [] := rfl

/-- Tokens are taken text by text. -/
theorem tokens_append (ps qs : List String) : tokens (ps ++ qs) = tokens ps ++ tokens qs := by
  simp [tokens]

theorem tokens_cons (p : String) (ps : List String) :
    tokens (p :: ps) = tokens [p] ++ tokens ps :=
  tokens_append [p] ps

/-- Lowercasing an ASCII letter or digit gives a lowercase letter or a digit. -/
theorem toLower_of_isAlphanum {c : Char} (h : c.isAlphanum = true) :
    c.toLower.isLower = true ∨ c.toLower.isDigit = true := by
  by_cases hup : c.val ≥ 'A'.val ∧ c.val ≤ 'Z'.val
  · left
    -- an uppercase letter moves to the other alphabet
    have hval : c.toLower.val = c.val + ('a'.val - 'A'.val) := congrArg Char.val (dif_pos hup)
    have hrange : c.toLower.val ≥ 'a'.val ∧ c.toLower.val ≤ 'z'.val := by
      rw [hval]
      simp only [ge_iff_le, UInt32.le_iff_toNat_le, UInt32.toNat_add] at hup ⊢
      have hA : 'A'.val.toNat = 65 := rfl
      have hZ : 'Z'.val.toNat = 90 := rfl
      have ha : 'a'.val.toNat = 97 := rfl
      have hz : 'z'.val.toNat = 122 := rfl
      have hgap : ('a'.val - 'A'.val).toNat = 32 := rfl
      omega
    exact (Bool.and_eq_true _ _).mpr ⟨decide_eq_true hrange.1, decide_eq_true hrange.2⟩
  · have hsame : c.toLower = c := dif_neg hup
    rw [hsame]
    rcases (Bool.or_eq_true _ _).mp h with halpha | hdigit
    · rcases (Bool.or_eq_true _ _).mp halpha with hupper | hlower
      · exact absurd (of_decide_eq_true hupper) hup
      · exact Or.inl hlower
    · exact Or.inr hdigit

/-- Tokens are not empty, and hold lowercase letters and digits. -/
theorem isToken_of_mem_tokens {ps : List String} {t : List Char} (h : t ∈ tokens ps) :
    IsToken t := by
  rcases List.mem_flatMap.mp h with ⟨p, _, ht⟩
  rcases List.mem_map.mp ht with ⟨run, hrun, rfl⟩
  refine ⟨fun e => Text.ne_nil_of_mem_runs hrun (List.map_eq_nil_iff.mp e), fun c hc => ?_⟩
  rcases List.mem_map.mp hc with ⟨d, hd, rfl⟩
  exact toLower_of_isAlphanum (Text.runs_forall hrun d hd)

/-- A text of ASCII letters and digits is one token. -/
theorem tokens_singleton {s : String} (hne : s.toList ≠ [])
    (h : ∀ c ∈ s.toList, c.isAlphanum = true) : tokens [s] = [s.toList.map Char.toLower] := by
  simp [tokens, Text.runs_eq_singleton hne h]

/-- Lowercase letters and digits stay as they are in lower case. -/
theorem toLower_of_isLower_or_isDigit {c : Char} (h : c.isLower = true ∨ c.isDigit = true) :
    c.toLower = c := by
  refine dif_neg fun hup => ?_
  have hZ : c.val.toNat ≤ 90 := UInt32.le_iff_toNat_le.mp hup.2
  have hA : 65 ≤ c.val.toNat := UInt32.le_iff_toNat_le.mp hup.1
  rcases h with hlower | hdigit
  · have ha : 97 ≤ c.val.toNat :=
      UInt32.le_iff_toNat_le.mp (of_decide_eq_true ((Bool.and_eq_true _ _).mp hlower).1)
    omega
  · have hnine : c.val.toNat ≤ 57 :=
      UInt32.le_iff_toNat_le.mp (of_decide_eq_true ((Bool.and_eq_true _ _).mp hdigit).2)
    omega

theorem isAlphanum_of_isLower_or_isDigit {c : Char} (h : c.isLower = true ∨ c.isDigit = true) :
    c.isAlphanum = true := by
  rcases h with hlower | hdigit
  · exact (Bool.or_eq_true _ _).mpr (Or.inl ((Bool.or_eq_true _ _).mpr (Or.inr hlower)))
  · exact (Bool.or_eq_true _ _).mpr (Or.inr hdigit)

theorem IsToken.isAlphanum {t : List Char} (h : IsToken t) : ∀ c ∈ t, c.isAlphanum = true :=
  fun c hc => isAlphanum_of_isLower_or_isDigit (h.2 c hc)

/-- A token is its own only token. -/
theorem tokens_of_isToken {s : String} (h : IsToken s.toList) : tokens [s] = [s.toList] := by
  have hsame : s.toList.map Char.toLower = s.toList.map id :=
    List.map_congr_left fun c hc => toLower_of_isLower_or_isDigit (h.2 c hc)
  rw [tokens_singleton h.1 h.isAlphanum, hsame, List.map_id]

/-- A character that is neither a lowercase letter nor a digit stands in no token. -/
theorem IsToken.not_mem {t : List Char} {c : Char} (h : IsToken t)
    (hlower : c.isLower = false) (hdigit : c.isDigit = false) : ¬c ∈ t := by
  intro hc
  rcases h.2 c hc with hc | hc
  · simp [hlower] at hc
  · simp [hdigit] at hc

/-! ## Joining tokens -/

/-- Tokens can be read back from their joined text. -/
theorem joined_injective {separator : Char} {ts us : List (List Char)}
    (ht : ∀ t ∈ ts, t ≠ [] ∧ ¬separator ∈ t) (hu : ∀ u ∈ us, u ≠ [] ∧ ¬separator ∈ u)
    (h : joined separator ts = joined separator us) : ts = us := by
  -- splitting at the separator undoes joining, except that it never gives an empty list
  have hempty : ∀ {vs : List (List Char)}, (∀ v ∈ vs, v ≠ [] ∧ ¬separator ∈ v) →
      joined separator vs = [] → vs = [] := by
    intro vs hv hj
    cases vs with
    | nil => rfl
    | cons v vs =>
        have hne : v ≠ [] := (hv v (by simp)).1
        cases vs with
        | nil => simp [joined, hne] at hj
        | cons w vs => simp [joined, hne] at hj
  by_cases hts : ts = []
  · subst hts
    exact (hempty hu h.symm).symm
  by_cases hus : us = []
  · subst hus
    exact hempty ht h
  calc
    ts = (joined separator ts).splitOn separator :=
        (List.splitOn_intercalate separator (fun t m => (ht t m).2) hts).symm
    _ = (joined separator us).splitOn separator := by rw [h]
    _ = us := List.splitOn_intercalate separator (fun u m => (hu u m).2) hus

/-- A joined text holds separators and characters of its tokens. -/
theorem mem_joined {separator c : Char} {ts : List (List Char)} (h : c ∈ joined separator ts) :
    c = separator ∨ ∃ t ∈ ts, c ∈ t := by
  induction ts with
  | nil => simp [joined] at h
  | cons t ts ih =>
      cases ts with
      | nil => exact Or.inr ⟨t, by simp, by simpa [joined] using h⟩
      | cons u us =>
          -- only between tokens is there a separator
          have hsplit : c ∈ t ∨ c = separator ∨ c ∈ joined separator (u :: us) := by
            simpa [joined] using h
          rcases hsplit with hc | hc | hc
          · exact Or.inr ⟨t, by simp, hc⟩
          · exact Or.inl hc
          · rcases ih hc with hc | ⟨v, hv, hc⟩
            · exact Or.inl hc
            · exact Or.inr ⟨v, List.mem_cons_of_mem _ hv, hc⟩

/-! ## Words -/

/-- The words of some texts: their tokens, or `root` alone where there is no token. -/
def words (parts : List String) : List (List Char) :=
  if tokens parts = [] then [root.toList] else tokens parts

theorem words_of_tokens_ne_nil {parts : List String} (h : tokens parts ≠ []) :
    words parts = tokens parts :=
  if_neg h

theorem words_ne_nil (parts : List String) : words parts ≠ [] := by
  unfold words
  split
  · simp
  · assumption

/-- A text in front of others can be taken away from their words. -/
theorem words_eq_of_cons {p : String} {ps qs : List String}
    (h : words (p :: ps) = words (p :: qs)) : words ps = words qs := by
  unfold words at h ⊢
  rw [tokens_cons p ps, tokens_cons p qs] at h
  -- without tokens of its own, the text in front leaves the words as they are
  by_cases hp : tokens [p] = []
  · simpa [hp] using h
  · have hne : ∀ ts : List (List Char), tokens [p] ++ ts ≠ [] := fun ts e =>
      hp (List.append_eq_nil_iff.mp e).1
    rw [if_neg (hne _), if_neg (hne _)] at h
    rw [List.append_cancel_left h]

theorem isToken_of_mem_words {parts : List String} {t : List Char} (h : t ∈ words parts) :
    IsToken t := by
  unfold words at h
  split at h
  · rw [List.mem_singleton.mp h]
    decide
  · exact isToken_of_mem_tokens h

/-- A text with an underscore in front if it begins with a digit. -/
def guarded : List Char → List Char
  | [] => []
  | c :: cs => if c.isDigit then '_' :: c :: cs else c :: cs

/-- An identifier is its words joined with underscores, guarded against a leading digit. -/
theorem identifier_eq (parts : List String) :
    identifier parts = String.ofList (guarded (joined '_' (words parts))) := by
  by_cases h : tokens parts = []
  · simp [identifier, words, h, joined, root, guarded]
  · rw [words_of_tokens_ne_nil h]
    unfold identifier
    cases hj : joined '_' (tokens parts) with
    | nil =>
        -- only without tokens is the joined text empty
        refine absurd (show tokens parts = [] from joined_injective ?_ (by simp) (hj.trans rfl)) h
        intro t ht
        have htoken := isToken_of_mem_tokens ht
        exact ⟨htoken.1, htoken.not_mem (by decide) (by decide)⟩
    | cons c cs => rfl

/-- Guarding loses nothing for texts that do not begin with an underscore. -/
theorem guarded_injective {cs ds : List Char} (hc : cs.head? ≠ some '_')
    (hd : ds.head? ≠ some '_') (h : guarded cs = guarded ds) : cs = ds := by
  cases cs with
  | nil =>
      cases ds with
      | nil => rfl
      | cons d ds => simp only [guarded] at h; split at h <;> cases h
  | cons c cs =>
      cases ds with
      | nil => simp only [guarded] at h; split at h <;> cases h
      | cons d ds =>
          simp only [guarded] at h
          -- if one of them alone is guarded, the other begins with an underscore
          by_cases hcd : c.isDigit = true <;> by_cases hdd : d.isDigit = true
          · simpa [hcd, hdd] using h
          · have hund : '_' = d := by
              simp only [hcd, hdd, if_true, Bool.false_eq_true, if_false] at h
              exact (List.cons.inj h).1
            exact absurd hund.symm (by simpa using hd)
          · have hund : c = '_' := by
              simp only [hcd, hdd, if_true, Bool.false_eq_true, if_false] at h
              exact (List.cons.inj h).1
            exact absurd hund (by simpa using hc)
          · simpa [hcd, hdd] using h

/-- Words do not begin with a separator. -/
theorem head?_joined_words (parts : List String) :
    (joined '_' (words parts)).head? ≠ some '_' := by
  cases hw : words parts with
  | nil => exact absurd hw (words_ne_nil parts)
  | cons t ts =>
      have htoken : IsToken t := isToken_of_mem_words (by rw [hw]; simp)
      cases t with
      | nil => exact absurd rfl htoken.1
      | cons c t =>
          have hc : c ≠ '_' := by
            rintro rfl
            exact htoken.not_mem (by decide) (by decide) List.mem_cons_self
          cases ts with
          | nil => simpa [joined] using hc
          | cons u us => simpa [joined] using hc

/-- Two identifiers are equal iff their texts have the same words. -/
theorem identifier_eq_iff {ps qs : List String} :
    identifier ps = identifier qs ↔ words ps = words qs := by
  constructor
  · intro h
    rw [identifier_eq, identifier_eq] at h
    -- undo the guard, then the joining
    have hguarded := String.ofList_injective h
    refine joined_injective ?_ ?_
      (guarded_injective (head?_joined_words ps) (head?_joined_words qs) hguarded)
    all_goals
      intro t ht
      have htoken := isToken_of_mem_words ht
      exact ⟨htoken.1, htoken.not_mem (by decide) (by decide)⟩
  · intro h
    rw [identifier_eq, identifier_eq, h]

/-- Where there are tokens, two identifiers are equal iff the tokens are. -/
theorem identifier_eq_iff_tokens {ps qs : List String} (hp : tokens ps ≠ [])
    (hq : tokens qs ≠ []) : identifier ps = identifier qs ↔ tokens ps = tokens qs := by
  rw [identifier_eq_iff, words_of_tokens_ne_nil hp, words_of_tokens_ne_nil hq]

/-! ## Tokens of an identifier -/

/-- A run ends at the first character that is not wanted. -/
theorem runs_append_cons {p : Char → Bool} {t cs : List Char} {c : Char} (hne : t ≠ [])
    (ht : ∀ d ∈ t, p d = true) (hc : p c = false) :
    Text.runs p (t ++ c :: cs) = t :: Text.runs p cs := by
  cases t with
  | nil => exact absurd rfl hne
  | cons d ds =>
      obtain ⟨hd, hds⟩ := List.forall_mem_cons.mp ht
      have hboundary : ∀ x ∈ (c :: cs).head?, p x = false := by simpa using hc
      rw [List.cons_append, Text.runs_cons_of_pos hd, Marker.takeWhile_of_boundary hds hboundary,
        Marker.dropWhile_of_boundary hds hboundary, Text.runs_cons_of_neg hc]

/-- What is joined with unwanted characters are the runs of the joined text. -/
theorem runs_joined_of_forall {p : Char → Bool} {separator : Char}
    (hseparator : p separator = false)
    {ts : List (List Char)} (h : ∀ t ∈ ts, t ≠ [] ∧ ∀ c ∈ t, p c = true) :
    Text.runs p (joined separator ts) = ts := by
  induction ts with
  | nil => simp [joined, Text.runs_nil]
  | cons t rest ih =>
      obtain ⟨⟨hne, ht⟩, hrest⟩ := List.forall_mem_cons.mp h
      cases rest with
      | nil => simpa [joined] using Text.runs_eq_singleton hne ht
      | cons u us =>
          have hsplit : joined separator (t :: u :: us) =
              t ++ separator :: joined separator (u :: us) := by
            simp [joined]
          rw [hsplit, runs_append_cons hne ht hseparator, ih hrest]

/-- Tokens joined with underscores are the runs of the joined text. -/
theorem runs_joined {ts : List (List Char)} (h : ∀ t ∈ ts, IsToken t) :
    Text.runs Char.isAlphanum (joined '_' ts) = ts :=
  runs_joined_of_forall (by decide) fun t ht => ⟨(h t ht).1, (h t ht).isAlphanum⟩

/-- An underscore in front is no part of a run. -/
theorem runs_guarded (cs : List Char) :
    Text.runs Char.isAlphanum (guarded cs) = Text.runs Char.isAlphanum cs := by
  cases cs with
  | nil => rfl
  | cons c cs =>
      simp only [guarded]
      split
      · exact Text.runs_cons_of_neg (by decide) _
      · rfl

/-- The runs of a text are its tokens, where they are tokens. -/
theorem tokens_of_runs {s : String} {ts : List (List Char)} (htoken : ∀ t ∈ ts, IsToken t)
    (hruns : Text.runs Char.isAlphanum s.toList = ts) : tokens [s] = ts := by
  have hlower : ∀ t ∈ ts, t.map Char.toLower = t := by
    intro t ht
    calc
      t.map Char.toLower = t.map id :=
          List.map_congr_left fun c hc => toLower_of_isLower_or_isDigit ((htoken t ht).2 c hc)
      _ = t := List.map_id t
  calc
    tokens [s]
        = (Text.runs Char.isAlphanum s.toList).map fun run => run.map Char.toLower := by
            simp [tokens]
    _ = ts.map fun t => t.map Char.toLower := by rw [hruns]
    _ = ts.map id := List.map_congr_left hlower
    _ = ts := List.map_id _

/-- A text made of tokens with underscores between them has these tokens. -/
theorem tokens_of_joined {s : String} {ts : List (List Char)} (htoken : ∀ t ∈ ts, IsToken t)
    (hs : s.toList = joined '_' ts) : tokens [s] = ts := by
  apply tokens_of_runs htoken
  rw [hs, runs_joined htoken]

/-- An identifier has the words of its texts as tokens, so identifiers may be part of others. -/
theorem tokens_identifier (parts : List String) : tokens [identifier parts] = words parts := by
  have htoken : ∀ t ∈ words parts, IsToken t := fun t ht => isToken_of_mem_words ht
  apply tokens_of_runs htoken
  rw [identifier_eq, String.toList_ofList, runs_guarded, runs_joined htoken]

/-! ## Characters of an identifier -/

theorem mem_identifier {parts : List String} {c : Char} (h : c ∈ (identifier parts).toList) :
    c = '_' ∨ c.isLower = true ∨ c.isDigit = true := by
  have hmem : c = '_' ∨ c ∈ joined '_' (words parts) := by
    rw [identifier_eq, String.toList_ofList] at h
    cases hj : joined '_' (words parts) with
    | nil => simp [hj, guarded] at h
    | cons d ds =>
        rw [hj] at h
        simp only [guarded] at h
        split at h
        · exact List.mem_cons.mp h
        · exact Or.inr h
  rcases hmem with hc | hc
  · exact Or.inl hc
  · rcases mem_joined hc with hc | ⟨t, ht, hc⟩
    · exact Or.inl hc
    · exact Or.inr ((isToken_of_mem_words ht).2 c hc)

theorem not_mem_identifier {c : Char} (hc : ¬(c = '_' ∨ c.isLower = true ∨ c.isDigit = true))
    (parts : List String) : ¬c ∈ (identifier parts).toList :=
  fun h => hc (mem_identifier h)

theorem dot_not_mem_identifier (parts : List String) : ¬ '.' ∈ (identifier parts).toList :=
  not_mem_identifier (by decide) parts

theorem slash_not_mem_identifier (parts : List String) : ¬ '/' ∈ (identifier parts).toList :=
  not_mem_identifier (by decide) parts

theorem identifier_ne_empty (parts : List String) : identifier parts ≠ "" := by
  intro hempty
  have hnone : tokens [""] = [] := by simp [tokens, Text.runs_nil]
  have htokens := tokens_identifier parts
  rw [hempty, hnone] at htokens
  exact words_ne_nil parts htokens.symm

end Name
end InfraGraph
