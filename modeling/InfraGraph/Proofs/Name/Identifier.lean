import InfraGraph.Proofs.Name.Runs
import Mathlib.Data.List.Chain

/-!
# What identifiers look like

An identifier is its words with single underscores between them, behind one more underscore if the
first word begins with a digit.  Main statements:

* `Name.IsSpaced`, `Name.isSpaced_joined` — the look of words with single separators between them;
* `Name.identifier_exact` — the look of an identifier, that making an identifier of it again changes
  nothing, and of which texts two identifiers are equal.
-/

namespace InfraGraph
namespace Name

/-! ## Words with single separators -/

/-- Lowercase letters, digits and separators, of which no two are neighbours and none is last. -/
structure IsSpaced (separator : Char) (cs : List Char) : Prop where
  mem : ∀ c ∈ cs, c = separator ∨ c.isLower = true ∨ c.isDigit = true
  apart : cs.IsChain fun c d => ¬(c = separator ∧ d = separator)
  last : cs.getLast? ≠ some separator

variable {separator : Char} {t u : List Char} {ts : List (List Char)}

/-- A separator is no letter and no digit, so that no token holds it. -/
def Separates (separator : Char) : Prop := separator.isLower = false ∧ separator.isDigit = false

theorem IsToken.ne_separator (h : Separates separator) (ht : IsToken t) : ∀ c ∈ t, c ≠ separator :=
  fun _ hc he => ht.not_mem h.1 h.2 (he ▸ hc)

theorem isSpaced_of_isToken (h : Separates separator) (ht : IsToken t) : IsSpaced separator t := by
  have hne := ht.ne_separator h
  refine ⟨fun c hc => Or.inr (ht.2 c hc), ?_, fun hlast => ?_⟩
  · refine (List.pairwise_of_forall_mem_list fun c hc d _ => ?_).isChain
    rintro ⟨hc', -⟩
    exact hne c hc hc'
  · exact hne separator (List.mem_of_getLast? hlast) rfl

/-- The first character of joined tokens is that of the first token. -/
theorem head?_joined (hne : t ≠ []) : (joined separator (t :: ts)).head? = t.head? := by
  cases ts with
  | nil => rw [joined_singleton]
  | cons u us => rw [joined_cons_cons, List.head?_append_of_ne_nil t hne]

theorem joined_ne_nil (hne : t ≠ []) : joined separator (t :: ts) ≠ [] := by
  cases ts with
  | nil => rwa [joined_singleton]
  | cons u us => simp [joined_cons_cons]

/-- Joined tokens do not begin with a separator. -/
theorem head?_joined_ne (h : Separates separator) (hts : ∀ t ∈ ts, IsToken t) :
    (joined separator ts).head? ≠ some separator := by
  cases ts with
  | nil => simp [joined]
  | cons t ts =>
      have ht : IsToken t := hts t List.mem_cons_self
      rw [head?_joined ht.1]
      intro hhead
      exact ht.ne_separator h separator (List.mem_of_head? hhead) rfl

/-- A separator between spaced texts, of which the one behind it begins with something else. -/
theorem IsSpaced.append_cons {cs ds : List Char} (hcs : IsSpaced separator cs)
    (hds : IsSpaced separator ds) (hne : ds ≠ []) (hhead : ds.head? ≠ some separator) :
    IsSpaced separator (cs ++ separator :: ds) := by
  refine ⟨fun c hc => ?_, ?_, ?_⟩
  · rcases List.mem_append.mp hc with hc | hc
    · exact hcs.mem c hc
    · rcases List.mem_cons.mp hc with hc | hc
      · exact Or.inl hc
      · exact hds.mem c hc
  · -- on neither side of the separator there is another one
    refine List.isChain_append.mpr ⟨hcs.apart, ?_, ?_⟩
    · refine List.isChain_cons.mpr ⟨?_, hds.apart⟩
      rintro d hd ⟨-, rfl⟩
      exact hhead hd
    · rintro c hc _ _ ⟨rfl, -⟩
      exact hcs.last hc
  · rw [List.getLast?_append_of_ne_nil _ (List.cons_ne_nil _ _),
      List.getLast?_cons_of_ne_nil hne]
    exact hds.last

/-- Joined tokens are spaced by single separators, none at an end. -/
theorem isSpaced_joined (h : Separates separator) (hts : ∀ t ∈ ts, IsToken t) :
    IsSpaced separator (joined separator ts) := by
  induction ts with
  | nil => exact ⟨by simp [joined], by simp [joined], by simp [joined]⟩
  | cons t ts ih =>
      obtain ⟨ht, hrest⟩ := List.forall_mem_cons.mp hts
      have htoken := isSpaced_of_isToken h ht
      cases ts with
      | nil => rwa [joined_singleton]
      | cons u us =>
          -- what stands behind the separator begins with a token
          rw [joined_cons_cons]
          exact htoken.append_cons (ih hrest) (joined_ne_nil (hrest u List.mem_cons_self).1)
            (head?_joined_ne h hrest)

/-! ## Identifiers -/

variable {cs : List Char}

theorem isToken_words (parts : List String) : ∀ t ∈ words parts, IsToken t :=
  fun _ => isToken_of_mem_words

theorem separates_underscore : Separates '_' :=
  ⟨by decide, by decide⟩

/-- The underscore put before a digit stands alone, since no underscore follows it. -/
theorem isSpaced_guarded (h : IsSpaced '_' cs) (hhead : cs.head? ≠ some '_') :
    IsSpaced '_' (guarded cs) := by
  cases cs with
  | nil => exact h
  | cons c cs =>
      simp only [guarded]
      split
      · -- the guard stands before a digit
        refine ⟨List.forall_mem_cons.mpr ⟨Or.inl rfl, h.mem⟩, ?_, ?_⟩
        · refine List.isChain_cons_cons.mpr ⟨fun hboth => hhead ?_, h.apart⟩
          rw [List.head?_cons, hboth.2]
        · rw [List.getLast?_cons_of_ne_nil (List.cons_ne_nil _ _)]
          exact h.last
      · exact h

/-- A guarded text does not begin with a digit. -/
theorem head?_guarded (cs : List Char) : ∀ c ∈ (guarded cs).head?, c.isDigit = false := by
  cases cs with
  | nil => simp [guarded]
  | cons c cs =>
      simp only [guarded]
      split
      · simp
      · simp_all

/-- An identifier is lowercase letters and digits with single underscores between. -/
theorem isSpaced_identifier (parts : List String) : IsSpaced '_' (identifier parts).toList := by
  rw [identifier_eq, String.toList_ofList]
  exact isSpaced_guarded (isSpaced_joined separates_underscore (isToken_words parts))
    (head?_joined_ne separates_underscore (isToken_words parts))

/-- Identifiers are their own words. -/
theorem words_identifier (parts : List String) : words [identifier parts] = words parts := by
  have htokens := tokens_identifier parts
  rw [words_of_tokens_ne_nil (htokens ▸ words_ne_nil parts), htokens]

/-- An identifier is not empty, holds lowercase letters, digits and single underscores, does not
end in an underscore and does not begin with a digit.  It is the identifier of itself, and of its
texts put into one.  Two identifiers are equal iff the maximal alphanumeric runs of the texts, text
by text, are the same up to case, where no run at all counts as the single run `root`. -/
theorem identifier_exact (ps qs : List String) :
    identifier ps ≠ "" ∧ IsSpaced '_' (identifier ps).toList ∧
      (∀ c ∈ (identifier ps).toList.head?, c.isDigit = false) ∧
      identifier [identifier ps] = identifier ps ∧
      identifier [" ".intercalate ps] = identifier ps ∧
      (∀ rs, HasRuns ps rs ↔ rs = runsOf ps) ∧
      (identifier ps = identifier qs ↔ Alike ps qs) := by
  refine ⟨identifier_ne_empty ps, isSpaced_identifier ps, ?_, ?_, ?_, fun rs => hasRuns_iff, ?_⟩
  · rw [identifier_eq, String.toList_ofList]
    exact head?_guarded _
  · exact identifier_eq_iff.mpr (words_identifier ps)
  · have htokens : tokens [" ".intercalate ps] = tokens ps := by
      rw [tokens_eq_lowered, tokens_eq_lowered, runsOf_intercalate]
    rw [identifier_eq_iff, words, words, htokens]
  · rw [identifier_eq_iff, words_eq_iff]

end Name
end InfraGraph
