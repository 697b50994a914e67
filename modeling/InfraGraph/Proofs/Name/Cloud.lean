import InfraGraph.Proofs.Name.Identifier
import Mathlib.Data.List.DropRight

/-!
# What cloud names look like

A cloud name is its words with single hyphens between them, cut to 64 characters.  The cut may go
through a word, or leave a hyphen at the end, which is dropped then.  Either way words with single
hyphens are left.  Main statements:

* `Name.IsCut`, `Name.isCut_cut` — the longest prefix that is short enough and does not end in a
  hyphen;
* `Name.exists_tokens_of_prefix` — a prefix of joined words that does not end in a separator is
  joined words again;
* `Name.cloud_exact` — the look of a cloud name, what it is made of, and of which texts two of them
  are equal.
-/

namespace InfraGraph
namespace Name

/-! ## Cutting -/

/-- The longest prefix of a text that is at most so long and does not end in a hyphen. -/
structure IsCut (limit : Nat) (cs ds : List Char) : Prop where
  initial : ds <+: cs
  length_le : ds.length ≤ limit
  last : ds.getLast? ≠ some '-'
  longest : ∀ es, es <+: cs → es.length ≤ limit → es.getLast? ≠ some '-' → es.length ≤ ds.length

variable {limit : Nat} {cs ds es : List Char}

/-- There is one such prefix only. -/
theorem IsCut.eq (hd : IsCut limit cs ds) (he : IsCut limit cs es) : ds = es := by
  have hde : ds.length ≤ es.length := he.longest ds hd.initial hd.length_le hd.last
  have hed : es.length ≤ ds.length := hd.longest es he.initial he.length_le he.last
  exact (List.prefix_of_prefix_length_le hd.initial he.initial hde).eq_of_length
    (Nat.le_antisymm hde hed)

theorem isCut_self (hlength : cs.length ≤ limit) (hlast : cs.getLast? ≠ some '-') :
    IsCut limit cs cs :=
  ⟨List.prefix_rfl, hlength, hlast, fun _ hes _ _ => hes.length_le⟩

/-- What is cut is the longest beginning within the limit that does not end in a hyphen. -/
theorem isCut_cut (limit : Nat) (cs : List Char) : IsCut limit cs (cut limit cs) := by
  have hcut : cut limit cs = (cs.take limit).rdropWhile (· = '-') := rfl
  rw [hcut]
  have hinitial := List.rdropWhile_prefix (· = '-') (cs.take limit)
  refine ⟨hinitial.trans (List.take_prefix limit cs), ?_, ?_, ?_⟩
  · exact hinitial.length_le.trans (List.length_take_le limit cs)
  · intro hlast
    have hne : (cs.take limit).rdropWhile (· = '-') ≠ [] := by
      intro hnil
      simp [hnil] at hlast
    rw [List.getLast?_eq_some_getLast hne] at hlast
    exact List.rdropWhile_last_not (· = '-') (cs.take limit) hne (by simpa using hlast)
  · intro es hes hlength hlast
    by_contra hlonger
    -- a longer prefix ends inside what was dropped, that is in a hyphen
    have htake : es <+: cs.take limit := List.prefix_take_iff.mpr ⟨hes, hlength⟩
    obtain ⟨fs, rfl⟩ := List.prefix_of_prefix_length_le hinitial htake (by omega)
    have hdropped : fs <+: (cs.take limit).rtakeWhile (· = '-') := by
      refine (List.prefix_append_right_inj ((cs.take limit).rdropWhile (· = '-'))).mp ?_
      rwa [List.rdropWhile_append_rtakeWhile]
    have hne : fs ≠ [] := by
      rintro rfl
      simp at hlonger
    have hhyphen : fs.getLast hne = '-' := by
      simpa using List.mem_rtakeWhile_imp (hdropped.subset (List.getLast_mem hne))
    apply hlast
    rw [List.getLast?_append_of_ne_nil _ hne, List.getLast?_eq_some_getLast hne, hhyphen]

/-- A text that does not begin with a hyphen has a first character to be left. -/
theorem IsCut.ne_nil (h : IsCut limit cs ds) (hlimit : 0 < limit) (hne : cs ≠ [])
    (hhead : cs.head? ≠ some '-') : ds ≠ [] := by
  cases cs with
  | nil => exact absurd rfl hne
  | cons c cs =>
      rintro rfl
      have hlonger := h.longest [c] (by simp) hlimit (by simpa using hhead)
      simp at hlonger

/-! ## Words that are cut -/

variable {separator : Char} {t : List Char} {ts : List (List Char)}

/-- What a token begins with is a token, or nothing. -/
theorem exists_tokens_of_prefix_token (ht : IsToken t) (h : cs <+: t) :
    ∃ us, (∀ u ∈ us, IsToken u) ∧ cs = joined separator us := by
  by_cases hne : cs = []
  · exact ⟨[], List.forall_mem_nil _, by simp [hne, joined]⟩
  · refine ⟨[cs], List.forall_mem_singleton.mpr ⟨hne, fun c hc => ht.2 c (h.subset hc)⟩, ?_⟩
    rw [joined_singleton]

/-- What joined tokens begin with is joined tokens, unless it ends in a separator. -/
theorem exists_tokens_of_prefix (hts : ∀ t ∈ ts, IsToken t) (h : cs <+: joined separator ts)
    (hlast : cs.getLast? ≠ some separator) :
    ∃ us, (∀ u ∈ us, IsToken u) ∧ cs = joined separator us := by
  induction ts generalizing cs with
  | nil => exact ⟨[], List.forall_mem_nil _, by simpa [joined] using h⟩
  | cons t ts ih =>
      obtain ⟨ht, hrest⟩ := List.forall_mem_cons.mp hts
      cases ts with
      | nil =>
          rw [joined_singleton] at h
          exact exists_tokens_of_prefix_token ht h
      | cons u us =>
          rw [joined_cons_cons] at h
          rcases List.prefix_or_prefix_of_prefix h (List.prefix_append t _) with hshort | ⟨ds, rfl⟩
          · exact exists_tokens_of_prefix_token ht hshort
          · rw [List.prefix_append_right_inj] at h
            cases ds with
            | nil =>
                refine ⟨[t], List.forall_mem_singleton.mpr ht, ?_⟩
                rw [List.append_nil, joined_singleton]
            | cons d ds =>
                -- behind the separator there is something, as the separator is not the last
                obtain ⟨rfl, hds⟩ := List.cons_prefix_cons.mp h
                have hne : ds ≠ [] := by
                  rintro rfl
                  exact hlast (by simp)
                rw [List.getLast?_append_of_ne_nil _ (List.cons_ne_nil _ _),
                  List.getLast?_cons_of_ne_nil hne] at hlast
                obtain ⟨vs, hvs, rfl⟩ := ih hrest hds hlast
                refine ⟨t :: vs, List.forall_mem_cons.mpr ⟨ht, hvs⟩, ?_⟩
                cases vs with
                | nil => exact absurd rfl hne
                | cons v vs => rw [joined_cons_cons]

/-! ## Cloud names -/

theorem separates_hyphen : Separates '-' :=
  ⟨by decide, by decide⟩

/-- A cloud name is its words joined with hyphens, cut. -/
theorem cloud_eq (parts : List String) :
    cloud parts = String.ofList (cut cloudLimit (joined '-' (words parts))) := by
  unfold cloud
  cases htokens : tokens parts with
  | nil =>
      rw [words, if_pos htokens]
      decide
  | cons t ts =>
      have hmem : t ∈ tokens parts := by simp [htokens]
      have ht : IsToken t := isToken_of_mem_tokens hmem
      rw [words, if_neg (by simp [htokens]), htokens]
      cases hjoined : joined '-' (t :: ts) with
      | nil => exact absurd hjoined (joined_ne_nil ht.1)
      | cons c cs => rfl

/-- The cloud name is the joined words, cut at 64 characters. -/
theorem isCut_cloud (parts : List String) :
    IsCut 64 (joined '-' (words parts)) (cloud parts).toList := by
  rw [cloud_eq, String.toList_ofList]
  exact isCut_cut cloudLimit _

theorem joined_words_ne_nil (parts : List String) : joined separator (words parts) ≠ [] := by
  cases hwords : words parts with
  | nil => exact absurd hwords (words_ne_nil parts)
  | cons t ts =>
      have ht : IsToken t := isToken_words parts t (by simp [hwords])
      exact joined_ne_nil ht.1

theorem toList_cloud_ne_nil (parts : List String) : (cloud parts).toList ≠ [] :=
  (isCut_cloud parts).ne_nil (by decide) (joined_words_ne_nil parts)
    (head?_joined_ne separates_hyphen (isToken_words parts))

/-- A cloud name is tokens joined with hyphens. -/
theorem exists_tokens_cloud (parts : List String) :
    ∃ ts, (∀ t ∈ ts, IsToken t) ∧ (cloud parts).toList = joined '-' ts :=
  exists_tokens_of_prefix (isToken_words parts) (isCut_cloud parts).initial (isCut_cloud parts).last

/-- A cloud name is words with single hyphens between, and cutting it keeps it so. -/
theorem isSpaced_cloud (parts : List String) : IsSpaced '-' (cloud parts).toList := by
  obtain ⟨ts, hts, hcloud⟩ := exists_tokens_cloud parts
  rw [hcloud]
  exact isSpaced_joined separates_hyphen hts

theorem head?_cloud_ne (parts : List String) : (cloud parts).toList.head? ≠ some '-' := by
  obtain ⟨ts, hts, hcloud⟩ := exists_tokens_cloud parts
  rw [hcloud]
  exact head?_joined_ne separates_hyphen hts

theorem IsSpaced.isAlphanum {c : Char} (h : IsSpaced separator cs) (hc : c ∈ cs)
    (hne : c ≠ separator) : c.isAlphanum = true := by
  rcases h.mem c hc with rfl | hc
  · exact absurd rfl hne
  · exact isAlphanum_of_isLower_or_isDigit hc

/-- Words that fit are not cut. -/
theorem toList_cloud_of_length_le {parts : List String}
    (h : (joined '-' (words parts)).length ≤ 64) :
    (cloud parts).toList = joined '-' (words parts) :=
  (isCut_cloud parts).eq
    (isCut_self h (isSpaced_joined separates_hyphen (isToken_words parts)).last)

/-- A cloud name is the cloud name of itself. -/
theorem cloud_cloud (parts : List String) : cloud [cloud parts] = cloud parts := by
  obtain ⟨ts, hts, hcloud⟩ := exists_tokens_cloud parts
  have htokens : tokens [cloud parts] = ts := by
    refine tokens_of_runs hts ?_
    rw [hcloud]
    exact runs_joined_of_forall (by decide) fun t ht => ⟨(hts t ht).1, (hts t ht).isAlphanum⟩
  have hne : ts ≠ [] := by
    rintro rfl
    exact toList_cloud_ne_nil parts hcloud
  have hwords : joined '-' (words [cloud parts]) = (cloud parts).toList := by
    rw [words_of_tokens_ne_nil (htokens ▸ hne), htokens, hcloud]
  -- a cloud name is short enough not to be cut again
  refine String.toList_injective ?_
  rw [toList_cloud_of_length_le (hwords ▸ (isCut_cloud parts).length_le), hwords]

/-- Where the words of both fit, two cloud names are equal iff the words are. -/
theorem cloud_eq_iff {ps qs : List String} (hp : (joined '-' (words ps)).length ≤ 64)
    (hq : (joined '-' (words qs)).length ≤ 64) : cloud ps = cloud qs ↔ words ps = words qs := by
  constructor
  · intro h
    have hlist := congrArg String.toList h
    rw [toList_cloud_of_length_le hp, toList_cloud_of_length_le hq] at hlist
    have hwhole : ∀ parts, ∀ t ∈ words parts, t ≠ [] ∧ ¬ '-' ∈ t := fun parts t ht =>
      ⟨(isToken_words parts t ht).1,
        (isToken_words parts t ht).not_mem (by decide) (by decide)⟩
    exact joined_injective (hwhole ps) (hwhole qs) hlist
  · intro h
    rw [cloud_eq, cloud_eq, h]

/-- Runs that fit when joined give words that fit. -/
theorem length_joined_words_le {parts : List String}
    (h : (joined '-' (lowered (runsOf parts))).length ≤ 64) :
    (joined '-' (words parts)).length ≤ 64 := by
  by_cases hruns : runsOf parts = []
  · rw [words_eq_root hruns, joined_singleton]
    decide
  · rwa [words_eq_lowered hruns]

/-- A cloud name has between 1 and 64 characters, lowercase letters, digits and single hyphens, and
begins and ends with a letter or digit.  It is the cloud name of itself.  It is the longest prefix
of at most 64 characters, not ending in a hyphen, of the lowercase runs joined with hyphens, or
`root` without runs.  Where the joined runs of both fit into 64 characters, two cloud names are
equal iff the runs are the same up to case, where no run at all counts as the single run `root`. -/
theorem cloud_exact (ps qs : List String) :
    (1 ≤ (cloud ps).length ∧ (cloud ps).length ≤ 64) ∧ IsSpaced '-' (cloud ps).toList ∧
      (∃ c, (cloud ps).toList.head? = some c ∧ c.isAlphanum = true) ∧
      (∃ c, (cloud ps).toList.getLast? = some c ∧ c.isAlphanum = true) ∧
      cloud [cloud ps] = cloud ps ∧
      (∀ rs, HasRuns ps rs ↔ rs = runsOf ps) ∧
      (runsOf ps = [] → cloud ps = "root") ∧
      (runsOf ps ≠ [] →
        IsCut 64 (joined '-' (lowered (runsOf ps))) (cloud ps).toList) ∧
      ((joined '-' (lowered (runsOf ps))).length ≤ 64 →
        (joined '-' (lowered (runsOf qs))).length ≤ 64 →
        (cloud ps = cloud qs ↔ Alike ps qs)) := by
  have hne := toList_cloud_ne_nil ps
  have hspaced := isSpaced_cloud ps
  have hcut := isCut_cloud ps
  have hlength : (cloud ps).length = (cloud ps).toList.length := String.length_toList.symm
  refine ⟨⟨?_, ?_⟩, hspaced, ?_, ?_, cloud_cloud ps, fun rs => hasRuns_iff, ?_, ?_, ?_⟩
  · rw [hlength]
    exact List.length_pos_of_ne_nil hne
  · rw [hlength]
    exact hcut.length_le
  · have hhead := List.head?_eq_some_head hne
    refine ⟨_, hhead, hspaced.isAlphanum (List.head_mem hne) fun h => ?_⟩
    exact head?_cloud_ne ps (h ▸ hhead)
  · have hlast := List.getLast?_eq_some_getLast hne
    refine ⟨_, hlast, hspaced.isAlphanum (List.getLast_mem hne) fun h => ?_⟩
    exact hspaced.last (h ▸ hlast)
  · intro hruns
    rw [cloud_eq, words_eq_root hruns]
    decide
  · intro hruns
    rwa [words_eq_lowered hruns] at hcut
  · intro hp hq
    rw [cloud_eq_iff (length_joined_words_le hp) (length_joined_words_le hq), words_eq_iff]

end Name
end InfraGraph
