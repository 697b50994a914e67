import InfraGraph.Calendar
import InfraGraph.Proofs.Marker
import InfraGraph.Proofs.Number
import Mathlib.Algebra.Group.Nat.Defs

/-!
# Numerals of a fixed width

Numbers are written with zeros in front up to a width, so that numerals of one width are in the
order of their numbers when they are compared character by character.  Main statements:

* `IsNumeral`, `isNumeral_padded` — what a padded number looks like;
* `IsNumeral.eq_of_append_cons` — a numeral in front of a character that is no digit;
* `digits_lt_iff` — lists of as many digits are in the order of their values;
* `padded_append_lt_iff` — texts that begin with numerals of one width.
-/

namespace InfraGraph
namespace Calendar

/-! ## The look of a numeral -/

/-- Decimal digits of a number, with zeros in front only where the width asks for them. -/
structure IsNumeral (width n : Nat) (cs : List Char) : Prop where
  digits : ∀ c ∈ cs, c.isDigit = true
  value : Nat.ofDigitChars 10 cs 0 = n
  width_le : width ≤ cs.length
  short : cs.length = width ∨ cs.head? ≠ some '0'

variable {width m n : Nat}

theorem toList_padded (width n : Nat) :
    (padded width n).toList =
      List.replicate (width - (Nat.toDigits 10 n).length) '0' ++ Nat.toDigits 10 n := by
  simp [padded]

/-- Padded numbers hold digits alone. -/
theorem isDigit_of_mem_padded {c : Char} (h : c ∈ (padded width n).toList) : c.isDigit = true := by
  rw [toList_padded] at h
  rcases List.mem_append.mp h with hzero | hdigit
  · rw [List.eq_of_mem_replicate hzero]
    rfl
  · exact Number.isDigit_of_mem_toDigits hdigit

/-- The digits of a padded number give the number back. -/
theorem ofDigitChars_padded (width n : Nat) :
    Nat.ofDigitChars 10 (padded width n).toList 0 = n := by
  rw [toList_padded, Nat.ofDigitChars_append, Nat.ofDigitChars_replicate_zero, Nat.mul_zero,
    Nat.ofDigitChars_ten_toDigits]

/-- A number that fits has a numeral of the width. -/
theorem length_padded (hwidth : 0 < width) (h : n < 10 ^ width) :
    (padded width n).toList.length = width := by
  have hlength := (Nat.length_toDigits_le_iff (by decide) hwidth).mpr h
  rw [toList_padded, List.length_append, List.length_replicate]
  omega

/-- A padded number is the numeral of the number. -/
theorem isNumeral_padded (hwidth : 0 < width) (n : Nat) :
    IsNumeral width n (padded width n).toList := by
  refine ⟨fun c => isDigit_of_mem_padded, ofDigitChars_padded width n, ?_, ?_⟩
  · rw [toList_padded, List.length_append, List.length_replicate]
    omega
  · by_cases hfits : n < 10 ^ width
    · exact Or.inl (length_padded hwidth hfits)
    · -- without zeros in front, the first digit is that of the number
      right
      have hlength := mt (Nat.length_toDigits_le_iff (b := 10) (n := n) (by decide) hwidth).mp hfits
      have hpos : n ≠ 0 := by
        rintro rfl
        exact hfits (Nat.pow_pos (by decide))
      obtain ⟨d, ds, hdigits, hfirst⟩ := Number.exists_toDigits n
      rw [toList_padded, Nat.sub_eq_zero_of_le (by omega), List.replicate_zero, List.nil_append,
        hdigits]
      simpa using hfirst hpos

/-- A numeral in front of a character that is no digit can be read back. -/
theorem IsNumeral.eq_of_append_cons {width' : Nat} {c : Char} {cs ds xs ys : List Char}
    (hm : IsNumeral width m cs) (hn : IsNumeral width' n ds) (hc : c.isDigit = false)
    (h : cs ++ c :: xs = ds ++ c :: ys) : m = n ∧ xs = ys := by
  have hcs : ¬c ∈ cs := fun hmem => by simp [hm.digits c hmem] at hc
  have hds : ¬c ∈ ds := fun hmem => by simp [hn.digits c hmem] at hc
  obtain ⟨hdigits, hrest⟩ := Marker.eq_of_append_cons_first hcs hds h
  exact ⟨by rw [← hm.value, hdigits, hn.value], hrest⟩

/-! ## The order of numerals -/

theorem toNat_of_isDigit {c : Char} (h : c.isDigit = true) : 48 ≤ c.toNat ∧ c.toNat ≤ 57 := by
  obtain ⟨hzero, hnine⟩ := (Bool.and_eq_true _ _).mp h
  exact ⟨UInt32.le_iff_toNat_le.mp (of_decide_eq_true hzero),
    UInt32.le_iff_toNat_le.mp (of_decide_eq_true hnine)⟩

theorem digit_le_nine {c : Char} (h : c.isDigit = true) : c.toNat - '0'.toNat ≤ 9 := by
  have hrange := toNat_of_isDigit h
  have hzero : '0'.toNat = 48 := rfl
  omega

/-- Digits are in the order of their values. -/
theorem digit_lt_iff {c d : Char} (hc : c.isDigit = true) (hd : d.isDigit = true) :
    c < d ↔ c.toNat - '0'.toNat < d.toNat - '0'.toNat := by
  have hcrange := toNat_of_isDigit hc
  have hdrange := toNat_of_isDigit hd
  have hzero : '0'.toNat = 48 := rfl
  have hlt : c < d ↔ c.toNat < d.toNat := Char.lt_def.trans UInt32.lt_iff_toNat_lt
  rw [hlt]
  omega

theorem digit_eq_iff {c d : Char} (hc : c.isDigit = true) (hd : d.isDigit = true) :
    c = d ↔ c.toNat - '0'.toNat = d.toNat - '0'.toNat := by
  have hcrange := toNat_of_isDigit hc
  have hdrange := toNat_of_isDigit hd
  have hzero : '0'.toNat = 48 := rfl
  rw [← Char.toNat_inj]
  omega

/-- The first digit counts as many times as there are numbers of the digits behind it. -/
theorem ofDigitChars_cons (c : Char) (cs : List Char) :
    Nat.ofDigitChars 10 (c :: cs) 0 =
      10 ^ cs.length * (c.toNat - '0'.toNat) + Nat.ofDigitChars 10 cs 0 := by
  rw [Nat.ofDigitChars_cons, Nat.mul_zero, Nat.zero_add, Nat.ofDigitChars_eq_ofDigitChars_zero]

/-- Digits make a number below the power of ten that their count gives. -/
theorem ofDigitChars_lt {cs : List Char} (h : ∀ c ∈ cs, c.isDigit = true) :
    Nat.ofDigitChars 10 cs 0 < 10 ^ cs.length := by
  induction cs with
  | nil => decide
  | cons c cs ih =>
      obtain ⟨hc, hcs⟩ := List.forall_mem_cons.mp h
      have hrest := ih hcs
      have hfirst := Nat.mul_le_mul_left (10 ^ cs.length) (digit_le_nine hc)
      rw [ofDigitChars_cons, List.length_cons, Nat.pow_succ]
      omega

/-- Numbers with a larger and a smaller part are compared by the larger part first. -/
theorem mul_add_lt_iff {base a b x y : Nat} (hx : x < base) (hy : y < base) :
    base * a + x < base * b + y ↔ a < b ∨ a = b ∧ x < y := by
  rcases Nat.lt_trichotomy a b with hlt | rfl | hgt
  · have hmul := Nat.mul_le_mul_left base (Nat.succ_le_of_lt hlt)
    rw [Nat.mul_succ] at hmul
    omega
  · omega
  · have hmul := Nat.mul_le_mul_left base (Nat.succ_le_of_lt hgt)
    rw [Nat.mul_succ] at hmul
    omega

/-- Lists of as many digits are in the order of their values. -/
theorem digits_lt_iff {cs ds : List Char} (hlength : cs.length = ds.length)
    (hcs : ∀ c ∈ cs, c.isDigit = true) (hds : ∀ d ∈ ds, d.isDigit = true) :
    cs < ds ↔ Nat.ofDigitChars 10 cs 0 < Nat.ofDigitChars 10 ds 0 := by
  induction cs generalizing ds with
  | nil =>
      rw [List.eq_nil_of_length_eq_zero hlength.symm]
      simp
  | cons c cs ih =>
      cases ds with
      | nil => simp at hlength
      | cons d ds =>
          obtain ⟨hc, hcs⟩ := List.forall_mem_cons.mp hcs
          obtain ⟨hd, hds⟩ := List.forall_mem_cons.mp hds
          have hrest : cs.length = ds.length := by simpa using hlength
          rw [List.cons_lt_cons_iff, ih hrest hcs hds, digit_lt_iff hc hd, digit_eq_iff hc hd,
            ofDigitChars_cons, ofDigitChars_cons, hrest,
            mul_add_lt_iff (hrest ▸ ofDigitChars_lt hcs) (ofDigitChars_lt hds)]

/-! ## The order of texts -/

/-- Texts that begin with parts of the same length are compared by these parts first. -/
theorem append_lt_append_iff {as bs xs ys : List Char} (h : as.length = bs.length) :
    as ++ xs < bs ++ ys ↔ as < bs ∨ as = bs ∧ xs < ys := by
  induction as generalizing bs with
  | nil =>
      rw [List.eq_nil_of_length_eq_zero h.symm]
      simp
  | cons a as ih =>
      cases bs with
      | nil => simp at h
      | cons b bs =>
          have hrest : as.length = bs.length := by simpa using h
          rw [List.cons_append, List.cons_append, List.cons_lt_cons_iff, List.cons_lt_cons_iff,
            ih hrest, List.cons.injEq]
          constructor
          · rintro (hlt | ⟨rfl, hlt | ⟨rfl, hlt⟩⟩)
            · exact Or.inl (Or.inl hlt)
            · exact Or.inl (Or.inr ⟨rfl, hlt⟩)
            · exact Or.inr ⟨⟨rfl, rfl⟩, hlt⟩
          · rintro ((hlt | ⟨rfl, hlt⟩) | ⟨⟨rfl, rfl⟩, hlt⟩)
            · exact Or.inl hlt
            · exact Or.inr ⟨rfl, Or.inl hlt⟩
            · exact Or.inr ⟨rfl, Or.inr ⟨rfl, hlt⟩⟩

/-- Texts that begin with numerals of one width are compared by the numbers first. -/
theorem padded_append_lt_iff {xs ys : List Char} (hwidth : 0 < width) (hm : m < 10 ^ width)
    (hn : n < 10 ^ width) :
    (padded width m).toList ++ xs < (padded width n).toList ++ ys ↔ m < n ∨ m = n ∧ xs < ys := by
  have hlength : (padded width m).toList.length = (padded width n).toList.length := by
    rw [length_padded hwidth hm, length_padded hwidth hn]
  have heq : (padded width m).toList = (padded width n).toList ↔ m = n := by
    constructor
    · intro h
      rw [← ofDigitChars_padded width m, h, ofDigitChars_padded]
    · rintro rfl
      rfl
  rw [append_lt_append_iff hlength, heq,
    digits_lt_iff hlength (fun _ => isDigit_of_mem_padded) (fun _ => isDigit_of_mem_padded),
    ofDigitChars_padded, ofDigitChars_padded]

end Calendar
end InfraGraph
