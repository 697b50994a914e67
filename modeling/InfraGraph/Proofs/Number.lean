/-!
# Texts of whole numbers

* `Number.toList_toString` — the text of a number is a sign, where there is one, before digits;
* `Number.exists_toDigits` — only the digits of zero begin with a zero;
* `Number.exists_head` — the text of a number begins with a digit or a sign.
-/

namespace InfraGraph
namespace Number

/-- The text of a number: a sign, where there is one, and the digits behind it. -/
theorem toList_toString (n : Int) :
    (toString n).toList = (if n < 0 then ['-'] else []) ++ Nat.toDigits 10 n.natAbs := by
  cases n with
  | ofNat k =>
      rw [if_neg (by simp)]
      exact Nat.toList_repr
  | negSucc k =>
      rw [if_pos (Int.negSucc_lt_zero k), Int.toString_eq_repr, Int.repr, String.toList_append,
        Nat.toList_repr]
      rfl

theorem isDigit_of_mem_toDigits {n : Nat} {c : Char} (h : c ∈ Nat.toDigits 10 n) :
    c.isDigit = true :=
  Nat.isDigit_of_mem_toDigits (by decide) (by decide) h

/-- There is a first digit, and it is a zero for zero only. -/
theorem exists_toDigits (n : Nat) :
    ∃ d ds, Nat.toDigits 10 n = d :: ds ∧ (n ≠ 0 → d ≠ '0') := by
  induction n using Nat.strongRecOn with
  | _ n ih =>
      obtain ⟨d, ds, hdigits⟩ := List.exists_cons_of_ne_nil (Nat.toDigits_ne_nil (b := 10) (n := n))
      refine ⟨d, ds, hdigits, fun hne => ?_⟩
      rw [Nat.toDigits_eq_if (by decide)] at hdigits
      split at hdigits
      · next hlt =>
        have hchars : ∀ k, k < 10 → k ≠ 0 → Nat.digitChar k ≠ '0' := by decide
        exact (List.cons.inj hdigits).1 ▸ hchars n hlt hne
      · -- the first digit is that of a tenth of the number
        obtain ⟨d', ds', hdigits', hfirst⟩ := ih (n / 10) (by omega)
        rw [hdigits'] at hdigits
        exact (List.cons.inj hdigits).1 ▸ hfirst (by omega)

/-- The text of a number begins with a digit or a sign. -/
theorem exists_head (n : Int) :
    ∃ c cs, (toString n).toList = c :: cs ∧ (c.isDigit = true ∨ c = '-') := by
  rw [toList_toString]
  split
  · exact ⟨_, _, rfl, Or.inr rfl⟩
  · obtain ⟨d, ds, hdigits, _⟩ := exists_toDigits n.natAbs
    exact ⟨d, ds, hdigits, Or.inl (isDigit_of_mem_toDigits (hdigits ▸ List.mem_cons_self))⟩

end Number
end InfraGraph
