import InfraGraph.Digest
import InfraGraph.Proofs.Name

/-!
# Short digests in names

* `Digest.isToken_short` — a short digest is one token of the names that it stands in.
-/

namespace InfraGraph

/-- A hexadecimal digit may stand in a token. -/
theorem isLower_or_isDigit_digitChar {n : Nat} (h : n < 16) :
    (Nat.digitChar n).isLower = true ∨ (Nat.digitChar n).isDigit = true := by
  have hall : ∀ m : Fin 16,
      (Nat.digitChar m.val).isLower = true ∨ (Nat.digitChar m.val).isDigit = true := by decide
  exact hall ⟨n, h⟩

namespace Digest

/-- Hexadecimal digits are lowercase letters and decimal digits. -/
theorem mem_hexText {bytes : List UInt8} {c : Char} (h : c ∈ (Blake3.hexText bytes).toList) :
    c.isLower = true ∨ c.isDigit = true := by
  simp only [Blake3.hexText, String.toList_ofList, List.mem_flatMap, List.mem_cons,
    List.not_mem_nil, or_false] at h
  obtain ⟨b, _, rfl | rfl⟩ := h
  · apply isLower_or_isDigit_digitChar
    have hbyte := b.toNat_lt
    omega
  · exact isLower_or_isDigit_digitChar (Nat.mod_lt _ (by decide))

theorem toList_hex_ne_nil (text : String) : (Blake3.hex text).toList ≠ [] := by
  simp [Blake3.hex, Blake3.hexText, Blake3.digest, Blake3.Row.toList, Blake3.wordBytes]

/-- A short digest is one token of the names that it stands in. -/
theorem isToken_short (text : String) : Name.IsToken (Digest.short text).toList := by
  unfold short
  rw [String.toList_ofList]
  constructor
  · intro hnil
    rcases List.take_eq_nil_iff.mp hnil with hzero | hhex
    · cases hzero
    · exact toList_hex_ne_nil text hhex
  · intro c hc
    exact mem_hexText (List.mem_of_mem_take hc)

end Digest
end InfraGraph
