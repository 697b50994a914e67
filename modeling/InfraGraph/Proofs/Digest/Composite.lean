import InfraGraph.Proofs.Digest
import InfraGraph.Proofs.Marker
import Mathlib.Data.Set.Function

/-!
# What the hash of a list of texts tells

A hash has fewer bytes than most of what is hashed, so that it cannot tell all byte sequences apart.
The statements are about sets of inputs on which it does, and about what is written around it: the
hexadecimal digits, the UTF-8 bytes of a text, and the character that ends each text of a list.
Main statements:

* `Blake3.hexText_injective` — a hexadecimal text tells its bytes;
* `Digest.bytes_injective`, `Digest.ofText_eq_iff` — texts have one hash iff their bytes have;
* `Digest.stream_injOn` — texts without a zero character can be read back from what is hashed for
  the list of them;
* `Digest.composite_eq_iff` — lists of such texts are equal iff their hashes are;
* `Digest.not_zero_mem_ofText` — hashes are such texts themselves.
-/

namespace InfraGraph

/-- A hexadecimal digit tells its value. -/
theorem digitChar_inj {m n : Nat} (hm : m < 16) (hn : n < 16)
    (h : Nat.digitChar m = Nat.digitChar n) : m = n := by
  have hall : ∀ a b : Fin 16, Nat.digitChar a.val = Nat.digitChar b.val → a = b := by decide
  exact congrArg Fin.val (hall ⟨m, hm⟩ ⟨n, hn⟩ h)

/-! ## Hexadecimal texts -/

namespace Blake3

theorem toList_hexText_cons (b : UInt8) (bytes : List UInt8) :
    (hexText (b :: bytes)).toList =
      Nat.digitChar (b.toNat / 16) :: Nat.digitChar (b.toNat % 16) :: (hexText bytes).toList := by
  simp [hexText]

/-- The text of bytes tells the bytes. -/
theorem toList_hexText_injective {bytes other : List UInt8}
    (h : (hexText bytes).toList = (hexText other).toList) : bytes = other := by
  induction bytes generalizing other with
  | nil =>
      cases other with
      | nil => rfl
      | cons c other => simp [hexText] at h
  | cons b bytes ih =>
      cases other with
      | nil => simp [hexText] at h
      | cons c other =>
          rw [toList_hexText_cons, toList_hexText_cons, List.cons.injEq, List.cons.injEq] at h
          obtain ⟨hhigh, hlow, hrest⟩ := h
          have hb := b.toNat_lt
          have hc := c.toNat_lt
          -- two digits tell a byte, as it is less than 256
          have hquotient := digitChar_inj (by omega) (by omega) hhigh
          have hremainder := digitChar_inj (by omega) (by omega) hlow
          rw [UInt8.toNat.inj (show b.toNat = c.toNat by omega), ih hrest]

/-- A hexadecimal text tells its bytes. -/
theorem hexText_injective : Function.Injective hexText := fun _ _ h =>
  toList_hexText_injective (congrArg String.toList h)

end Blake3

namespace Digest

/-! ## Bytes of texts -/

/-- UTF-8 bytes of a text. -/
def bytes (s : String) : List UInt8 := s.toUTF8.toList

/-- What the loop of the library gives, with the bytes that were taken before. -/
theorem toList_loop (bs : ByteArray) (i : Nat) (taken : List UInt8) :
    ByteArray.toList.loop bs i taken = taken.reverse ++ bs.data.toList.drop i := by
  fun_induction ByteArray.toList.loop bs i taken with
  | case1 i taken hlt ih =>
      have hlength : i < bs.data.toList.length := hlt
      rw [ih, List.drop_eq_getElem_cons hlength, List.reverse_cons, List.append_assoc,
        List.singleton_append]
      congr 2
      exact getElem!_pos bs.data i hlt
  | case2 i taken hlt =>
      rw [List.drop_eq_nil_of_le (Nat.le_of_not_lt hlt), List.append_nil]

theorem toList_byteArray (bs : ByteArray) : bs.toList = bs.data.toList :=
  toList_loop bs 0 []

/-- The bytes of a text tell the text. -/
theorem bytes_injective : Function.Injective bytes := by
  intro s t h
  unfold bytes at h
  rw [toList_byteArray, toList_byteArray] at h
  exact String.toByteArray_inj.mp (ByteArray.ext (Array.toList_inj.mp h))

/-- Texts have the same hash iff their bytes have. -/
theorem ofText_eq_iff {s t : String} :
    ofText s = ofText t ↔ Blake3.digest (bytes s) = Blake3.digest (bytes t) := by
  unfold ofText Blake3.hex bytes
  constructor
  · intro h
    exact Blake3.hexText_injective ((String.append_right_inj tag).mp h)
  · intro h
    rw [h]

/-! ## Lists of texts -/

/-- No text has a zero character in it. -/
def IsClear (components : List String) : Prop := ∀ c ∈ components, ¬ '\x00' ∈ c.toList

/-- Bytes that are hashed for a list of texts. -/
def stream (components : List String) : List UInt8 := bytes (terminated components)

theorem toList_terminated_cons (c : String) (components : List String) :
    (terminated (c :: components)).toList =
      c.toList ++ '\x00' :: (terminated components).toList := by
  simp [terminated]

/-- Texts without a zero character are told from the bytes that are hashed. -/
theorem toList_terminated_inj {xs ys : List String} (hxs : IsClear xs) (hys : IsClear ys)
    (h : (terminated xs).toList = (terminated ys).toList) : xs = ys := by
  induction xs generalizing ys with
  | nil =>
      cases ys with
      | nil => rfl
      | cons y ys =>
          rw [toList_terminated_cons] at h
          exact absurd h.symm (by simp [terminated])
  | cons x xs ih =>
      cases ys with
      | nil =>
          rw [toList_terminated_cons] at h
          exact absurd h (by simp [terminated])
      | cons y ys =>
          obtain ⟨hx, hxs⟩ := List.forall_mem_cons.mp hxs
          obtain ⟨hy, hys⟩ := List.forall_mem_cons.mp hys
          -- the first zero character ends the first text
          rw [toList_terminated_cons, toList_terminated_cons] at h
          obtain ⟨hfirst, hrest⟩ := Marker.text_eq_of_append_cons hx hy h
          rw [hfirst, ih hxs hys hrest]

/-- Texts without a zero character can be read back from what is hashed for them. -/
theorem stream_injOn : Set.InjOn stream {components | IsClear components} := by
  intro xs hxs ys hys h
  exact toList_terminated_inj hxs hys (congrArg String.toList (bytes_injective h))

/-- Where no inputs collide, lists of texts are equal iff their hashes are. -/
theorem composite_eq_iff {inputs : Set (List UInt8)} {xs ys : List String}
    (hfree : Set.InjOn Blake3.digest inputs) (hxs : IsClear xs) (hys : IsClear ys)
    (hxsIn : stream xs ∈ inputs) (hysIn : stream ys ∈ inputs) :
    composite xs = composite ys ↔ xs = ys := by
  unfold composite
  rw [ofText_eq_iff]
  exact (hfree.eq_iff hxsIn hysIn).trans (stream_injOn.eq_iff hxs hys)

/-- A hash has no zero character in it. -/
theorem not_zero_mem_ofText (s : String) : ¬ '\x00' ∈ (ofText s).toList := by
  unfold ofText
  rw [String.toList_append, List.mem_append]
  rintro (htag | hhex)
  · exact absurd htag (by decide)
  · exact absurd (mem_hexText hhex) (by decide)

end Digest
end InfraGraph
