import InfraGraph.Proofs.Marker
import InfraGraph.Proofs.Number
import InfraGraph.Resource.Fingerprint
import Mathlib

/-!
# What a canonical text tells

Nothing is escaped in the canonical text of a resource.  A value ends at the separator behind it, or
at the end of its line, and a key at the first equals sign, so texts that hold these characters can
be read in two ways.  Where they hold none, contents can be read back.  Main statements:

* `FieldValue.endsAt`, `Resource.Readable` — values and resources that can be read back;
* `FieldValue.eq_of_canonical` — a value and its end can be found in a longer text;
* `Resource.content_eq_of_canonical` — the canonical text tells fields and dependencies.
-/

namespace InfraGraph

/-! ## Values -/

namespace FieldValue

/-- Character behind every entry of a map and every item of a list. -/
def separatorMark : Char := '\x1f'

/-- A value stands in front of the end of its line or of a separator. -/
def IsMark (mark : Char) : Prop := mark = '\n' ∨ mark = separatorMark

mutual

/-- Whether a value can be read off in front of a mark.  In maps and lists, parts stand in front of
separators; keys are read up to the first equals sign, and no key begins like the end of a map. -/
def endsAt (mark : Char) : FieldValue → Bool
  | text s => !s.toList.contains mark
  | number _ => true
  | bool _ => true
  | ref r => !r.toList.contains mark
  | expr e => !e.toList.contains mark
  | map entries => entriesEnd entries
  | list items => itemsEnd items

def entriesEnd : List (String × FieldValue) → Bool
  | [] => true
  | e :: rest =>
      !e.1.toList.contains '=' && e.1.toList.head? != some '}' && endsAt separatorMark e.2 &&
        entriesEnd rest

def itemsEnd : List FieldValue → Bool
  | [] => true
  | v :: rest => endsAt separatorMark v && itemsEnd rest

end

/-- First character of a canonical text. -/
def sort : FieldValue → Char
  | text _ => 's'
  | number _ => 'n'
  | bool _ => 'b'
  | ref _ => 'r'
  | expr _ => 'e'
  | map _ => '{'
  | list _ => '['

/-- The first character of a canonical text tells the sort of the value. -/
theorem head_canonical (v : FieldValue) : v.canonical.toList.head? = some v.sort := by
  cases v <;> simp [canonical, sort]

/-- Values whose texts agree at the beginning were made by one constructor. -/
theorem sort_eq {v w : FieldValue} {xs ys : List Char}
    (h : v.canonical.toList ++ xs = w.canonical.toList ++ ys) : v.sort = w.sort := by
  have hhead := congrArg List.head? h
  rw [List.head?_append, List.head?_append, head_canonical, head_canonical] at hhead
  exact Option.some.inj hhead

theorem mark_not_mem_number {mark : Char} (hmark : IsMark mark) (n : Int) :
    ¬mark ∈ (toString n).toList := by
  have hmark : mark ≠ '-' ∧ mark.isDigit = false := by rcases hmark with rfl | rfl <;> decide
  rw [Number.toList_toString, List.mem_append, not_or]
  refine ⟨?_, fun hdigit => ?_⟩
  · split <;> simp [hmark.1]
  · rw [Number.isDigit_of_mem_toDigits hdigit] at hmark
    exact absurd hmark.2 (by decide)

theorem mark_not_mem_bool {mark : Char} (hmark : IsMark mark) (b : Bool) :
    ¬mark ∈ (if b then "true" else "false").toList := by
  rcases hmark with rfl | rfl <;> cases b <;> decide

/-- An entry is its key, an equals sign, its value and a separator. -/
theorem toList_canonicalEntries_cons (e : String × FieldValue) (rest : List (String × FieldValue)) :
    (canonicalEntries (e :: rest)).toList =
      e.1.toList ++ '=' :: (e.2.canonical.toList ++
        separatorMark :: (canonicalEntries rest).toList) := by
  simp [canonicalEntries, separator, separatorMark]

theorem toList_canonicalItems_cons (v : FieldValue) (rest : List FieldValue) :
    (canonicalItems (v :: rest)).toList =
      v.canonical.toList ++ separatorMark :: (canonicalItems rest).toList := by
  simp [canonicalItems, separator, separatorMark]

/-- The next key does not begin with the brace that closes the map. -/
theorem head_of_entriesEnd {e : String × FieldValue} {rest : List (String × FieldValue)}
    (h : entriesEnd (e :: rest) = true) : e.1.toList.head? ≠ some '}' := by
  simp only [entriesEnd, Bool.and_eq_true, bne_iff_ne] at h
  exact h.1.1.2

/-- The end of a map is not the beginning of an entry. -/
theorem brace_ne_entry {key : String} {xs rest : List Char}
    (hkey : key.toList.head? ≠ some '}') : '}' :: xs ≠ key.toList ++ '=' :: rest := by
  intro h
  cases hlist : key.toList with
  | nil =>
      rw [hlist] at h
      exact absurd (List.cons.inj h).1 (by decide)
  | cons c cs =>
      rw [hlist] at h hkey
      exact hkey (congrArg some (List.cons.inj h).1.symm)

/-- The end of a list is not the beginning of an item. -/
theorem bracket_ne_item {v : FieldValue} {xs rest : List Char} :
    ']' :: xs ≠ v.canonical.toList ++ rest := by
  intro h
  have hhead := congrArg List.head? h
  rw [List.head?_append, head_canonical] at hhead
  have hsort : ']' = v.sort := Option.some.inj hhead
  revert hsort
  cases v <;> simp [sort]

theorem isMark_separator : IsMark separatorMark := Or.inr rfl

mutual

/-- A value and its end can be found in a longer text. -/
theorem eq_of_canonical : (v w : FieldValue) → {mark : Char} → {xs ys : List Char} →
    IsMark mark → v.endsAt mark = true → w.endsAt mark = true →
      v.canonical.toList ++ mark :: xs = w.canonical.toList ++ mark :: ys → v = w ∧ xs = ys
  -- by the constructor, which the first characters tell; a plain text then ends at the mark
  | text s, w, _, _, _, _, hv, hw, h => by
      cases w with
      | text t =>
          obtain ⟨rfl, hrest⟩ := Marker.text_eq_of_append_cons (by simpa [endsAt] using hv)
            (by simpa [endsAt] using hw) (by simpa [canonical] using h)
          exact ⟨rfl, hrest⟩
      | _ => exact absurd (sort_eq h) (by simp [sort])
  | number n, w, _, _, _, hmark, _, _, h => by
      cases w with
      | number k =>
          obtain ⟨htext, hrest⟩ := Marker.text_eq_of_append_cons
            (mark_not_mem_number hmark n.toInt) (mark_not_mem_number hmark k.toInt)
            (by simpa [canonical] using h)
          have hint : n.toInt = k.toInt := Int.repr_injective htext
          exact ⟨congrArg number (Int64.toInt_inj.mp hint), hrest⟩
      | _ => exact absurd (sort_eq h) (by simp [sort])
  | bool b, w, _, _, _, hmark, _, _, h => by
      cases w with
      | bool c =>
          obtain ⟨htext, hrest⟩ := Marker.text_eq_of_append_cons
            (mark_not_mem_bool hmark b) (mark_not_mem_bool hmark c) (by simpa [canonical] using h)
          refine ⟨congrArg bool ?_, hrest⟩
          revert htext
          cases b <;> cases c <;> decide
      | _ => exact absurd (sort_eq h) (by simp [sort])
  | ref r, w, _, _, _, _, hv, hw, h => by
      cases w with
      | ref t =>
          obtain ⟨rfl, hrest⟩ := Marker.text_eq_of_append_cons (by simpa [endsAt] using hv)
            (by simpa [endsAt] using hw) (by simpa [canonical] using h)
          exact ⟨rfl, hrest⟩
      | _ => exact absurd (sort_eq h) (by simp [sort])
  | expr e, w, _, _, _, _, hv, hw, h => by
      cases w with
      | expr t =>
          obtain ⟨rfl, hrest⟩ := Marker.text_eq_of_append_cons (by simpa [endsAt] using hv)
            (by simpa [endsAt] using hw) (by simpa [canonical] using h)
          exact ⟨rfl, hrest⟩
      | _ => exact absurd (sort_eq h) (by simp [sort])
  -- maps and lists end at their own bracket, with the mark behind it
  | map entries, w, _, _, _, _, hv, hw, h => by
      cases w with
      | map others =>
          obtain ⟨rfl, hrest⟩ := eq_of_canonicalEntries entries others
            (by simpa [endsAt] using hv) (by simpa [endsAt] using hw) (by simpa [canonical] using h)
          exact ⟨rfl, (List.cons.inj hrest).2⟩
      | _ => exact absurd (sort_eq h) (by simp [sort])
  | list items, w, _, _, _, _, hv, hw, h => by
      cases w with
      | list others =>
          obtain ⟨rfl, hrest⟩ := eq_of_canonicalItems items others
            (by simpa [endsAt] using hv) (by simpa [endsAt] using hw) (by simpa [canonical] using h)
          exact ⟨rfl, (List.cons.inj hrest).2⟩
      | _ => exact absurd (sort_eq h) (by simp [sort])

/-- The entries of a map can be read off its canonical text: a key ends at the first equals sign, a
value where its own reading ends. -/
theorem eq_of_canonicalEntries : (es fs : List (String × FieldValue)) → {xs ys : List Char} →
    entriesEnd es = true → entriesEnd fs = true →
      (canonicalEntries es).toList ++ '}' :: xs = (canonicalEntries fs).toList ++ '}' :: ys →
        es = fs ∧ xs = ys
  | [], [], _, _, _, _, h => by simpa [canonicalEntries] using h
  -- one map ends where the other goes on
  | [], f :: others, _, _, _, hfs, h => by
      rw [toList_canonicalEntries_cons, List.append_assoc, List.cons_append] at h
      exact absurd h (brace_ne_entry (head_of_entriesEnd hfs))
  | e :: rest, [], _, _, hes, _, h => by
      rw [toList_canonicalEntries_cons, List.append_assoc, List.cons_append] at h
      exact absurd h.symm (brace_ne_entry (head_of_entriesEnd hes))
  | (key, v) :: rest, (other, w) :: others, _, _, hes, hfs, h => by
      simp only [entriesEnd, Bool.and_eq_true, Bool.not_eq_true', List.contains_eq_mem,
        decide_eq_false_iff_not] at hes hfs
      obtain ⟨⟨⟨hkey, -⟩, hv⟩, hrest⟩ := hes
      obtain ⟨⟨⟨hother, -⟩, hw⟩, hothers⟩ := hfs
      simp only [toList_canonicalEntries_cons, List.append_assoc, List.cons_append] at h
      -- the key, then the value, then what follows the separator
      obtain ⟨rfl, hvalues⟩ := Marker.text_eq_of_append_cons hkey hother h
      obtain ⟨rfl, htail⟩ := eq_of_canonical v w isMark_separator hv hw hvalues
      obtain ⟨rfl, hend⟩ := eq_of_canonicalEntries rest others hrest hothers htail
      exact ⟨rfl, hend⟩

/-- The items of a list can be read off its canonical text, since each begins with its sort and not
with the bracket that closes the list. -/
theorem eq_of_canonicalItems : (vs ws : List FieldValue) → {xs ys : List Char} →
    itemsEnd vs = true → itemsEnd ws = true →
      (canonicalItems vs).toList ++ ']' :: xs = (canonicalItems ws).toList ++ ']' :: ys →
        vs = ws ∧ xs = ys
  | [], [], _, _, _, _, h => by simpa [canonicalItems] using h
  | [], w :: others, _, _, _, _, h => by
      rw [toList_canonicalItems_cons, List.append_assoc] at h
      exact absurd h bracket_ne_item
  | v :: rest, [], _, _, _, _, h => by
      rw [toList_canonicalItems_cons, List.append_assoc] at h
      exact absurd h.symm bracket_ne_item
  | v :: rest, w :: others, _, _, hvs, hws, h => by
      simp only [itemsEnd, Bool.and_eq_true] at hvs hws
      simp only [toList_canonicalItems_cons, List.append_assoc, List.cons_append] at h
      obtain ⟨rfl, htail⟩ := eq_of_canonical v w isMark_separator hvs.1 hws.1 h
      obtain ⟨rfl, hend⟩ := eq_of_canonicalItems rest others hvs.2 hws.2 htail
      exact ⟨rfl, hend⟩

end

end FieldValue

/-! ## Resources -/

namespace Resource

/-- Key of the lines of dependencies. -/
def dependencyKey : String := "depends_on"

/-- A resource that can be read back: keys end at the first equals sign and are not that of a
dependency, values and dependencies end with their line. -/
structure Readable (r : Resource) : Prop where
  keys : ∀ field ∈ r.fields.entries, ¬ '=' ∈ field.1.toList ∧ field.1 ≠ dependencyKey
  values : ∀ field ∈ r.fields.entries, field.2.endsAt '\n' = true
  dependencies : ∀ address ∈ r.dependsOn, ¬ '\n' ∈ address.toList

def fieldLines (fields : List (String × FieldValue)) : List Char :=
  fields.flatMap fun field => (fieldLine field).toList

def dependencyLines (addresses : List String) : List Char :=
  addresses.flatMap fun address => (dependencyLine address).toList

/-- A canonical text is the address on a line, then a line for each field and for each
dependency. -/
theorem toList_canonical (r : Resource) :
    r.canonical.toList =
      r.address.toList ++ '\n' :: (fieldLines r.fields.entries ++ dependencyLines r.dependsOn) := by
  simp [canonical, fieldLines, dependencyLines, List.flatMap_map, String.toList_join]

theorem fieldLines_cons (field : String × FieldValue) (rest : List (String × FieldValue)) :
    fieldLines (field :: rest) =
      field.1.toList ++ '=' :: (field.2.canonical.toList ++ '\n' :: fieldLines rest) := by
  simp [fieldLines, fieldLine]

theorem dependencyLines_cons (address : String) (rest : List String) :
    dependencyLines (address :: rest) =
      dependencyKey.toList ++ '=' :: (address.toList ++ '\n' :: dependencyLines rest) := by
  simp [dependencyLines, dependencyLine, dependencyKey]

/-- Addresses of one line each can be read off their lines. -/
theorem dependencies_eq_of_lines {xs ys : List String}
    (hx : ∀ address ∈ xs, ¬ '\n' ∈ address.toList)
    (hy : ∀ address ∈ ys, ¬ '\n' ∈ address.toList) (h : dependencyLines xs = dependencyLines ys) :
    xs = ys := by
  induction xs generalizing ys with
  | nil =>
      cases ys with
      | nil => rfl
      | cons b ys =>
          rw [dependencyLines_cons] at h
          simp [dependencyLines] at h
  | cons a xs ih =>
      cases ys with
      | nil =>
          rw [dependencyLines_cons] at h
          simp [dependencyLines] at h
      | cons b ys =>
          obtain ⟨ha, hxs⟩ := List.forall_mem_cons.mp hx
          obtain ⟨hb, hys⟩ := List.forall_mem_cons.mp hy
          rw [dependencyLines_cons, dependencyLines_cons] at h
          -- both lines begin with the same key
          have htail := (List.cons.inj (List.append_cancel_left h)).2
          obtain ⟨hab, hrest⟩ := Marker.text_eq_of_append_cons ha hb htail
          rw [hab, ih hxs hys hrest]

/-- A line of a dependency is not the line of a field. -/
theorem dependencyLines_ne {key : String} (hkey : ¬ '=' ∈ key.toList ∧ key ≠ dependencyKey)
    (addresses : List String) (rest : List Char) :
    dependencyLines addresses ≠ key.toList ++ '=' :: rest := by
  intro h
  cases addresses with
  | nil => simp [dependencyLines] at h
  | cons a xs =>
      rw [dependencyLines_cons] at h
      exact hkey.2 (Marker.text_eq_of_append_cons (by decide) hkey.1 h).1.symm

/-- Fields and dependencies can be read off their lines: no field has the key that dependencies are
written under. -/
theorem content_eq_of_lines {fs gs : List (String × FieldValue)} {xs ys : List String}
    (hf : ∀ f ∈ fs, (¬ '=' ∈ f.1.toList ∧ f.1 ≠ dependencyKey) ∧ f.2.endsAt '\n' = true)
    (hg : ∀ g ∈ gs, (¬ '=' ∈ g.1.toList ∧ g.1 ≠ dependencyKey) ∧ g.2.endsAt '\n' = true)
    (hx : ∀ address ∈ xs, ¬ '\n' ∈ address.toList) (hy : ∀ address ∈ ys, ¬ '\n' ∈ address.toList)
    (h : fieldLines fs ++ dependencyLines xs = fieldLines gs ++ dependencyLines ys) :
    fs = gs ∧ xs = ys := by
  induction fs generalizing gs with
  | nil =>
      cases gs with
      | nil => exact ⟨rfl, dependencies_eq_of_lines hx hy h⟩
      | cons g gs =>
          obtain ⟨hkey, -⟩ := (List.forall_mem_cons.mp hg).1
          rw [fieldLines_cons, List.append_assoc] at h
          exact absurd h (dependencyLines_ne hkey xs _)
  | cons f fs ih =>
      obtain ⟨⟨hkey, hvalue⟩, hfs⟩ := List.forall_mem_cons.mp hf
      rw [fieldLines_cons, List.append_assoc] at h
      cases gs with
      | nil => exact absurd h.symm (dependencyLines_ne hkey ys _)
      | cons g gs =>
          obtain ⟨⟨hother, hw⟩, hgs⟩ := List.forall_mem_cons.mp hg
          simp only [fieldLines_cons, List.append_assoc, List.cons_append] at h
          -- first the keys, then the values, then the lines behind them
          obtain ⟨hkeys, hvalues⟩ := Marker.text_eq_of_append_cons hkey.1 hother.1 h
          obtain ⟨heq, htail⟩ := FieldValue.eq_of_canonical f.2 g.2 (Or.inl rfl) hvalue hw hvalues
          obtain ⟨hrest, hxy⟩ := ih hfs hgs htail
          refine ⟨?_, hxy⟩
          rw [hrest, Prod.ext hkeys heq]

/-- Where resources can be read back, the canonical text tells fields and dependencies. -/
theorem content_eq_of_canonical {r t : Resource} (hr : r.Readable) (ht : t.Readable)
    (haddress : r.address = t.address) (h : r.canonical = t.canonical) :
    r.fields = t.fields ∧ r.dependsOn = t.dependsOn := by
  have hlist := congrArg String.toList h
  rw [toList_canonical, toList_canonical, haddress] at hlist
  have hlines := (List.cons.inj (List.append_cancel_left hlist)).2
  have hcontent := content_eq_of_lines (fun f hf => ⟨hr.keys f hf, hr.values f hf⟩)
    (fun g hg => ⟨ht.keys g hg, ht.values g hg⟩) hr.dependencies ht.dependencies hlines
  exact ⟨OrderedMap.ext hcontent.1, hcontent.2⟩

end Resource
end InfraGraph
