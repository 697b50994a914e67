import InfraGraph.Json.Printer
import InfraGraph.Proofs.Json.Tree
import InfraGraph.Proofs.Marker
import InfraGraph.Proofs.Number
import Mathlib.Data.List.DropRight

/-!
# Values are read back from their texts

The indented text of a value without floating point numbers is read back as the tree of the value,
whatever the texts in it.  Statements are about a text with something behind it, so that what is
inside can be read off and the rest goes on.  Main statements:

* `Json.IsExact` — values whose numbers are read exactly;
* `Json.number_toString`, `Json.unquoted_escaped` — numbers and texts;
* `Json.Source.value_prettyAt` — a value and what follows it;
* `Json.fuel_le` — the fuel that reading takes;
* `Json.ofText_pretty`, `Json.decode_pretty` — a whole text.
-/

namespace InfraGraph
namespace Json

open Decode

/-! ## Exact values -/

mutual

/-- No number of a value is a floating point number, and all of them fit 64 bits. -/
def IsExact : Json → Prop
  | float _ => False
  | int n => Int64.minValue.toInt ≤ n ∧ n ≤ maxWhole
  | arr items => ItemsExact items
  | obj members => MembersExact members
  | _ => True

def ItemsExact : List Json → Prop
  | [] => True
  | v :: rest => IsExact v ∧ ItemsExact rest

def MembersExact : List (String × Json) → Prop
  | [] => True
  | m :: rest => IsExact m.2 ∧ MembersExact rest

end

theorem itemsExact_iff {items : List Json} : ItemsExact items ↔ ∀ v ∈ items, v.IsExact := by
  induction items with
  | nil => simp [ItemsExact]
  | cons v rest ih => simp [ItemsExact, ih]

theorem membersExact_iff {members : List (String × Json)} :
    MembersExact members ↔ ∀ m ∈ members, m.2.IsExact := by
  induction members with
  | nil => simp [MembersExact]
  | cons m rest ih => simp only [MembersExact, ih, List.forall_mem_cons]

@[simp]
theorem isExact_str (s : String) : (str s).IsExact := trivial

@[simp]
theorem isExact_arr_iff {items : List Json} : (arr items).IsExact ↔ ∀ v ∈ items, v.IsExact :=
  itemsExact_iff

@[simp]
theorem isExact_obj_iff {members : List (String × Json)} :
    (obj members).IsExact ↔ ∀ m ∈ members, m.2.IsExact :=
  membersExact_iff

mutual

/-- Sorting leaves the numbers as they are. -/
theorem isExact_sorted : ∀ v : Json, v.IsExact → v.sorted.IsExact
  | null, h => h
  | bool _, h => h
  | int _, h => h
  | float _, h => h
  | str _, h => h
  | arr items, h => itemsExact_sortedItems items h
  | obj members, h => by
      have hvalues := membersExact_iff.mp (membersExact_sortedValues members h)
      exact membersExact_iff.mpr fun m hm => hvalues m (mem_sortMembers hm)

/-- Numbers stay as they are where members are sorted. -/
theorem itemsExact_sortedItems : ∀ items : List Json, ItemsExact items →
    ItemsExact (sortedItems items)
  | [], h => h
  | v :: rest, h => ⟨isExact_sorted v h.1, itemsExact_sortedItems rest h.2⟩

theorem membersExact_sortedValues : ∀ members : List (String × Json), MembersExact members →
    MembersExact (sortedValues members)
  | [], h => h
  | m :: rest, h => ⟨isExact_sorted m.2 h.1, membersExact_sortedValues rest h.2⟩

end

/-! ## Blanks -/

/-- Blanks in front do not matter. -/
theorem skipBlanks_append {blanks rest : List Char} (h : ∀ c ∈ blanks, isBlank c = true) :
    skipBlanks (blanks ++ rest) = skipBlanks rest :=
  List.dropWhile_append_of_pos h

theorem skipBlanks_cons {c : Char} {rest : List Char} (h : isBlank c = false) :
    skipBlanks (c :: rest) = c :: rest := by
  simp [skipBlanks, h]

@[simp]
theorem skipBlanks_skipBlanks (cs : List Char) : skipBlanks (skipBlanks cs) = skipBlanks cs :=
  List.dropWhile_idempotent _ cs

/-- The break and the indentation of a new line are blanks. -/
theorem isBlank_of_mem_lineStart (depth : Nat) : ∀ c ∈ (lineStart depth).toList,
    isBlank c = true := by
  simp [lineStart, isBlank]

/-! ## Numbers -/

/-- No number goes on with these characters. -/
def EndsNumber (rest : List Char) : Prop :=
  ∀ c ∈ rest.head?, c.isDigit = false ∧ c ≠ '.' ∧ c ≠ 'e' ∧ c ≠ 'E'

theorem endsNumber_cons (c : Char) (rest : List Char)
    (h : c.isDigit = false ∧ c ≠ '.' ∧ c ≠ 'e' ∧ c ≠ 'E') : EndsNumber (c :: rest) := by
  intro d hd
  rw [List.head?_cons, Option.mem_some_iff] at hd
  exact hd ▸ h

/-- Digits are read up to the first character that no number goes on with. -/
theorem digits?_append {ds rest : List Char} (hne : ds ≠ []) (hds : ∀ c ∈ ds, c.isDigit = true)
    (hrest : EndsNumber rest) : digits? (ds ++ rest) = some (ds, rest) := by
  have hboundary : ∀ c ∈ rest.head?, c.isDigit = false := fun c hc => (hrest c hc).1
  unfold digits?
  rw [Marker.takeWhile_of_boundary hds hboundary, Marker.dropWhile_of_boundary hds hboundary]
  cases ds with
  | nil => exact absurd rfl hne
  | cons d ds => rfl

theorem decimals?_of_endsNumber {rest : List Char} (h : EndsNumber rest) :
    decimals? rest = some (none, rest) := by
  cases rest with
  | nil => rfl
  | cons c rest =>
      unfold decimals?
      split
      · next heq =>
        cases heq
        exact absurd rfl (h _ rfl).2.1
      · rfl

theorem exponent?_of_endsNumber {rest : List Char} (h : EndsNumber rest) :
    exponent? rest = some (none, rest) := by
  cases rest with
  | nil => rfl
  | cons c rest =>
      obtain ⟨-, -, he, hE⟩ := h c rfl
      unfold exponent?
      dsimp only
      rw [if_neg (not_or.mpr ⟨he, hE⟩)]

/-- The decimal digits of a number give the number back. -/
theorem ofDigits_toDigits (n : Nat) : ofDigits (Nat.toDigits 10 n) = n := by
  rw [ofDigits]
  exact Nat.ofDigitChars_eq_foldl.symm.trans Nat.ofDigitChars_ten_toDigits

/-- Digits are read up to the end of a number, after a sign or without one. -/
theorem number?_toDigits (n : Nat) (negative : Bool) {rest : List Char} (hrest : EndsNumber rest) :
    number? ((if negative then ['-'] else []) ++ Nat.toDigits 10 n ++ rest) =
      some (numberOf negative (Nat.toDigits 10 n) none none, rest) := by
  obtain ⟨d, ds, hdigits, hfirst⟩ := Number.exists_toDigits n
  have hall : ∀ c ∈ d :: ds, c.isDigit = true := fun c hc =>
    Number.isDigit_of_mem_toDigits (hdigits ▸ hc)
  have hread := digits?_append (by simp) hall hrest
  -- of all numbers only zero begins with a zero, and it has no further digits
  have hzero : ¬(d = '0' ∧ 0 < ds.length) := by
    rintro ⟨rfl, hlength⟩
    by_cases h : n = 0
    · rw [h, Nat.toDigits_zero] at hdigits
      rw [← (List.cons.inj hdigits).2] at hlength
      simp at hlength
    · exact hfirst h rfl
  have hminus : d ≠ '-' := by
    rintro rfl
    exact absurd (hall _ List.mem_cons_self) (by decide)
  rw [List.cons_append] at hread
  unfold number?
  rw [hdigits]
  cases negative <;>
    simp [hread, hzero, hminus, decimals?_of_endsNumber hrest, exponent?_of_endsNumber hrest]

/-- A number that fits 64 bits is read exactly. -/
theorem number_toString {n : Int} (hlow : Int64.minValue.toInt ≤ n) (hhigh : n ≤ maxWhole)
    {rest : List Char} (hrest : EndsNumber rest) :
    number ((toString n).toList ++ rest) = (.int n, some rest) := by
  have hread := number?_toDigits n.natAbs (decide (n < 0)) hrest
  simp only [decide_eq_true_eq] at hread
  rw [number, Number.toList_toString, hread]
  simp only [numberOf, ofDigits_toDigits]
  -- with a sign the number is bounded below, and without one above
  by_cases h : n < 0
  · have habs : -(n.natAbs : Int) = n := by omega
    rw [if_neg (by simp [h]), if_pos ⟨rfl, rfl, by simp [h], by omega, by rw [habs]; exact hlow⟩,
      habs]
  · have habs : (n.natAbs : Int) = n := by omega
    rw [if_pos ⟨rfl, rfl, by simp [h], by omega⟩, habs]

/-! ## Texts -/

/-- The digits of a control character are read as its number. -/
theorem hex4?_control {n : Nat} (h : n < 32) (rest : List Char) :
    hex4? ('0' :: '0' :: hexDigit (n / 16) :: hexDigit (n % 16) :: rest) = some n := by
  have hdigits : ∀ d, d < 16 → hexValue? (hexDigit d) = some d := by decide
  have hzero : hexValue? '0' = some 0 := by decide
  simp only [hex4?, hzero, hdigits (n / 16) (by omega), hdigits (n % 16) (by omega),
    Option.pure_def, Option.bind_eq_bind, Option.bind_some]
  congr 1
  omega

/-- A backslash and the one character behind it. -/
theorem unquotedBody_escape {c letter : Char} (hc : escape? letter = some c) (hu : letter ≠ 'u')
    (rest : List Char) :
    unquotedBody 0 ('\\' :: letter :: rest) = (unquotedBody 0 rest).cons (.ok c) := by
  have hescaped : escaped? (letter :: rest) = some (.ok c, 1) := by
    unfold escaped?
    split
    · next heq =>
      exact absurd (List.cons.inj heq).1 hu
    · next heq =>
      obtain ⟨rfl, rfl⟩ := List.cons.inj heq
      rw [hc]
      rfl
    · next heq => cases heq
  rw [unquotedBody, if_neg (by decide), if_neg (by decide), if_pos rfl, hescaped]
  rfl

/-- What stands for a character in a quoted text is read as the character. -/
theorem unquotedBody_escaped (c : Char) (rest : List Char) :
    unquotedBody 0 (escaped c ++ rest) = (unquotedBody 0 rest).cons (.ok c) := by
  have hletter : ∀ {x letter : Char}, c = x → escape? letter = some x → letter ≠ 'u' →
      unquotedBody 0 (['\\', letter] ++ rest) = (unquotedBody 0 rest).cons (.ok c) := by
    rintro x letter rfl hx hu
    exact unquotedBody_escape hx hu rest
  unfold escaped
  -- seven characters have a letter of their own
  iterate 7
    split
    · next h => exact hletter h rfl (by decide)
  split
  · next h =>
    -- another control character is written with its number
    have hlow : isLow c.toNat = false := by simp [isLow]; omega
    have hhigh : isHigh c.toNat = false := by simp [isHigh]; omega
    have hescaped : escaped? ('u' :: '0' :: '0' :: hexDigit (c.toNat / 16) ::
        hexDigit (c.toNat % 16) :: rest) = some (.ok c, 5) := by
      simp [escaped?, hex4?_control h, hlow, hhigh, Char.ofNat_toNat]
    simp only [List.cons_append, List.nil_append]
    rw [unquotedBody, if_neg (by decide), if_neg (by decide), if_pos rfl, hescaped]
    rfl
  · next hquote hbackslash _ _ _ _ _ hcontrol =>
    rw [List.singleton_append, unquotedBody, if_neg hquote, if_neg hcontrol, if_neg hbackslash]

/-- A text between quotes is read up to the closing one. -/
theorem unquoted_escaped (s : String) (rest : List Char) :
    unquoted (s.toList.flatMap escaped ++ '"' :: rest) = (.ok s, some rest) := by
  have hbody : ∀ cs : List Char,
      unquotedBody 0 (cs.flatMap escaped ++ '"' :: rest) = (.ok cs, some rest) := by
    intro cs
    induction cs with
    | nil => rfl
    | cons c cs ih =>
        rw [List.flatMap_cons, List.append_assoc, unquotedBody_escaped, ih]
        rfl
  rw [unquoted, hbody]
  simp [Except.map]

/-- A quoted text is escaped character by character, between quotes. -/
theorem toList_quoted (s : String) :
    (quoted s).toList = '"' :: (s.toList.flatMap escaped ++ ['"']) := by
  simp [quoted]

/-! ## Laid out texts -/

theorem toList_lineStart (depth : Nat) :
    (lineStart depth).toList = '\n' :: List.replicate (2 * depth) ' ' := by
  simp [lineStart]

/-- An array with items has each on a line of its own. -/
theorem toList_prettyAt_arr (depth : Nat) (v : Json) (items : List Json) :
    (prettyAt depth (arr (v :: items))).toList =
      '[' :: ((prettyItems (depth + 1) (v :: items)).toList ++
        ((lineStart depth).toList ++ [']'])) := by
  simp [prettyAt]

/-- An object with members has each on a line of its own. -/
theorem toList_prettyAt_obj (depth : Nat) (m : String × Json) (members : List (String × Json)) :
    (prettyAt depth (obj (m :: members))).toList =
      '{' :: ((prettyMembers (depth + 1) (m :: members)).toList ++
        ((lineStart depth).toList ++ ['}'])) := by
  simp [prettyAt]

theorem toList_prettyItems_singleton (depth : Nat) (v : Json) :
    (prettyItems depth [v]).toList = (lineStart depth).toList ++ (prettyAt depth v).toList := by
  simp [prettyItems]

theorem toList_prettyItems_cons_cons (depth : Nat) (v w : Json) (rest : List Json) :
    (prettyItems depth (v :: w :: rest)).toList =
      (lineStart depth).toList ++ ((prettyAt depth v).toList ++
        ',' :: (prettyItems depth (w :: rest)).toList) := by
  simp [prettyItems]

theorem toList_prettyMembers_singleton (depth : Nat) (m : String × Json) :
    (prettyMembers depth [m]).toList =
      (lineStart depth).toList ++ ((quoted m.1).toList ++ (':' :: ' ' ::
        (prettyAt depth m.2).toList)) := by
  simp [prettyMembers]

theorem toList_prettyMembers_cons_cons (depth : Nat) (m n : String × Json)
    (rest : List (String × Json)) :
    (prettyMembers depth (m :: n :: rest)).toList =
      (lineStart depth).toList ++ ((quoted m.1).toList ++ (':' :: ' ' ::
        ((prettyAt depth m.2).toList ++ ',' :: (prettyMembers depth (n :: rest)).toList))) := by
  simp [prettyMembers]

/-- No number goes on with a line break. -/
theorem endsNumber_lineStart (depth : Nat) (rest : List Char) :
    EndsNumber ((lineStart depth).toList ++ rest) := by
  rw [toList_lineStart]
  exact endsNumber_cons _ _ (by decide)

/-! ## Fuel -/

mutual

def fuel : Json → Nat
  | arr items => fuelOfItems items + 1
  | obj members => fuelOfMembers members + 1
  | _ => 1

def fuelOfItems : List Json → Nat
  | [] => 0
  | v :: rest => max (fuel v) (fuelOfItems rest) + 1

def fuelOfMembers : List (String × Json) → Nat
  | [] => 0
  | m :: rest => max (fuel m.2 + 1) (fuelOfMembers rest) + 1

end

theorem exists_fuel {fuel needed : Nat} (h : needed + 1 ≤ fuel) :
    ∃ less, fuel = less + 1 ∧ needed ≤ less := ⟨fuel - 1, by omega, by omega⟩

/-! ## Values -/

namespace Source

variable {fuel : Nat} {cs rest : List Char}

theorem value_append_blanks {blanks : List Char} (h : ∀ c ∈ blanks, isBlank c = true) :
    value fuel (blanks ++ cs) = value fuel cs := by
  cases fuel with
  | zero => rfl
  | succ fuel => rw [value, value, skipBlanks_append h]

theorem value_skipBlanks : value fuel (skipBlanks cs) = value fuel cs := by
  cases fuel with
  | zero => rfl
  | succ fuel => rw [value, value, skipBlanks_skipBlanks]

theorem items_skipBlanks : items fuel (skipBlanks cs) = items fuel cs := by
  cases fuel with
  | zero => rfl
  | succ fuel => rw [items, items, value_skipBlanks]

theorem members_skipBlanks : members fuel (skipBlanks cs) = members fuel cs := by
  cases fuel with
  | zero => rfl
  | succ fuel => rw [members, members, skipBlanks_skipBlanks]

/-- No item begins with a closing bracket. -/
theorem items_bracket (h : skipBlanks cs = ']' :: rest) : (items fuel cs).2 = none := by
  have hvalue : ∀ fuel, (value fuel cs).2 = none := by
    intro fuel
    cases fuel with
    | zero => rfl
    | succ fuel =>
        rw [value, h]
        rfl
  cases fuel with
  | zero => rfl
  | succ fuel =>
      -- nothing is left behind the first item, so there is no comma to go on from
      rw [items]
      simp only [hvalue, Option.map_none]

/-- No member begins with a closing brace. -/
theorem members_brace (h : skipBlanks cs = '}' :: rest) : (members fuel cs).2 = none := by
  cases fuel with
  | zero => rfl
  | succ fuel =>
      rw [members, h]
      rfl

/-- An array with items. -/
theorem value_arr {vs : List Source} (h : items fuel cs = (vs, some rest)) :
    value (fuel + 1) ('[' :: cs) = (arr vs, some rest) := by
  rw [value]
  simp only [skipBlanks_cons (show isBlank '[' = false by decide)]
  split
  · next heq =>
    have hnone : (items fuel cs).2 = none := items_bracket heq
    rw [h] at hnone
    cases hnone
  · rw [items_skipBlanks, h]

/-- An object with members. -/
theorem value_obj {ms : List (Except Cause String × Source)}
    (h : members fuel cs = (ms, some rest)) :
    value (fuel + 1) ('{' :: cs) = (obj ms, some rest) := by
  rw [value]
  simp only [skipBlanks_cons (show isBlank '{' = false by decide)]
  split
  · next heq =>
    have hnone : (members fuel cs).2 = none := members_brace heq
    rw [h] at hnone
    cases hnone
  · rw [members_skipBlanks, h]

/-- A digit or a minus sign begins a number. -/
theorem value_number {c : Char} (h : c.isDigit = true ∨ c = '-') :
    value (fuel + 1) (c :: cs) = number (c :: cs) := by
  -- neither a blank nor what another kind of value begins with
  have hother : ∀ d ∈ ['"', '[', '{', 't', 'f', 'n', ' ', '\n', '\r', '\t'], c ≠ d := by
    have hnot : (['"', '[', '{', 't', 'f', 'n', ' ', '\n', '\r', '\t'].all fun d =>
        !(d.isDigit || d == '-')) = true := by decide
    rintro d hd rfl
    have hneither := List.all_eq_true.mp hnot c hd
    rcases h with h | rfl
    · simp [h] at hneither
    · exact absurd hneither (by decide)
  have hblank : isBlank c = false := by
    simp [isBlank, hother]
  rw [value, skipBlanks_cons hblank]
  split <;> first | rfl | (next heq => exact absurd (List.cons.inj heq).1 (hother _ (by decide)))

/-! ### Items and members -/

/-- The last item of an array. -/
theorem items_last {v : Source} {blanks : List Char} (hblanks : ∀ c ∈ blanks, isBlank c = true)
    (hv : value fuel cs = (v, some (blanks ++ ']' :: rest))) :
    items (fuel + 1) cs = ([v], some rest) := by
  rw [items, hv]
  simp only [Option.map_some, skipBlanks_append hblanks, skipBlanks_cons (show isBlank ']' = false
    by decide)]

/-- An item that others follow. -/
theorem items_comma {v : Source} (hv : value fuel cs = (v, some (',' :: rest))) :
    items (fuel + 1) cs = (v :: (items fuel rest).1, (items fuel rest).2) := by
  rw [items, hv]
  simp only [Option.map_some, skipBlanks_cons (show isBlank ',' = false by decide)]

/-- A member is read by its key and its value. -/
theorem members_eq {key : String} {blanks tail : List Char} {v : Source × Option (List Char)}
    (hblanks : ∀ c ∈ blanks, isBlank c = true) (hv : value fuel tail = v) :
    members (fuel + 2) (blanks ++ ((quoted key).toList ++ (':' :: ' ' :: tail))) =
      match v.2.map skipBlanks with
      | some ('\x7d' :: rest) => ([(.ok key, v.1)], some rest)
      | some (',' :: rest) =>
          ((.ok key, v.1) :: (members (fuel + 1) rest).1, (members (fuel + 1) rest).2)
      | _ => ([(.ok key, v.1), brokenMember], none) := by
  have hmember : memberValue (fuel + 1) (':' :: ' ' :: tail) = v := by
    rw [← hv]
    have hblank : ∀ c ∈ [' '], isBlank c = true := List.forall_mem_singleton.mpr rfl
    exact value_append_blanks hblank
  rw [members, skipBlanks_append hblanks, toList_quoted]
  simp only [List.cons_append, List.append_assoc, List.nil_append,
    skipBlanks_cons (show isBlank '"' = false by decide), unquoted_escaped]
  rewrite [hmember]
  rfl

/-- The last member of an object. -/
theorem members_last {key : String} {before after tail : List Char} {v : Source}
    (hbefore : ∀ c ∈ before, isBlank c = true) (hafter : ∀ c ∈ after, isBlank c = true)
    (hv : value fuel tail = (v, some (after ++ '}' :: rest))) :
    members (fuel + 2) (before ++ ((quoted key).toList ++ (':' :: ' ' :: tail))) =
      ([(.ok key, v)], some rest) := by
  rw [members_eq hbefore hv]
  simp only [Option.map_some, skipBlanks_append hafter, skipBlanks_cons (show isBlank '}' = false
    by decide)]

/-- A member that others follow. -/
theorem members_comma {key : String} {before tail : List Char} {v : Source}
    (hbefore : ∀ c ∈ before, isBlank c = true) (hv : value fuel tail = (v, some (',' :: rest))) :
    members (fuel + 2) (before ++ ((quoted key).toList ++ (':' :: ' ' :: tail))) =
      ((.ok key, v) :: (members (fuel + 1) rest).1, (members (fuel + 1) rest).2) := by
  rw [members_eq hbefore hv]
  simp only [Option.map_some, skipBlanks_cons (show isBlank ',' = false by decide)]

/-! ### Texts of values -/

section

variable (depth : Nat)

theorem value_null : value (fuel + 1) ((prettyAt depth .null).toList ++ rest) =
    (null, some rest) := by
  have htext : (prettyAt depth .null).toList = ['n', 'u', 'l', 'l'] := by
    simp [prettyAt, scalarText]
  rw [htext, List.cons_append, value, skipBlanks_cons (by decide)]
  simp [word, show "ull".length = 3 from rfl]

theorem value_bool (b : Bool) : value (fuel + 1) ((prettyAt depth (.bool b)).toList ++ rest) =
    (bool b, some rest) := by
  cases b with
  | true =>
      have htext : (prettyAt depth (.bool true)).toList = ['t', 'r', 'u', 'e'] := by
        simp [prettyAt, scalarText]
      rw [htext, List.cons_append, value, skipBlanks_cons (by decide)]
      simp [word, show "rue".length = 3 from rfl]
  | false =>
      have htext : (prettyAt depth (.bool false)).toList = ['f', 'a', 'l', 's', 'e'] := by
        simp [prettyAt, scalarText]
      rw [htext, List.cons_append, value, skipBlanks_cons (by decide)]
      simp [word, show "alse".length = 4 from rfl]

/-- A whole number is read back where it fits 64 bits and nothing behind it goes on with it. -/
theorem value_int {n : Int} (hlow : Int64.minValue.toInt ≤ n) (hhigh : n ≤ maxWhole)
    (hrest : EndsNumber rest) :
    value (fuel + 1) ((prettyAt depth (.int n)).toList ++ rest) = (int n, some rest) := by
  have htext : (prettyAt depth (.int n)).toList = (toString n).toList := by
    simp [prettyAt, scalarText]
  -- by its first character the text is that of a number
  obtain ⟨c, cs, hcs, hc⟩ := Number.exists_head n
  have hnumber : value (fuel + 1) ((toString n).toList ++ rest) =
      number ((toString n).toList ++ rest) := by
    rw [hcs, List.cons_append, value_number hc]
  rw [htext, hnumber, number_toString hlow hhigh hrest]

theorem value_str (s : String) : value (fuel + 1) ((prettyAt depth (.str s)).toList ++ rest) =
    (str s, some rest) := by
  have htext : (prettyAt depth (.str s)).toList = (quoted s).toList := by
    simp [prettyAt, scalarText]
  rw [htext, toList_quoted, value]
  simp only [List.cons_append, List.append_assoc, List.nil_append,
    skipBlanks_cons (show isBlank '"' = false by decide), unquoted_escaped]
  rfl

theorem value_arr_nil : value (fuel + 1) ((prettyAt depth (.arr [])).toList ++ rest) =
    (arr [], some rest) := by
  have htext : (prettyAt depth (.arr [])).toList = ['[', ']'] := by
    simp [prettyAt, scalarText]
  rw [htext, List.cons_append, value, skipBlanks_cons (by decide)]
  simp [skipBlanks, isBlank]

theorem value_obj_nil : value (fuel + 1) ((prettyAt depth (.obj [])).toList ++ rest) =
    (obj [], some rest) := by
  have htext : (prettyAt depth (.obj [])).toList = ['{', '}'] := by
    simp [prettyAt, scalarText]
  rw [htext, List.cons_append, value, skipBlanks_cons (by decide)]
  simp [skipBlanks, isBlank]

end

mutual

/-- A value is read from its text, up to what follows it. -/
theorem value_prettyAt : ∀ (v : Json) (depth : Nat) {fuel : Nat} {rest : List Char},
    v.IsExact → v.fuel ≤ fuel → EndsNumber rest →
      value fuel ((prettyAt depth v).toList ++ rest) = (ofJson v, some rest)
  | .null, depth, fuel, rest, _, hfuel, _ => by
      obtain ⟨fuel, rfl, _⟩ := exists_fuel hfuel
      exact value_null depth
  | .bool b, depth, fuel, rest, _, hfuel, _ => by
      obtain ⟨fuel, rfl, _⟩ := exists_fuel hfuel
      exact value_bool depth b
  | .int n, depth, fuel, rest, hexact, hfuel, hrest => by
      obtain ⟨fuel, rfl, _⟩ := exists_fuel hfuel
      exact value_int depth hexact.1 hexact.2 hrest
  | .str s, depth, fuel, rest, _, hfuel, _ => by
      obtain ⟨fuel, rfl, _⟩ := exists_fuel hfuel
      exact value_str depth s
  | .arr [], depth, fuel, rest, _, hfuel, _ => by
      obtain ⟨fuel, rfl, _⟩ := exists_fuel hfuel
      exact value_arr_nil depth
  | .arr (v :: vs), depth, fuel, rest, hexact, hfuel, _ => by
      obtain ⟨fuel, rfl, hless⟩ := exists_fuel hfuel
      have hitems := items_prettyItems (v :: vs) (depth + 1) depth rest (List.cons_ne_nil v vs)
        hexact hless
      rw [toList_prettyAt_arr]
      simp only [List.cons_append, List.append_assoc, List.nil_append]
      exact value_arr hitems
  | .obj [], depth, fuel, rest, _, hfuel, _ => by
      obtain ⟨fuel, rfl, _⟩ := exists_fuel hfuel
      exact value_obj_nil depth
  | .obj (m :: ms), depth, fuel, rest, hexact, hfuel, _ => by
      obtain ⟨fuel, rfl, hless⟩ := exists_fuel hfuel
      have hmembers := members_prettyMembers (m :: ms) (depth + 1) depth rest
        (List.cons_ne_nil m ms)
        hexact hless
      rw [toList_prettyAt_obj]
      simp only [List.cons_append, List.append_assoc, List.nil_append]
      exact value_obj hmembers

/-- Items are read from their text, up to the closing bracket. -/
theorem items_prettyItems : ∀ (vs : List Json) (depth outer : Nat) (rest : List Char) {fuel : Nat},
    vs ≠ [] → ItemsExact vs → fuelOfItems vs ≤ fuel →
      items fuel ((prettyItems depth vs).toList ++ ((lineStart outer).toList ++ ']' :: rest)) =
        (ofItems vs, some rest)
  | [], _, _, _, _, hne, _, _ => absurd rfl hne
  | [v], depth, outer, rest, fuel, _, hexact, hfuel => by
      obtain ⟨fuel, rfl, hless⟩ := exists_fuel hfuel
      have hv := value_prettyAt v depth hexact.1 (Nat.max_le.mp hless).1
        (endsNumber_lineStart outer (']' :: rest))
      rw [← value_append_blanks (isBlank_of_mem_lineStart depth)] at hv
      rw [toList_prettyItems_singleton, List.append_assoc]
      exact items_last (isBlank_of_mem_lineStart outer) hv
  | v :: w :: vs, depth, outer, rest, fuel, _, hexact, hfuel => by
      obtain ⟨fuel, rfl, hless⟩ := exists_fuel hfuel
      obtain ⟨hfirst, hrest⟩ := Nat.max_le.mp hless
      -- the comma behind the first item ends it, should it be a number
      have hmore := items_prettyItems (w :: vs) depth outer rest (List.cons_ne_nil w vs) hexact.2
        hrest
      have hv := value_prettyAt v depth hexact.1 hfirst
        (endsNumber_cons ',' ((prettyItems depth (w :: vs)).toList ++
          ((lineStart outer).toList ++ ']' :: rest)) (by decide))
      rw [← value_append_blanks (isBlank_of_mem_lineStart depth)] at hv
      rw [toList_prettyItems_cons_cons]
      simp only [List.append_assoc, List.cons_append]
      rw [items_comma hv, hmore]
      rfl

/-- Members are read from their text, up to the closing brace. -/
theorem members_prettyMembers : ∀ (ms : List (String × Json)) (depth outer : Nat) (rest : List Char)
    {fuel : Nat}, ms ≠ [] → MembersExact ms → fuelOfMembers ms ≤ fuel →
      members fuel ((prettyMembers depth ms).toList ++ ((lineStart outer).toList ++ '}' :: rest)) =
        (ofMembers ms, some rest)
  | [], _, _, _, _, hne, _, _ => absurd rfl hne
  | [m], depth, outer, rest, fuel, _, hexact, hfuel => by
      obtain ⟨fuel, rfl, hless⟩ := exists_fuel hfuel
      obtain ⟨fuel, rfl, hvalue⟩ := exists_fuel (Nat.max_le.mp hless).1
      have hv := value_prettyAt m.2 depth hexact.1 hvalue (endsNumber_lineStart outer ('}' :: rest))
      rw [toList_prettyMembers_singleton]
      simp only [List.append_assoc, List.cons_append]
      exact members_last (isBlank_of_mem_lineStart depth) (isBlank_of_mem_lineStart outer) hv
  | m :: n :: ms, depth, outer, rest, fuel, _, hexact, hfuel => by
      obtain ⟨fuel, rfl, hless⟩ := exists_fuel hfuel
      obtain ⟨hfirst, hrest⟩ := Nat.max_le.mp hless
      obtain ⟨fuel, rfl, hvalue⟩ := exists_fuel hfirst
      have hmore := members_prettyMembers (n :: ms) depth outer rest (List.cons_ne_nil n ms)
        hexact.2 hrest
      have hv := value_prettyAt m.2 depth hexact.1 hvalue
        (endsNumber_cons ',' ((prettyMembers depth (n :: ms)).toList ++
          ((lineStart outer).toList ++ '}' :: rest)) (by decide))
      rw [toList_prettyMembers_cons_cons]
      simp only [List.append_assoc, List.cons_append]
      rw [members_comma (isBlank_of_mem_lineStart depth) hv, hmore]
      rfl

end

end Source

/-! ## Whole texts -/

theorem length_lineStart_pos (depth : Nat) : 0 < (lineStart depth).toList.length := by
  rw [toList_lineStart]
  exact Nat.succ_pos _

mutual

/-- Two units of fuel for each character are enough. -/
theorem fuel_le : ∀ (v : Json) (depth : Nat), v.fuel ≤ 2 * (prettyAt depth v).toList.length + 1
  | null, _ | bool _, _ | int _, _ | float _, _ | str _, _ | arr [], _ | obj [], _ =>
      Nat.le_add_left 1 _
  | arr (v :: vs), depth => by
      -- the brackets pay for the level, and the lines inside for the items on them
      have hitems := fuelOfItems_le (v :: vs) (depth + 1)
      rw [fuel, toList_prettyAt_arr]
      simp only [List.length_cons, List.length_append]
      omega
  | obj (m :: ms), depth => by
      have hmembers := fuelOfMembers_le (m :: ms) (depth + 1)
      rw [fuel, toList_prettyAt_obj]
      simp only [List.length_cons, List.length_append]
      omega

/-- Two units of fuel for each character are enough for items. -/
theorem fuelOfItems_le : ∀ (vs : List Json) (depth : Nat),
    fuelOfItems vs ≤ 2 * (prettyItems depth vs).toList.length
  | [], _ => Nat.zero_le _
  | [v], depth => by
      -- the line break pays for the item, and for the one unit that a value may take more
      have hv := fuel_le v depth
      have hline := length_lineStart_pos depth
      rw [fuelOfItems, fuelOfItems, toList_prettyItems_singleton]
      simp only [List.length_append]
      omega
  | v :: w :: vs, depth => by
      have hv := fuel_le v depth
      have hrest := fuelOfItems_le (w :: vs) depth
      have hline := length_lineStart_pos depth
      rw [fuelOfItems, toList_prettyItems_cons_cons]
      simp only [List.length_append, List.length_cons]
      omega

/-- They are enough for members too. -/
theorem fuelOfMembers_le : ∀ (ms : List (String × Json)) (depth : Nat),
    fuelOfMembers ms ≤ 2 * (prettyMembers depth ms).toList.length
  | [], _ => Nat.zero_le _
  | [m], depth => by
      -- the colon and the blank behind the key pay for the member
      have hv := fuel_le m.2 depth
      rw [fuelOfMembers, fuelOfMembers, toList_prettyMembers_singleton]
      simp only [List.length_append, List.length_cons]
      omega
  | m :: n :: ms, depth => by
      have hv := fuel_le m.2 depth
      have hrest := fuelOfMembers_le (n :: ms) depth
      rw [fuelOfMembers, toList_prettyMembers_cons_cons]
      simp only [List.length_append, List.length_cons]
      omega

end

/-- A value without floating point numbers is read back from its text as it was. -/
theorem ofText_pretty {v : Json} (h : v.IsExact) :
    Source.ofText v.pretty = (.ofJson v, some []) := by
  have hfuel : v.fuel ≤ 2 * v.pretty.length + 2 := by
    have hle := fuel_le v 0
    rw [String.length_toList] at hle
    exact Nat.le_succ_of_le hle
  have hend : EndsNumber [] := fun c hc => absurd hc (by simp)
  have hread := Source.value_prettyAt v 0 h hfuel hend
  rw [List.append_nil] at hread
  simp only [Source.ofText, pretty] at hread ⊢
  rw [hread]
  rfl

/-- What is decoded from the tree of a value is decoded from its text. -/
theorem decode_pretty {α : Type} {decoder : View → Decoded α} {v : Json} {a : α} (h : v.IsExact)
    (hread : decoder (Source.ofJson v).view = pure a) : decode decoder v.pretty = .ok a := by
  rw [decode, ofText_pretty h]
  simp only [hread, Decoded.result_pure]
  rfl

end Json
end InfraGraph
