import InfraGraph.Proofs.Resource.Canonical
import InfraGraph.Resource.Plan

/-!
# When a plan leaves a resource alone

A plan compares a resource with the last stored one of its address, by hash.  Equal contents have
equal hashes; the converse needs contents that can be read back, since a text that imitates another
line can hide a change.  Main statements:

* `Plan.get?_hashes` — the hash that a resource is compared with;
* `Resource.hash_eq_iff` — when equal hashes mean equal contents;
* `Plan.keeps_iff_same_content` — when a plan leaves a resource alone;
* `Plan.keeps_imitation` — a change that a plan does not see.
-/

namespace InfraGraph

/-- Two texts are a collision of the hash. -/
def Digest.Collide (a b : String) : Prop := a ≠ b ∧ ofText a = ofText b

namespace Resource

/-- Fields and dependencies are the same. -/
def SameContent (r t : Resource) : Prop := r.fields = t.fields ∧ r.dependsOn = t.dependsOn

variable {r t : Resource}

/-- Resources with the same content at one address have the same canonical text. -/
theorem SameContent.canonical_eq (h : r.SameContent t) (haddress : r.address = t.address) :
    r.canonical = t.canonical := by
  rw [canonical, canonical, haddress, h.1, h.2]

/-- Where resources can be read back and do not collide, equal hashes mean equal contents. -/
theorem hash_eq_iff (hr : r.Readable) (ht : t.Readable) (haddress : r.address = t.address)
    (hdigest : ¬Digest.Collide r.canonical t.canonical) :
    r.hash = t.hash ↔ r.SameContent t := by
  constructor
  · intro hhash
    have hcanonical : r.canonical = t.canonical := by
      by_contra hne
      exact hdigest ⟨hne, hhash⟩
    exact content_eq_of_canonical hr ht haddress hcanonical
  · intro hsame
    rw [hash, hash, hsame.canonical_eq haddress]

end Resource

namespace Plan

/-- Stored resource of an address; of several the last one counts. -/
def storedAt? (stored : List Resource) (address : String) : Option Resource :=
  stored.reverse.find? fun t => t.address = address

variable {stored : List Resource} {r : Resource}

/-- A resource is compared with the stored one of its address. -/
theorem get?_hashes (stored : List Resource) (address : String) :
    (hashes stored).get? address = (storedAt? stored address).map Resource.hash := by
  rw [hashes, OrderedMap.get?_ofList, ← List.map_reverse, storedAt?]
  -- both go through the stored resources from the last one on
  induction stored.reverse with
  | nil => rfl
  | cons t rest ih =>
      by_cases h : t.address = address
      · simp [Entries.get?, h]
      · simp [Entries.get?, h, ih]

/-- A resource is kept when one with its hash is stored at its address. -/
theorem changeOf_eq_keep_iff :
    changeOf (hashes stored) r = ⟨r.address, .keep⟩ ↔
      ∃ t, storedAt? stored r.address = some t ∧ t.hash = r.hash := by
  rw [changeOf, get?_hashes]
  cases storedAt? stored r.address with
  | none => simp
  | some t =>
      by_cases h : t.hash = r.hash <;> simp [h]

/-- The change of a new resource stands at its place. -/
theorem getElem?_changes (app : String) (before after : List Resource) :
    (compare app (before ++ r :: after) stored).changes[before.length]? =
      some (changeOf (hashes stored) r) := by
  simp [compare]

/-- A plan leaves a resource alone iff the stored resource of its address has the same fields and
dependencies, where both can be read back from their canonical texts and these do not collide. -/
theorem keeps_iff_same_content (app : String) (before after stored : List Resource)
    {r : Resource} (hr : r.Readable)
    (hstored : ∀ t ∈ stored, t.address = r.address →
      t.Readable ∧ ¬Digest.Collide t.canonical r.canonical) :
    (∀ t ∈ stored, t.address = r.address → (t.hash = r.hash ↔ t.SameContent r)) ∧
      ((compare app (before ++ r :: after) stored).changes[before.length]? =
          some ⟨r.address, .keep⟩ ↔
        ∃ t, storedAt? stored r.address = some t ∧ t.SameContent r) := by
  have hhash : ∀ t ∈ stored, t.address = r.address → (t.hash = r.hash ↔ t.SameContent r) := by
    intro t ht haddress
    obtain ⟨hreadable, hdigest⟩ := hstored t ht haddress
    exact Resource.hash_eq_iff hreadable hr haddress hdigest
  refine ⟨hhash, ?_⟩
  rw [getElem?_changes, Option.some.injEq, changeOf_eq_keep_iff]
  refine exists_congr fun t => and_congr_right fun hfound => ?_
  have hmem : t ∈ stored := List.mem_reverse.mp (List.mem_of_find?_eq_some hfound)
  have haddress : t.address = r.address := by simpa using List.find?_some hfound
  exact hhash t hmem haddress

def function (handler runtime : String) : Resource :=
  .ofFields "aws_lambda_function" "users" [("handler", .text handler), ("runtime", .text runtime)]

/-- A function can be read back when its handler and runtime are of one line each. -/
theorem readable_function {handler runtime : String} (hhandler : ¬ '\n' ∈ handler.toList)
    (hruntime : ¬ '\n' ∈ runtime.toList) : (function handler runtime).Readable := by
  have hentries : (function handler runtime).fields.entries =
      [("handler", .text handler), ("runtime", .text runtime)] := rfl
  refine ⟨?_, ?_, List.forall_mem_nil _⟩
  · rw [hentries]
    simp [Resource.dependencyKey]
  · rw [hentries]
    simp [FieldValue.endsAt, hhandler, hruntime]

/-- A new runtime is not left alone. -/
theorem keeps_iff_same_content_function :
    (compare "shop" [function "Users" "java17"] [function "Users" "java11"]).changes[0]? ≠
      some ⟨"aws_lambda_function.users", .keep⟩ := by
  have hdigest : ¬Digest.Collide (function "Users" "java11").canonical
      (function "Users" "java17").canonical := by
    rintro ⟨-, h⟩
    revert h
    decide +kernel
  intro hkeep
  have hiff := (keeps_iff_same_content "shop" [] [] [function "Users" "java11"]
    (readable_function (by decide) (by decide))
    (List.forall_mem_singleton.mpr fun _ =>
      ⟨readable_function (by decide) (by decide), hdigest⟩)).2
  obtain ⟨t, hfound, hsame⟩ := hiff.mp hkeep
  rw [List.mem_singleton.mp (List.mem_of_find?_eq_some hfound)] at hsame
  exact absurd hsame.1 (by decide)

/-- A handler that holds the line of another runtime. -/
def imitating : Resource := function "Users\nruntime=s:java11" "java17"

/-- The runtime of this one ends with the line that is missing then. -/
def imitated : Resource := function "Users" "java11\nruntime=s:java17"

/-- Both have the same canonical text: they differ, and a plan leaves the function alone. -/
theorem keeps_imitation :
    imitating.address = imitated.address ∧ ¬imitating.SameContent imitated ∧
      imitating.hash = imitated.hash ∧
      (compare "shop" [imitating] [imitated]).changes =
        [⟨"aws_lambda_function.users", .keep⟩] := by
  have hcanonical : imitating.canonical = imitated.canonical := by decide +kernel
  have hhash : imitating.hash = imitated.hash := congrArg Digest.ofText hcanonical
  have hkeep : changeOf (hashes [imitated]) imitating = ⟨"aws_lambda_function.users", .keep⟩ :=
    changeOf_eq_keep_iff.mpr ⟨imitated, rfl, hhash.symm⟩
  have hgone : gone [imitated] [imitating] = [] := by decide
  refine ⟨rfl, fun hsame => absurd hsame.1 (by decide), hhash, ?_⟩
  simp [compare, hkeep, hgone]

end Plan
end InfraGraph
