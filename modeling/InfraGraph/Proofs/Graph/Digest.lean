import InfraGraph.Graph.Basic
import InfraGraph.Proofs.Digest.Composite

/-!
# The digest of a graph

A graph is stored with the hash of the list of the hashes of its resources.  It says nothing about
resources with the same hash; what it says about the list is stated for sets of inputs on which the
hash has no collision.  Main statements:

* `Resource.hashAll_eq_iff` — lists of resources have the same digest iff they are as long and have
  the same hash at every position;
* `Resource.Edit`, `Resource.Edit.hashes_ne` — insertions, removals, other orders and other hashes
  all show in the list of hashes;
* `Graph.digest_exact` — what the digest of a graph detects.
-/

namespace InfraGraph
namespace Resource

variable {rs ts : List Resource}

/-- Bytes that are hashed for a list of resources. -/
def stream (rs : List Resource) : List UInt8 := Digest.stream (rs.map hash)

/-- Hashes are hexadecimal digits behind a tag, so they hold no zero character. -/
theorem isClear_hashes (rs : List Resource) : Digest.IsClear (rs.map hash) :=
  List.forall_mem_map.mpr fun r _ => Digest.not_zero_mem_ofText r.canonical

/-- Lists have the same hashes iff they are of one length and agree at every position. -/
theorem hashes_eq_iff : rs.map hash = ts.map hash ↔
    rs.length = ts.length ∧
      ∀ (i : Nat) (hi : i < rs.length) (hi' : i < ts.length), rs[i].hash = ts[i].hash := by
  rw [List.ext_getElem_iff]
  simp only [List.length_map, List.getElem_map]

variable {inputs : Set (List UInt8)}

/-- Where no inputs collide, lists of resources have the same digest iff they are as long and have
the same hash at every position. -/
theorem hashAll_eq_iff (hfree : Set.InjOn Blake3.digest inputs) (hrs : stream rs ∈ inputs)
    (hts : stream ts ∈ inputs) :
    hashAll rs = hashAll ts ↔
      rs.length = ts.length ∧
        ∀ (i : Nat) (hi : i < rs.length) (hi' : i < ts.length), rs[i].hash = ts[i].hash := by
  have hcomposite :=
    Digest.composite_eq_iff hfree (isClear_hashes rs) (isClear_hashes ts) hrs hts
  exact hcomposite.trans hashes_eq_iff

/-! ## Edits -/

/-- What can happen to a list of resources. -/
inductive Edit : List Resource → List Resource → Prop where
  | insert {front new back : List Resource} (h : new ≠ []) :
      Edit (front ++ back) (front ++ new ++ back)
  | remove {front old back : List Resource} (h : old ≠ []) :
      Edit (front ++ old ++ back) (front ++ back)
  /-- Another order of resources of which no two different ones have the same hash. -/
  | reorder {rs ts : List Resource} (htells : Set.InjOn hash {r | r ∈ rs}) (hperm : rs.Perm ts)
      (hne : rs ≠ ts) : Edit rs ts
  /-- A resource of another hash in the place of one. -/
  | change {front back : List Resource} {r t : Resource} (h : r.hash ≠ t.hash) :
      Edit (front ++ r :: back) (front ++ t :: back)

/-- Every edit shows in the list of hashes. -/
theorem Edit.hashes_ne (h : Edit rs ts) : rs.map hash ≠ ts.map hash := by
  intro heq
  obtain ⟨hlength, hhash⟩ := hashes_eq_iff.mp heq
  cases h with
  | insert hnew =>
      -- the lists are not as long
      have hpos := List.length_pos_iff.mpr hnew
      simp only [List.length_append] at hlength
      omega
  | remove hold =>
      have hpos := List.length_pos_iff.mpr hold
      simp only [List.length_append] at hlength
      omega
  | reorder htells hperm hne =>
      -- resources of one hash at a position are one resource
      refine hne (List.ext_getElem hlength fun i hi hi' => ?_)
      exact htells (List.getElem_mem hi) (hperm.mem_iff.mpr (List.getElem_mem hi')) (hhash i hi hi')
  | change hne =>
      rw [List.map_append, List.map_append, List.append_right_inj, List.map_cons, List.map_cons,
        List.cons.injEq] at heq
      exact hne heq.1

end Resource

namespace Graph

/-- Where no inputs of the hash collide, lists of texts without a zero character have the same hash
iff they are equal, and lists of resources have the same digest iff they are as long and have the
same hash at every position.  The digests of graphs before and after an insertion, a removal,
another order or another hash of resources are different, whatever else the graphs hold. -/
theorem digest_exact {inputs : Set (List UInt8)} (hfree : Set.InjOn Blake3.digest inputs) :
    (∀ xs ys : List String, Digest.IsClear xs → Digest.IsClear ys →
      Digest.stream xs ∈ inputs → Digest.stream ys ∈ inputs →
        (Digest.composite xs = Digest.composite ys ↔ xs = ys)) ∧
    ∀ rs ts : List Resource, Resource.stream rs ∈ inputs → Resource.stream ts ∈ inputs →
      (Resource.hashAll rs = Resource.hashAll ts ↔
        rs.length = ts.length ∧
          ∀ (i : Nat) (hi : i < rs.length) (hi' : i < ts.length), rs[i].hash = ts[i].hash) ∧
      (Resource.Edit rs ts → ∀ app app' manifest manifest' seconds seconds',
        (ofResources app rs manifest seconds).digest ≠
          (ofResources app' ts manifest' seconds').digest) := by
  refine ⟨fun xs ys hxs hys => Digest.composite_eq_iff hfree hxs hys, fun rs ts hrs hts => ?_⟩
  have hdigest := Resource.hashAll_eq_iff hfree hrs hts
  refine ⟨hdigest, fun hedit _ _ _ _ _ _ hsame => ?_⟩
  exact hedit.hashes_ne (Resource.hashes_eq_iff.mpr (hdigest.mp hsame))

def role : Resource := .ofFields "aws_iam_role" "users" [("name", .text "shop-users")]

def bucket : Resource := .ofFields "aws_s3_bucket" "files" []

/-- A role and a bucket in the other order. -/
theorem digest_exact_exchanged :
    Digest.composite [role.hash, bucket.hash] ≠ Digest.composite [bucket.hash, role.hash] ∧
      (ofResources "shop" [role, bucket] .empty 0).digest ≠
        (ofResources "shop" [bucket, role] .empty 0).digest := by
  have hdigest : Blake3.digest (Resource.stream [role, bucket]) ≠
      Blake3.digest (Resource.stream [bucket, role]) := by decide +kernel
  -- with one hash for both resources, the same bytes would be hashed in either order
  have hhash : role.hash ≠ bucket.hash := by
    intro heq
    refine hdigest (congrArg (fun hashes => Blake3.digest (Digest.stream hashes)) ?_)
    simp only [List.map_cons, List.map_nil, heq]
  have hfree : Set.InjOn Blake3.digest
      {Resource.stream [role, bucket], Resource.stream [bucket, role]} :=
    Set.injOn_pair.mpr fun heq => absurd heq hdigest
  have htells : Set.InjOn Resource.hash {r | r ∈ [role, bucket]} := by
    simp only [List.mem_cons, List.not_mem_nil, or_false]
    exact Set.injOn_pair.mpr fun heq => absurd heq hhash
  obtain ⟨hcomposite, hedit⟩ := digest_exact hfree
  constructor
  · have hiff := hcomposite [role.hash, bucket.hash] [bucket.hash, role.hash]
      (Resource.isClear_hashes [role, bucket]) (Resource.isClear_hashes [bucket, role])
      (Set.mem_insert _ _) (Set.mem_insert_of_mem _ rfl)
    exact fun heq => hhash (List.cons.inj (hiff.mp heq)).1
  · exact (hedit [role, bucket] [bucket, role] (Set.mem_insert _ _) (Set.mem_insert_of_mem _ rfl)).2
      (.reorder htells (.swap _ _ _) (by decide)) "shop" "shop" _ _ 0 0

end Graph
end InfraGraph
