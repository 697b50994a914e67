import InfraGraph.Proofs.Aws.Labels
import InfraGraph.Proofs.Entity
import InfraGraph.Proofs.Schema.Acceptance

/-!
# What the names on AWS are made of

Every name is the API's name followed by tokens of the thing it names.  On an accepted schema, two
things of one sort have the same name only if they are the same.  Main statements:

* `Route.tokens_routeName`, `StaticFile.tokens_identifier`, `Preflight.tokens_handlerName` — the
  tokens of a name;
* `PathResource.resourceName_injOn`, `Route.routeName_injOn`, `StaticFile.identifier_injOn`,
  `Preflight.handlerName_injOn` — a name tells what it names.
-/

namespace InfraGraph

namespace Aws

variable {s : Schema} {api : Api}

/-- Names behind the name of one API are equal iff the tokens that follow it are. -/
theorem identifier_eq_iff_tails {ps qs : List String} {t u : List (List Char)}
    (hp : Name.tokens (api.name :: ps) = Name.tokens [api.name] ++ t)
    (hq : Name.tokens (api.name :: qs) = Name.tokens [api.name] ++ u) (ht : t ≠ []) (hu : u ≠ []) :
    Name.identifier (api.name :: ps) = Name.identifier (api.name :: qs) ↔ t = u := by
  -- with a token behind the API's name, neither identifier is the word of the root
  have hpne : Name.tokens (api.name :: ps) ≠ [] := by simp [hp, ht]
  have hqne : Name.tokens (api.name :: qs) ≠ [] := by simp [hq, hu]
  rw [Name.identifier_eq_iff_tokens hpne hqne, hp, hq, List.append_cancel_left_eq]

/-! ## Path resources -/

/-- Names tell the paths of an accepted schema apart. -/
theorem PathResource.resourceName_injOn (h : s.Accepted) {p q : UriPath} (hp : p ∈ s.routePaths)
    (hq : q ∈ s.routePaths)
    (he : PathResource.resourceName api p = PathResource.resourceName api q) : p = q :=
  h.path_eq (Schema.mem_namedPaths_iff.mpr (Or.inr hp)) (Schema.mem_namedPaths_iff.mpr (Or.inr hq))
    (Name.words_eq_of_cons (Name.identifier_eq_iff.mp he))

/-! ## Dynamic routes -/

namespace Route

def tail (r : DynamicRoute) : List (List Char) :=
  Name.tokens r.path.nameParts ++ [r.method.lowercase.toList]

theorem tokens_routeName (api : Api) (r : DynamicRoute) :
    Name.tokens (api.name :: r.path.nameParts ++ [r.method.text]) =
      Name.tokens [api.name] ++ tail r := by
  rw [List.cons_append, Name.tokens_cons, Name.tokens_append, HttpMethod.tokens_text]
  rfl

theorem tail_ne_nil (r : DynamicRoute) : tail r ≠ [] := by
  simp [tail]

/-- The names of two routes differ iff their tokens behind the name of the API do. -/
theorem routeName_eq_iff {r t : DynamicRoute} :
    routeName api r = routeName api t ↔ tail r = tail t :=
  identifier_eq_iff_tails (tokens_routeName api r) (tokens_routeName api t) (tail_ne_nil r)
    (tail_ne_nil t)

/-- The name of a route tells its method and path. -/
theorem routeName_injOn (h : s.Accepted) {r t : DynamicRoute} (hr : r ∈ s.routes.dynamic)
    (ht : t ∈ s.routes.dynamic) (he : routeName api r = routeName api t) :
    r.method = t.method ∧ r.path = t.path := by
  -- the method is the last token
  rcases List.append_inj' (routeName_eq_iff.mp he) rfl with ⟨hpath, hmethod⟩
  refine ⟨HttpMethod.lowercase_injective (by simpa using hmethod), ?_⟩
  refine h.path_eq (Schema.mem_namedPaths_of_mem_paths (Schema.dynamic_path_mem hr))
    (Schema.mem_namedPaths_of_mem_paths (Schema.dynamic_path_mem ht)) ?_
  unfold Name.words
  rw [hpath]

end Route

/-! ## Static routes -/

namespace StaticFile

def tail (r : StaticRoute) : List (List Char) :=
  "static".toList :: Name.tokens r.path.nameParts

theorem tokens_identifier (api : Api) (r : StaticRoute) :
    Name.tokens (api.name :: "static" :: r.path.nameParts) = Name.tokens [api.name] ++ tail r := by
  have hword : Name.tokens ["static"] = ["static".toList] := Name.tokens_of_isToken (by decide)
  rw [Name.tokens_cons, Name.tokens_cons "static", hword]
  rfl

theorem tail_ne_nil (r : StaticRoute) : tail r ≠ [] :=
  List.cons_ne_nil _ _

/-- The same holds of static routes. -/
theorem identifier_eq_iff {r t : StaticRoute} :
    identifier api r = identifier api t ↔ tail r = tail t :=
  identifier_eq_iff_tails (tokens_identifier api r) (tokens_identifier api t) (tail_ne_nil r)
    (tail_ne_nil t)

/-- The name of a static route tells its path. -/
theorem identifier_injOn (h : s.Accepted) {r t : StaticRoute} (hr : r ∈ s.routes.static)
    (ht : t ∈ s.routes.static) (he : identifier api r = identifier api t) : r.path = t.path := by
  -- the word `static` is the first token
  have hpath := (List.cons.inj (identifier_eq_iff.mp he)).2
  refine h.path_eq (Schema.mem_namedPaths_of_mem_paths (Schema.static_path_mem hr))
    (Schema.mem_namedPaths_of_mem_paths (Schema.static_path_mem ht)) ?_
  unfold Name.words
  rw [hpath]

end StaticFile

/-! ## Preflight handlers -/

namespace Preflight

/-- Texts of a path in the names of its handler; the root has a word of its own. -/
def place (p : UriPath) : List String := if p.isRoot then [Name.root] else p.nameParts

def tail (role : String) (p : UriPath) : List (List Char) :=
  "cors".toList :: role.toList :: Name.tokens (place p)

/-- The roles that parts have. -/
theorem role_cases {part : String × String} (h : part ∈ parts) :
    part.2 = "options" ∨ part.2 = "response" := by
  simp only [parts, List.mem_cons, List.not_mem_nil, or_false] at h
  rcases h with rfl | rfl | rfl | rfl <;> simp

theorem tokens_handlerName (api : Api) {role : String}
    (hrole : role = "options" ∨ role = "response") (p : UriPath) :
    Name.tokens (api.name :: "cors" :: role :: place p) =
      Name.tokens [api.name] ++ tail role p := by
  have hcors : Name.tokens ["cors"] = ["cors".toList] := Name.tokens_of_isToken (by decide)
  have hword : Name.tokens [role] = [role.toList] := by
    rcases hrole with rfl | rfl <;> exact Name.tokens_of_isToken (by decide)
  rw [Name.tokens_cons, Name.tokens_cons "cors", Name.tokens_cons role, hcors, hword]
  rfl

theorem tail_ne_nil (role : String) (p : UriPath) : tail role p ≠ [] :=
  List.cons_ne_nil _ _

/-- The same holds of handlers of one role. -/
theorem handlerName_eq_iff {role : String} (hrole : role = "options" ∨ role = "response")
    {p q : UriPath} :
    handlerName api role p = handlerName api role q ↔ tail role p = tail role q :=
  identifier_eq_iff_tails (tokens_handlerName api hrole p) (tokens_handlerName api hrole q)
    (tail_ne_nil role p) (tail_ne_nil role q)

/-- The words of a path can be told from its place. -/
theorem words_nameParts (p : UriPath) : Name.words p.nameParts = Name.words (place p) := by
  unfold place
  split
  · next hroot =>
    -- the root has no tokens, so its words are the word of the root
    have hword : Name.tokens [Name.root] = [Name.root.toList] := Name.tokens_of_isToken (by decide)
    have hne : Name.tokens [Name.root] ≠ [] := by simp [hword]
    rw [UriPath.isRoot_iff.mp hroot, Name.words_of_tokens_ne_nil hne, hword]
    rfl
  · rfl

/-- The name of a handler tells its path; no other path has the word of the root. -/
theorem handlerName_injOn (h : s.Accepted) {role : String}
    (hrole : role = "options" ∨ role = "response") {p q : UriPath} (hp : p ∈ s.servedPaths)
    (hq : q ∈ s.servedPaths) (he : handlerName api role p = handlerName api role q) : p = q := by
  refine h.path_eq (Schema.mem_namedPaths_of_mem_servedPaths hp)
    (Schema.mem_namedPaths_of_mem_servedPaths hq) ?_
  -- the word of the root stands for no segments, as in the rule for paths
  have htail := (handlerName_eq_iff hrole).mp he
  simp only [tail, List.cons.injEq, true_and] at htail
  rw [words_nameParts, words_nameParts]
  unfold Name.words
  rw [htail]

end Preflight
end Aws
end InfraGraph
