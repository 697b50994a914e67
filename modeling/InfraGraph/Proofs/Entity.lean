import InfraGraph.Proofs.Marker
import InfraGraph.Proofs.UriPath
import InfraGraph.Entity

/-!
# Entity ids determine what they are made of

An id begins with the word of its sort of entities, which no other sort has.  Within one sort, the
id tells the key: the name, the path, or the method and path that it shows.  Main statements:

* `EntityId.path_injective`, `EntityId.lambda_injective`, `EntityId.timer_injective`,
  `EntityId.static_injective` — ids made of one text;
* `EntityId.route_injective` — the id of a route, made of a method and a path;
* `Entity.Key`, `Entity.Key.id_injective` — what identifies an entity, and is told by its id;
* `Entity.eq_lambda_of_id` — the entities with the ids of lambdas;
* `Entity.id_eq_iff_key_eq` — entities share an id iff they share a key;
* `HttpMethod.tokens_text` — the word of a method in names.
-/

namespace InfraGraph

/-! ## Methods -/

namespace HttpMethod

/-- A method is told from its text. -/
theorem text_injective {m n : HttpMethod} (h : m.text = n.text) : m = n := by
  revert h
  cases m <;> cases n <;> decide

theorem space_not_mem_text (m : HttpMethod) : ¬ ' ' ∈ m.text.toList := by
  cases m <;> decide

theorem tokens_text (m : HttpMethod) : Name.tokens [m.text] = [m.lowercase.toList] := by
  have hne : m.text.toList ≠ [] := by cases m <;> decide
  have halphanum : m.text.toList.all Char.isAlphanum = true := by cases m <;> decide
  have hlower : m.text.toList.map Char.toLower = m.lowercase.toList := by cases m <;> decide
  rw [Name.tokens_singleton hne (List.all_eq_true.mp halphanum), hlower]

theorem lowercase_injective {m n : HttpMethod} (h : m.lowercase.toList = n.lowercase.toList) :
    m = n := by
  revert h
  cases m <;> cases n <;> decide

end HttpMethod

/-! ## Ids -/

namespace EntityId

/-- Texts behind the same word are equal if the ids are. -/
theorem eq_of_mk_append {word a b : String} (h : EntityId.mk (word ++ a) = ⟨word ++ b⟩) :
    a = b := by
  have hlist := congrArg (fun id => id.text.toList) h
  simp only [String.toList_append] at hlist
  exact String.toList_injective (List.append_cancel_left hlist)

theorem path_injective {p q : UriPath} (h : EntityId.path p = .path q) : p = q :=
  UriPath.absolute_injective (eq_of_mk_append h)

theorem lambda_injective {a b : String} (h : EntityId.lambda a = .lambda b) : a = b :=
  eq_of_mk_append h

theorem static_injective {p q : UriPath} (h : EntityId.static p = .static q) : p = q :=
  UriPath.absolute_injective (eq_of_mk_append h)

theorem timer_injective {a b : String} (h : EntityId.timer a = .timer b) : a = b :=
  eq_of_mk_append h

/-- No method has a space, so the first one ends the method. -/
theorem route_injective {m n : HttpMethod} {p q : UriPath}
    (h : EntityId.route m p = .route n q) : m = n ∧ p = q := by
  have hlist := congrArg (fun id => id.text.toList) h
  have hsplit : m.text.toList ++ ' ' :: p.absolute.toList =
      n.text.toList ++ ' ' :: q.absolute.toList := by
    simpa [route, String.toList_append] using hlist
  rcases Marker.text_eq_of_append_cons m.space_not_mem_text n.space_not_mem_text hsplit with
      ⟨hmethod, hpath⟩
  exact ⟨HttpMethod.text_injective hmethod,
    UriPath.absolute_injective (String.toList_injective hpath)⟩

end EntityId

namespace Entity

/-! ## Keys -/

/-- What tells an entity from the others: its sort, and of its data what an id shows. -/
inductive Key where
  | api (name : String)
  | path (path : UriPath)
  | lambda (id : String)
  | route (method : HttpMethod) (path : UriPath)
  | static (path : UriPath)
  | deployment (name : String)
  | timer (id : String)
  | dns (fqdn : String)
deriving DecidableEq

/-- Key of an entity; a deployment without a name has the empty one. -/
def key : Entity → Key
  | .api a => .api a.name
  | .path p => .path p
  | .lambda id _ => .lambda id
  | .route r => .route r.method r.path
  | .static r => .static r.path
  | .deployment d => .deployment (d.name.getD "")
  | .timer t => .timer t.id
  | .dns d => .dns d.fqdn

namespace Key

def id : Key → EntityId
  | .api name => .api name
  | .path p => .path p
  | .lambda id => .lambda id
  | .route m p => .route m p
  | .static p => .static p
  | .deployment name => .deployment (some name)
  | .timer id => .timer id
  | .dns fqdn => .dns fqdn

def word : Key → String
  | .api _ => "api"
  | .path _ => "path"
  | .lambda _ => "lambda"
  | .route _ _ => "route"
  | .static _ => "static"
  | .deployment _ => "deployment"
  | .timer _ => "scheduled"
  | .dns _ => "dns"

/-- An id begins with the word of its sort, which ends at the first colon. -/
theorem takeWhile_text_id (k : Key) :
    k.id.text.toList.takeWhile (· ≠ ':') = k.word.toList := by
  cases k <;>
    simp [id, word, EntityId.api, EntityId.path, EntityId.lambda, EntityId.route,
      EntityId.static, EntityId.deployment, EntityId.timer, EntityId.dns, String.toList_append]

/-- The word in front of an id tells the sort. -/
theorem word_eq_of_id {k l : Key} (h : k.id = l.id) : k.word = l.word := by
  apply String.toList_injective
  rw [← takeWhile_text_id, ← takeWhile_text_id, h]

/-- Within one sort, the text behind the colon tells the key. -/
theorem id_injective {k l : Key} (h : k.id = l.id) : k = l := by
  have hword := word_eq_of_id h
  -- keys of two sorts have different words
  cases k <;> cases l <;> try simp [word] at hword
  case api.api => exact congrArg api (EntityId.eq_of_mk_append h)
  case path.path => exact congrArg path (EntityId.path_injective h)
  case lambda.lambda => exact congrArg lambda (EntityId.lambda_injective h)
  case route.route =>
      obtain ⟨rfl, rfl⟩ := EntityId.route_injective h
      rfl
  case static.static => exact congrArg static (EntityId.static_injective h)
  case deployment.deployment => exact congrArg deployment (EntityId.eq_of_mk_append h)
  case timer.timer => exact congrArg timer (EntityId.timer_injective h)
  case dns.dns => exact congrArg dns (EntityId.eq_of_mk_append h)

end Key

/-- The id of an entity is that of its key. -/
theorem id_eq (e : Entity) : e.id = e.key.id := by
  cases e <;> rfl

/-- The id of a lambda is that of a lambda. -/
theorem eq_lambda_of_id {e : Entity} {id : String} (h : e.id = .lambda id) :
    ∃ l, e = .lambda id l := by
  have hkey : e.key = .lambda id := Key.id_injective (e.id_eq.symm.trans h)
  cases e with
  | lambda i l =>
      cases hkey
      exact ⟨l, rfl⟩
  | _ => cases hkey

/-- Entities have the same id iff they are of one sort and agree in what identifies it: a name, a
path, a method and a path, or an id, whatever characters these are made of. -/
theorem id_eq_iff_key_eq (e f : Entity) : e.id = f.id ↔ e.key = f.key := by
  rw [e.id_eq, f.id_eq]
  exact ⟨Key.id_injective, congrArg Key.id⟩

end Entity
end InfraGraph
