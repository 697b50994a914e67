/-!
# Program — what is asked of a file system

Commands are written as programs: trees of requests in which every answer leads to the rest of the
program.  What a program writes, and in which order, can so be read off without running it, and the
same program runs on any file system.

* `OsError` — why a request fails, and `OsError.message`, how it is worded;
* `Request`, `Request.Response` — the requests, and what each of them is answered with;
* `Program`, `Program.run` — programs, and running them on a state that answers requests.
-/

namespace InfraGraph

/-! ## Failures -/

inductive OsError where
  | notFound
  | alreadyExists
  | notDirectory
  | isDirectory
  | other (text : String)
deriving DecidableEq

namespace OsError

def message : OsError → String
  | notFound => "No such file or directory (os error 2)"
  | alreadyExists => "File exists (os error 17)"
  | notDirectory => "Not a directory (os error 20)"
  | isDirectory => "Is a directory (os error 21)"
  | other text => text

end OsError

/-! ## Requests -/

inductive Request where
  /-- Whether there is something at a path. -/
  | isThere (path : String)
  | read (path : String)
  /-- Make a directory with all directories above it, as far as they are missing. -/
  | makeDirs (path : String)
  | write (path text : String)
  /-- Put a file in the place of another one. -/
  | rename (source target : String)
  /-- Seconds after the beginning of 1970. -/
  | now
deriving DecidableEq

namespace Request

/-- What a request is answered with. -/
def Response : Request → Type
  | isThere _ => Bool
  | read _ => Except OsError String
  | makeDirs _ => Except OsError Unit
  | write _ _ => Except OsError Unit
  | rename _ _ => Except OsError Unit
  | now => UInt64

end Request

/-! ## Programs -/

/-- A program over a file system. -/
inductive Program (α : Type) where
  | done (a : α)
  | ask (request : Request) (next : request.Response → Program α)

namespace Program

def bind {α β : Type} : Program α → (α → Program β) → Program β
  | done a, k => k a
  | ask request next, k => ask request fun response => bind (next response) k

instance : Monad Program where
  pure := done
  bind := bind

def request (r : Request) : Program r.Response := ask r done

def run {σ α : Type} (answer : σ → (r : Request) → r.Response × σ) : Program α → σ → α × σ
  | done a, s => (a, s)
  | ask r next, s =>
      let (response, s) := answer s r
      run answer (next response) s

end Program

/-- A program that may fail. -/
abbrev Attempt (ε α : Type) := ExceptT ε Program α

namespace Attempt

/-- Make a request that does not fail. -/
def ask {ε : Type} (r : Request) : Attempt ε r.Response := ExceptT.lift (Program.request r)

def ofExcept {δ ε α : Type} (error : δ → ε) (r : Except δ α) : Attempt ε α :=
  ExceptT.mk (pure (r.mapError error))

def read {ε : Type} (path : String) (error : OsError → ε) : Attempt ε String := do
  let response : Except OsError String ← ask (.read path)
  ofExcept error response

def makeDirs {ε : Type} (path : String) (error : OsError → ε) : Attempt ε Unit := do
  let response : Except OsError Unit ← ask (.makeDirs path)
  ofExcept error response

def write {ε : Type} (path text : String) (error : OsError → ε) : Attempt ε Unit := do
  let response : Except OsError Unit ← ask (.write path text)
  ofExcept error response

def rename {ε : Type} (source target : String) (error : OsError → ε) : Attempt ε Unit := do
  let response : Except OsError Unit ← ask (.rename source target)
  ofExcept error response

end Attempt
end InfraGraph
