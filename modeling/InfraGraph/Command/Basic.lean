/-!
# Command — what can be asked for on the command line

* `Command` — the subcommands with their settings;
* `Command.ofArguments?` — the command that arguments stand for;
* `Verbosity.ofCount`, `Verbosity.directive` — how much is logged, by the number of flags.

Options that a subcommand has can be given once, with their value in the next argument or attached
to the option.  Flags for more logging can be given anywhere and any number of times.
-/

namespace InfraGraph

inductive Command where
  /-- Begin a project in a directory. -/
  | init (directory : String)
  | validate (file : String)
  | permissions (file : String) (library : Option String)
  | plan (file out : String) (library : Option String)
  | generate (file out : String) (library : Option String)
  | status (out : String)
deriving DecidableEq

namespace Command

/-! ## Settings -/

inductive Setting where
  | file
  | out
  | library
deriving DecidableEq

namespace Setting

def long : Setting → String
  | file => "file"
  | out => "out"
  | library => "library"

def letter? : Setting → Option Char
  | file => some 'f'
  | out => none
  | library => some 'l'

end Setting

structure Settings where
  file : Option String
  out : Option String
  library : Option String
  /-- Argument that is no option. -/
  directory : Option String

namespace Settings

def none : Settings := ⟨.none, .none, .none, .none⟩

def get? (s : Settings) : Setting → Option String
  | .file => s.file
  | .out => s.out
  | .library => s.library

/-- Give a value for an option, if there is none yet; no value is empty. -/
def give? (s : Settings) (setting : Setting) (value : String) : Option Settings :=
  if value.isEmpty ∨ (s.get? setting).isSome then .none
  else
    match setting with
    | .file => some { s with file := some value }
    | .out => some { s with out := some value }
    | .library => some { s with library := some value }

/-- Give the argument that is no option. -/
def giveDirectory? (s : Settings) (value : String) : Option Settings :=
  if value.isEmpty ∨ s.directory.isSome then .none else some { s with directory := some value }

end Settings

/-! ## Subcommands -/

structure Usage where
  settings : List Setting
  /-- Whether an argument that is no option is taken. -/
  takesDirectory : Bool
  build : Settings → Command

def fileOf (s : Settings) : String := s.file.getD "app.yaml"

def outOf (s : Settings) : String := s.out.getD "out"

def usage? (name : String) : Option Usage :=
  match name with
  | "init" => some ⟨[], true, fun s => init (s.directory.getD ".")⟩
  | "validate" => some ⟨[.file], false, fun s => validate (fileOf s)⟩
  | "permissions" => some ⟨[.file, .library], false, fun s => permissions (fileOf s) s.library⟩
  | "plan" =>
      some ⟨[.file, .out, .library], false, fun s => plan (fileOf s) (outOf s) s.library⟩
  | "generate" =>
      some ⟨[.file, .out, .library], false, fun s => generate (fileOf s) (outOf s) s.library⟩
  | "status" => some ⟨[.out], false, fun s => status (outOf s)⟩
  | _ => none

namespace Usage

def byName? (u : Usage) (name : String) : Option Setting :=
  u.settings.find? fun setting => setting.long == name

def byLetter? (u : Usage) (letter : Char) : Option Setting :=
  u.settings.find? fun setting => setting.letter? == some letter

end Usage

/-! ## Arguments -/

inductive Argument where
  /-- No further argument is an option. -/
  | separator
  /-- An option by its long name, with the value attached to it. -/
  | long (name : String) (value : Option String)
  /-- Letters of options, with a value attached to the last one. -/
  | short (letters : List Char)
  | plain (text : String)

/-- Form of an argument; a lone hyphen is no option. -/
def Argument.ofText (text : String) : Argument :=
  match text.toList with
  | ['-', '-'] => .separator
  | '-' :: '-' :: rest =>
      let name := rest.takeWhile fun c => c != '='
      match rest.drop name.length with
      | [] => .long (String.ofList name) none
      | _ :: value => .long (String.ofList name) (some (String.ofList value))
  | '-' :: c :: rest => .short (c :: rest)
  | _ => .plain text

/-- What the letters of an argument ask for. -/
inductive Letters where
  /-- Flags only. -/
  | flags
  /-- An option with the value attached to it. -/
  | attached (setting : Setting) (value : String)
  /-- An option whose value is the next argument. -/
  | awaiting (setting : Setting)

def verboseLetter : Char := 'v'

def verboseName : String := "verbose"

/-- Read letters: flags, then at most one option, which takes the rest as its value.  An equals sign
may stand before the value. -/
def letters? (u : Usage) : List Char → Option Letters
  | [] => some .flags
  | c :: rest =>
      if c = verboseLetter then letters? u rest
      else
        match u.byLetter? c, rest with
        | some setting, [] => some (.awaiting setting)
        | some setting, '=' :: value => some (.attached setting (String.ofList value))
        | some setting, value => some (.attached setting (String.ofList value))
        | none, _ => none

def plain? (u : Usage) (s : Settings) (text : String) : Option Settings :=
  if u.takesDirectory then s.giveDirectory? text else none

def plains? (u : Usage) : Settings → List String → Option Settings
  | s, [] => some s
  | s, text :: rest => do plains? u (← plain? u s text) rest

/-- Whether an argument can be the value of the option before it. -/
def isValue (text : String) : Bool :=
  match Argument.ofText text with
  | .plain _ => true
  | _ => false

def settings? (u : Usage) : Settings → List String → Option Settings
  | s, [] => some s
  | s, text :: rest =>
      match Argument.ofText text with
      | .separator => plains? u s rest
      | .plain text => do settings? u (← plain? u s text) rest
      | .long name value =>
          if name = verboseName ∧ value.isNone then settings? u s rest
          else
            match u.byName? name, value with
            | none, _ => none
            | some setting, some value => do settings? u (← s.give? setting value) rest
            | some setting, none => awaited? u s setting rest
      | .short letters =>
          match letters? u letters with
          | none => none
          | some .flags => settings? u s rest
          | some (.attached setting value) => do settings? u (← s.give? setting value) rest
          | some (.awaiting setting) => awaited? u s setting rest
where
  /-- Read the value of an option from the next argument. -/
  awaited? (u : Usage) (s : Settings) (setting : Setting) : List String → Option Settings
    | [] => none
    | text :: rest =>
        if isValue text then do settings? u (← s.give? setting text) rest else none

def isFlag (text : String) : Bool :=
  match Argument.ofText text with
  | .long name none => name == verboseName
  | .short letters => letters.all fun c => c == verboseLetter
  | _ => false

/-- The command that arguments stand for, if they are well formed. -/
def ofArguments? (arguments : List String) : Option Command :=
  match arguments.dropWhile isFlag with
  | [] => none
  | name :: rest => do
      let u ← usage? name
      return u.build (← settings? u .none rest)

end Command

/-! ## Logging -/

inductive Verbosity where
  | warn
  | info
  | debug
  | trace
deriving DecidableEq

namespace Verbosity

def ofCount (n : UInt8) : Verbosity :=
  if n = 0 then warn else if n = 1 then info else if n = 2 then debug else trace

def text : Verbosity → String
  | warn => "warn"
  | info => "info"
  | debug => "debug"
  | trace => "trace"

def directive (v : Verbosity) : String := "cloudgen=" ++ v.text

end Verbosity

end InfraGraph
