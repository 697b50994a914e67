import InfraGraph.Command.Run
import Std.Time.DateTime.Timestamp

/-!
# Main — the command line

Requests of a command are answered by the file system of the machine.  Everything else is decided
by `Command.run`.
-/

namespace InfraGraph
namespace Main

def osError (e : IO.Error) : OsError :=
  match e with
  | .noFileOrDirectory .. => .notFound
  | .alreadyExists .. => .alreadyExists
  | .inappropriateType _ 20 _ => .notDirectory
  | .inappropriateType _ 21 _ => .isDirectory
  | e => .other (toString e)

def attempt {α : Type} (action : IO α) : IO (Except OsError α) := do
  match ← action.toBaseIO with
  | .ok a => return .ok a
  | .error e => return .error (osError e)

def now : IO UInt64 := do
  let time ← Std.Time.Timestamp.now
  return UInt64.ofNat time.toSecondsSinceUnixEpoch.val.toNat

def answer : (r : Request) → IO r.Response
  | .isThere path => (System.mkFilePath [path]).pathExists
  | .read path => attempt (IO.FS.readFile path)
  | .makeDirs path => attempt (IO.FS.createDirAll path)
  | .write path text => attempt (IO.FS.writeFile path text)
  | .rename source target => attempt (IO.FS.rename source target)
  | .now => now

def runProgram {α : Type} : Program α → IO α
  | .done a => return a
  | .ask r next => do runProgram (next (← answer r))

def print (r : Report) : IO UInt32 := do
  (← IO.getStdout).putStr (Report.textOf r.output)
  (← IO.getStderr).putStr (Report.textOf r.errors)
  return r.status.toUInt32

end Main
end InfraGraph

open InfraGraph in
/-- Run the command that the arguments stand for. -/
def main (arguments : List String) : IO UInt32 :=
  match Command.ofArguments? arguments with
  | none => do
      (← IO.getStderr).putStrLn "error: the arguments are not those of a command"
      return Report.usageStatus.toUInt32
  | some command => do Main.print (← Main.runProgram command.run)
