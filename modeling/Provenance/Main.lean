import Provenance.Cli.Program
import Std.Time.DateTime.Timestamp

/-!
# Running the program

Looks at what the program may see, asks it for its plan, and carries the plan out.
-/

namespace Provenance.Cli

/-- The system's number for a reason, which some calls negate. -/
def plainCode (code : UInt32) : UInt32 := if code < 0x80000000 then code else 0 - code

/-- The reason that the system gives. -/
def fileError : IO.Error → FileError
  | .noFileOrDirectory .. => .notFound
  | .alreadyExists .. => .alreadyExists
  | .inappropriateType _ code reason | .illegalOperation code reason =>
    if plainCode code = 20 then .notADirectory
    else if plainCode code = 21 then .isADirectory
    else .other s!"{reason} (os error {plainCode code})"
  | e => .other (toString e)

/-- What is found at a path. -/
def look (path : String) : IO (Except FileError FileNode) := do
  try
    let content ← IO.FS.readBinFile path
    return .ok (.file content.data.toList)
  catch e =>
    match fileError e with
    | .isADirectory => return .ok .directory
    | e => return .error e

/-- The time now. -/
def currentInstant : IO Instant := do
  let nanos := (← Std.Time.Timestamp.now).toNanosecondsSinceUnixEpoch.val
  return ⟨nanos / 1000000000, (nanos % 1000000000).toNat⟩

/-- Fresh random bytes. -/
def currentEntropy : IO KeyEntropy := do
  let bytes (count : USize) : IO Bytes := do return (← IO.getRandomBytes count).data.toList
  return ⟨← bytes 64, ← bytes 16, ← bytes 16⟩

/-- What an invocation can see. -/
def Invocation.surroundings (i : Invocation) : IO Surroundings := do
  let home ← IO.getEnv homeVariable
  let entries ← (i.reads home).mapM fun path => do return (path, ← look path)
  let environment ← i.lookups.filterMapM fun name => do
    return (← IO.getEnv name).map fun v => (name, v)
  return ⟨.ofEntries entries, environment, ← currentEntropy, ← currentInstant⟩

/-- Makes a change. -/
def Step.make : Step → IO Unit
  | makeDirectory path => IO.FS.createDirAll path
  | write _ path text => IO.FS.writeBinFile path text.toUTF8

/-- Makes changes up to the first that fails. -/
def makeSteps (steps : List Step) : IO (Option CliError) := do
  for step in steps do
    try step.make
    catch e => return some (step.failure (fileError e))
  return none

/-- Carries out what an invocation came to. -/
def carryOut : Except CliError Plan → IO Outcome
  | .error e => return .failed e
  | .ok p => do
    match ← makeSteps p.steps with
    | some e => return .failed e
    | none => return .done p

/-- What the program can see when its arguments name nothing to do. -/
def Surroundings.nothing : Surroundings :=
  ⟨.ofEntries [], [], ⟨[], [], []⟩, ⟨0, 0⟩⟩

/-- Runs the program. Gives its exit status. -/
def execute (args : List String) : IO UInt32 := do
  let surroundings ← match Invocation.parse args with
    | .ok i => i.surroundings
    | .error _ => pure .nothing
  let outcome ← carryOut (plan surroundings args)
  IO.print outcome.output
  if let some e := outcome.error then IO.eprintln e.message
  return outcome.exit.code.toUInt32

end Provenance.Cli

def main (args : List String) : IO UInt32 := Provenance.Cli.execute args
