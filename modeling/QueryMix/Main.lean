import QueryMix.Command.Run

/-!
# `QueryMix.Main`: the program

The program reads its command line, looks up the listing that the command needs, carries the
command out and saves the listing that comes of it. It ends with 2 when the command line is
refused, with 1 when the command fails, and with 0 otherwise.
-/

set_option autoImplicit false

namespace QueryMix.Command

/-- The fault that a failed access to a file shows. -/
def faultOfError : IO.Error → DiskFault
  | .noFileOrDirectory .. => .notFound
  | .inappropriateType _ code _ => if code = 21 then .isDirectory else .notDirectory
  | e => .other (toString e)

/-- What is stored at a path. -/
def storedAt (path : Text) : IO Directory.Stored := do
  let file : String := String.ofList path
  try
    return .present (← IO.FS.readBinFile file)
  catch e =>
    match faultOfError e with
    | .notFound => return .absent .notFound
    | .notDirectory => return .absent .notDirectory
    | fault => return .unreadable fault

/-- Save what an outcome has to save. -/
def saveAt (path : Text) (outcome : Outcome) : IO Outcome := do
  match outcome.save with
  | none => return outcome
  | some listing =>
    let file : String := String.ofList path
    try
      IO.FS.writeBinFile file (Directory.bytesOfText listing)
      return outcome
    catch e => return outcome.unsaved path (faultOfError e)

/-- Ids that start from a random seed. -/
def freshIds : IO Ids := do
  let bytes ← IO.getRandomBytes 16
  return .ofSeed (bytes.toList.foldl (fun seed byte => seed * 256 + byte.toNat) 0)

/-- Carry out an invocation; the answer is the exit status. -/
def Invocation.perform (invocation : Invocation) : IO UInt32 := do
  let ids ← freshIds
  let outcome ←
    match invocation.command.path? with
    | none => pure (run ids (.absent .notFound) invocation.command)
    | some path => do saveAt path (run ids (← storedAt path) invocation.command)
  IO.print outcome.output
  IO.eprint (invocation.errorText outcome)
  return outcome.exitStatus

end QueryMix.Command

open QueryMix.Command in
/-- The program. -/
def main (args : List String) : IO UInt32 := do
  match Invocation.read (args.map String.toList) with
  | .ok invocation => invocation.perform
  | .error (.version scope) =>
    IO.print (versionText scope)
    return 0
  | .error .refused =>
    IO.eprintln "error: the arguments do not fit"
    return 2
