/-
  ObjcBindings.Main
  ────────────────────────────────
  **THE PROGRAM.**

  Holds the dialogue of a command line with the real system.  Other programs
  are not started from here: a header is refused like one whose producer is
  missing, and dumps are made beforehand.
-/
import ObjcBindings.Command.Run

namespace ObjcBindings.Main

/-! ## §1. Answers of the real system. -/

/-- The refusal that an error of the system stands for. -/
def refusal : IO.Error → OsError
  | .noFileOrDirectory .. => .notFound
  | .permissionDenied .. => .permissionDenied
  | .alreadyExists .. => .alreadyExists
  | .inappropriateType .. => .isADirectory
  | e => .other (toString e)

/-- The answer of the system to a request. -/
def answer {α : Type} (request : IO α) : IO (Except OsError α) := do
  try
    return .ok (← request)
  catch e =>
    return .error (refusal e)

/-- The content of a file. -/
def contentOf (path : String) : IO Bytes := do
  return (← IO.FS.readBinFile path).toList

/-- There is a file or directory: it can be read, or the system knows another
reason why it cannot. -/
def isThere (path : String) : IO Bool := do
  match ← answer (contentOf path) with
  | .error .notFound => return false
  | _ => return true

/-- All that is left of a stream after `seen`. -/
partial def allOf (stream : IO.FS.Stream) (seen : ByteArray) : IO ByteArray := do
  let more ← stream.read 65536
  if more.isEmpty then return seen else allOf stream (seen ++ more)

/-- Write a file. -/
def store (path : String) (content : Bytes) : IO Unit :=
  IO.FS.writeBinFile path ⟨content.toArray⟩

/-! ## §2. Dialogues. -/

/-- Hold a dialogue with the real system. -/
def hold {α : Type} : Dialogue α → IO α
  | .done result => pure result
  | .probe path next => do hold (next (← isThere path))
  | .readFile path next => do hold (next (← answer (contentOf path)))
  | .readInput next => do hold (next (← allOf (← IO.getStdin) .empty).toList)
  | .call _ _ next => hold (next (.error .notFound))
  | .makeDirs path next => do hold (next (← answer (IO.FS.createDirAll path)))
  | .writeFile path content next => do hold (next (← answer (store path content)))

end ObjcBindings.Main

/-- Do what the command line asks for. -/
def main (args : List String) : IO UInt32 := do
  let outcome ← ObjcBindings.Main.hold (ObjcBindings.runArgs args)
  IO.print outcome.stdout
  IO.eprint outcome.stderr
  return outcome.exitCode.toUInt32
