/-
  ObjcBindings.Command.Dialogue
  ────────────────────────────────
  **WHAT A COMMAND ASKS OF THE SYSTEM.**

  A dialogue is a tree of requests: each names what it wants and says how to go
  on with every possible answer.  The tree decides nothing about files or
  programs itself, so a command can be carried out on a real system or on one
  that is held in memory.
-/

namespace ObjcBindings

/-! ## §1. Answers of the system. -/

/-- The content of a file or stream. -/
abbrev Bytes := List UInt8

/-- Why the system refuses a request. -/
inductive OsError where
  | notFound
  | permissionDenied
  | alreadyExists
  | notADirectory
  | isADirectory
  /-- A text for another program holds a character that ends it. -/
  | nulByte
  | other (text : String)
  deriving DecidableEq, Repr

/-- What the system says. -/
def OsError.message : OsError → String
  | .notFound => "No such file or directory (os error 2)"
  | .permissionDenied => "Permission denied (os error 13)"
  | .alreadyExists => "File exists (os error 17)"
  | .notADirectory => "Not a directory (os error 20)"
  | .isADirectory => "Is a directory (os error 21)"
  | .nulByte => "nul byte found in provided data"
  | .other text => text

/-- What another program leaves behind. -/
structure ToolResult where
  isSuccess : Bool
  stdout : Bytes
  stderr : Bytes

/-! ## §2. Requests. -/

/-- A tree of requests with a result at every end. -/
inductive Dialogue (α : Type) where
  | done (result : α)
  /-- Is there a file or directory? -/
  | probe (path : String) (next : Bool → Dialogue α)
  | readFile (path : String) (next : Except OsError Bytes → Dialogue α)
  | readInput (next : Bytes → Dialogue α)
  /-- Run another program to its end. -/
  | call (tool : String) (args : List String) (next : Except OsError ToolResult → Dialogue α)
  /-- Make a directory and all above it. -/
  | makeDirs (path : String) (next : Except OsError Unit → Dialogue α)
  | writeFile (path : String) (content : Bytes) (next : Except OsError Unit → Dialogue α)

namespace Dialogue

/-- Go on with the result of a dialogue. -/
def andThen {α β : Type} (next : α → Dialogue β) : Dialogue α → Dialogue β
  | .done result => next result
  | .probe path k => .probe path fun a => (k a).andThen next
  | .readFile path k => .readFile path fun a => (k a).andThen next
  | .readInput k => .readInput fun a => (k a).andThen next
  | .call tool args k => .call tool args fun a => (k a).andThen next
  | .makeDirs path k => .makeDirs path fun a => (k a).andThen next
  | .writeFile path content k => .writeFile path content fun a => (k a).andThen next

instance : Monad Dialogue where
  pure := .done
  bind d next := d.andThen next

/-! ## §3. Single requests. -/

/-- Is there a file or directory? -/
def isThere (path : String) : Dialogue Bool := .probe path .done

/-- The content of a file. -/
def contentOf (path : String) : Dialogue (Except OsError Bytes) := .readFile path .done

/-- All of standard input. -/
def allInput : Dialogue Bytes := .readInput .done

/-- What another program leaves behind. -/
def resultOf (tool : String) (args : List String) : Dialogue (Except OsError ToolResult) :=
  .call tool args .done

/-- Make a directory and all above it. -/
def ensureDirs (path : String) : Dialogue (Except OsError Unit) := .makeDirs path .done

/-- Write a file. -/
def store (path : String) (content : Bytes) : Dialogue (Except OsError Unit) :=
  .writeFile path content .done

end Dialogue

end ObjcBindings
