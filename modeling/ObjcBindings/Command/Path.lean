/-
  ObjcBindings.Command.Path
  ────────────────────────────────
  **PATHS OF FILES.**

  A path is a text whose parts are divided by slashes.  Empty parts and parts
  that are a single dot mean nothing, except for a slash or dot at the front.

      components   — the parts that mean something
      extension?   — the end of the file name
      parent?      — the path of the directory around it
-/
import ObjcBindings.Text.LetterCase

namespace ObjcBindings.Path

/-! ## §1. Components. -/

/-- The parts between slashes; there is always at least one. -/
def parts : List Char → List (List Char)
  | [] => [[]]
  | c :: cs =>
      if c = '/' then [] :: parts cs
      else match parts cs with
        | [] => [[c]]
        | p :: ps => (c :: p) :: ps

/-- A part that leads somewhere. -/
def isStep (part : String) : Bool := !part.isEmpty && part != "."

/-- The parts of a path as texts. -/
def steps (path : String) : List String :=
  (parts path.toList).map String.ofList

/-- The parts that mean something.  A slash at the front is one of them. -/
def components (path : String) : List String :=
  match steps path with
  | [] => []
  | first :: rest =>
      let front :=
        if path.isEmpty then [] else if first.isEmpty then ["/"] else [first]
      front ++ rest.filter isStep

/-- The path stands for standard input. -/
def isStandardInput (path : String) : Bool :=
  components path == ["-"]

/-! ## §2. File names. -/

/-- The name of the file or directory; a path that ends with a step up has
none. -/
def fileName? (path : String) : Option String :=
  match (components path).getLast? with
  | some name => if name = "/" || name = "." || name = ".." then none else some name
  | none => none

/-- The part of a name after its last dot; a dot at the front does not
count. -/
def extensionOf? (name : String) : Option String :=
  let back := name.toList.reverse
  match back.dropWhile (· != '.') with
  | _ :: _ :: _ => some (String.ofList (back.takeWhile (· != '.')).reverse)
  | _ => none

/-- The end of the file name after its last dot. -/
def extension? (path : String) : Option String :=
  (fileName? path).bind extensionOf?

/-- The file name ends with the extension of a dump, in any letter case. -/
def isDump (path : String) : Bool :=
  (extension? path).any fun e => Text.asciiLower e == "json"

/-! ## §3. Directories. -/

/-- A path, read backwards, without slashes and single dots at its end. -/
def trimBack : List Char → List Char
  | '/' :: c :: cs => trimBack (c :: cs)
  | '.' :: '/' :: cs => trimBack ('/' :: cs)
  | cs => cs

/-- The path of the directory around a path.  The empty path and the root have
none; a path of a single part lies in the empty path. -/
def parent? (path : String) : Option String :=
  match trimBack path.toList.reverse with
  | [] => none
  | ['/'] => none
  | back => some (String.ofList (trimBack (back.dropWhile (· != '/'))).reverse)

end ObjcBindings.Path
