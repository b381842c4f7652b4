/-
  ObjcBindings.Command.Host
  ────────────────────────────────
  **A SYSTEM HELD IN MEMORY.**

  A host has files and directories below a working directory, standard input,
  and programs that always answer the same.  `carryOut` holds a dialogue with it.

  Paths are walked step by step.  Every step starts from a directory, and a
  step up leads to the directory before it.  Above the working directory there
  are only directories, nothing is found in them, and what is written there is
  not seen again.
-/
import ObjcBindings.Command.Path
import ObjcBindings.Command.Dialogue

namespace ObjcBindings

/-! ## §1. Hosts. -/

/-- A file or directory, by the names from the working directory to it. -/
abbrev Place := List String

/-- A system held in memory. -/
structure Host where
  files : List (Place × Bytes) := []
  directories : List Place := []
  input : Bytes := []
  tools : List (String × ToolResult) := []
  /-- The calls of tools, the latest first. -/
  calls : List (String × List String) := []

/-- What is at a place. -/
inductive PlaceKind where
  | absent
  | file
  | directory
  deriving DecidableEq, Repr

namespace Host

/-- What is at a place.  A file lies in directories. -/
def kindOf (h : Host) (place : Place) : PlaceKind :=
  if place.isEmpty || place ∈ h.directories
      || h.files.any (fun (p, _) => place.isPrefixOf p && p != place) then .directory
  else if (h.files.lookup place).isSome then .file
  else .absent

/-! ## §2. Paths. -/

/-- Where a path leads. -/
inductive Target where
  | inside (place : Place)
  /-- A directory above the working directory. -/
  | above
  /-- A name in such a directory. -/
  | beyond
  deriving DecidableEq, Repr

/-- What is at a target. -/
def targetKind (h : Host) : Target → PlaceKind
  | .inside place => h.kindOf place
  | .above => .directory
  | .beyond => .absent

/-- One step from a directory. -/
def step (start : Target) (part : String) : Target :=
  if !Path.isStep part then start
  else match start with
    | .inside place =>
        if part ≠ ".." then .inside (place ++ [part])
        else if place.isEmpty then .above
        else .inside place.dropLast
    | _ => if part = ".." then .above else .beyond

/-- Walk along the parts of a path.  Every step has to start from a
directory. -/
def walk (h : Host) (start : Target) : List String → Except OsError Target
  | [] => .ok start
  | part :: parts =>
      match h.targetKind start with
      | .absent => .error .notFound
      | .file => .error .notADirectory
      | .directory => h.walk (step start part) parts

/-- Where a path leads.  Its last part need not exist. -/
def resolve (h : Host) (path : String) : Except OsError Target :=
  if path.isEmpty then .error .notFound
  else match Path.steps path with
    | "" :: parts => h.walk .above parts
    | parts => h.walk (.inside []) parts

/-- What is at a path. -/
def kindAt (h : Host) (path : String) : Except OsError PlaceKind :=
  (h.resolve path).map h.targetKind

/-! ## §3. Answers. -/

/-- There is a file or directory at the path. -/
def exists? (h : Host) (path : String) : Bool :=
  match h.kindAt path with
  | .ok .file | .ok .directory => true
  | _ => false

/-- The content of a file. -/
def read (h : Host) (path : String) : Except OsError Bytes :=
  match h.resolve path with
  | .error e => .error e
  | .ok target =>
      match h.targetKind target, target with
      | .absent, _ => .error .notFound
      | .file, .inside place => .ok ((h.files.lookup place).getD [])
      | _, _ => .error .isADirectory

/-- The answer of a program.  A name without slashes is looked up among the
programs; a path leads to files, of which none may be run. -/
def answer (h : Host) (tool : String) (args : List String) : Except OsError ToolResult :=
  if (tool :: args).any fun text => text.toList.contains '\x00' then .error .nulByte
  else if tool.toList.contains '/' then
    match h.kindAt tool with
    | .error e => .error e
    | .ok .absent => .error .notFound
    | .ok _ => .error .permissionDenied
  else match h.tools.lookup tool with
    | none => .error .notFound
    | some result => .ok result

/-- Run a program and remember its arguments. -/
def call (h : Host) (tool : String) (args : List String) :
    Except OsError ToolResult × Host :=
  match h.answer tool args with
  | .error e => (.error e, h)
  | .ok result => (.ok result, { h with calls := (tool, args) :: h.calls })

/-- Make one directory. -/
def makeDir (h : Host) (path : String) : Except OsError Host :=
  match h.resolve path with
  | .error e => .error e
  | .ok target =>
      match h.targetKind target, target with
      | .absent, .inside place => .ok { h with directories := h.directories ++ [place] }
      | .absent, _ => .ok h
      | _, _ => .error .alreadyExists

/-- The path leads to a directory. -/
def isDirectory (h : Host) (path : String) : Bool :=
  match h.kindAt path with
  | .ok .directory => true
  | _ => false

/-- Make a directory; one that is already there is no error. -/
def ensureDir (h : Host) (path : String) : Except OsError Host :=
  match h.makeDir path with
  | .ok h' => .ok h'
  | .error e => if h.isDirectory path then .ok h else .error e

/-- Make a directory and those above it that are missing, at most `bound` of
them. -/
def makeDirsFrom (h : Host) : Nat → String → Except OsError Host
  | 0, path => h.ensureDir path
  | bound + 1, path =>
      if path.isEmpty then .ok h
      else match h.ensureDir path with
        | .ok h' => .ok h'
        | .error .notFound =>
            match Path.parent? path with
            | none => .error .notFound
            | some above =>
                match h.makeDirsFrom bound above with
                | .error e => .error e
                | .ok h' => h'.ensureDir path
        | .error e => .error e

/-- Make a directory and those above it that are missing. -/
def makeDirs (h : Host) (path : String) : Except OsError Host :=
  h.makeDirsFrom path.length path

/-- Put a file at a place. -/
def putFile (place : Place) (content : Bytes) : List (Place × Bytes) → List (Place × Bytes)
  | [] => [(place, content)]
  | (p, old) :: rest =>
      if p = place then (place, content) :: rest else (p, old) :: putFile place content rest

/-- Write a file.  A path that ends with a slash can only be a directory. -/
def write (h : Host) (path : String) (content : Bytes) : Except OsError Host :=
  let body := String.ofList (path.toList.reverse.dropWhile (· == '/')).reverse
  if body.isEmpty then .error (if path.isEmpty then .notFound else .isADirectory)
  else match h.resolve body with
    | .error e => .error e
    | .ok target =>
        match h.targetKind target, body == path, target with
        | .directory, _, _ => .error .isADirectory
        | .file, false, _ => .error .notADirectory
        | .absent, false, _ => .error .isADirectory
        | _, true, .inside place => .ok { h with files := putFile place content h.files }
        | _, true, _ => .ok h

/-- The answer to a change of the host, and the host afterwards. -/
def afterChange (h : Host) : Except OsError Host → Except OsError Unit × Host
  | .ok h' => (.ok (), h')
  | .error e => (.error e, h)

end Host

/-! ## §4. Dialogues. -/

/-- Hold a dialogue with a host: its result, and the host afterwards. -/
def Dialogue.carryOut {α : Type} : Dialogue α → Host → α × Host
  | .done result, h => (result, h)
  | .probe path next, h => (next (h.exists? path)).carryOut h
  | .readFile path next, h => (next (h.read path)).carryOut h
  | .readInput next, h => (next h.input).carryOut h
  | .call tool args next, h =>
      let (answer, h) := h.call tool args
      (next answer).carryOut h
  | .makeDirs path next, h =>
      let (answer, h) := h.afterChange (h.makeDirs path)
      (next answer).carryOut h
  | .writeFile path content next, h =>
      let (answer, h) := h.afterChange (h.write path content)
      (next answer).carryOut h

end ObjcBindings
