/-
  ObjcBindings.Header.Layout
  ────────────────────────────────
  **THE LAYOUT OF AN SDK.**

  After the user's rules, the directories of an SDK decide:

      …/System/Library/Frameworks/F.framework/Headers/…h              → F
      …/F.framework/Frameworks/S.framework/Headers/…h                 → F
      …/usr/include/objc/…, …/usr/include/x.h, system directories     → core
      …/usr/include/D/…h                                              → D
      …/lib/clang/V/include/…, <built-in>                             → core

  The first rule that matches wins, and what it names becomes a module
  identifier.
-/
import ObjcBindings.Header.Rule

namespace ObjcBindings

open Text
open Text.Pattern

namespace Layout

/-! ## §1. Parts of paths. -/

/-- One or more characters other than a slash. -/
def component : Pattern :=
  plus (.one (.compl (.one '/')))

/-- Directories and a header, to the end of the path. -/
def headerPath : Pattern :=
  concat [star (.seq component (char '/')), component, literal ".h", .finish]

/-- The name of a framework, remembered. -/
def framework : Pattern :=
  .group 1 (plus (.one (.compl (.union (.one '.') (.one '/')))))

/-- The directories of the system itself. -/
def systemDirectories : List String :=
  ["sys", "machine", "i386", "arm", "arm64", "libkern", "architecture", "secure", "xlocale",
   "_types", "mach", "mach-o", "malloc"]

/-! ## §2. The rules. -/

/-- The rules that follow the user's, in order. -/
def builtinRules : List ModuleRule :=
  [⟨concat [literal "/System/Library/Frameworks/", framework, literal ".framework/Headers/",
      headerPath], .capture⟩,
   ⟨concat [literal "/System/Library/Frameworks/", framework,
      literal ".framework/Frameworks/", component, literal ".framework/Headers/",
      headerPath], .capture⟩,
   ⟨literal "/usr/include/objc/", .core⟩,
   ⟨concat [literal "/usr/include/", component, literal ".h", .finish], .core⟩,
   ⟨concat [literal "/usr/include/", choice (systemDirectories.map literal), char '/'],
      .core⟩,
   ⟨concat [literal "/usr/include/", .group 1 component, char '/', headerPath], .capture⟩,
   ⟨concat [literal "/lib/clang/", component, literal "/include/"], .core⟩,
   ⟨concat [.start, literal "<built-in>", .finish], .core⟩]

/-- The module of a header path. -/
def moduleOfPath (rules : List ModuleRule) (path : String) : Except Failure String :=
  match (rules ++ builtinRules).findSome? (·.moduleFor? path) with
  | some name => .ok (Ident.moduleName name)
  | none => .error (.unknownModule path)

/-- The module of a declaration: that of its header, or the core module for a
declaration that the front end made up. -/
def moduleOf (rules : List ModuleRule) (d : Decl) : Except Failure String :=
  match d.file? with
  | some path => moduleOfPath rules path
  | none => if d.isImplicit then .ok coreModule else .error (.missingLocation d.usr)

end Layout

end ObjcBindings
