/-
  ObjcBindings.Bindings.Code
  ────────────────────────────────
  **HOW PIECES OF CODE ARE PUT TOGETHER.**

      paragraphs   — pieces with an empty line between them
      enclosed     — a head and a body in braces, the body as it is
      block        — a head and a body in braces, the body moved right
-/
import ObjcBindings.Text.Lines

namespace ObjcBindings

open Text

/-- Pieces with an empty line between them. -/
def paragraphs (pieces : List String) : String :=
  "\n\n".intercalate pieces

/-- A head and a body between braces. -/
def enclosed (head body : String) : String :=
  head ++ " \x7b\n" ++ body ++ "\n\x7d"

/-- A head and a body between braces, moved right. -/
def block (head body : String) : String :=
  enclosed head (indent body)

end ObjcBindings
