/-
  ObjcBindings.Bindings.Name
  ────────────────────────────────
  **NAMES THAT DO NOT COLLIDE.**

  A name that is taken is counted up: `name`, `name_2`, `name_3`, and so on.
  Names are compared before keywords among them are made usable.

      uniqueNames     — a name for every wish, no two alike
      selectorTable   — a name for every selector of a module
      bindMethods     — the methods of one pair of traits with their names

  Two selectors may ask for one name, because a colon becomes an underscore.
  A class method makes way for the instance methods of its container.
-/
import ObjcBindings.Bindings.Container
import ObjcBindings.Text.Ident

namespace ObjcBindings

open Text

/-! ## §1. Counting up. -/

/-- The names that a wish leads to, in the order in which they are tried. -/
def nameCandidate (wish : String) : Nat → String
  | 0 => wish
  | k + 1 => wish ++ "_" ++ toString (k + 2)

/-- The first candidate from the `k`-th on that is not taken, among the next
`tries` and the one after them. -/
def firstFreeFrom (wish : String) (taken : List String) : Nat → Nat → String
  | 0, k => nameCandidate wish k
  | tries + 1, k =>
      if nameCandidate wish k ∈ taken then firstFreeFrom wish taken tries (k + 1)
      else nameCandidate wish k

/-- The first candidate that is not taken.  No more candidates than taken names
can fail. -/
def firstFree (wish : String) (taken : List String) : String :=
  firstFreeFrom wish taken taken.length 0

/-- A name for every wish in order, none of them taken and no two alike. -/
def uniqueNames (taken : List String) : List String → List String
  | [] => []
  | wish :: wishes =>
      let name := firstFree wish taken
      name :: uniqueNames (name :: taken) wishes

/-- The names for the wishes as they are written in Rust. -/
def uniqueIdents (wishes : List String) : List String :=
  (uniqueNames [] wishes).map Ident.escape

/-! ## §2. Selectors. -/

/-- Selectors and the names they are stored under. -/
abbrev SelectorTable := List (String × String)

/-- The table of selectors, each once and in ascending order. -/
def selectorTable (selectors : List String) : SelectorTable :=
  let selectors := NameSet.ofList selectors
  selectors.zip (uniqueIdents (selectors.map Ident.ofSelector))

/-- The name that a selector is stored under. -/
def SelectorTable.ident (table : SelectorTable) (selector : String) : String :=
  (table.lookup selector).getD (Ident.escape (Ident.ofSelector selector))

/-! ## §3. Methods. -/

/-- A method as it appears in one pair of traits. -/
structure BoundMethod where
  method : Method
  name : String
  /-- One name for every parameter of the method. -/
  params : List String

/-- The methods without repetitions: of those with one selector, the first
instance method and the first class method stay. -/
def distinctMethods (seen : List (String × Bool)) : List Method → List Method
  | [] => []
  | m :: ms =>
      let key := (m.selector, m.isInstance)
      if key ∈ seen then distinctMethods seen ms
      else m :: distinctMethods (key :: seen) ms

/-- The name that a method asks for, beside instance methods of the names
`instanceNames`. -/
def Method.wish (instanceNames : List String) (m : Method) : String :=
  let name := Ident.ofSelector m.selector
  if !m.isInstance && name ∈ instanceNames then "class_" ++ name else name

/-- Names that the body of a raw method refers to. -/
def reservedParams : List String := ["send_message", "selectors", "classes"]

/-- The name that the parameter at position `i` asks for. -/
def Param.wish (i : Nat) (p : Param) : String :=
  if p.name.isEmpty then "arg" ++ toString i
  else if p.name ∈ reservedParams then p.name ++ "_"
  else p.name

/-- The names of a method's parameters. -/
def Method.paramIdents (m : Method) : List String :=
  uniqueIdents (m.params.zipIdx.map fun (p, i) => p.wish i)

/-- The methods of one pair of traits with their names. -/
def bindMethods (methods : List Method) : List BoundMethod :=
  let instanceNames := (methods.filter Method.isInstance).map (Ident.ofSelector ·.selector)
  let kept := distinctMethods [] methods
  kept.zipWith (fun m name => ⟨m, name, m.paramIdents⟩)
    (uniqueIdents (kept.map (Method.wish instanceNames)))

end ObjcBindings
