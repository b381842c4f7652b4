/-
  ObjcBindings.Command.Arguments
  ────────────────────────────────
  **THE COMMAND LINE.**

  Arguments are read from left to right.  A command name hands the rest of the
  arguments to its level, where most switches of the levels above may be given
  again: the innermost value counts.  At one level no switch may be repeated.

      --name          a switch, with its value after it or after an equals sign
      -n              a short switch, with its value after it or joined to it
      --              nothing after it is a switch or a command

  A value is checked when the next switch or word arrives, or at the end, so a
  request for help behind a faulty value is not heard.
-/

namespace ObjcBindings

/-! ## §1. Requests. -/

/-- The shells that completions are written for. -/
inductive Shell where
  | bash
  | elvish
  | fish
  | powershell
  | zsh
  deriving DecidableEq, Repr

/-- The shell of a name. -/
def Shell.ofName? : String → Option Shell
  | "bash" => some .bash
  | "elvish" => some .elvish
  | "fish" => some .fish
  | "powershell" => some .powershell
  | "zsh" => some .zsh
  | _ => none

/-- What can be done with a dump. -/
inductive Command where
  /-- Write bindings, to a file if one is named. -/
  | generate (input : String) (output : Option String)
  /-- Count declarations. -/
  | summary (input : String)
  /-- Show the modules of containers. -/
  | modules (input : String)
  /-- Find declarations by name. -/
  | search (input : String) (query : String)
  /-- List what Objective-C signatures use. -/
  | reachable (input : String)
  deriving DecidableEq, Repr

/-- A command and how to run it. -/
structure Invocation where
  /-- The path of the settings. -/
  config : String
  /-- Write JSON. -/
  json : Bool
  verbose : Bool
  command : Command
  deriving DecidableEq, Repr

/-- What a command line asks for. -/
inductive Request where
  | run (invocation : Invocation)
  | help
  | version
  | completions (shell : Shell)
  deriving DecidableEq, Repr

/-- The settings that are read unless others are named. -/
def defaultConfig : String := "objc-bindgen.toml"

/-! ## §2. Switches and levels. -/

/-- A switch of the command line. -/
inductive Switch where
  | config
  | json
  | verbose
  | jsonLogs
  | completions
  | output
  | help
  | version
  deriving DecidableEq, Repr

namespace Switch

/-- The name after two dashes. -/
def long : Switch → String
  | .config => "config"
  | .json => "json"
  | .verbose => "verbose"
  | .jsonLogs => "json-logs"
  | .completions => "completions"
  | .output => "output"
  | .help => "help"
  | .version => "version"

/-- The letter after one dash. -/
def short? : Switch → Option Char
  | .config => some 'c'
  | .output => some 'o'
  | .help => some 'h'
  | .version => some 'V'
  | _ => none

/-- The switch has a value. -/
def takesValue : Switch → Bool
  | .config | .completions | .output => true
  | _ => false

/-- The value can be one of the switch. -/
def accepts : Switch → String → Bool
  | .completions, value => (Shell.ofName? value).isSome
  | .output, value => !value.isEmpty
  | _, _ => true

end Switch

/-- The commands that only look at a dump. -/
inductive Inspection where
  | summary
  | modules
  | search
  | reachable
  deriving DecidableEq, Repr

/-- Where in the tree of commands an argument stands. -/
inductive Level where
  | top
  | generate
  | ast
  | inspect (what : Inspection)
  deriving DecidableEq, Repr

namespace Level

/-- The switches that can be given at a level. -/
def switches : Level → List Switch
  | .top => [.config, .json, .verbose, .jsonLogs, .help, .completions, .version]
  | .generate => [.config, .json, .verbose, .jsonLogs, .help, .output]
  | .ast | .inspect _ => [.config, .json, .verbose, .jsonLogs, .help]

/-- The number of words that a level needs. -/
def wordCount : Level → Nat
  | .top | .ast => 0
  | .generate => 1
  | .inspect .search => 2
  | .inspect _ => 1

/-- The level below that a name leads to. -/
def child? : Level → String → Option Level
  | .top, "generate" => some .generate
  | .top, "ast" => some .ast
  | .ast, "summary" => some (.inspect .summary)
  | .ast, "modules" => some (.inspect .modules)
  | .ast, "search" => some (.inspect .search)
  | .ast, "reachable" => some (.inspect .reachable)
  | _, _ => none

/-- There are levels below. -/
def hasChildren : Level → Bool
  | .top | .ast => true
  | _ => false

/-- The word can stand at a position: paths, which come first, are not
empty. -/
def acceptsWord (position : Nat) (word : String) : Bool :=
  position != 0 || !word.isEmpty

end Level

/-! ## §3. Reading one level. -/

/-- Why reading ends before the arguments do. -/
inductive Stop where
  /-- The arguments make no sense. -/
  | usage
  | help
  | version
  deriving DecidableEq, Repr

/-- What has been read at one level. -/
structure Given where
  /-- Switches with their values, the latest first. -/
  switches : List (Switch × String) := []
  words : List String := []
  /-- The last switch with a value, which is not checked yet; the value may
  still be missing. -/
  pending : Option (Switch × Option String) := none
  /-- Only words follow. -/
  isClosed : Bool := false

namespace Given

/-- The last switch still lacks its value. -/
def isAwaiting (g : Given) : Bool :=
  match g.pending with
  | some (_, none) => true
  | _ => false

/-- The value of a switch. -/
def value? (g : Given) (switch : Switch) : Option String :=
  g.switches.lookup switch

/-- The switch was given. -/
def has (g : Given) (switch : Switch) : Bool :=
  (g.value? switch).isSome

/-- Take in a switch with its value. -/
def accept (g : Given) (switch : Switch) (value : String) : Except Stop Given :=
  if g.has switch || !switch.accepts value then .error .usage
  else .ok { g with switches := (switch, value) :: g.switches }

/-- Check the switch that is not checked yet. -/
def settle (g : Given) : Except Stop Given :=
  match g.pending with
  | none => .ok g
  | some (_, none) => .error .usage
  | some (switch, some value) => { g with pending := none }.accept switch value

/-- Read a switch, with the value that is joined to it. -/
def takeSwitch (g : Given) (switch : Switch) (joined : Option String) : Except Stop Given := do
  let g ← g.settle
  match switch.takesValue, joined with
  | true, some value => g.accept switch value
  | true, none => return { g with pending := some (switch, none) }
  | false, some _ => .error .usage
  | false, none =>
      match switch with
      | .help => .error .help
      | .version => .error .version
      | _ => g.accept switch ""

/-- Read a word. -/
def takeWord (g : Given) (level : Level) (word : String) : Except Stop Given := do
  let g ← g.settle
  if g.words.length < level.wordCount && Level.acceptsWord g.words.length word then
    return { g with words := g.words ++ [word] }
  else .error .usage

end Given

/-! ## §4. Reading arguments. -/

/-- An argument that is no command name. -/
inductive Argument where
  /-- The mark after which only words follow. -/
  | close
  | long (name : String) (joined : Option String)
  | short (letter : Char) (joined : Option String)
  | word (text : String)
  deriving DecidableEq, Repr

/-- A long switch and the value after its equals sign. -/
def Argument.ofLong (text : List Char) : Argument :=
  let name := String.ofList (text.takeWhile (· != '='))
  match text.dropWhile (· != '=') with
  | [] => .long name none
  | _ :: value => .long name (some (String.ofList value))

/-- The value joined to a short switch; an equals sign in front of it does not
belong to it. -/
def Argument.joinedValue : List Char → Option String
  | [] => none
  | '=' :: value => some (String.ofList value)
  | value => some (String.ofList value)

/-- The form of an argument.  A single dash is a word. -/
def Argument.ofText (text : String) : Argument :=
  match text.toList with
  | ['-', '-'] => .close
  | '-' :: '-' :: rest => .ofLong rest
  | '-' :: letter :: rest => .short letter (Argument.joinedValue rest)
  | _ => .word text

namespace Level

/-- The switch of a name. -/
def long? (level : Level) (name : String) : Option Switch :=
  level.switches.find? (·.long == name)

/-- The switch of a letter. -/
def letter? (level : Level) (letter : Char) : Option Switch :=
  level.switches.find? (·.short? == some letter)

/-- Read an argument that is no command name. -/
def take (level : Level) (g : Given) (text : String) : Except Stop Given :=
  if g.isClosed then g.takeWord level text
  else match Argument.ofText text with
    | .close => .ok { g with isClosed := true }
    | .long name joined =>
        match level.long? name with
        | some switch => g.takeSwitch switch joined
        | none => .error .usage
    | .short letter joined =>
        match level.letter? letter with
        | some switch =>
            if switch.takesValue then g.takeSwitch switch joined else g.takeSwitch switch none
        | none => .error .usage
    | .word text =>
        match g.pending with
        | some (switch, none) => .ok { g with pending := some (switch, some text) }
        | _ => g.takeWord level text

/-- What a request for help on the command of these names leads to. -/
def helpOn (level : Level) : List String → Stop
  | [] => .help
  | name :: names =>
      match level.child? name with
      | some child => child.helpOn names
      | none => if level.hasChildren && name = "help" && names.isEmpty then .help else .usage

/-- Read the arguments of a level and of all levels below it. -/
def read (level : Level) (g : Given) : List String → Except Stop (List (Level × Given))
  | [] => do
      let g ← g.settle
      if level = .ast || g.words.length < level.wordCount then .error .usage
      else return [(level, g)]
  | text :: rest =>
      if g.isClosed || g.isAwaiting then do
        level.read (← level.take g text) rest
      else if level.hasChildren && text = "help" then .error (level.helpOn rest)
      else match level.child? text with
        | some child => do
            let below ← child.read {} rest
            return (level, ← g.settle) :: below
        | none => do
            level.read (← level.take g text) rest

end Level

/-! ## §5. From levels to requests. -/

/-- The command of the innermost level. -/
def commandOf (level : Level) (g : Given) : Option Command :=
  match level, g.words with
  | .generate, [input] => some (.generate input (g.value? .output))
  | .inspect .summary, [input] => some (.summary input)
  | .inspect .modules, [input] => some (.modules input)
  | .inspect .reachable, [input] => some (.reachable input)
  | .inspect .search, [input, query] => some (.search input query)
  | _, _ => none

/-- The request that the levels make.  Completions come before any command, and
without a command there is help. -/
def requestOf (levels : List (Level × Given)) : Request :=
  let given := levels.map Prod.snd
  match (given.findSome? (·.value? .completions)).bind Shell.ofName? with
  | some shell => .completions shell
  | none =>
      match levels.getLast?.bind fun (level, g) => commandOf level g with
      | none => .help
      | some command =>
          .run { config := (given.reverse.findSome? (·.value? .config)).getD defaultConfig
                 json := given.any (·.has .json)
                 verbose := given.any (·.has .verbose)
                 command }

/-- The request of a command line; none if it makes no sense. -/
def Request.ofArgs (args : List String) : Option Request :=
  match Level.read .top {} args with
  | .ok levels => some (requestOf levels)
  | .error .usage => none
  | .error .help => some .help
  | .error .version => some .version

end ObjcBindings
