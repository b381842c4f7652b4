/-
  ObjcBindings.Command.Load
  ────────────────────────────────
  **SETTINGS AND DUMPS FROM OUTSIDE.**

  A dump comes from standard input, from a file, or from a header that the
  producer turns into one.  The producer is called with the header and the
  flags of a compiler, among them the path of the SDK.

      settings      — the settings of a path; a missing file says nothing
      unit          — the unit that an input stands for
-/
import ObjcBindings.Command.Path
import ObjcBindings.Command.Trouble
import ObjcBindings.Schema.Read

namespace ObjcBindings.Load

open Text

/-! ## §1. Settings. -/

/-- The settings of a path. -/
def settings (path : String) : Job Settings := do
  if !(← Dialogue.isThere path) then return {}
  let bytes ← orTrouble (fun e => .settingsUnreadable path e.message)
    (← Dialogue.contentOf path)
  match Utf8.decode? bytes with
  | none => throw (.settingsUnreadable path notText)
  | some text => orTrouble (.settingsInvalid path) (Settings.ofText text)

/-! ## §2. Headers. -/

/-- The path of an SDK, as its finder prints it. -/
def sdkPath (sdk : Sdk) : Job String := do
  let answer ← orTrouble .finder
    (← Dialogue.resultOf "xcrun" ["--sdk", sdk.toolName, "--show-sdk-path"])
  if answer.isSuccess then return trim (Utf8.decodeLossy answer.stdout)
  else throw (.noSdk sdk (trim (Utf8.decodeLossy answer.stderr)))

/-- The arguments of the producer: the header, then the flags of the
compiler. -/
def producerArgs (producer : Producer) (header sysroot : String) : List String :=
  [header, "--", "-x", producer.language, "-isysroot", sysroot] ++ producer.flags

/-- The unit of a header. -/
def unitOfHeader (producer : Producer) (header : String) : Job TranslationUnit := do
  let sdk ← orTrouble .unknownSdk (Sdk.ofName producer.sdk)
  let sysroot ← sdkPath sdk
  let answer ← orTrouble (.producer producer.path)
    (← Dialogue.resultOf producer.path (producerArgs producer header sysroot))
  if !answer.isSuccess then
    throw (.header header
      (trim (Utf8.decodeLossy answer.stdout) ++ trim (Utf8.decodeLossy answer.stderr)))
  match Utf8.firstBreak? answer.stdout with
  | some fault => throw (.producerText fault)
  | none =>
      orTrouble (.producerDump header)
        (TranslationUnit.read (trim (Utf8.decodeLossy answer.stdout)))

/-! ## §3. Dumps. -/

/-- The unit of the dump in a file. -/
def unitOfFile (path : String) : Job TranslationUnit := do
  match ← Dialogue.contentOf path with
  | .error e => throw (.dump path (.unreadable path e.message))
  | .ok bytes => orTrouble (.dump path) (TranslationUnit.readBytes path bytes)

/-- The unit of the dump on standard input. -/
def unitOfInput : Job TranslationUnit := do
  let bytes ← Dialogue.allInput
  orTrouble .input (TranslationUnit.readBytes "<stdin>" bytes)

/-- The unit that an input stands for. -/
def unit (producer : Producer) (input : String) : Job TranslationUnit :=
  if Path.isStandardInput input then unitOfInput
  else if Path.isDump input then unitOfFile input
  else unitOfHeader producer input

end ObjcBindings.Load
