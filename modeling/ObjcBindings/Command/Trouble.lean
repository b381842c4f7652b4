/-
  ObjcBindings.Command.Trouble
  ────────────────────────────────
  **WHY A COMMAND FAILS.**

  A trouble says at which point a command failed, and the cause below it.  Its
  message goes from the outside in, with colons between.
-/
import ObjcBindings.Command.Dialogue
import ObjcBindings.Failure
import ObjcBindings.Settings
import ObjcBindings.Text.Utf8

namespace ObjcBindings

open Text

/-! ## §1. Causes. -/

/-- What is said about bytes that are no text. -/
def notText : String := "stream did not contain valid UTF-8"

/-- The message of a failure with its cause: that of an unreadable file is
named a second time. -/
def Failure.chain : Failure → String
  | .unreadable path reason => (Failure.unreadable path reason).message ++ ": " ++ reason
  | failure => failure.message

/-- Why a command fails. -/
inductive Trouble where
  | plain (failure : Failure)
  | settingsUnreadable (path reason : String)
  | settingsInvalid (path : String) (fault : SettingsFault)
  /-- The rules of the settings cannot be used. -/
  | rules (fault : SettingsFault)
  /-- Standard input holds no dump. -/
  | input (failure : Failure)
  /-- A file holds no dump. -/
  | dump (path : String) (failure : Failure)
  /-- The SDK of the settings is not known. -/
  | unknownSdk (name : String)
  /-- The program that finds SDKs could not be run. -/
  | finder (cause : OsError)
  /-- There is no such SDK. -/
  | noSdk (sdk : Sdk) (reason : String)
  /-- The producer could not be run. -/
  | producer (path : String) (cause : OsError)
  /-- The producer refused a header. -/
  | header (path : String) (reason : String)
  /-- The producer wrote bytes that are no text. -/
  | producerText (fault : Utf8.Break)
  /-- The producer wrote no dump. -/
  | producerDump (path : String) (failure : Failure)
  | bindings (path : String) (failure : Failure)
  | directory (path : String) (cause : OsError)
  | output (path : String) (cause : OsError)
  deriving DecidableEq, Repr

/-! ## §2. Wording. -/

/-- What is said about a trouble. -/
def Trouble.message : Trouble → String
  | .plain failure => failure.chain
  | .settingsUnreadable path reason => "Failed to read config file: " ++ path ++ ": " ++ reason
  | .settingsInvalid path fault => "Invalid config file: " ++ path ++ ": " ++ fault.message
  | .rules fault => fault.message
  | .input failure => "Failed to read AST from stdin: " ++ failure.chain
  | .dump path failure => "Failed to load AST file '" ++ path ++ "': " ++ failure.chain
  | .unknownSdk name => Sdk.unknownMessage name
  | .finder cause => "Failed to run xcrun: " ++ cause.message
  | .noSdk sdk reason =>
      "Could not find the path for the " ++ sdk.toolName ++ " SDK: " ++ reason
  | .producer path cause => "Failed to run AST producer: " ++ path ++ ": " ++ cause.message
  | .header path reason => "Error parsing " ++ path ++ ": " ++ reason
  | .producerText fault => "AST producer printed invalid UTF-8: " ++ fault.message
  | .producerDump path failure =>
      "AST producer output for " ++ path ++ " is not a valid AST: " ++ failure.chain
  | .bindings path failure =>
      "Failed to generate bindings for '" ++ path ++ "': " ++ failure.chain
  | .directory path cause => "Failed to create directory: " ++ path ++ ": " ++ cause.message
  | .output path cause => "Failed to write " ++ path ++ ": " ++ cause.message

/-! ## §3. Jobs. -/

/-- A dialogue that may end in trouble. -/
abbrev Job := ExceptT Trouble Dialogue

/-- Go on with a value, or end in the trouble that a cause makes. -/
def orTrouble {ε α : Type} (trouble : ε → Trouble) : Except ε α → Job α
  | .ok x => pure x
  | .error e => throw (trouble e)

end ObjcBindings
