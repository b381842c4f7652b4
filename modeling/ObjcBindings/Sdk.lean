/-
  ObjcBindings.Sdk
  ────────────────────────────────
  **THE SDKS HEADERS CAN BE PARSED AGAINST.**

  An SDK is named by the developer tools or by a friendlier alias, in any
  letter case.
-/
import ObjcBindings.Text.LetterCase

namespace ObjcBindings

/-- An SDK of the platform. -/
inductive Sdk where
  | macOs
  | ios
  | iosSimulator
  | tvOs
  | tvOsSimulator
  | watchOs
  | watchOsSimulator
  deriving DecidableEq, Repr

namespace Sdk

/-- Every name of an SDK. -/
def names : List (String × Sdk) :=
  [("macosx", .macOs), ("macos", .macOs), ("mac_os", .macOs), ("iphoneos", .ios),
   ("ios", .ios), ("iphonesimulator", .iosSimulator), ("ios_simulator", .iosSimulator),
   ("appletvos", .tvOs), ("tvos", .tvOs), ("tv_os", .tvOs),
   ("appletvsimulator", .tvOsSimulator), ("tv_os_simulator", .tvOsSimulator),
   ("watchos", .watchOs), ("watch_os", .watchOs), ("watchsimulator", .watchOsSimulator),
   ("watch_os_simulator", .watchOsSimulator)]

/-- The SDK of a name; an unknown name is given back in lower case. -/
def ofName (name : String) : Except String Sdk :=
  let low := Text.asciiLower name
  match names.lookup low with
  | some sdk => .ok sdk
  | none => .error low

/-- The name that the developer tools use. -/
def toolName : Sdk → String
  | .macOs => "macosx"
  | .ios => "iphoneos"
  | .iosSimulator => "iphonesimulator"
  | .tvOs => "appletvos"
  | .tvOsSimulator => "appletvsimulator"
  | .watchOs => "watchos"
  | .watchOsSimulator => "watchsimulator"

/-- What is said about an unknown SDK. -/
def unknownMessage (name : String) : String :=
  "Unknown SDK type '" ++ name ++ "'"

end Sdk

end ObjcBindings
