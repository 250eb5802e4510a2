/-
Versions of Rails: reading one off a banner, and telling whether it is recent
enough.
-/
import SiteScaffold.Pattern.Class
import SiteScaffold.Text.Digit
import SiteScaffold.Failure

namespace SiteScaffold

/-- A version number. -/
structure Version where
  major : Nat
  minor : Nat
  patch : Nat
  deriving Repr, DecidableEq

namespace Version

open Pattern

/-- The largest number a version may hold. -/
def largest : Nat := Nat.pow 2 64 - 1

/-- Two numbers with a dot between them, and a third one if it follows. -/
def shape : Pattern :=
  capture 1 (oneOrMore Text.isDigit) ++ "." ++ capture 2 (oneOrMore Text.isDigit)
    ++ optional ("." ++ capture 3 (oneOrMore Text.isDigit))

/-- The first version in a banner. A third number that is missing counts as
zero; there is no version if one of the numbers is too large. -/
def parse? (banner : Text) : Option Version := do
  let (_, hit, _) ← shape.first? banner
  let major ← Text.decimal? largest (hit.group 1)
  let minor ← Text.decimal? largest (hit.group 2)
  let patch ← match hit.group? 3 with
    | some digits => Text.decimal? largest digits
    | none => some 0
  return ⟨major, minor, patch⟩

/-- A version as it is written. -/
def text (v : Version) : Text :=
  Text.ofNat v.major ++ "." ++ Text.ofNat v.minor ++ "." ++ Text.ofNat v.patch

/-- Whether `v` is older than `w`. -/
def older (v w : Version) : Bool :=
  v.major < w.major
    || (v.major = w.major
      && (v.minor < w.minor || (v.minor = w.minor && v.patch < w.patch)))

/-- The oldest release that a project is generated with. -/
def leastSupported : Version := ⟨7, 0, 0⟩

/-- What is known about an installation: whether it is there, and which
version its banner names. -/
structure Installation where
  name : Text
  version : Option Version
  available : Bool
  deriving Repr, DecidableEq

namespace Installation

/-- What a banner tells; nothing if the tool printed none. -/
def ofBanner (name : Text) : Option Text → Installation
  | some banner => ⟨name, parse? banner, true⟩
  | none => ⟨name, none, false⟩

/-- The installation, if it is available and not older than `least`. -/
def supported (found : Installation) (least : Version) : Except Cause Installation :=
  if !found.available then
    .error (.precondition
      "Rails is not installed. Install it with 'gem install rails' and try again.")
  else
    match found.version with
    | none => .error (.precondition "Could not determine the installed Rails version.")
    | some version =>
      if version.older least then
        .error (.precondition ("Rails " ++ version.text ++ " is installed but " ++ least.text
          ++ " or newer is required."))
      else .ok found

end Installation

end Version

end SiteScaffold
