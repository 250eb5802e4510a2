/-
Why a fragment cannot be inserted into a text. The text alone decides it, so a
refusal names no file.
-/
import SiteScaffold.Text.Basic

namespace SiteScaffold.Patch

/-- Why a fragment cannot be inserted. -/
inductive Refusal where
  /-- The layout is declared already. -/
  | declared (layout : Text)
  /-- The text that the insertion is placed by is missing. -/
  | noAnchor (anchor : Text)
  deriving Repr, DecidableEq

end SiteScaffold.Patch
