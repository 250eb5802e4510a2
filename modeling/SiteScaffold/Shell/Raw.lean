/-
Raw texts. The shell and the utilities work on bytes, whatever the bytes spell:
they count bytes, and a byte matches where a pattern asks for a character. A raw
text is a text of characters below 256, each of which stands for a byte, so that
everything there is for texts serves for raw ones, and a text in ASCII is its
own raw text.
-/
import SiteScaffold.Text.Utf8

namespace SiteScaffold.Shell

/-- A text of characters that stand for bytes. -/
abbrev Raw := List Char

namespace Raw

/-- The raw text of bytes. -/
def ofBytes (bytes : Bytes) : Raw := bytes.map fun b => Char.ofNat b.toNat

/-- The bytes of a raw text. -/
def bytes (r : Raw) : Bytes := r.map fun c => UInt8.ofNat c.toNat

/-- The bytes that spell a text. -/
def ofText (t : Text) : Raw := ofBytes (Utf8.encode t)

/-- The text that the bytes spell. -/
def text (r : Raw) : Text := Utf8.decodeLenient r.bytes

/-- A number in decimal digits. -/
def ofInt (n : Int) : Raw :=
  if n < 0 then '-' :: Text.ofNat n.natAbs else Text.ofNat n.natAbs

/-- White space of the portable locale. -/
def isBlank (c : Char) : Bool := c = ' ' || ('\t' ≤ c && c ≤ '\r')

/-- A character that a name may start with. -/
def isNameStart (c : Char) : Bool := c.isAlpha || c = '_'

/-- A character of a name. -/
def isNameChar (c : Char) : Bool := c.isAlphanum || c = '_'

/-- Whether a text is the name of a variable. -/
def isName (r : Raw) : Bool := r.head?.any isNameStart && r.all isNameChar

/-- The text up to the first of a character and the text after it; all of it and
nothing if there is none. -/
def cutAt (c : Char) (r : Raw) : Raw × Option Raw :=
  match r.dropWhile (· ≠ c) with
  | [] => (r, none)
  | _ :: rest => (r.takeWhile (· ≠ c), some rest)

end Raw

end SiteScaffold.Shell
