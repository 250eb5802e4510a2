/-
Reading an archive back: the place of the directory is looked for from the end of
the bytes, the directory says where the entries are, and the checksum of each one
has to fit. Only entries that are stored as they are can be read.

An archive may stand behind other bytes; the directory then lies right before
its place all the same, and that tells how far everything is shifted.
-/
import SiteScaffold.Zip

namespace SiteScaffold.Zip

/-- The number that bytes stand for, the lowest first. -/
def ofLittleEndian (bytes : Bytes) : Nat :=
  bytes.foldr (fun b n => b.toNat + 256 * n) 0

/-- The number in `size` bytes from an index on. -/
def number (index size : Nat) (bytes : Bytes) : Nat :=
  ofLittleEndian ((bytes.drop index).take size)

/-- The signature that the place of the directory starts with. -/
def endSignature : Bytes := [0x50, 0x4B, 0x05, 0x06]

/-- The last index at which the place of the directory starts; `last` was found
before `index`. -/
def endIndex? (index : Nat) (last : Option Nat) : Bytes → Option Nat
  | [] => last
  | b :: rest =>
    endIndex? (index + 1)
      (if endSignature.isPrefixOf (b :: rest) && 21 ≤ rest.length then some index else last) rest

/-- The entry that a line of the directory tells of, in an archive that starts
at `base`. -/
def entryAt? (archive line : Bytes) (base : Nat) : Option (Text × Bytes) :=
  let head := archive.drop (base + number 42 4 line)
  let isPlain := number 8 2 line % 2 = 0 && number 10 2 line = 0
  let dataStart := 30 + number 26 2 head + number 28 2 head
  let bytes := (head.drop dataStart).take (number 20 4 line)
  if isPlain && [0x50, 0x4B, 0x03, 0x04].isPrefixOf head && bytes.length = number 24 4 line
      && checksum bytes = number 16 4 line then
    some (Utf8.decodeLenient ((line.drop 46).take (number 28 2 line)), bytes)
  else none

/-- The entries that the next `count` lines of a directory tell of. -/
def entriesFrom? (archive : Bytes) (base : Nat) : (count : Nat) → Bytes →
    Option (List (Text × Bytes))
  | 0, _ => some []
  | count + 1, line => do
    if !List.isPrefixOf [0x50, 0x4B, 0x01, 0x02] line then none
    let entry ← entryAt? archive line base
    let length := 46 + number 28 2 line + number 30 2 line + number 32 2 line
    return entry :: (← entriesFrom? archive base count (line.drop length))

/-- The entries of an archive, if the bytes are one that can be read. -/
def decode? (archive : Bytes) : Option (List (Text × Bytes)) := do
  let index ← endIndex? 0 none archive
  let place := archive.drop index
  let size := number 12 4 place
  let offset := number 16 4 place
  if index < size + offset then none
  entriesFrom? archive (index - size - offset) (number 10 2 place) (archive.drop (index - size))

end SiteScaffold.Zip
