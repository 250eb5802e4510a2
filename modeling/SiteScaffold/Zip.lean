/-
Zip archives, written without compression: each entry with a header in front of
its bytes, then a directory of all entries, then the place of the directory.
-/
import SiteScaffold.Text.Utf8

namespace SiteScaffold.Zip

/-- The lowest `count` bytes of a number, the lowest first. -/
def littleEndian : (count : Nat) → Nat → Bytes
  | 0, _ => []
  | count + 1, n => UInt8.ofNat n :: littleEndian count (n / 256)

/-- One step of the checksum: a bit is shifted out. -/
def shiftOut (sum : UInt32) : UInt32 :=
  if sum &&& 1 = 1 then (sum >>> 1) ^^^ 0xEDB88320 else sum >>> 1

/-- The checksum of the entry's bytes. -/
def checksum (bytes : Bytes) : Nat :=
  let sum := bytes.foldl (fun sum b =>
    (List.range 8).foldl (fun sum _ => shiftOut sum) (sum ^^^ b.toUInt32)) 0xFFFFFFFF
  (sum ^^^ 0xFFFFFFFF).toNat

/-- What the header and the directory say alike about an entry: names are in
UTF-8, nothing is compressed, and the time is the earliest one there is. -/
def description (name : Text) (bytes : Bytes) : Bytes :=
  littleEndian 2 20 ++ littleEndian 2 0x0800 ++ littleEndian 2 0 ++ littleEndian 2 0
    ++ littleEndian 2 0x21 ++ littleEndian 4 (checksum bytes) ++ littleEndian 4 bytes.length
    ++ littleEndian 4 bytes.length ++ littleEndian 2 (Utf8.encode name).length
    ++ littleEndian 2 0

/-- An entry: its header, its name and its bytes. -/
def entry (name : Text) (bytes : Bytes) : Bytes :=
  [0x50, 0x4B, 0x03, 0x04] ++ description name bytes ++ Utf8.encode name ++ bytes

/-- The line of the directory for an entry that starts at `offset`. -/
def listing (offset : Nat) (name : Text) (bytes : Bytes) : Bytes :=
  [0x50, 0x4B, 0x01, 0x02] ++ littleEndian 2 20 ++ description name bytes
    ++ littleEndian 2 0 ++ littleEndian 2 0 ++ littleEndian 2 0 ++ littleEndian 4 0
    ++ littleEndian 4 offset ++ Utf8.encode name

/-- The directory of entries, the first of which starts at `offset`. -/
def listings : (offset : Nat) → List (Text × Bytes) → Bytes
  | _, [] => []
  | offset, (name, bytes) :: rest =>
    listing offset name bytes ++ listings (offset + (entry name bytes).length) rest

/-- The bytes of an archive. -/
def encode (entries : List (Text × Bytes)) : Bytes :=
  let body := entries.flatMap fun (name, bytes) => entry name bytes
  let directory := listings 0 entries
  body ++ directory ++ [0x50, 0x4B, 0x05, 0x06] ++ littleEndian 4 0
    ++ littleEndian 2 entries.length ++ littleEndian 2 entries.length
    ++ littleEndian 4 directory.length ++ littleEndian 4 body.length ++ littleEndian 2 0

end SiteScaffold.Zip
