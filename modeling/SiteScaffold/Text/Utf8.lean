/-
UTF-8. Encoding is core's, character by character. Decoding is written out so
that a fault can be located: bytes that start no character are either invalid,
with the number of bytes that are to blame, or cut off by the end of the data.

A text is decoded strictly, where a fault is the answer, or leniently, where
each fault becomes the replacement character.
-/
import SiteScaffold.Text.Basic
import SiteScaffold.Text.Digit

namespace SiteScaffold.Utf8

/-- What stands at the front of a non-empty sequence of bytes. -/
inductive Front where
  | char (c : Char) (size : Nat)
  | invalid (size : Nat)
  | incomplete
  deriving Repr, DecidableEq

/-- A byte that continues a character. -/
def continues (b : UInt8) : Bool := 0x80 ≤ b && b ≤ 0xBF

/-- The six bits a continuing byte contributes. -/
def low (b : UInt8) : Nat := b.toNat % 0x40

/-- The second bytes allowed after a leading byte of a three-byte form. -/
def secondOfThree (lead b : UInt8) : Bool :=
  (if lead = 0xE0 then 0xA0 ≤ b else 0x80 ≤ b) && (if lead = 0xED then b ≤ 0x9F else b ≤ 0xBF)

/-- The second bytes allowed after a leading byte of a four-byte form. -/
def secondOfFour (lead b : UInt8) : Bool :=
  (if lead = 0xF0 then 0x90 ≤ b else 0x80 ≤ b) && (if lead = 0xF4 then b ≤ 0x8F else b ≤ 0xBF)

/-- The first character of the bytes, or the fault they start with. A fault
covers the longest run of bytes that some character starts with, and at least
one byte. -/
def front : Bytes → Front
  | [] => .incomplete
  | a :: rest =>
    if a < 0x80 then .char (Char.ofNat a.toNat) 1
    else if a < 0xC2 then .invalid 1
    else if a < 0xE0 then
      match rest with
      | [] => .incomplete
      | b :: _ =>
        if continues b then .char (Char.ofNat (a.toNat % 0x20 * 0x40 + low b)) 2
        else .invalid 1
    else if a < 0xF0 then
      match rest with
      | [] => .incomplete
      | b :: rest =>
        if !secondOfThree a b then .invalid 1
        else
          match rest with
          | [] => .incomplete
          | c :: _ =>
            if continues c then
              .char (Char.ofNat ((a.toNat % 0x10 * 0x40 + low b) * 0x40 + low c)) 3
            else .invalid 2
    else if a < 0xF5 then
      match rest with
      | [] => .incomplete
      | b :: rest =>
        if !secondOfFour a b then .invalid 1
        else
          match rest with
          | [] => .incomplete
          | c :: rest =>
            if !continues c then .invalid 2
            else
              match rest with
              | [] => .incomplete
              | d :: _ =>
                if continues d then
                  .char (Char.ofNat
                    (((a.toNat % 0x08 * 0x40 + low b) * 0x40 + low c) * 0x40 + low d)) 4
                else .invalid 3
    else .invalid 1

/-- The place of the first fault: where it starts, and how many bytes are
invalid there unless the data merely ends too early. -/
structure Fault where
  index : Nat
  size : Option Nat
  deriving Repr, DecidableEq

/-- A fault in words. -/
def Fault.message (fault : Fault) : Text :=
  match fault.size with
  | some size =>
    "invalid utf-8 sequence of " ++ Text.ofNat size ++ " bytes from index "
      ++ Text.ofNat fault.index
  | none => "incomplete utf-8 byte sequence from index " ++ Text.ofNat fault.index

/-- Decoding from `index` on, while `skip` bytes of the last character are
still ahead; `back` is what was decoded, last character first. -/
def decodeFrom (index skip : Nat) (back : Text) : Bytes → Except Fault Text
  | [] => .ok back.reverse
  | b :: rest =>
    match skip with
    | skip + 1 => decodeFrom (index + 1) skip back rest
    | 0 =>
      match front (b :: rest) with
      | .char c size => decodeFrom (index + 1) (size - 1) (c :: back) rest
      | .invalid size => .error ⟨index, some size⟩
      | .incomplete => .error ⟨index, none⟩

/-- The text the bytes spell, or their first fault. -/
def decode (bytes : Bytes) : Except Fault Text := decodeFrom 0 0 [] bytes

/-- The text the bytes spell, if they spell one. -/
def decode? (bytes : Bytes) : Option Text := (decode bytes).toOption

/-- Lenient decoding while `skip` bytes are still to be passed over; `back` is
what was decoded, last character first. -/
def decodeLenientFrom (skip : Nat) (back : Text) : Bytes → Text
  | [] => back.reverse
  | b :: rest =>
    match skip with
    | skip + 1 => decodeLenientFrom skip back rest
    | 0 =>
      match front (b :: rest) with
      | .char c size => decodeLenientFrom (size - 1) (c :: back) rest
      | .invalid size => decodeLenientFrom (size - 1) ('\ufffd' :: back) rest
      | .incomplete => ('\ufffd' :: back).reverse

/-- The text the bytes spell, with a replacement character for each fault. -/
def decodeLenient (bytes : Bytes) : Text := decodeLenientFrom 0 [] bytes

/-- The bytes of a text. -/
def encode (t : Text) : Bytes := t.flatMap String.utf8EncodeChar

end SiteScaffold.Utf8
