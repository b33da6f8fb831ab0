/-
Files as characters.

A file is UTF-8 without control characters: of those below the space only the
tab and the two line ends are allowed, and of those from `U+007F` to `U+009F`
only the line end `U+0085`. The last two code points of the basic plane are not
allowed either.
-/
import StackMachine.Yaml.Fault

set_option autoImplicit false

namespace StackMachine.Yaml

/-- Whether a file may hold a character. -/
def isAllowed (c : Nat) : Bool :=
  c == 0x9 || c == 0xA || c == 0xD || c == 0x85
    || (0x20 ≤ c && c ≤ 0x7E) || (0xA0 ≤ c && c ≤ 0xD7FF)
    || (0xE000 ≤ c && c ≤ 0xFFFD) || (0x10000 ≤ c && c ≤ 0x10FFFF)

/-- The number of octets that a leading octet announces. -/
def octetWidth? (octet : Nat) : Option Nat :=
  if octet < 0x80 then some 1
  else if octet < 0xC0 then none
  else if octet < 0xE0 then some 2
  else if octet < 0xF0 then some 3
  else if octet < 0xF8 then some 4
  else none

/-- The part of the character that a leading octet holds. -/
def leadingBits (octet width : Nat) : Nat :=
  if width == 1 then octet
  else if width == 2 then octet % 32
  else if width == 3 then octet % 16
  else octet % 8

/-- The least character that needs so many octets. -/
def leastOfWidth (width : Nat) : Nat :=
  if width == 1 then 0
  else if width == 2 then 0x80
  else if width == 3 then 0x800
  else 0x10000

/-- Adds the trailing octets to what a leading octet holds; `position` is that of
the next octet. -/
def addOctets (value position : Nat) : List UInt8 → Except Fault Nat
  | [] => .ok value
  | octet :: rest =>
    if octet.toNat / 64 == 2 then addOctets (value * 64 + octet.toNat % 64) (position + 1) rest
    else .error (.bytes .trailingOctet position)

/-- The first character of some bytes at a position, and how many it takes. -/
def firstCharacter (position : Nat) (octet : UInt8) (rest : List UInt8) :
    Except Fault (Char × Nat) :=
  match octetWidth? octet.toNat with
  | none => .error (.bytes .leadingOctet position)
  | some width => do
    let trailing := rest.take (width - 1)
    if trailing.length + 1 < width then throw (.bytes .incomplete position)
    let value ← addOctets (leadingBits octet.toNat width) (position + 1) trailing
    if value < leastOfWidth width then throw (.bytes .overlong position)
    if (0xD800 ≤ value && value ≤ 0xDFFF) || 0x10FFFF < value then
      throw (.bytes .noCharacter position)
    if !isAllowed value then throw (.bytes .control position)
    return (Char.ofNat value, width)

/-- The characters of some bytes at a position; `taken` holds those before, the
last one first, and the next `skipped` bytes belong to the last of them. -/
def charactersFrom (position skipped : Nat) (taken : List Char) :
    List UInt8 → Except Fault (List Char)
  | [] => .ok taken.reverse
  | octet :: rest =>
    match skipped with
    | n + 1 => charactersFrom (position + 1) n taken rest
    | 0 =>
      match firstCharacter position octet rest with
      | .error e => .error e
      | .ok (c, width) => charactersFrom (position + 1) (width - 1) (c :: taken) rest

/-- The characters of a file. -/
def characters (bytes : ByteArray) : Except Fault (List Char) :=
  charactersFrom 0 0 [] bytes.toList

end StackMachine.Yaml
