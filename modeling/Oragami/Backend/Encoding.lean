/-
# `Oragami.Backend.Encoding` — texts as the programs store them

Programs keep texts in byte arrays of fixed width.  The backend writes them as UTF-8,
cut at the width and padded with zeros, and hashes the canonical JSON of a request for
its attestation.

What the platform provides and the source only calls is a class: the text of a key,
SHA-256, case mapping and the parser of dates.
-/
import Mathlib.Tactic.Common
import Oragami.Lib.Js

namespace Backend

/-- What the services call of their platform. -/
class Platform (K : Type) where
  toBase58 : K → String
  sha256 : List UInt8 → Vector UInt8 32
  toUpperCase : List Char → List Char
  /-- `new Date(text).getTime()`, or nothing for `NaN`. -/
  getTime : String → Option Int

/-! ## `encoding.ts` -/

/-- `Buffer.from(s, 'utf8')`. -/
def utf8 (cs : List Char) : List UInt8 := cs.flatMap String.utf8EncodeChar

/-- A zeroed buffer with the bytes copied in, as many as fit. -/
def copyInto (n : Nat) (bs : List UInt8) : Vector UInt8 n := .ofFn fun i => bs[i.val]?.getD 0

def strToBytes64 (s : String) : Vector UInt8 64 := copyInto 64 (utf8 s.toList)

/-- `.length`: UTF-16 code units. -/
def utf16Length (cs : List Char) : Nat := (cs.map fun c => if c.toNat < 0x10000 then 1 else 2).sum

/-- `.slice(0, n)`: the first `n` UTF-16 code units, a character cut in half being replaced
when it is written. -/
def slice : Nat → List Char → List Char
  | 0, _ => []
  | _, [] => []
  | n + 1, c :: cs =>
      if c.toNat < 0x10000 then c :: slice n cs
      else
        match n with
        | 0 => [Js.replacement]
        | n + 1 => c :: slice n cs

def jurisdictionToBytes (K : Type) [Platform K] (s : String) : Vector UInt8 4 :=
  let trimmed := slice 4 (Platform.toUpperCase K (Js.trim s.toList))
  copyInto 4 (utf8 trimmed)

/-! ## `JSON.stringify` -/

def hexDigit (n : Nat) : Char := if n < 10 then Char.ofNat (0x30 + n) else Char.ofNat (0x57 + n)

/-- A character within a JSON string. -/
def jsonChar (c : Char) : List Char :=
  let escaped (n : Nat) := [Char.ofNat 0x5C, Char.ofNat n]
  match c.toNat with
  | 0x22 => escaped 0x22
  | 0x5C => escaped 0x5C
  | 0x08 => escaped 0x62
  | 0x0C => escaped 0x66
  | 0x0A => escaped 0x6E
  | 0x0D => escaped 0x72
  | 0x09 => escaped 0x74
  | n => if n < 0x20 then escaped 0x75 ++ ['0', '0', hexDigit (n / 16), hexDigit (n % 16)] else [c]

def jsonString (s : String) : String := String.ofList (['"'] ++ s.toList.flatMap jsonChar ++ ['"'])

def jsonObject (fields : List (String × String)) : String :=
  "\x7b" ++ ",".intercalate (fields.map fun f => jsonString f.1 ++ ":" ++ f.2) ++ "\x7d"

/-- `.toString('hex')`. -/
def hex (bs : List UInt8) : String :=
  String.ofList (bs.flatMap fun b => [hexDigit (b.toNat / 16), hexDigit (b.toNat % 16)])

end Backend
