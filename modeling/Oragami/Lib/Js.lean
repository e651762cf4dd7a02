/-
# `Oragami.Lib.Js` — numbers, dates and text as a JavaScript service has them

Three things of the language that services rest on and that are not what they look
like.

* A `Number` is a double.  Every integer up to 2⁵³ is one; a larger one is rounded
  to the nearest that is, ties to an even significand (`number`).
* A `Date` holds an instant within 8.64 · 10¹⁵ ms of the epoch, and
  `toISOString` throws on any other (`toISOString`).
* Bytes become text by the UTF-8 decoder of the encoding standard, which never fails
  but replaces what it cannot read (`decodeUtf8`).

A second count goes through the first two on its way into a date; `isoSeconds` says
what comes of it.
-/
import Mathlib.Algebra.GroupWithZero.Nat
import Mathlib.Algebra.Ring.Int.Defs
import Mathlib.Tactic.Common

namespace Js

/-! ## Numbers -/

/-- The nearest double to a natural number, ties to an even significand. -/
def roundNat (n : Nat) : Nat :=
  if n ≤ 2 ^ 53 then n
  else
    let e := n.log2 - 52
    let q := n / 2 ^ e
    let half := 2 ^ (e - 1)
    let r := n % 2 ^ e
    (if r < half ∨ r = half ∧ q % 2 = 0 then q else q + 1) * 2 ^ e

/-- `Number` of an integer. -/
def number : Int → Int
  | .ofNat n => roundNat n
  | .negSucc n => -roundNat (n + 1)

theorem roundNat_of_le {n : Nat} (h : n ≤ 2 ^ 53) : roundNat n = n := if_pos h

theorem le_roundNat {n : Nat} (h : 2 ^ 53 ≤ n) : 2 ^ 53 ≤ roundNat n := by
  rcases Nat.lt_or_eq_of_le h with hlt | heq
  · have hn : n ≠ 0 := by omega
    have hlog : 53 ≤ n.log2 := (Nat.le_log2 hn).mpr h
    obtain ⟨e, he⟩ : ∃ e, n.log2 = 52 + (e + 1) := ⟨n.log2 - 53, by omega⟩
    have hpow : 2 ^ 52 * 2 ^ (e + 1) ≤ n := by
      rw [← Nat.pow_add, ← he]
      exact Nat.log2_self_le hn
    have hq : 2 ^ 52 ≤ n / 2 ^ (e + 1) :=
      (Nat.le_div_iff_mul_le (Nat.two_pow_pos _)).mpr hpow
    have htwo : 2 ≤ 2 ^ (e + 1) := by
      have hpos := Nat.two_pow_pos e
      rw [Nat.pow_succ]
      omega
    unfold roundNat
    rw [if_neg (by omega), show n.log2 - 52 = e + 1 by omega]
    have hup : 2 ^ 52 ≤ if n % 2 ^ (e + 1) < 2 ^ (e + 1 - 1) ∨ n % 2 ^ (e + 1) = 2 ^ (e + 1 - 1) ∧
        n / 2 ^ (e + 1) % 2 = 0 then n / 2 ^ (e + 1) else n / 2 ^ (e + 1) + 1 := by
      split
      · exact hq
      · exact Nat.le_succ_of_le hq
    exact Nat.mul_le_mul hup htwo
  · rw [roundNat_of_le (Nat.le_of_eq heq.symm)]
    exact h

theorem number_of_le {n : Int} (h : n.natAbs ≤ 2 ^ 53) : number n = n := by
  cases n with
  | ofNat n => exact congrArg Int.ofNat (roundNat_of_le h)
  | negSucc n =>
      have hround : roundNat (n + 1) = n + 1 := roundNat_of_le h
      show -((roundNat (n + 1) : Nat) : Int) = _
      rw [hround]
      rfl

theorem natAbs_number (n : Int) : (number n).natAbs = roundNat n.natAbs := by
  cases n with
  | ofNat n => rfl
  | negSucc n => exact Int.natAbs_neg _

/-! ## Dates -/

/-- The text `toISOString` gives: one for each instant, here the instant. -/
structure IsoString where
  ms : Int
deriving DecidableEq

/-- `new Date(ms).toISOString()`, which throws where there is no such date. -/
def toISOString (ms : Int) : Option IsoString :=
  if ms.natAbs ≤ 8640000000000000 then some ⟨ms⟩ else none

/-- `new Date(seconds * 1000).toISOString()`. -/
def isoSeconds (seconds : Int) : Option IsoString := toISOString (number (seconds * 1000))

/-- Seconds that a `Date` can hold. -/
def Datable (seconds : Int) : Prop := seconds.natAbs ≤ 8640000000000

instance (seconds : Int) : Decidable (Datable seconds) := inferInstanceAs (Decidable (_ ≤ _))

theorem number_of_datable {n : Int} (h : Datable n) : number n = n := by
  have hle : n.natAbs ≤ 8640000000000 := h
  exact number_of_le (by omega)

/-- A second count is dated exactly or not at all. -/
theorem isoSeconds_number (n : Int) :
    isoSeconds (number n) = if Datable n then some ⟨n * 1000⟩ else none := by
  by_cases h : Datable n
  · have hle : n.natAbs ≤ 8640000000000 := h
    have hms : (n * 1000).natAbs ≤ 8640000000000000 := by omega
    rw [if_pos h, isoSeconds, number_of_datable h, number_of_le (Nat.le_trans hms (by decide)),
      toISOString, if_pos hms]
  · have hlt : 8640000000000 < n.natAbs := Nat.not_le.mp h
    -- no rounding brings it back into range
    have hout : 8640000000000000 < (number (number n * 1000)).natAbs := by
      rw [natAbs_number, Int.natAbs_mul, natAbs_number]
      show _ < roundNat (roundNat n.natAbs * 1000)
      have hone : 8640000000000 < roundNat n.natAbs := by
        rcases Nat.le_total n.natAbs (2 ^ 53) with hle | hge
        · rwa [roundNat_of_le hle]
        · have := le_roundNat hge
          omega
      rcases Nat.le_total (roundNat n.natAbs * 1000) (2 ^ 53) with hle | hge
      · rw [roundNat_of_le hle]
        omega
      · have := le_roundNat hge
        omega
    rw [if_neg h, isoSeconds, toISOString, if_neg (Nat.not_le.mpr hout)]

/-! ## Text -/

/-- Within a sequence: the bytes still to come, the bounds of the next, the point so far. -/
structure Utf8State where
  needed : Nat
  lower : Nat
  upper : Nat
  point : Nat

/-- U+FFFD. -/
def replacement : Char := Char.ofNat 0xFFFD

/-- A byte between sequences. -/
def utf8First (b : Nat) : List Char × Option Utf8State :=
  if b ≤ 0x7F then ([Char.ofNat b], none)
  else if 0xC2 ≤ b ∧ b ≤ 0xDF then ([], some ⟨1, 0x80, 0xBF, b - 0xC0⟩)
  else if 0xE0 ≤ b ∧ b ≤ 0xEF then
    ([], some ⟨2, if b = 0xE0 then 0xA0 else 0x80, if b = 0xED then 0x9F else 0xBF, b - 0xE0⟩)
  else if 0xF0 ≤ b ∧ b ≤ 0xF4 then
    ([], some ⟨3, if b = 0xF0 then 0x90 else 0x80, if b = 0xF4 then 0x8F else 0xBF, b - 0xF0⟩)
  else ([replacement], none)

/-- One byte.  Where it does not continue the sequence it begins anew. -/
def utf8Next : Option Utf8State → Nat → List Char × Option Utf8State
  | none, b => utf8First b
  | some s, b =>
      if b < s.lower ∨ s.upper < b then
        (replacement :: (utf8First b).1, (utf8First b).2)
      else
        let point := s.point * 64 + (b - 0x80)
        if s.needed = 1 then ([Char.ofNat point], none)
        else ([], some ⟨s.needed - 1, 0x80, 0xBF, point⟩)

def utf8Chars : Option Utf8State → List UInt8 → List Char
  | none, [] => []
  | some _, [] => [replacement]
  | s, b :: bs => (utf8Next s b.toNat).1 ++ utf8Chars (utf8Next s b.toNat).2 bs

/-- `Buffer.from(bytes).toString('utf-8')`. -/
def decodeUtf8 (bs : List UInt8) : List Char := utf8Chars none bs

/-- `.replace(/\0/g, '')`. -/
def dropNuls (cs : List Char) : List Char := cs.filter (· ≠ Char.ofNat 0)

/-- White space and line terminators. -/
def isSpace (c : Char) : Bool :=
  c.toNat ∈ [0x09, 0x0A, 0x0B, 0x0C, 0x0D, 0x20, 0xA0, 0x1680, 0x2028, 0x2029, 0x202F, 0x205F,
    0x3000, 0xFEFF] || (0x2000 ≤ c.toNat && c.toNat ≤ 0x200A)

/-- `.trim()`. -/
def trim (cs : List Char) : List Char :=
  ((cs.dropWhile isSpace).reverse.dropWhile isSpace).reverse

end Js
