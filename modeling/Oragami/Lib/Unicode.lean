/-
# `Oragami.Lib.Unicode` — texts as code units, as characters and as bytes

A string of the language is a list of 16-bit code units.  Its characters are what the
units encode, a surrogate without its other half standing for U+FFFD; a string without
such is well formed, and is the encoding of its characters.

Characters are written to bytes as UTF-8 and read back by the decoder of `Lib.Js`.  The
whole of it reads back as it was (`decode_encode`).  Cut somewhere, what reads back is
the characters before the cut, and U+FFFD where it falls within one (`decode_within`).
-/
import Mathlib.Data.List.DropRight
import Oragami.Lib.Js

namespace Unicode

/-! ## Code units -/

def isHigh (u : UInt16) : Bool := 0xD800 ≤ u.toNat && u.toNat < 0xDC00

def isLow (u : UInt16) : Bool := 0xDC00 ≤ u.toNat && u.toNat < 0xE000

/-- A character by its surrogates. -/
def pair (u v : UInt16) : Char :=
  Char.ofNat (0x10000 + (u.toNat - 0xD800) * 0x400 + (v.toNat - 0xDC00))

/-- A unit on its own. -/
def single (u : UInt16) : Char :=
  if isHigh u || isLow u then Js.replacement else Char.ofNat u.toNat

/-- The characters of a string, as `Buffer.from` takes them. -/
def chars : List UInt16 → List Char
  | [] => []
  | [u] => [single u]
  | u :: v :: us =>
      if isHigh u && isLow v then pair u v :: chars us else single u :: chars (v :: us)

def unitsOf (c : Char) : List UInt16 :=
  if c.toNat < 0x10000 then [UInt16.ofNat c.toNat]
  else
    [UInt16.ofNat (0xD800 + (c.toNat - 0x10000) / 0x400),
      UInt16.ofNat (0xDC00 + (c.toNat - 0x10000) % 0x400)]

theorem length_unitsOf (c : Char) : (unitsOf c).length = if c.toNat < 0x10000 then 1 else 2 := by
  unfold unitsOf
  split <;> rfl

/-- The code units of characters. -/
def units (cs : List Char) : List UInt16 := cs.flatMap unitsOf

theorem units_append (cs ds : List Char) : units (cs ++ ds) = units cs ++ units ds :=
  List.flatMap_append

theorem units_singleton (c : Char) : units [c] = unitsOf c := List.flatMap_singleton _ _

/-- `.toWellFormed()`. -/
def toWellFormed (us : List UInt16) : List UInt16 := units (chars us)

/-- `.isWellFormed()`. -/
def WellFormed (us : List UInt16) : Prop := toWellFormed us = us

instance (us : List UInt16) : Decidable (WellFormed us) := inferInstanceAs (Decidable (_ = _))

theorem toNat_ofNat {n : Nat} (h : n.isValidChar) : (Char.ofNat n).toNat = n := by
  rw [Char.ofNat, dif_pos h]
  rfl

/-- A character is no surrogate. -/
theorem char_valid (c : Char) : c.toNat < 0xD800 ∨ 0xDFFF < c.toNat ∧ c.toNat < 0x110000 := c.valid

theorem single_ofNat {c : Char} (h : c.toNat < 0x10000) :
    single (UInt16.ofNat c.toNat) = c ∧ isHigh (UInt16.ofNat c.toNat) = false := by
  have hval : (UInt16.ofNat c.toNat).toNat = c.toNat := UInt16.toNat_ofNat_of_lt' h
  have hvalid := char_valid c
  have hhigh : isHigh (UInt16.ofNat c.toNat) = false := by
    simp only [isHigh, hval, Bool.and_eq_false_iff, decide_eq_false_iff_not]
    omega
  have hlow : isLow (UInt16.ofNat c.toNat) = false := by
    simp only [isLow, hval, Bool.and_eq_false_iff, decide_eq_false_iff_not]
    omega
  refine ⟨?_, hhigh⟩
  rw [single, hhigh, hlow, hval]
  exact Char.ofNat_toNat c

/-- Characters are read back from their units. -/
theorem chars_unitsOf (c : Char) (us : List UInt16) : chars (unitsOf c ++ us) = c :: chars us := by
  unfold unitsOf
  split
  · next hlt =>
      obtain ⟨hsingle, hhigh⟩ := single_ofNat hlt
      cases us with
      | nil =>
          show [single _] = _
          rw [hsingle, chars]
      | cons v us =>
          rw [List.singleton_append, chars, hhigh, Bool.false_and, hsingle]
          rfl
  · next hge =>
      have hvalid := char_valid c
      have hu : (UInt16.ofNat (0xD800 + (c.toNat - 0x10000) / 0x400)).toNat =
          0xD800 + (c.toNat - 0x10000) / 0x400 :=
        UInt16.toNat_ofNat_of_lt' (show _ < 0x10000 by omega)
      have hv : (UInt16.ofNat (0xDC00 + (c.toNat - 0x10000) % 0x400)).toNat =
          0xDC00 + (c.toNat - 0x10000) % 0x400 :=
        UInt16.toNat_ofNat_of_lt' (show _ < 0x10000 by omega)
      have hpair : isHigh (UInt16.ofNat (0xD800 + (c.toNat - 0x10000) / 0x400)) &&
          isLow (UInt16.ofNat (0xDC00 + (c.toNat - 0x10000) % 0x400)) := by
        simp only [isHigh, isLow, hu, hv, Bool.and_eq_true, decide_eq_true_eq]
        omega
      have hpoint : 0x10000 + (0xD800 + (c.toNat - 0x10000) / 0x400 - 0xD800) * 0x400 +
          (0xDC00 + (c.toNat - 0x10000) % 0x400 - 0xDC00) = c.toNat := by omega
      rw [List.cons_append, List.singleton_append, chars, if_pos hpair, pair, hu, hv, hpoint,
        Char.ofNat_toNat]

theorem chars_units (cs : List Char) : chars (units cs) = cs := by
  induction cs with
  | nil => rfl
  | cons c cs ih => rw [units, List.flatMap_cons, chars_unitsOf, ← units, ih]

theorem wellFormed_iff {us : List UInt16} : WellFormed us ↔ ∃ cs, us = units cs := by
  constructor
  · exact fun h => ⟨chars us, h.symm⟩
  · rintro ⟨cs, rfl⟩
    rw [WellFormed, toWellFormed, chars_units]

/-- A surrogate pair's point. -/
theorem toNat_pair {u v : UInt16} (h : (isHigh u && isLow v) = true) :
    (pair u v).toNat = 0x10000 + (u.toNat - 0xD800) * 0x400 + (v.toNat - 0xDC00) := by
  simp only [isHigh, isLow, Bool.and_eq_true, decide_eq_true_eq] at h
  refine toNat_ofNat (.inr ?_)
  omega

theorem toNat_single_lt (u : UInt16) : (single u).toNat < 0x10000 := by
  have hu := u.toNat_lt
  unfold single
  split
  · decide
  · next hnot =>
      simp only [isHigh, isLow, Bool.or_eq_true, Bool.and_eq_true, decide_eq_true_eq] at hnot
      rw [toNat_ofNat (by simp only [Nat.isValidChar]; omega)]
      omega

/-- A string and its well-formed version have the same length. -/
theorem length_toWellFormed (us : List UInt16) : (toWellFormed us).length = us.length := by
  unfold toWellFormed
  induction us using chars.induct with
  | case1 => rfl
  | case2 u => rw [chars, units, List.flatMap_singleton, unitsOf, if_pos (toNat_single_lt u)]; rfl
  | case3 u v us h ih =>
      have hge : ¬ (pair u v).toNat < 0x10000 := by
        rw [toNat_pair h]
        omega
      rw [chars, if_pos h, units, List.flatMap_cons, List.length_append, ← units, ih, unitsOf,
        if_neg hge]
      simp only [List.length_cons, List.length_nil]
      omega
  | case4 u v us h ih =>
      rw [chars, if_neg h, units, List.flatMap_cons, List.length_append, ← units, ih, unitsOf,
        if_pos (toNat_single_lt u)]
      simp only [List.length_cons, List.length_nil]
      omega

theorem single_ne_nul {u : UInt16} (h : u ≠ 0) : single u ≠ Char.ofNat 0 := by
  have hu := u.toNat_lt
  have hpos : u.toNat ≠ 0 := fun hz => h (UInt16.toNat_inj.mp hz)
  unfold single
  split
  · decide
  · next hnot =>
      simp only [isHigh, isLow, Bool.or_eq_true, Bool.and_eq_true, decide_eq_true_eq] at hnot
      intro heq
      have hval := congrArg Char.toNat heq
      rw [toNat_ofNat (by simp only [Nat.isValidChar]; omega)] at hval
      exact hpos hval

/-- A string without NUL has no NUL among its characters, -/
theorem nul_notMem_chars {us : List UInt16} (h : 0 ∉ us) : Char.ofNat 0 ∉ chars us := by
  induction us using chars.induct with
  | case1 => exact List.not_mem_nil
  | case2 u =>
      have hu : u ≠ 0 := fun hz => h (hz ▸ List.mem_cons_self)
      rw [chars, List.mem_singleton]
      exact (single_ne_nul hu).symm
  | case3 u v us hpair ih =>
      rw [chars, if_pos hpair, List.mem_cons, not_or]
      refine ⟨?_, ih fun hz => h (List.mem_cons_of_mem _ (List.mem_cons_of_mem _ hz))⟩
      intro heq
      have hval := congrArg Char.toNat heq
      rw [toNat_pair hpair] at hval
      exact absurd hval (by rw [toNat_ofNat (by decide)]; omega)
  | case4 u v us hpair ih =>
      have hu : u ≠ 0 := fun hz => h (hz ▸ List.mem_cons_self)
      rw [chars, if_neg hpair, List.mem_cons, not_or]
      exact ⟨(single_ne_nul hu).symm, ih fun hz => h (List.mem_cons_of_mem _ hz)⟩

/-- and the other way around. -/
theorem nul_notMem_units {cs : List Char} (h : Char.ofNat 0 ∉ cs) : 0 ∉ units cs := by
  rw [units, List.mem_flatMap]
  rintro ⟨c, hc, hzero⟩
  have hne : c.toNat ≠ 0 := by
    intro hz
    rw [← Char.ofNat_toNat c, hz] at hc
    exact h hc
  have hvalid := char_valid c
  unfold unitsOf at hzero
  split at hzero
  · have hval := congrArg UInt16.toNat (List.mem_singleton.mp hzero)
    rw [UInt16.toNat_ofNat_of_lt' (by assumption)] at hval
    exact hne hval.symm
  · rcases List.mem_pair.mp hzero with hzero | hzero
    · have hval := congrArg UInt16.toNat hzero
      rw [UInt16.toNat_ofNat_of_lt' (show _ < 0x10000 by omega), UInt16.toNat_zero] at hval
      omega
    · have hval := congrArg UInt16.toNat hzero
      rw [UInt16.toNat_ofNat_of_lt' (show _ < 0x10000 by omega), UInt16.toNat_zero] at hval
      omega

/-! ## Bytes -/

/-- The UTF-8 bytes of characters. -/
def encode (cs : List Char) : List UInt8 := cs.flatMap String.utf8EncodeChar

theorem encode_append (cs ds : List Char) : encode (cs ++ ds) = encode cs ++ encode ds :=
  List.flatMap_append

theorem encode_singleton (c : Char) : encode [c] = String.utf8EncodeChar c :=
  List.flatMap_singleton _ _

theorem encode_cons (c : Char) (cs : List Char) :
    encode (c :: cs) = String.utf8EncodeChar c ++ encode cs := List.flatMap_cons

/-- The bytes of a character by its point. -/
inductive Encoded (n : Nat) : List UInt8 → Prop
  | one : n < 0x80 → Encoded n [UInt8.ofNat n]
  | two : 0x80 ≤ n → n < 0x800 →
      Encoded n [UInt8.ofNat (0xC0 + n / 64), UInt8.ofNat (0x80 + n % 64)]
  | three : 0x800 ≤ n → n < 0x10000 → (n < 0xD800 ∨ 0xDFFF < n) →
      Encoded n [UInt8.ofNat (0xE0 + n / 4096), UInt8.ofNat (0x80 + n / 64 % 64),
        UInt8.ofNat (0x80 + n % 64)]
  | four : 0x10000 ≤ n → n < 0x110000 →
      Encoded n [UInt8.ofNat (0xF0 + n / 262144), UInt8.ofNat (0x80 + n / 4096 % 64),
        UInt8.ofNat (0x80 + n / 64 % 64), UInt8.ofNat (0x80 + n % 64)]

theorem encoded (c : Char) : Encoded c.toNat (String.utf8EncodeChar c) := by
  have hvalid := char_valid c
  have hval : c.val.toNat = c.toNat := rfl
  simp only [String.utf8EncodeChar, hval]
  split
  · exact .one (by omega)
  · split
    · rw [Nat.mod_eq_of_lt (show c.toNat / 64 < 0x20 by omega), Nat.add_comm _ 0xC0,
        Nat.add_comm _ 0x80]
      exact .two (by omega) (by omega)
    · split
      · rw [Nat.mod_eq_of_lt (show c.toNat / 4096 < 0x10 by omega), Nat.add_comm _ 0xE0,
          Nat.add_comm _ 0x80, Nat.add_comm _ 0x80]
        exact .three (by omega) (by omega) (by omega)
      · rw [Nat.mod_eq_of_lt (show c.toNat / 262144 < 8 by omega), Nat.add_comm _ 0xF0,
          Nat.add_comm _ 0x80, Nat.add_comm _ 0x80, Nat.add_comm _ 0x80]
        exact .four (by omega) (by omega)

theorem toNat_byte {n : Nat} (h : n < 256) : (UInt8.ofNat n).toNat = n := UInt8.toNat_ofNat_of_lt' h

/-! One byte of a character, to the decoder. -/

open Js

theorem first_two {n : Nat} (hlo : 0x80 ≤ n) (hhi : n < 0x800) :
    utf8First (0xC0 + n / 64) = ([], some ⟨1, 0x80, 0xBF, n / 64⟩) := by
  unfold utf8First
  rw [if_neg (by omega), if_pos (by omega), Nat.add_sub_cancel_left]

theorem first_three {n : Nat} (hhi : n < 0x10000) :
    utf8First (0xE0 + n / 4096) = ([], some ⟨2, if n / 4096 = 0 then 0xA0 else 0x80,
      if n / 4096 = 13 then 0x9F else 0xBF, n / 4096⟩) := by
  unfold utf8First
  rw [if_neg (by omega), if_neg (by omega), if_pos (by omega), Nat.add_sub_cancel_left]
  simp only [Nat.add_eq_left, show 0xE0 + n / 4096 = 0xED ↔ n / 4096 = 13 by omega]

theorem first_four {n : Nat} (hhi : n < 0x110000) :
    utf8First (0xF0 + n / 262144) = ([], some ⟨3, if n / 262144 = 0 then 0x90 else 0x80,
      if n / 262144 = 4 then 0x8F else 0xBF, n / 262144⟩) := by
  unfold utf8First
  rw [if_neg (by omega), if_neg (by omega), if_neg (by omega), if_pos (by omega),
    Nat.add_sub_cancel_left]
  simp only [Nat.add_eq_left, show 0xF0 + n / 262144 = 0xF4 ↔ n / 262144 = 4 by omega]

section Next

variable {lower upper point b : Nat}

/-- A byte within the bounds that is not the last. -/
theorem next_more (needed : Nat) (hlo : lower ≤ 0x80 + b) (hhi : 0x80 + b ≤ upper) :
    utf8Next (some ⟨needed + 2, lower, upper, point⟩) (0x80 + b) =
      ([], some ⟨needed + 1, 0x80, 0xBF, point * 64 + b⟩) := by
  simp only [utf8Next]
  rw [if_neg (by omega), if_neg (by omega), Nat.add_sub_cancel_left]
  rfl

/-- A byte within the bounds that is the last. -/
theorem next_last (hlo : lower ≤ 0x80 + b) (hhi : 0x80 + b ≤ upper) :
    utf8Next (some ⟨1, lower, upper, point⟩) (0x80 + b) =
      ([Char.ofNat (point * 64 + b)], none) := by
  simp only [utf8Next]
  rw [if_neg (by omega), if_pos trivial, Nat.add_sub_cancel_left]

end Next

/-- Bytes the decoder reads as one character, with nothing to say before the last. -/
inductive Reads (c : Char) : Option Utf8State → List UInt8 → Prop
  | last {s : Option Utf8State} {b : UInt8} : utf8Next s b.toNat = ([c], none) → Reads c s [b]
  | more {s : Option Utf8State} {b : UInt8} {bs : List UInt8} (s' : Utf8State) :
      utf8Next s b.toNat = ([], some s') → Reads c (some s') bs → Reads c s (b :: bs)

theorem reads_encoded {n : Nat} {bs : List UInt8} (h : Encoded n bs) :
    Reads (Char.ofNat n) none bs := by
  cases h with
  | one hlt =>
      refine .last ?_
      rw [toNat_byte (by omega), utf8Next, utf8First, if_pos (by omega)]
  | two hlo hhi =>
      have hpoint : n / 64 * 64 + n % 64 = n := by omega
      refine .more ⟨1, 0x80, 0xBF, n / 64⟩ ?_ (.last ?_)
      · rw [toNat_byte (by omega), utf8Next, first_two hlo hhi]
      · rw [toNat_byte (by omega), next_last (by omega) (by omega), hpoint]
  | three hlo hhi hsurrogate =>
      have hpoint : (n / 4096 * 64 + n / 64 % 64) * 64 + n % 64 = n := by omega
      refine .more ⟨2, if n / 4096 = 0 then 0xA0 else 0x80, if n / 4096 = 13 then 0x9F else 0xBF,
        n / 4096⟩ ?_ (.more ⟨1, 0x80, 0xBF, n / 4096 * 64 + n / 64 % 64⟩ ?_ (.last ?_))
      · rw [toNat_byte (by omega), utf8Next, first_three hhi]
      · rw [toNat_byte (by omega)]
        exact next_more 0 (by split <;> omega) (by split <;> omega)
      · rw [toNat_byte (by omega), next_last (by omega) (by omega), hpoint]
  | four hlo hhi =>
      have hpoint : ((n / 262144 * 64 + n / 4096 % 64) * 64 + n / 64 % 64) * 64 + n % 64 = n := by
        omega
      refine .more ⟨3, if n / 262144 = 0 then 0x90 else 0x80, if n / 262144 = 4 then 0x8F else 0xBF,
        n / 262144⟩ ?_ (.more ⟨2, 0x80, 0xBF, n / 262144 * 64 + n / 4096 % 64⟩ ?_
          (.more ⟨1, 0x80, 0xBF, (n / 262144 * 64 + n / 4096 % 64) * 64 + n / 64 % 64⟩ ?_
            (.last ?_)))
      · rw [toNat_byte (by omega), utf8Next, first_four hhi]
      · rw [toNat_byte (by omega)]
        exact next_more 1 (by split <;> omega) (by split <;> omega)
      · rw [toNat_byte (by omega)]
        exact next_more 0 (by omega) (by omega)
      · rw [toNat_byte (by omega), next_last (by omega) (by omega), hpoint]

theorem reads_encodeChar (c : Char) : Reads c none (String.utf8EncodeChar c) := by
  have h := reads_encoded (encoded c)
  rwa [Char.ofNat_toNat] at h

theorem Reads.chars {c : Char} {s : Option Utf8State} {bs : List UInt8} (h : Reads c s bs)
    (rest : List UInt8) : utf8Chars s (bs ++ rest) = c :: utf8Chars none rest := by
  induction h with
  | last hnext =>
      rw [List.singleton_append, utf8Chars, hnext]
      rfl
  | more _ hnext _ ih =>
      rw [List.cons_append, utf8Chars, hnext]
      exact ih

/-- Read in part, they stand for U+FFFD. -/
theorem Reads.cut {c : Char} {s : Option Utf8State} {bs : List UInt8} (h : Reads c s bs)
    {k : Nat} (hk : k < bs.length) (hbegun : s = none → 0 < k) :
    utf8Chars s (bs.take k) = [replacement] := by
  induction h generalizing k with
  | @last s b _ =>
      cases s with
      | none => exact absurd (hbegun rfl) (by simp only [List.length_singleton] at hk; omega)
      | some s =>
          have hzero : k = 0 := Nat.lt_one_iff.mp hk
          rw [hzero]
          rfl
  | @more s b bs s' hnext _ ih =>
      cases k with
      | zero =>
          cases s with
          | none => exact absurd (hbegun rfl) (Nat.lt_irrefl 0)
          | some s => rfl
      | succ k =>
          rw [List.take_succ_cons, utf8Chars, hnext]
          exact ih (Nat.lt_of_succ_lt_succ hk) nofun

/-- What was encoded is decoded. -/
theorem decode_encode_append (cs : List Char) (rest : List UInt8) :
    utf8Chars none (encode cs ++ rest) = cs ++ utf8Chars none rest := by
  induction cs with
  | nil => rfl
  | cons c cs ih =>
      rw [encode_cons, List.append_assoc, (reads_encodeChar c).chars, ih, List.cons_append]

theorem decode_encode (cs : List Char) : decodeUtf8 (encode cs) = cs := by
  have h := decode_encode_append cs []
  rwa [List.append_nil, utf8Chars, List.append_nil] at h

/-! ### Cut bytes -/

/-- Where the first bytes of characters end: between two, or within one. -/
inductive Cut (cs : List Char) : Nat → Prop
  | between {before after : List Char} : cs = before ++ after → Cut cs (encode before).length
  | within {before after : List Char} {c : Char} {k : Nat} : cs = before ++ c :: after → 0 < k →
      k < (String.utf8EncodeChar c).length → Cut cs ((encode before).length + k)

theorem Cut.cons {cs : List Char} {w : Nat} (h : Cut cs w) (c : Char) :
    Cut (c :: cs) ((String.utf8EncodeChar c).length + w) := by
  have hlen : ∀ ds, (encode (c :: ds)).length =
      (String.utf8EncodeChar c).length + (encode ds).length := by
    intro ds
    rw [encode_cons, List.length_append]
  cases h with
  | @between before after hcs =>
      rw [← hlen]
      exact .between (hcs ▸ List.cons_append.symm)
  | @within before after d k hcs hpos hlt =>
      rw [← Nat.add_assoc, ← hlen]
      exact .within (hcs ▸ List.cons_append.symm) hpos hlt

theorem cut {cs : List Char} {w : Nat} (h : w ≤ (encode cs).length) : Cut cs w := by
  induction cs generalizing w with
  | nil =>
      have hzero : w = 0 := Nat.le_zero.mp h
      rw [hzero]
      exact .between (show [] = [] ++ [] from rfl)
  | cons c cs ih =>
      rw [encode_cons, List.length_append] at h
      rcases Nat.lt_or_ge w (String.utf8EncodeChar c).length with hlt | hge
      · rcases Nat.eq_zero_or_pos w with rfl | hpos
        · exact .between (show c :: cs = [] ++ c :: cs from rfl)
        · have hin := Cut.within (show c :: cs = [] ++ c :: cs from rfl) hpos hlt
          rwa [show (encode []).length = 0 from rfl, Nat.zero_add] at hin
      · obtain ⟨v, rfl⟩ := Nat.exists_eq_add_of_le hge
        exact (ih (Nat.le_of_add_le_add_left h)).cons c

theorem take_between (before after : List Char) :
    (encode (before ++ after)).take (encode before).length = encode before := by
  rw [encode_append, List.take_left']
  rfl

theorem take_within (before after : List Char) {c : Char} {k : Nat}
    (hk : k ≤ (String.utf8EncodeChar c).length) :
    (encode (before ++ c :: after)).take ((encode before).length + k) =
      encode before ++ (String.utf8EncodeChar c).take k := by
  rw [encode_append, List.take_length_add_append, encode_cons, List.take_append_of_le_length hk]

/-- Characters cut within one read back as those before it and U+FFFD. -/
theorem decode_within (before : List Char) {c : Char} {k : Nat} (hpos : 0 < k)
    (hk : k < (String.utf8EncodeChar c).length) :
    decodeUtf8 (encode before ++ (String.utf8EncodeChar c).take k) = before ++ [replacement] := by
  rw [decodeUtf8, decode_encode_append, (reads_encodeChar c).cut hk fun _ => hpos]

/-! ### A character that differs in the last byte alone -/

def sibling (c : Char) : Char := Char.ofNat (if c.toNat % 2 = 0 then c.toNat + 1 else c.toNat - 1)

theorem toNat_sibling (c : Char) :
    (sibling c).toNat = if c.toNat % 2 = 0 then c.toNat + 1 else c.toNat - 1 := by
  have hvalid := char_valid c
  refine toNat_ofNat ?_
  simp only [Nat.isValidChar]
  split <;> omega

theorem sibling_ne (c : Char) : sibling c ≠ c := by
  intro heq
  have hval := congrArg Char.toNat heq
  rw [toNat_sibling] at hval
  split at hval <;> omega

theorem Encoded.sibling {n m : Nat} {bs cs : List UInt8} (h : Encoded n bs) (h' : Encoded m cs)
    (hn : 0x80 ≤ n) (hdiv : n / 64 = m / 64) :
    bs.length = cs.length ∧ ∀ k, k < bs.length → bs.take k = cs.take k := by
  have hthree : n / 4096 = m / 4096 := by omega
  have hfour : n / 262144 = m / 262144 := by omega
  have hinit : ∀ (init : List UInt8) (b b' : UInt8), (init ++ [b]).length = (init ++ [b']).length ∧
      ∀ k, k < (init ++ [b]).length → (init ++ [b]).take k = (init ++ [b']).take k := by
    intro init b b'
    rw [List.length_append, List.length_append]
    refine ⟨rfl, fun k hk => ?_⟩
    have hle : k ≤ init.length := Nat.lt_succ_iff.mp hk
    rw [List.take_append_of_le_length hle, List.take_append_of_le_length hle]
  cases h with
  | one hlt => omega
  | two hlo hhi =>
      cases h' with
      | two => rw [hdiv]; exact hinit [_] _ _
      | _ => omega
  | three hlo hhi _ =>
      cases h' with
      | three => rw [hdiv, hthree]; exact hinit [_, _] _ _
      | _ => omega
  | four hlo hhi =>
      cases h' with
      | four => rw [hdiv, hthree, hfour]; exact hinit [_, _, _] _ _
      | _ => omega

/-- It starts with the same bytes, -/
theorem encodeChar_sibling {c : Char} (h : 0x80 ≤ c.toNat) :
    (String.utf8EncodeChar c).length = (String.utf8EncodeChar (sibling c)).length ∧
      ∀ k, k < (String.utf8EncodeChar c).length →
        (String.utf8EncodeChar c).take k = (String.utf8EncodeChar (sibling c)).take k := by
  refine (encoded c).sibling (encoded (sibling c)) h ?_
  rw [toNat_sibling]
  split <;> omega

/-- and takes as many units. -/
theorem length_unitsOf_sibling (c : Char) :
    (unitsOf (sibling c)).length = (unitsOf c).length := by
  have hsame : (sibling c).toNat < 0x10000 ↔ c.toNat < 0x10000 := by
    rw [toNat_sibling]
    split <;> omega
  rw [length_unitsOf, length_unitsOf]
  simp only [hsame]

/-- A character of more than one byte is none of the first 128. -/
theorem le_toNat_of_length {c : Char} (h : 1 < (String.utf8EncodeChar c).length) :
    0x80 ≤ c.toNat := by
  have hc := encoded c
  generalize String.utf8EncodeChar c = bs at h hc
  cases hc with
  | one => exact absurd h (Nat.lt_irrefl 1)
  | _ => omega

/-! ### Padding -/

theorem Encoded.zero_notMem {n : Nat} {bs : List UInt8} (h : Encoded n bs) (hn : n ≠ 0) :
    0 ∉ bs := by
  have hbyte : ∀ {m : Nat}, m ≠ 0 → m < 256 → (0 : UInt8) ≠ UInt8.ofNat m := by
    intro m hne hlt heq
    have hval := congrArg UInt8.toNat heq
    rw [toNat_byte hlt] at hval
    exact hne hval.symm
  cases h with
  | one hlt =>
      rw [List.mem_singleton]
      exact hbyte hn (by omega)
  | two hlo hhi =>
      simp only [List.mem_cons, List.not_mem_nil, or_false, not_or]
      exact ⟨hbyte (by omega) (by omega), hbyte (by omega) (by omega)⟩
  | three hlo hhi _ =>
      simp only [List.mem_cons, List.not_mem_nil, or_false, not_or]
      exact ⟨hbyte (by omega) (by omega), hbyte (by omega) (by omega), hbyte (by omega) (by omega)⟩
  | four hlo hhi =>
      simp only [List.mem_cons, List.not_mem_nil, or_false, not_or]
      exact ⟨hbyte (by omega) (by omega), hbyte (by omega) (by omega), hbyte (by omega) (by omega),
        hbyte (by omega) (by omega)⟩

/-- Only NUL is written with a zero byte. -/
theorem zero_notMem_encode {cs : List Char} (h : Char.ofNat 0 ∉ cs) : 0 ∉ encode cs := by
  rw [encode, List.mem_flatMap]
  rintro ⟨c, hc, hzero⟩
  refine (encoded c).zero_notMem ?_ hzero
  intro hz
  rw [← Char.ofNat_toNat c, hz] at hc
  exact h hc

/-- Bytes without the zeros at their end. -/
def stripZeros (bs : List UInt8) : List UInt8 := bs.rdropWhile (· == 0)

theorem stripZeros_pad {bs : List UInt8} (h : 0 ∉ bs) (n : Nat) :
    stripZeros (bs ++ List.replicate n 0) = bs := by
  induction n with
  | zero =>
      rw [List.replicate_zero, List.append_nil, stripZeros, List.rdropWhile_eq_self_iff]
      intro hne hlast
      have hmem := List.getLast_mem hne
      rw [eq_of_beq hlast] at hmem
      exact h hmem
  | succ n ih =>
      rw [List.replicate_succ', ← List.append_assoc, stripZeros,
        List.rdropWhile_concat_pos _ _ _ (by rfl), ← stripZeros, ih]

end Unicode
