/-
# `Oragami.Backend.FixedWidth` — names and accounts in fields of fixed width

The request validators admit a text by its length in code units; the encoder cuts its
bytes at the same number.  A character of one unit takes up to three bytes, so what is
admitted need not fit: cut, it does not read back, and shares its bytes with another text
that is admitted too (`strToBytes_exact`).  Nor does a text with half a surrogate pair.
-/
import Oragami.Backend.Encoding
import Oragami.Lib.Unicode

namespace Backend

open Unicode

/-! ## `encoding.ts`, on strings as the language has them -/

/-- A string: its code units. -/
abbrev JsString := List UInt16

namespace JsString

/-- The bytes of a string at the width of a field: cut, or padded with zeros. -/
def strToBytes (w : Nat) (s : JsString) : Vector UInt8 w := copyInto w (utf8 (chars s))

def strToBytes64 (s : JsString) : Vector UInt8 64 := strToBytes 64 s

def strToBytes34 (s : JsString) : Vector UInt8 34 := strToBytes 34 s

/-- The field without its padding, as UTF-8. -/
def ofBytes {w : Nat} (v : Vector UInt8 w) : JsString := units (Js.decodeUtf8 (stripZeros v.toList))

/-- What the validators admit to a field, of the strings without NUL: `@MaxLength`. -/
def Admitted (w : Nat) (s : JsString) : Prop := 0 ∉ s ∧ s.length ≤ w

/-- Well formed, and no longer in bytes than the field. -/
def Fits (w : Nat) (s : JsString) : Prop := WellFormed s ∧ (utf8 (chars s)).length ≤ w

/-- Well formed and ending in U+FFFD, in which the field ends. -/
def EndsInCut (w : Nat) (s : JsString) : Prop :=
  WellFormed s ∧ (chars s).getLast? = some Js.replacement ∧
    w < (utf8 (chars s)).length ∧ (utf8 (chars s)).length ≤ w + 2

/-- The encoder of the characters of a string is this one. -/
theorem strToBytes64_units (s : String) :
    strToBytes64 (units s.toList) = Backend.strToBytes64 s := by
  rw [strToBytes64, strToBytes, chars_units, Backend.strToBytes64]

/-- The length the validators count. -/
theorem length_units (cs : List Char) : (units cs).length = utf16Length cs := by
  rw [units, List.length_flatMap, utf16Length]
  simp only [length_unitsOf]

section Field

variable {w : Nat}

theorem toList_copyInto (bs : List UInt8) :
    (copyInto w bs).toList = bs.take w ++ List.replicate (w - bs.length) 0 := by
  apply List.ext_getElem
  · simp only [Vector.length_toList, List.length_append, List.length_take, List.length_replicate]
    omega
  · intro i hi hi'
    rw [Vector.length_toList] at hi
    simp only [copyInto, Vector.getElem_toList, Vector.getElem_ofFn]
    rcases Nat.lt_or_ge i bs.length with hlt | hge
    · rw [List.getElem?_eq_getElem hlt, Option.getD_some, List.getElem_append_left]
      · rw [List.getElem_take]
      · rw [List.length_take]
        omega
    · rw [List.getElem?_eq_none hge, Option.getD_none, List.getElem_append_right]
      · rw [List.getElem_replicate]
      · rw [List.length_take]
        omega

/-- Bytes past the width make no difference. -/
theorem copyInto_congr {bs cs : List UInt8} (h : bs.take w = cs.take w) :
    copyInto w bs = copyInto w cs := by
  apply Vector.ext
  intro i hi
  simp only [copyInto, Vector.getElem_ofFn]
  rw [← List.getElem?_take_of_lt hi, h, List.getElem?_take_of_lt hi]

variable {s : JsString}

/-! ### Reading back -/

/-- `Buffer.from` encodes as the decoder reads. -/
theorem utf8_eq (cs : List Char) : utf8 cs = encode cs := rfl

/-- Padding aside, a field reads back as the bytes that were not cut. -/
theorem ofBytes_strToBytes (hs : 0 ∉ s) :
    ofBytes (strToBytes w s) = units (Js.decodeUtf8 ((encode (chars s)).take w)) := by
  have hzero : 0 ∉ (encode (chars s)).take w :=
    fun h => zero_notMem_encode (nul_notMem_chars hs) (List.mem_of_mem_take h)
  rw [ofBytes, strToBytes, toList_copyInto, utf8_eq, stripZeros_pad hzero]

/-- U+FFFD takes three bytes. -/
theorem length_of_getLast {cs : List Char} (h : cs.getLast? = some Js.replacement) :
    3 ≤ (encode cs).length := by
  obtain ⟨before, rfl⟩ := List.getLast?_eq_some_iff.mp h
  have hthree : (encode [Js.replacement]).length = 3 := by decide
  rw [encode_append, List.length_append]
  omega

/-- Cut between characters it does not read back. -/
theorem not_back_between {before : List Char}
    (hcut : (encode before).length < (encode (chars s)).length) : units before ≠ s := by
  intro hback
  have hbefore : chars s = before := by rw [← hback, chars_units]
  rw [hbefore] at hcut
  exact Nat.lt_irrefl _ hcut

theorem not_endsInCut_between {before after : List Char} (hs : chars s = before ++ after) :
    ¬ EndsInCut (encode before).length s := by
  rintro ⟨-, hlast, hcut, hle⟩
  rw [utf8_eq, hs, encode_append, List.length_append] at hcut hle
  have hafter : after ≠ [] := by
    rintro rfl
    exact Nat.lt_irrefl _ hcut
  rw [hs, List.getLast?_append_of_ne_nil _ hafter] at hlast
  have hthree := length_of_getLast hlast
  omega

/-- Cut within a character it reads back where that is a last U+FFFD. -/
theorem back_within_iff {before after : List Char} {c : Char} {k : Nat}
    (hs : chars s = before ++ c :: after) (hpos : 0 < k)
    (hk : k < (String.utf8EncodeChar c).length) :
    units (before ++ [Js.replacement]) = s ↔ EndsInCut ((encode before).length + k) s := by
  have hlen : (encode (chars s)).length =
      (encode before).length + ((String.utf8EncodeChar c).length + (encode after).length) := by
    rw [hs, encode_append, List.length_append, encode_cons, List.length_append]
  constructor
  · intro hback
    have hchars : chars s = before ++ [Js.replacement] := by rw [← hback, chars_units]
    obtain ⟨rfl, rfl⟩ := List.cons.inj (List.append_cancel_left (hs.symm.trans hchars))
    have hthree : (String.utf8EncodeChar Js.replacement).length = 3 := by decide
    refine ⟨wellFormed_iff.mpr ⟨_, hback.symm⟩, ?_, ?_, ?_⟩
    · rw [hchars, List.getLast?_concat]
    · rw [utf8_eq, hlen]
      omega
    · rw [utf8_eq, hlen, hthree]
      simp only [encode, List.flatMap_nil, List.length_nil]
      omega
  · rintro ⟨hwell, hlast, -, hle⟩
    rw [utf8_eq, hlen] at hle
    rw [hs] at hlast
    cases after with
    | nil =>
        rw [List.getLast?_concat] at hlast
        rw [← Option.some.inj hlast, ← hs]
        exact hwell
    | cons d after =>
        rw [List.getLast?_append_of_ne_nil _ (List.cons_ne_nil _ _),
          List.getLast?_cons_cons] at hlast
        have hthree := length_of_getLast hlast
        omega

/-- A string without NUL reads back exactly if it fits, or if it ends in the very character
that stands for the one it is cut in. -/
theorem ofBytes_strToBytes_iff (hs : 0 ∉ s) :
    ofBytes (strToBytes w s) = s ↔ Fits w s ∨ EndsInCut w s := by
  rw [ofBytes_strToBytes hs]
  rcases Nat.lt_or_ge w (encode (chars s)).length with hcut | hfit
  · have hnot : ¬ Fits w s := fun hfits => Nat.not_le.mpr hcut hfits.2
    rw [or_iff_right hnot]
    cases cut hcut.le with
    | between hsplit =>
        rw [hsplit, take_between, decode_encode]
        exact iff_of_false (not_back_between hcut) (not_endsInCut_between hsplit)
    | within hsplit hpos hk =>
        have hwithin := back_within_iff hsplit hpos hk
        rwa [hsplit, take_within _ _ hk.le, decode_within _ hpos hk]
  · have hnot : ¬ EndsInCut w s := fun hends => Nat.not_le.mpr hends.2.2.1 hfit
    rw [or_iff_left hnot, List.take_of_length_le hfit, decode_encode]
    exact (and_iff_left hfit).symm

/-! ### Shared bytes -/

/-- Where characters are cut within the last, another last one is cut to the same. -/
theorem same_take_within {before : List Char} {c : Char} (hnul : Char.ofNat 0 ∉ before)
    (hlt : (encode before).length < w) (hcut : w < (encode (before ++ [c])).length) :
    Char.ofNat 0 ∉ before ++ [sibling c] ∧
      (units (before ++ [sibling c])).length = (units (before ++ [c])).length ∧
      (encode (before ++ [sibling c])).take w = (encode (before ++ [c])).take w := by
  obtain ⟨k, rfl⟩ := Nat.exists_eq_add_of_lt hlt
  have hk : k + 1 < (String.utf8EncodeChar c).length := by
    rw [encode_append, List.length_append, encode_singleton] at hcut
    omega
  have hlong := le_toNat_of_length (c := c) (by omega)
  obtain ⟨hlen, htake⟩ := encodeChar_sibling hlong
  refine ⟨?_, ?_, ?_⟩
  · rw [List.mem_append, List.mem_singleton, not_or]
    refine ⟨hnul, fun heq => ?_⟩
    have hval := congrArg Char.toNat heq
    rw [toNat_sibling, toNat_ofNat (by decide)] at hval
    split at hval <;> omega
  · rw [units_append, List.length_append, units_append, List.length_append, units_singleton,
      units_singleton, length_unitsOf_sibling]
  · rw [Nat.add_assoc, take_within _ _ (hlen ▸ hk.le), take_within _ _ hk.le, htake _ hk]

/-- Characters that are cut share the bytes left with others, of no more units. -/
theorem exists_same_take {cs : List Char} (hnul : Char.ofNat 0 ∉ cs)
    (hcut : w < (encode cs).length) :
    ∃ ds, ds ≠ cs ∧ Char.ofNat 0 ∉ ds ∧ (units ds).length ≤ (units cs).length ∧
      (encode ds).take w = (encode cs).take w := by
  rcases List.eq_nil_or_concat cs with rfl | ⟨before, c, rfl⟩
  · exact absurd hcut (Nat.not_lt_zero w)
  rw [List.concat_eq_append] at *
  rcases Nat.lt_or_ge (encode before).length w with hlt | hge
  · -- the cut is within the last character: another one differs after it
    obtain ⟨hnul', hlen, htake⟩ :=
      same_take_within (fun h => hnul (List.mem_append_left _ h)) hlt hcut
    refine ⟨before ++ [sibling c], ?_, hnul', hlen.le, htake⟩
    intro heq
    exact sibling_ne c (List.singleton_inj.mp (List.append_cancel_left heq))
  · -- the cut is before the last character: it can be left out
    refine ⟨before, ?_, fun h => hnul (List.mem_append_left _ h), ?_, ?_⟩
    · exact fun heq => List.cons_ne_nil c [] (List.self_eq_append_right.mp heq)
    · rw [units_append, List.length_append]
      exact Nat.le_add_right _ _
    · rw [encode_append, List.take_append_of_le_length hge]

/-- What is admitted and does not fit has the bytes of another string that is admitted. -/
theorem exists_same_bytes (hs : Admitted w s) (hfits : ¬ Fits w s) :
    ∃ s', s' ≠ s ∧ Admitted w s' ∧ strToBytes w s' = strToBytes w s := by
  obtain ⟨hnul, hlen⟩ := hs
  have hchars := nul_notMem_chars hnul
  by_cases hwell : WellFormed s
  · have hcut : w < (encode (chars s)).length := Nat.lt_of_not_le fun hle => hfits ⟨hwell, hle⟩
    obtain ⟨ds, hne, hds, hle, htake⟩ := exists_same_take hchars hcut
    refine ⟨units ds, ?_, ⟨nul_notMem_units hds, ?_⟩, ?_⟩
    · rintro rfl
      exact hne (chars_units ds).symm
    · rw [← toWellFormed, length_toWellFormed] at hle
      exact hle.trans hlen
    · rw [strToBytes, chars_units]
      exact copyInto_congr htake
  · -- half a pair and what it stands for are written alike
    refine ⟨toWellFormed s, hwell, ⟨nul_notMem_units hchars, ?_⟩, ?_⟩
    · rwa [length_toWellFormed]
    · rw [strToBytes, toWellFormed, chars_units]
      rfl

end Field

/-! ## The fields -/

/-- What an encoder to a field of a width keeps of a string. -/
structure Keeps (w : Nat) (encoder : JsString → Vector UInt8 w) (s : JsString) : Prop where
  /-- It reads back exactly if it fits, or ends in the U+FFFD it is cut in. -/
  back : ofBytes (encoder s) = s ↔ Fits w s ∨ EndsInCut w s
  /-- If so, its bytes tell it from every other string of which that holds. -/
  apart {s' : JsString} : 0 ∉ s' → (Fits w s ∨ EndsInCut w s) → (Fits w s' ∨ EndsInCut w s') →
    encoder s = encoder s' → s = s'
  /-- If it is admitted and does not fit, another string admitted has its bytes. -/
  shared : Admitted w s → ¬ Fits w s → ∃ s', s' ≠ s ∧ Admitted w s' ∧ encoder s' = encoder s

theorem keeps (w : Nat) {s : JsString} (hs : 0 ∉ s) : Keeps w (strToBytes w) s where
  back := ofBytes_strToBytes_iff hs
  apart := by
    intro s' hs' hback hback' heq
    rw [← (ofBytes_strToBytes_iff hs).mpr hback, heq, (ofBytes_strToBytes_iff hs').mpr hback']
  shared := exists_same_bytes

/-- What the fields of the programs keep of a name or an account. -/
theorem strToBytes_exact {s : JsString} (hs : 0 ∉ s) :
    Keeps 64 strToBytes64 s ∧ Keeps 34 strToBytes34 s :=
  ⟨keeps 64 hs, keeps 34 hs⟩

/-- A name of `n` times `é`, one unit and two bytes each. -/
def accented (n : Nat) : JsString := List.replicate n 0xE9

/-- Thirty-two times fits a name, and the account only half of it. -/
theorem strToBytes_exact_accented :
    ofBytes (strToBytes64 (accented 32)) = accented 32 ∧
      ∃ s, s ≠ accented 32 ∧ Admitted 34 s ∧ strToBytes34 s = strToBytes34 (accented 32) := by
  obtain ⟨hname, haccount⟩ := strToBytes_exact (show 0 ∉ accented 32 by decide +kernel)
  refine ⟨hname.back.mpr (.inl ?_), haccount.shared ?_ ?_⟩
  · unfold Fits
    decide +kernel
  · unfold Admitted
    decide +kernel
  · unfold Fits
    decide +kernel

/-- As long as admitted, they read back as half of it, and as another name does. -/
theorem accented_cut :
    (Admitted 64 (accented 64) ∧ ofBytes (strToBytes64 (accented 64)) = accented 32 ∧
      Admitted 64 (accented 33) ∧ strToBytes64 (accented 33) = strToBytes64 (accented 64)) ∧
    (Admitted 34 (accented 34) ∧ ofBytes (strToBytes34 (accented 34)) = accented 17 ∧
      Admitted 34 (accented 18) ∧ strToBytes34 (accented 18) = strToBytes34 (accented 34)) ∧
    accented 64 ≠ accented 32 ∧ accented 33 ≠ accented 64 ∧ accented 34 ≠ accented 17 ∧
      accented 18 ≠ accented 34 := by
  unfold Admitted
  decide +kernel

end JsString

end Backend
