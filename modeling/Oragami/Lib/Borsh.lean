/-
# `Oragami.Lib.Borsh` — fixed layouts of account data

A layout reads a value off the front of a stream and leaves the rest:
`decode (encode a ++ rest) = some (a, rest)`, the law of the class.  Records are
laid out as the tuple of their fields (`Borsh.via`), so two record types with the
same fields in the same order have the same bytes, and each reads what the other
wrote.

A stream is a list of cells: a byte, or the 32 bytes of a key, which is never
looked into.  An account begins with the eight bytes its type is named by.
-/
import Mathlib.Algebra.GroupWithZero.Nat
import Mathlib.Algebra.Ring.Int.Defs
import Mathlib.Tactic.Common

/-- A byte, or the bytes of a key. -/
inductive Cell (K : Type) where
  | byte (b : UInt8)
  | key (k : K)
deriving DecidableEq

/-- The bytes a cell takes. -/
def Cell.width {K : Type} : Cell K → Nat
  | .byte _ => 1
  | .key _ => 32

/-- A layout of `α` in cells over `K`. -/
class Borsh (K α : Type) where
  encode : α → List (Cell K)
  decode : List (Cell K) → Option (α × List (Cell K))
  decode_encode : ∀ a rest, decode (encode a ++ rest) = some (a, rest)

namespace Borsh

variable {K α β : Type}

/-! ## Bytes -/

/-- The `w` low bytes of a number, least significant first. -/
def leBytes : Nat → Nat → List (Cell K)
  | 0, _ => []
  | w + 1, n => .byte (UInt8.ofNat n) :: leBytes w (n / 256)

def readLe : Nat → List (Cell K) → Option (Nat × List (Cell K))
  | 0, cs => some (0, cs)
  | w + 1, .byte b :: cs => (readLe w cs).map fun (n, rest) => (b.toNat + 256 * n, rest)
  | _ + 1, _ => none

theorem readLe_leBytes {w n : Nat} (h : n < 256 ^ w) (rest : List (Cell K)) :
    readLe w (leBytes w n ++ rest) = some (n, rest) := by
  induction w generalizing n with
  | zero =>
      rw [Nat.pow_zero, Nat.lt_one_iff] at h
      rw [h]
      rfl
  | succ w ih =>
      have hdiv : n / 256 < 256 ^ w := by
        rw [Nat.pow_succ] at h
        exact Nat.div_lt_of_lt_mul (by omega)
      show (readLe w (leBytes w (n / 256) ++ rest)).map _ = _
      rw [ih hdiv, Option.map_some]
      have hbyte : (UInt8.ofNat n).toNat = n % 256 := UInt8.toNat_ofNat'
      show some ((UInt8.ofNat n).toNat + 256 * (n / 256), rest) = _
      rw [hbyte, Nat.mod_add_div]

def readBytes : (n : Nat) → List (Cell K) →
    Option ({ bs : List UInt8 // bs.length = n } × List (Cell K))
  | 0, cs => some (⟨[], rfl⟩, cs)
  | n + 1, .byte b :: cs =>
      (readBytes n cs).map fun (bs, rest) => (⟨b :: bs.1, congrArg Nat.succ bs.2⟩, rest)
  | _ + 1, _ => none

theorem readBytes_map (bs : List UInt8) (rest : List (Cell K)) :
    readBytes bs.length (bs.map .byte ++ rest) = some (⟨bs, rfl⟩, rest) := by
  induction bs with
  | nil => rfl
  | cons b bs ih =>
      show (readBytes bs.length (bs.map .byte ++ rest)).map _ = _
      rw [ih]
      rfl

/-! ## Layouts -/

instance : Borsh K UInt8 where
  encode b := [.byte b]
  decode
    | .byte b :: rest => some (b, rest)
    | _ => none
  decode_encode _ _ := rfl

instance : Borsh K K where
  encode k := [.key k]
  decode
    | .key k :: rest => some (k, rest)
    | _ => none
  decode_encode _ _ := rfl

instance : Borsh K Bool where
  encode b := [.byte (if b then 1 else 0)]
  decode
    | .byte 0 :: rest => some (false, rest)
    | .byte 1 :: rest => some (true, rest)
    | _ => none
  decode_encode b _ := by cases b <;> rfl

instance : Borsh K UInt64 where
  encode x := leBytes 8 x.toNat
  decode cs := (readLe 8 cs).map fun (n, rest) => (UInt64.ofNat n, rest)
  decode_encode x rest := by
    rw [readLe_leBytes x.toNat_lt, Option.map_some]
    show some (UInt64.ofNat x.toNat, rest) = _
    rw [UInt64.ofNat_toNat]

instance : Borsh K UInt16 where
  encode x := leBytes 2 x.toNat
  decode cs := (readLe 2 cs).map fun (n, rest) => (UInt16.ofNat n, rest)
  decode_encode x rest := by
    rw [readLe_leBytes x.toNat_lt, Option.map_some]
    show some (UInt16.ofNat x.toNat, rest) = _
    rw [UInt16.ofNat_toNat]

def toVector {n : Nat} (bs : { bs : List UInt8 // bs.length = n }) : Vector UInt8 n :=
  ⟨bs.1.toArray, by rw [List.size_toArray, bs.2]⟩

instance {n : Nat} : Borsh K (Vector UInt8 n) where
  encode v := v.toList.map .byte
  decode cs := (readBytes n cs).map fun (bs, rest) => (toVector bs, rest)
  decode_encode v rest := by
    obtain ⟨⟨bs⟩, rfl⟩ := v
    show (readBytes bs.length (bs.map .byte ++ rest)).map _ = _
    rw [readBytes_map]
    rfl

/-- A record laid out as the tuple of its fields. -/
@[reducible] def via [Borsh K β] (f : α → β) (g : β → α) (h : ∀ a, g (f a) = a) : Borsh K α where
  encode a := encode (f a)
  decode cs := (decode cs).map fun (b, rest) => (g b, rest)
  decode_encode a rest := by
    rw [decode_encode, Option.map_some]
    show some (g (f a), rest) = _
    rw [h]

instance : Borsh K Int64 :=
  via Int64.toUInt64 UInt64.toInt64 Int64.toInt64_toUInt64

instance [Borsh K α] [Borsh K β] : Borsh K (α × β) where
  encode p := encode p.1 ++ encode p.2
  decode cs :=
    (decode cs).bind fun (a, cs) => (decode cs).map fun (b, rest) => ((a, b), rest)
  decode_encode p rest := by
    rw [List.append_assoc, decode_encode, Option.bind_some]
    show (decode (encode p.2 ++ rest)).map _ = _
    rw [decode_encode]
    rfl

instance [Borsh K α] : Borsh K (Option α) where
  encode
    | none => [.byte 0]
    | some a => .byte 1 :: encode a
  decode
    | .byte 0 :: rest => some (none, rest)
    | .byte 1 :: cs => (decode cs).map fun (a, rest) => (some a, rest)
    | _ => none
  decode_encode o rest := by
    cases o with
    | none => rfl
    | some a =>
        show (decode (encode a ++ rest)).map _ = _
        rw [decode_encode]
        rfl

/-! ## Integers found among bytes -/

/-- The number bytes are, least significant first. -/
def leNat : List UInt8 → Nat
  | [] => 0
  | b :: bs => b.toNat + 256 * leNat bs

theorem leNat_lt (bs : List UInt8) : leNat bs < 256 ^ bs.length := by
  induction bs with
  | nil => exact Nat.one_pos
  | cons b bs ih =>
      have hb : b.toNat < 256 := b.toNat_lt
      show b.toNat + 256 * leNat bs < 256 ^ (bs.length + 1)
      rw [Nat.pow_succ]
      omega

theorem leBytes_leNat (bs : List UInt8) :
    (leBytes bs.length (leNat bs) : List (Cell K)) = bs.map .byte := by
  induction bs with
  | nil => rfl
  | cons b bs ih =>
      have hb : b.toNat < 256 := b.toNat_lt
      have hlow : UInt8.ofNat (b.toNat + 256 * leNat bs) = b := by
        apply UInt8.toNat_inj.mp
        rw [UInt8.toNat_ofNat']
        omega
      have hhigh : (b.toNat + 256 * leNat bs) / 256 = leNat bs := by omega
      show .byte (UInt8.ofNat (b.toNat + 256 * leNat bs)) ::
        leBytes bs.length ((b.toNat + 256 * leNat bs) / 256) = _
      rw [hlow, hhigh, ih]
      rfl

/-- The signed integer eight bytes are. -/
def leInt64 (bs : List UInt8) : Int64 := (UInt64.ofNat (leNat bs)).toInt64

theorem encode_leInt64 {bs : List UInt8} (h : bs.length = 8) :
    (encode (leInt64 bs) : List (Cell K)) = bs.map .byte := by
  have hlt : leNat bs < 2 ^ 64 := by
    have hlt := leNat_lt bs
    rwa [h] at hlt
  show leBytes 8 (leInt64 bs).toUInt64.toNat = _
  rw [leInt64, UInt64.toUInt64_toInt64, UInt64.toNat_ofNat_of_lt' hlt, ← h, leBytes_leNat]

/-! ## Vectors -/

/-- A vector: how many, in four bytes, then one after the other. -/
def encodeVec [Borsh K α] (as : List α) : List (Cell K) :=
  leBytes 4 as.length ++ as.flatMap encode

def decodeMany [Borsh K α] : Nat → List (Cell K) → Option (List α × List (Cell K))
  | 0, cs => some ([], cs)
  | n + 1, cs =>
      (decode cs : Option (α × List (Cell K))).bind fun (a, cs) =>
        (decodeMany n cs).map fun (as, rest) => (a :: as, rest)

def decodeVec [Borsh K α] (cs : List (Cell K)) : Option (List α × List (Cell K)) :=
  (readLe 4 cs).bind fun (n, cs) => decodeMany n cs

theorem decodeMany_flatMap [Borsh K α] (as : List α) (rest : List (Cell K)) :
    decodeMany as.length (as.flatMap encode ++ rest) = some (as, rest) := by
  induction as with
  | nil => rfl
  | cons a as ih =>
      rw [List.flatMap_cons, List.append_assoc]
      show (decode (encode a ++ (as.flatMap encode ++ rest))).bind _ = _
      rw [decode_encode, Option.bind_some]
      show (decodeMany as.length (as.flatMap encode ++ rest)).map _ = _
      rw [ih]
      rfl

/-- A vector is read back as long as its length fits. -/
theorem decodeVec_encodeVec [Borsh K α] {as : List α} (h : as.length < 256 ^ 4)
    (rest : List (Cell K)) : decodeVec (encodeVec as ++ rest) = some (as, rest) := by
  rw [decodeVec, encodeVec, List.append_assoc, readLe_leBytes h]
  exact decodeMany_flatMap as rest

/-! ## Widths -/

/-- The bytes a stream takes. -/
def width (cs : List (Cell K)) : Nat := (cs.map Cell.width).sum

theorem width_append (cs ds : List (Cell K)) : width (cs ++ ds) = width cs + width ds := by
  unfold width
  rw [List.map_append, List.sum_append]

theorem width_leBytes (w n : Nat) : width (leBytes w n : List (Cell K)) = w := by
  induction w generalizing n with
  | zero => rfl
  | succ w ih =>
      show 1 + width (leBytes w (n / 256)) = w + 1
      rw [ih, Nat.add_comm]

@[simp] theorem width_encode_byte (b : UInt8) : width (encode b : List (Cell K)) = 1 := rfl

@[simp] theorem width_encode_key (k : K) : width (encode k : List (Cell K)) = 32 := rfl

@[simp] theorem width_encode_uint16 (x : UInt16) : width (encode x : List (Cell K)) = 2 :=
  width_leBytes 2 x.toNat

@[simp] theorem width_encode_int64 (x : Int64) : width (encode x : List (Cell K)) = 8 :=
  width_leBytes 8 x.toUInt64.toNat

@[simp] theorem width_encode_vector {n : Nat} (v : Vector UInt8 n) :
    width (encode v : List (Cell K)) = n := by
  have hbytes : ∀ bs : List UInt8, width (bs.map .byte : List (Cell K)) = bs.length := by
    intro bs
    induction bs with
    | nil => rfl
    | cons b bs ih =>
        show 1 + width (bs.map .byte : List (Cell K)) = bs.length + 1
        rw [ih, Nat.add_comm]
  exact (hbytes v.toList).trans Vector.length_toList

@[simp] theorem width_encode_pair [Borsh K α] [Borsh K β] (p : α × β) :
    width (encode p : List (Cell K)) =
      width (encode p.1 : List (Cell K)) + width (encode p.2 : List (Cell K)) :=
  width_append ..

/-- A vector is four bytes and its elements wide. -/
theorem width_encodeVec [Borsh K α] {as : List α} {w : Nat}
    (h : ∀ a : α, width (encode a : List (Cell K)) = w) :
    width (encodeVec as : List (Cell K)) = 4 + as.length * w := by
  have elements : width (as.flatMap encode : List (Cell K)) = as.length * w := by
    induction as with
    | nil => exact (Nat.zero_mul w).symm
    | cons a as ih =>
        rw [List.flatMap_cons, width_append, h, ih, List.length_cons, Nat.succ_mul, Nat.add_comm]
  rw [encodeVec, width_append, width_leBytes, elements]

/-! ## Accounts -/

/-- The data of an account: the name of its type, then its fields. -/
def serialize [Borsh K α] (discriminator : Vector UInt8 8) (a : α) : List (Cell K) :=
  encode discriminator ++ encode a

/-- Read an account back, if its type has the name expected. -/
def tryDeserialize [Borsh K α] (discriminator : Vector UInt8 8) (data : List (Cell K)) :
    Option α := do
  let (d, cs) ← (decode data : Option (Vector UInt8 8 × List (Cell K)))
  if d = discriminator then (decode cs).map (·.1) else none

/-- What one record type wrote, another of the same fields reads. -/
theorem tryDeserialize_serialize [Borsh K α] [Borsh K β] {d : Vector UInt8 8} {a : α} {b : β}
    (h : (encode a : List (Cell K)) = encode b) :
    tryDeserialize (K := K) d (serialize d a) = some b := by
  unfold tryDeserialize serialize
  rw [decode_encode, h]
  show (if d = d then (decode (encode b)).map (·.1) else none) = some b
  have hb := decode_encode (K := K) b []
  rw [List.append_nil] at hb
  rw [if_pos rfl, hb]
  rfl

end Borsh
