/-
# `Oragami.Lib.Bytes` — layouts down to the byte

`Oragami.Lib.Borsh` reads cells, in which a key is whole.  An account holds bytes,
and nothing in them says where a key begins: a reader cuts them by the kinds of the
cells it expects (`cut`).

A layout is `Strict` when it reads only what it writes, and `Canonical` when also
all its values have cells of the same kinds.  Reading bytes is then inverse to
writing them on both sides (`tryDeserializeBytes_accountBytes`,
`accountBytes_of_tryDeserializeBytes`).
-/
import Oragami.Lib.Borsh

/-- What a cell is. -/
inductive CellKind where
  | byte
  | key

def Cell.kind {K : Type} : Cell K → CellKind
  | .byte _ => .byte
  | .key _ => .key

/-- Keys are any 32 bytes. -/
class KeyBytes (K : Type) where
  toBytes : K → Vector UInt8 32
  ofBytes : Vector UInt8 32 → K
  ofBytes_toBytes : ∀ k, ofBytes (toBytes k) = k
  toBytes_ofBytes : ∀ bs, toBytes (ofBytes bs) = bs

instance : KeyBytes (Vector UInt8 32) := ⟨id, id, fun _ => rfl, fun _ => rfl⟩

namespace Borsh

variable {K α β : Type}

/-! ## Cutting bytes into cells -/

section Cut

variable [KeyBytes K]

/-- The bytes of a stream. -/
def bytes : List (Cell K) → List UInt8
  | [] => []
  | .byte b :: cs => b :: bytes cs
  | .key k :: cs => (KeyBytes.toBytes k).toList ++ bytes cs

/-- Cut a key off the front. -/
def takeKey (bs : List UInt8) : Option (K × List UInt8) :=
  if h : 32 ≤ bs.length then
    some (KeyBytes.ofBytes ⟨(bs.take 32).toArray, by simp [h]⟩, bs.drop 32)
  else none

/-- Cut cells of the given kinds off the front. -/
def cut : List CellKind → List UInt8 → Option (List (Cell K) × List UInt8)
  | [], bs => some ([], bs)
  | .byte :: _, [] => none
  | .byte :: ks, b :: bs => (cut ks bs).map fun (cs, rest) => (.byte b :: cs, rest)
  | .key :: ks, bs =>
      (takeKey bs).bind fun (k, bs) => (cut ks bs).map fun (cs, rest) => (.key k :: cs, rest)

theorem length_bytes (cs : List (Cell K)) : (bytes cs).length = width cs := by
  induction cs with
  | nil => rfl
  | cons c cs ih =>
      cases c with
      | byte b =>
          show (bytes cs).length + 1 = 1 + width cs
          rw [ih, Nat.add_comm]
      | key k =>
          show ((KeyBytes.toBytes k).toList ++ bytes cs).length = 32 + width cs
          rw [List.length_append, Vector.length_toList, ih]

theorem takeKey_toBytes (k : K) (rest : List UInt8) :
    takeKey ((KeyBytes.toBytes k).toList ++ rest) = some (k, rest) := by
  have hlen : (KeyBytes.toBytes k).toList.length = 32 := Vector.length_toList
  have hle : 32 ≤ ((KeyBytes.toBytes k).toList ++ rest).length := by
    rw [List.length_append, hlen]
    exact Nat.le_add_right ..
  have htake : ((KeyBytes.toBytes k).toList ++ rest).take 32 = (KeyBytes.toBytes k).toList :=
    List.take_left' hlen
  have hdrop : ((KeyBytes.toBytes k).toList ++ rest).drop 32 = rest := List.drop_left' hlen
  unfold takeKey
  rw [dif_pos hle, hdrop]
  congr 2
  refine Eq.trans (congrArg KeyBytes.ofBytes ?_) (KeyBytes.ofBytes_toBytes k)
  rw [Vector.mk_eq, htake]
  rfl

theorem of_takeKey {bs rest : List UInt8} {k : K} (h : takeKey bs = some (k, rest)) :
    bs = (KeyBytes.toBytes k).toList ++ rest := by
  unfold takeKey at h
  split at h
  · cases h
    rw [KeyBytes.toBytes_ofBytes]
    exact (List.take_append_drop 32 bs).symm
  · cases h

/-- The bytes of a stream are cut back into it, -/
theorem cut_bytes (cs : List (Cell K)) (rest : List UInt8) :
    cut (cs.map Cell.kind) (bytes cs ++ rest) = some (cs, rest) := by
  induction cs with
  | nil => rfl
  | cons c cs ih =>
      cases c with
      | byte b =>
          show (cut (cs.map Cell.kind) (bytes cs ++ rest)).map _ = _
          rw [ih]
          rfl
      | key k =>
          show (takeKey ((KeyBytes.toBytes k).toList ++ bytes cs ++ rest)).bind _ = _
          rw [List.append_assoc, takeKey_toBytes, Option.bind_some]
          show (cut (cs.map Cell.kind) (bytes cs ++ rest)).map _ = _
          rw [ih]
          rfl

/-- and what was cut has the kinds asked for and the bytes it was cut from. -/
theorem of_cut {ks : List CellKind} {bs rest : List UInt8} {cs : List (Cell K)}
    (h : cut ks bs = some (cs, rest)) : cs.map Cell.kind = ks ∧ bs = bytes cs ++ rest := by
  induction ks generalizing bs cs with
  | nil =>
      cases h
      exact ⟨rfl, rfl⟩
  | cons kd ks ih =>
      cases kd with
      | byte =>
          cases bs with
          | nil => cases h
          | cons b bs =>
              obtain ⟨⟨cs', rest'⟩, hcut, heq⟩ := Option.map_eq_some_iff.mp h
              cases heq
              obtain ⟨hkinds, hbytes⟩ := ih hcut
              exact ⟨congrArg (CellKind.byte :: ·) hkinds, congrArg (b :: ·) hbytes⟩
      | key =>
          obtain ⟨⟨k, bs'⟩, hk, hrest⟩ := Option.bind_eq_some_iff.mp h
          obtain ⟨⟨cs', rest'⟩, hcut, heq⟩ := Option.map_eq_some_iff.mp hrest
          cases heq
          obtain ⟨hkinds, hbytes⟩ := ih hcut
          refine ⟨congrArg (CellKind.key :: ·) hkinds, ?_⟩
          rw [of_takeKey hk, hbytes]
          exact (List.append_assoc ..).symm

end Cut

/-! ## Strict and canonical layouts -/

/-- A layout that reads only what it writes. -/
class Strict (K α : Type) [Borsh K α] : Prop where
  encode_of_decode : ∀ {cs rest : List (Cell K)} {a : α},
    decode cs = some (a, rest) → cs = encode a ++ rest

export Strict (encode_of_decode)

/-- A strict layout of cells of fixed kinds. -/
class Canonical (K α : Type) [Borsh K α] extends Strict K α where
  kinds : List CellKind
  kinds_encode : ∀ a : α, (encode a : List (Cell K)).map Cell.kind = kinds

export Canonical (kinds kinds_encode)

theorem kinds_leBytes (w n : Nat) :
    (leBytes w n : List (Cell K)).map Cell.kind = .replicate w .byte := by
  induction w generalizing n with
  | zero => rfl
  | succ w ih => exact congrArg (CellKind.byte :: ·) (ih (n / 256))

/-- A number is read off bytes it is the number of. -/
theorem of_readLe {w n : Nat} {cs rest : List (Cell K)} (h : readLe w cs = some (n, rest)) :
    ∃ bs : List UInt8, bs.length = w ∧ n = leNat bs ∧ cs = bs.map .byte ++ rest := by
  induction w generalizing cs n with
  | zero =>
      cases h
      exact ⟨[], rfl, rfl, rfl⟩
  | succ w ih =>
      rcases cs with _ | ⟨b | k, cs⟩
      · cases h
      · obtain ⟨⟨m, rest'⟩, hread, heq⟩ := Option.map_eq_some_iff.mp h
        cases heq
        obtain ⟨bs, rfl, rfl, rfl⟩ := ih hread
        exact ⟨b :: bs, rfl, rfl, rfl⟩
      · cases h

theorem leBytes_of_readLe {w n : Nat} {cs rest : List (Cell K)}
    (h : readLe w cs = some (n, rest)) : n < 256 ^ w ∧ cs = leBytes w n ++ rest := by
  obtain ⟨bs, rfl, rfl, rfl⟩ := of_readLe h
  exact ⟨leNat_lt bs, by rw [leBytes_leNat]⟩

theorem map_of_readBytes {n : Nat} {cs rest : List (Cell K)}
    {bs : { bs : List UInt8 // bs.length = n }} (h : readBytes n cs = some (bs, rest)) :
    cs = bs.1.map .byte ++ rest := by
  induction n generalizing cs with
  | zero =>
      cases h
      rfl
  | succ n ih =>
      rcases cs with _ | ⟨b | k, cs⟩
      · cases h
      · obtain ⟨⟨bs', rest'⟩, hread, heq⟩ := Option.map_eq_some_iff.mp h
        cases heq
        exact congrArg (Cell.byte b :: ·) (ih hread)
      · cases h

instance : Canonical K UInt8 where
  kinds := [.byte]
  kinds_encode _ := rfl
  encode_of_decode {cs _ _} h := by
    rcases cs with _ | ⟨b | k, cs⟩
    · cases h
    · cases h
      rfl
    · cases h

instance : Canonical K K where
  kinds := [.key]
  kinds_encode _ := rfl
  encode_of_decode {cs _ _} h := by
    rcases cs with _ | ⟨b | k, cs⟩
    · cases h
    · cases h
    · cases h
      rfl

instance : Canonical K UInt64 where
  kinds := .replicate 8 .byte
  kinds_encode x := kinds_leBytes 8 x.toNat
  encode_of_decode {cs rest a} h := by
    obtain ⟨⟨n, rest'⟩, hread, heq⟩ := Option.map_eq_some_iff.mp h
    cases heq
    obtain ⟨hn, rfl⟩ := leBytes_of_readLe hread
    show _ = leBytes 8 (UInt64.ofNat n).toNat ++ rest
    rw [UInt64.toNat_ofNat_of_lt' hn]

instance {n : Nat} : Canonical K (Vector UInt8 n) where
  kinds := .replicate n .byte
  kinds_encode v := by
    show (v.toList.map Cell.byte).map Cell.kind = _
    rw [List.map_map]
    refine (List.map_const ..).trans ?_
    rw [Vector.length_toList]
  encode_of_decode h := by
    obtain ⟨⟨bs, rest'⟩, hread, heq⟩ := Option.map_eq_some_iff.mp h
    cases heq
    exact map_of_readBytes hread

instance : Strict K Bool where
  encode_of_decode {cs _ _} h := by
    simp only [decode] at h
    split at h
    · cases h
      rfl
    · cases h
      rfl
    · cases h

instance [Borsh K α] [Strict K α] : Strict K (Option α) where
  encode_of_decode {cs _ _} h := by
    simp only [decode] at h
    split at h
    · cases h
      rfl
    · obtain ⟨⟨a, rest'⟩, hread, heq⟩ := Option.map_eq_some_iff.mp h
      cases heq
      exact congrArg (Cell.byte 1 :: ·) (encode_of_decode hread)
    · cases h

instance [Borsh K α] [Borsh K β] [Strict K α] [Strict K β] : Strict K (α × β) where
  encode_of_decode h := by
    obtain ⟨⟨a, cs'⟩, ha, hrest⟩ := Option.bind_eq_some_iff.mp h
    obtain ⟨⟨b, rest'⟩, hb, heq⟩ := Option.map_eq_some_iff.mp hrest
    cases heq
    rw [encode_of_decode ha, encode_of_decode hb]
    exact (List.append_assoc ..).symm

/-- Records are strict if the tuples of their fields are, -/
theorem Strict.via [Borsh K β] [Strict K β] {f : α → β} {g : β → α} {h : ∀ a, g (f a) = a}
    (hf : ∀ b, f (g b) = b) : @Strict K α (Borsh.via f g h) :=
  let _ : Borsh K α := Borsh.via f g h
  { encode_of_decode := by
      intro cs rest a hdec
      obtain ⟨⟨b, rest'⟩, hread, heq⟩ := Option.map_eq_some_iff.mp hdec
      cases heq
      show cs = encode (f (g b)) ++ rest
      rw [hf]
      exact encode_of_decode hread }

/-- and canonical if these are. -/
@[reducible] def Canonical.via [Borsh K β] [Canonical K β] {f : α → β} {g : β → α}
    {h : ∀ a, g (f a) = a} (hf : ∀ b, f (g b) = b) : @Canonical K α (Borsh.via f g h) :=
  let _ : Borsh K α := Borsh.via f g h
  { toStrict := Strict.via hf
    kinds := kinds K β
    kinds_encode a := kinds_encode (f a) }

instance : Canonical K Int64 :=
  Canonical.via (h := Int64.toInt64_toUInt64) UInt64.toUInt64_toInt64

instance [Borsh K α] [Borsh K β] [Canonical K α] [Canonical K β] : Canonical K (α × β) where
  kinds := kinds K α ++ kinds K β
  kinds_encode p := by
    show (encode p.1 ++ encode p.2).map Cell.kind = _
    rw [List.map_append, kinds_encode, kinds_encode]

/-! ## Accounts -/

section Accounts

variable [Borsh K α] [Canonical K α] {d : Vector UInt8 8} {a : α}

/-- The cells of an account are those of its discriminator and fields. -/
theorem kinds_serialize (d : Vector UInt8 8) (a : α) :
    (serialize d a : List (Cell K)).map Cell.kind = kinds K (Vector UInt8 8) ++ kinds K α := by
  rw [serialize, List.map_append, kinds_encode, kinds_encode]

/-- Cells that were read are those of the account read, where there are no more of them. -/
theorem serialize_of_tryDeserialize {cs : List (Cell K)}
    (hkinds : cs.map Cell.kind = kinds K (Vector UInt8 8) ++ kinds K α)
    (h : tryDeserialize d cs = some a) : cs = serialize d a := by
  obtain ⟨⟨d', cs'⟩, hd, hrest⟩ := Option.bind_eq_some_iff.mp h
  have hsplit : cs = encode d' ++ cs' := encode_of_decode hd
  change (if d' = d then _ else none) = some a at hrest
  split at hrest
  · next heq =>
      obtain ⟨⟨a', rest⟩, ha, rfl⟩ := Option.map_eq_some_iff.mp hrest
      have hfields : cs' = encode a' ++ rest := encode_of_decode ha
      -- the kinds leave no room for more
      rw [hsplit, hfields, List.map_append, List.map_append, kinds_encode, kinds_encode,
        ← List.append_assoc] at hkinds
      have hnil : rest = [] := List.map_eq_nil_iff.mp (List.append_right_eq_self.mp hkinds)
      rw [hsplit, hfields, hnil, List.append_nil, heq]
      rfl
  · cases hrest

variable [KeyBytes K]

/-- The bytes of an account. -/
def accountBytes (K : Type) [KeyBytes K] [Borsh K α] (discriminator : Vector UInt8 8) (a : α) :
    List UInt8 :=
  bytes (serialize discriminator a : List (Cell K))

/-- Read an account back from its bytes; what follows them is not looked at. -/
def tryDeserializeBytes (K : Type) [KeyBytes K] [Borsh K α] [Canonical K α]
    (discriminator : Vector UInt8 8) (data : List UInt8) : Option α := do
  let (cs, _) ← (cut (kinds K (Vector UInt8 8) ++ kinds K α) data :
    Option (List (Cell K) × List UInt8))
  tryDeserialize discriminator cs

omit [Canonical K α] in
/-- What one record type wrote, another with the same cells reads off the bytes. -/
theorem tryDeserializeBytes_accountBytes [Borsh K β] [Canonical K β] {b : β}
    (h : (encode a : List (Cell K)) = encode b) :
    tryDeserializeBytes K d (accountBytes K d a) = some b := by
  have hcells : (serialize d a : List (Cell K)) = serialize d b := congrArg (encode d ++ ·) h
  have hcut := cut_bytes (serialize d b : List (Cell K)) []
  rw [kinds_serialize, List.append_nil] at hcut
  show Option.bind (cut _ (bytes (serialize d a : List (Cell K)))) _ = _
  rw [hcells, hcut]
  exact tryDeserialize_serialize rfl

/-- Bytes that were read are those of the account read, and what follows. -/
theorem accountBytes_of_tryDeserializeBytes {data : List UInt8}
    (h : tryDeserializeBytes K d data = some a) : ∃ rest, data = accountBytes K d a ++ rest := by
  obtain ⟨⟨cs, rest⟩, hcut, hread⟩ := Option.bind_eq_some_iff.mp h
  obtain ⟨hkinds, hbytes⟩ := of_cut hcut
  refine ⟨rest, ?_⟩
  rw [hbytes, serialize_of_tryDeserialize hkinds hread]
  rfl

end Accounts

end Borsh
