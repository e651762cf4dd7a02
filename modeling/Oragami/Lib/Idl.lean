/-
# `Oragami.Lib.Idl` — clients that decode accounts by an interface description

An IDL lists the fields of an account by name, with their types.  A client reads
them off in that order after the discriminator, does not look at what follows, and
hands over a record to be asked by name.  Of a name the list lacks the record knows
nothing: it is `undefined`.

The client sees nothing of the struct the program stores.  Where the struct begins as
the list does, what it reads is what is stored; where the two part, it goes on reading
from whatever bytes are there (`decode_accountData`).
-/
import Oragami.Lib.Borsh

/-- The types of fields; an array is one of bytes. -/
inductive IdlType where
  | u8
  | u16
  | u64
  | i64
  | bool
  | pubkey
  | bytes (n : Nat)

/-- What the client makes of a field: a number, whether `number` or `BN`, a boolean, a public
key, or an array of numbers. -/
inductive IdlValue (K : Type) where
  | num (n : Int)
  | bool (b : Bool)
  | key (k : K)
  | bytes (bs : List UInt8)

namespace IdlType

variable {K : Type}

/-- What a program stores in a field of the type. -/
@[reducible] def Val (K : Type) : IdlType → Type
  | u8 => UInt8
  | u16 => UInt16
  | u64 => UInt64
  | i64 => Int64
  | bool => Bool
  | pubkey => K
  | bytes n => Vector UInt8 n

instance layout : (ty : IdlType) → Borsh K (ty.Val K)
  | u8 => inferInstanceAs (Borsh K UInt8)
  | u16 => inferInstanceAs (Borsh K UInt16)
  | u64 => inferInstanceAs (Borsh K UInt64)
  | i64 => inferInstanceAs (Borsh K Int64)
  | bool => inferInstanceAs (Borsh K Bool)
  | pubkey => inferInstanceAs (Borsh K K)
  | bytes n => inferInstanceAs (Borsh K (Vector UInt8 n))

def toValue : (ty : IdlType) → ty.Val K → IdlValue K
  | u8, x => .num x.toNat
  | u16, x => .num x.toNat
  | u64, x => .num x.toNat
  | i64, x => .num x.toInt
  | bool, b => .bool b
  | pubkey, k => .key k
  | bytes _, bs => .bytes bs.toList

end IdlType

namespace Idl

variable {K F : Type}

/-! ## Decoding -/

/-- Read the fields of a list, in its order. -/
def decodeFields : List (F × IdlType) → List (Cell K) →
    Option (List (F × IdlValue K) × List (Cell K))
  | [], cs => some ([], cs)
  | (name, ty) :: fs, cs =>
      (Borsh.decode cs : Option (ty.Val K × List (Cell K))).bind fun (x, cs) =>
        (decodeFields fs cs).map fun (r, rest) => ((name, ty.toValue x) :: r, rest)

theorem decodeFields_cons {name : F} {ty : IdlType} {fs : List (F × IdlType)} (x : ty.Val K)
    (cs : List (Cell K)) :
    decodeFields ((name, ty) :: fs) (Borsh.encode x ++ cs) =
      (decodeFields fs cs).map fun (r, rest) => ((name, ty.toValue x) :: r, rest) := by
  show (Borsh.decode (Borsh.encode x ++ cs)).bind _ = _
  rw [Borsh.decode_encode]
  rfl

/-! ## Records -/

/-- A decoded account, asked by name. -/
abbrev Record (K F : Type) := F → Option (IdlValue K)

variable [DecidableEq F]

/-- The record of a list of fields. -/
def record (r : List (F × IdlValue K)) : Record K F := fun name => r.lookup name

namespace Record

/-- The number in a field. -/
def num (r : Record K F) (name : F) : Option Int :=
  match r name with
  | some (.num n) => some n
  | _ => none

/-- The key in a field. -/
def key (r : Record K F) (name : F) : Option K :=
  match r name with
  | some (.key k) => some k
  | _ => none

/-- The bytes in a field. -/
def bytes (r : Record K F) (name : F) : Option (List UInt8) :=
  match r name with
  | some (.bytes bs) => some bs
  | _ => none

/-- `!!record.name`. -/
def truthy (r : Record K F) (name : F) : Bool :=
  match r name with
  | none => false
  | some (.num n) => n ≠ 0
  | some (.bool b) => b
  | some (.key _) => true
  | some (.bytes _) => true

end Record

/-- An account type of an IDL. -/
structure Account (F : Type) where
  discriminator : Vector UInt8 8
  fields : List (F × IdlType)

/-- `decode`: the discriminator, then the fields. -/
def Account.decode (account : Account F) (data : List (Cell K)) : Option (Record K F) := do
  let (d, cs) ← (Borsh.decode data : Option (Vector UInt8 8 × List (Cell K)))
  if d = account.discriminator then (decodeFields account.fields cs).map (record ·.1) else none

/-! ## What a program stores -/

/-- The fields of a struct, with what is in them. -/
abbrev Stored (K F : Type) := List (F × (ty : IdlType) × ty.Val K)

namespace Stored

def types (st : Stored K F) : List (F × IdlType) := st.map fun f => (f.1, f.2.1)

def values (st : Stored K F) : List (F × IdlValue K) := st.map fun f => (f.1, f.2.1.toValue f.2.2)

/-- The bytes of the fields in their order. -/
def encode (st : Stored K F) : List (Cell K) := st.flatMap fun f => Borsh.encode f.2.2

omit [DecidableEq F] in
theorem encode_append (st more : Stored K F) : encode (st ++ more) = encode st ++ encode more :=
  List.flatMap_append

omit [DecidableEq F] in
/-- Other fields may stand for what comes after the first `n`, if they have its bytes. -/
theorem encode_take {st more : Stored K F} {rest : List (Cell K)} (n : Nat)
    (h : encode (st.drop n) = encode more ++ rest) :
    encode st = encode (st.take n ++ more) ++ rest := by
  rw [encode_append, List.append_assoc, ← h, ← encode_append, List.take_append_drop]

end Stored

omit [DecidableEq F] in
/-- Where the list is that of the fields stored, what is read is what is stored. -/
theorem decodeFields_stored (st : Stored K F) (rest : List (Cell K)) :
    decodeFields st.types (st.encode ++ rest) = some (st.values, rest) := by
  induction st with
  | nil => rfl
  | cons f st ih =>
      show decodeFields ((f.1, f.2.1) :: Stored.types st)
        ((Borsh.encode f.2.2 ++ Stored.encode st) ++ rest) = _
      rw [List.append_assoc, decodeFields_cons, ih]
      rfl

/-- The data of an account. -/
def accountData (discriminator : Vector UInt8 8) (st : Stored K F) : List (Cell K) :=
  Borsh.encode discriminator ++ st.encode

/-- An account is read as the fields `seen`, if they are those the list names and the account
begins with their bytes. -/
theorem decode_accountData {account : Account F} {st seen : Stored K F} {rest : List (Cell K)}
    (hfields : account.fields = seen.types) (hbytes : st.encode = seen.encode ++ rest) :
    account.decode (accountData account.discriminator st) = some (record seen.values) := by
  unfold Account.decode accountData
  rw [Borsh.decode_encode]
  show (if _ = _ then _ else _) = _
  rw [if_pos rfl, hfields, hbytes, decodeFields_stored]
  rfl

end Idl
