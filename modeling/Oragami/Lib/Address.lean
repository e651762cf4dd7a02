/-
# `Oragami.Lib.Address` — program-derived addresses

An address derived from a program, a list of seeds and a bump is a hash of the
three.  What programs rely on is that it names them: two derivations give one
address only when program, seeds and bump agree.  `Addresses K` takes a type of
keys together with such a derivation, the injectivity as one of its fields.

`FreeKey` is the free instance, a key being the derivation itself.  It is what
closed examples are evaluated in.
-/
import Mathlib.Tactic.Common

/-- One seed of a derivation: a byte string constant, the bytes of a key, or a
32-byte digest. -/
inductive Seed (K : Type) where
  | text (s : String)
  | key (k : K)
  | digest (h : Vector UInt8 32)
deriving DecidableEq

/-- Keys and the addresses programs derive. -/
class Addresses (K : Type) where
  /-- The all-zero key. -/
  default : K
  /-- `create_program_address`: the address of a program, seeds and a bump. -/
  derive : K → List (Seed K) → UInt8 → K
  /-- The bump `find_program_address` settles on. -/
  canonicalBump : K → List (Seed K) → UInt8
  derive_inj : ∀ {p p' : K} {ss ss' : List (Seed K)} {b b' : UInt8},
    derive p ss b = derive p' ss' b' → p = p' ∧ ss = ss' ∧ b = b'

namespace Addresses

variable {K : Type} [Addresses K]

/-- `find_program_address`: the address at the canonical bump. -/
def find (program : K) (seeds : List (Seed K)) : K :=
  derive program seeds (canonicalBump program seeds)

theorem find_inj {p p' : K} {ss ss' : List (Seed K)} (h : find p ss = find p' ss') :
    p = p' ∧ ss = ss' :=
  ⟨(derive_inj h).1, (derive_inj h).2.1⟩

/-- `k` is an address of `program`.  Such a key is on no curve: no transaction
carries its signature, and only `program` signs for it. -/
def DerivedBy (program k : K) : Prop := ∃ ss b, k = derive program ss b

theorem derivedBy_find (program : K) (ss : List (Seed K)) :
    DerivedBy program (find program ss) :=
  ⟨ss, _, rfl⟩

end Addresses

/-! ## The free instance -/

/-- Keys as derivations: a numbered key, or a program and bump followed by seeds. -/
inductive FreeKey where
  | num (n : Nat)
  | start (program : FreeKey) (bump : UInt8)
  | text (tail : FreeKey) (s : String)
  | key (tail : FreeKey) (k : FreeKey)
  | digest (tail : FreeKey) (h : Vector UInt8 32)
deriving DecidableEq

namespace FreeKey

/-- Put one seed in front of a derivation. -/
def push : Seed FreeKey → FreeKey → FreeKey
  | .text s, k => .text k s
  | .key k', k => .key k k'
  | .digest h, k => .digest k h

def derive (p : FreeKey) : List (Seed FreeKey) → UInt8 → FreeKey
  | [], b => .start p b
  | s :: ss, b => push s (derive p ss b)

theorem push_inj {s s' : Seed FreeKey} {k k' : FreeKey} (h : push s k = push s' k') :
    s = s' ∧ k = k' := by
  cases s <;> cases s' <;> simp_all [push]

theorem push_ne_start {s : Seed FreeKey} {k p : FreeKey} {b : UInt8} :
    push s k ≠ .start p b := by
  cases s <;> simp [push]

theorem derive_inj {p p' : FreeKey} {b b' : UInt8} :
    ∀ {ss ss' : List (Seed FreeKey)}, derive p ss b = derive p' ss' b' →
      p = p' ∧ ss = ss' ∧ b = b'
  | [], [], h => by
      simp only [derive, FreeKey.start.injEq] at h
      exact ⟨h.1, rfl, h.2⟩
  | [], _ :: _, h => absurd h.symm push_ne_start
  | _ :: _, [], h => absurd h push_ne_start
  | _ :: _, _ :: _, h => by
      obtain ⟨rfl, ht⟩ := push_inj h
      obtain ⟨hp, rfl, hb⟩ := derive_inj ht
      exact ⟨hp, rfl, hb⟩

instance : Addresses FreeKey where
  default := .num 0
  derive := derive
  canonicalBump _ _ := 255
  derive_inj := derive_inj

theorem not_derivedBy_num {p : FreeKey} {n : Nat} : ¬ Addresses.DerivedBy p (.num n) := by
  rintro ⟨ss, b, h⟩
  cases ss with
  | nil => exact FreeKey.noConfusion h
  | cons s _ => cases s <;> exact FreeKey.noConfusion h

end FreeKey
