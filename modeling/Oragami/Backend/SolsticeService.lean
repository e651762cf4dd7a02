/-
# `Oragami.Backend.SolsticeService` — the price of eUSX

`getEusxNav` divides what the yield reserve holds by the supply of eUSX, two accounts
read one after the other.  A price that is configured goes before, and 1 comes after
where nothing can be read.  Whatever comes of it is cached for a minute; 1 is, too.

The NAV crank and every `GET /vault/state` call it, so calls overlap.  None of them is
served a price of more than a minute ago (`eusxNav_fresh`): both accounts were read no
longer than that before the call began, and if it is served 1 for want of a price, there
was none to be had in that time.  A price is positive, as the crank supposes.
-/
import Oragami.Backend.NavPrice
import Oragami.Lib.Cached
import Oragami.Lib.Double

namespace Backend

open Cached Double Lts

/-! ## The method -/

/-- What `getAccount` and `getMint` find: nothing where they throw. -/
structure YieldReserve where
  amount : Option UInt64
  supply : Option UInt64

/-- `SOLSTICE_EUSX_NAV_OVERRIDE` as a number, if it is set and finite, and whether
`SOLSTICE_YIELD_RESERVE_USX_ACCOUNT` is set. -/
structure SolsticeConfig where
  navOverride : Option ℚ
  reserveAccount : Bool

def eusxCacheTtlMs : Int := 60000

/-- `Number(reserve.amount) / Number(supply)`. -/
def reserveRatio (amount supply : UInt64) : ℚ :=
  toDouble ((Js.roundNat amount.toNat : ℚ) / Js.roundNat supply.toNat)

/-- A price has to be positive. -/
def priceOf (x : ℚ) : Option Price := if h : 0 < x then some ⟨x, h⟩ else none

/-- The price the two accounts give. -/
def reservePrice (amount supply : UInt64) : Option Price :=
  if 0 < supply then priceOf (reserveRatio amount supply) else none

/-- Where a call waits: for the reserve, or, with its amount, for the mint. -/
inductive EusxStage where
  | reserve (sample : Option (Option UInt64))
  | mint (amount : UInt64) (sample : Option (Option UInt64))

/-- What has been read, or that reading threw: then the price falls back to 1. -/
def EusxStage.answer : Bool → EusxStage → Option (EusxStage ⊕ Price)
  | false, _ => some (.inr par)
  | true, .reserve sample => sample.map fun
      | some amount => .inl (.mint amount none)
      | none => .inr par
  | true, .mint amount sample => sample.map fun
      | some supply => .inr ((reservePrice amount supply).getD par)
      | none => .inr par

def EusxStage.sample (env : YieldReserve) : EusxStage → EusxStage
  | .reserve _ => .reserve (some env.amount)
  | .mint amount _ => .mint amount (some env.supply)

def getEusxNav (config : SolsticeConfig) : Method YieldReserve EusxStage Bool Price where
  ttl := eusxCacheTtlMs
  start :=
    match config.navOverride.bind priceOf with
    | some v => .inr v
    | none => if config.reserveAccount then .inl (.reserve none) else .inr par
  sample := EusxStage.sample
  answer := EusxStage.answer

theorem reserveRatio_pos {amount supply : UInt64} (ha : 0 < amount) (hs : 0 < supply) :
    0 < reserveRatio amount supply := by
  have roundNat_pos : ∀ {n : UInt64}, 0 < n → (0 : ℚ) < Js.roundNat n.toNat := by
    intro n hn
    rw [← toDouble_natCast]
    exact toDouble_pos (Nat.cast_pos.mpr (UInt64.lt_iff_toNat_lt.mp hn))
  exact toDouble_pos (div_pos (roundNat_pos ha) (roundNat_pos hs))

/-- Where both accounts have something there is a price. -/
theorem reservePrice_eq_some {amount supply : UInt64} {v : Price} :
    reservePrice amount supply = some v ↔
      0 < amount ∧ 0 < supply ∧ v.1 = reserveRatio amount supply := by
  unfold reservePrice priceOf
  constructor
  · intro h
    split at h
    · next hs =>
        split at h
        · next hpos =>
            cases h
            refine ⟨?_, hs, rfl⟩
            by_contra hzero
            have hamount : amount.toNat = 0 := by
              have hle := UInt64.le_iff_toNat_le.mp (UInt64.not_lt.mp hzero)
              exact Nat.le_zero.mp hle
            have hratio : reserveRatio amount supply = 0 := by
              rw [reserveRatio, hamount, Js.roundNat_of_le (Nat.zero_le _), Nat.cast_zero, zero_div,
                toDouble_zero]
            exact hpos.ne' hratio
        · cases h
    · cases h
  · rintro ⟨ha, hs, hv⟩
    rw [if_pos hs, dif_pos (reserveRatio_pos ha hs)]
    exact congrArg some (Subtype.ext hv.symm)

theorem reservePrice_eq_none {amount supply : UInt64} :
    reservePrice amount supply = none ↔ amount = 0 ∨ supply = 0 := by
  have pos_of_ne : ∀ {n : UInt64}, n ≠ 0 → 0 < n := by
    intro n hn
    refine UInt64.lt_iff_toNat_lt.mpr (Nat.pos_of_ne_zero ?_)
    intro hzero
    exact hn (UInt64.toNat_inj.mp hzero)
  constructor
  · intro h
    by_contra hboth
    rw [not_or] at hboth
    have ha := pos_of_ne hboth.1
    have hs := pos_of_ne hboth.2
    have hsome : reservePrice amount supply = some ⟨_, reserveRatio_pos ha hs⟩ :=
      reservePrice_eq_some.mpr ⟨ha, hs, rfl⟩
    cases h.symm.trans hsome
  · intro h
    rcases hprice : reservePrice amount supply with _ | v
    · rfl
    · obtain ⟨ha, hs, -⟩ := reservePrice_eq_some.mp hprice
      rcases h with rfl | rfl
      · cases ha
      · cases hs

/-! ## Accounts -/

abbrev EusxHistory := History YieldReserve EusxStage Bool Price

/-- A call looked an account up at `b` or later, and found `x`. -/
def ReadSince (ts : EusxHistory) (b : Int) (account : YieldReserve → Option UInt64)
    (x : Option UInt64) : Prop :=
  ∃ t ∈ ts, (∃ i, t.label = .sample i) ∧ b ≤ t.pre.dateNow ∧ account t.pre.env = x

/-- One of the accounts is missing or empty. -/
def YieldReserve.Unpriced (env : YieldReserve) : Prop :=
  env.amount.getD 0 = 0 ∨ env.supply.getD 0 = 0

/-- At `b` or later a read threw, or found nothing to divide. -/
def FailedSince (ts : EusxHistory) (b : Int) : Prop :=
  ∃ t ∈ ts, b ≤ t.pre.dateNow ∧
    ((∃ i, t.label = .answer i false) ∨ (∃ i, t.label = .sample i) ∧ t.pre.env.Unpriced)

/-- Where a price made by a call that began at `b` comes from. -/
inductive Quoted (config : SolsticeConfig) (ts : EusxHistory) (b : Int) (v : Price) : Prop where
  | override (h : config.navOverride = some v.1)
  | reserve {amount supply : UInt64} (hamount : ReadSince ts b (·.amount) (some amount))
      (hsupply : ReadSince ts b (·.supply) (some supply)) (h : v.1 = reserveRatio amount supply)
  | fallback (h : v = par) (why : config.reserveAccount = false ∨ FailedSince ts b)

/-- What a call that began at `b` has in hand it has read since. -/
def InHand (ts : EusxHistory) (b : Int) : EusxStage → Prop
  | .reserve sample => ∀ x ∈ sample, ReadSince ts b (·.amount) x
  | .mint amount sample =>
      ReadSince ts b (·.amount) (some amount) ∧ ∀ x ∈ sample, ReadSince ts b (·.supply) x

section Accounts

variable {ts : EusxHistory}
  {t : Transition (State YieldReserve EusxStage Price) (Event YieldReserve Bool)}
  {b : Int} {account : YieldReserve → Option UInt64} {x : Option UInt64}

theorem ReadSince.later (h : ReadSince ts b account x) : ReadSince (ts ++ [t]) b account x := by
  obtain ⟨u, hu, hread⟩ := h
  exact ⟨u, List.mem_append_left _ hu, hread⟩

theorem ReadSince.now {i : Nat} (hlabel : t.label = .sample i) (hle : b ≤ t.pre.dateNow) :
    ReadSince (ts ++ [t]) b account (account t.pre.env) :=
  ⟨t, List.mem_append_right ts List.mem_cons_self, ⟨i, hlabel⟩, hle, rfl⟩

theorem FailedSince.later (h : FailedSince ts b) : FailedSince (ts ++ [t]) b := by
  obtain ⟨u, hu, hle, hwhy⟩ := h
  exact ⟨u, List.mem_append_left _ hu, hle, hwhy⟩

/-- An account read as missing or empty leaves nothing to divide. -/
theorem ReadSince.failed (h : ReadSince ts b account x) (hx : x.getD 0 = 0)
    (hacc : ∀ env, (account env).getD 0 = 0 → env.Unpriced) : FailedSince ts b := by
  obtain ⟨u, hu, hsample, hle, heq⟩ := h
  exact ⟨u, hu, hle, .inr ⟨hsample, hacc _ (heq ▸ hx)⟩⟩

theorem Quoted.later {config : SolsticeConfig} {v : Price} (h : Quoted config ts b v) :
    Quoted config (ts ++ [t]) b v := by
  cases h with
  | override h => exact .override h
  | reserve hamount hsupply h => exact .reserve hamount.later hsupply.later h
  | fallback h why => exact .fallback h (why.imp_right FailedSince.later)

theorem InHand.later {stage : EusxStage} (h : InHand ts b stage) : InHand (ts ++ [t]) b stage := by
  cases stage with
  | reserve sample =>
      intro x hx
      exact (h x hx).later
  | mint amount sample =>
      refine ⟨h.1.later, ?_⟩
      intro x hx
      exact (h.2 x hx).later

/-- An answer leads on with what was read, or to a price. -/
theorem InHand.answer {config : SolsticeConfig} {stage : EusxStage} {ok : Bool} {i : Nat}
    (hlabel : t.label = .answer i ok) (hle : b ≤ t.pre.dateNow) (h : InHand ts b stage) :
    ∀ r ∈ stage.answer ok, r.elim (InHand (ts ++ [t]) b) (Quoted config (ts ++ [t]) b) := by
  intro r hr
  cases ok with
  | false =>
      cases hr
      exact .fallback rfl (.inr ⟨t, List.mem_append_right ts List.mem_cons_self, hle,
        .inl ⟨i, hlabel⟩⟩)
  | true =>
      have hnow := h.later (t := t)
      cases stage with
      | reserve sample =>
          obtain ⟨x, hx, rfl⟩ := Option.map_eq_some_iff.mp hr
          have hread := hnow x hx
          cases x with
          | some amount => exact ⟨hread, fun _ hnone => by cases hnone⟩
          | none => exact .fallback rfl (.inr (hread.failed rfl fun _ => .inl))
      | mint amount sample =>
          obtain ⟨x, hx, rfl⟩ := Option.map_eq_some_iff.mp hr
          have hread := hnow.2 x hx
          cases x with
          | none => exact .fallback rfl (.inr (hread.failed rfl fun _ => .inr))
          | some supply =>
              show Quoted config (ts ++ [t]) b ((reservePrice amount supply).getD par)
              rcases hprice : reservePrice amount supply with _ | v
              · refine .fallback rfl (.inr ?_)
                rcases reservePrice_eq_none.mp hprice with rfl | rfl
                · exact hnow.1.failed rfl fun _ => .inl
                · exact hread.failed rfl fun _ => .inr
              · exact .reserve hnow.1 hread (reservePrice_eq_some.mp hprice).2.2

end Accounts

theorem getEusxNav_accounted (config : SolsticeConfig) :
    Accounted (getEusxNav config) InHand (Quoted config) where
  has_later := InHand.later
  makes_later := Quoted.later
  start_has := by
    intro ts b x h
    simp only [getEusxNav] at h
    split at h
    · cases h
    · split at h
      · cases h
        intro _ hnone
        cases hnone
      · cases h
  start_makes := by
    intro ts b v h
    simp only [getEusxNav] at h
    split at h
    · next o ho =>
        cases h
        obtain ⟨q, hq, hpos⟩ := Option.bind_eq_some_iff.mp ho
        unfold priceOf at hpos
        split at hpos
        · cases hpos
          exact .override hq
        · cases hpos
    · split at h
      · cases h
      · next hunset =>
          cases h
          exact .fallback rfl (.inl (Bool.not_eq_true _ ▸ hunset))
  sample := by
    intro ts t b x i hlabel hle h
    cases x with
    | reserve sample =>
        rintro _ ⟨⟩
        exact ReadSince.now hlabel hle
    | mint amount sample =>
        refine ⟨h.1.later, ?_⟩
        rintro _ ⟨⟩
        exact ReadSince.now hlabel hle
  answer_has := by
    intro ts t b x i e y hlabel hle hanswer h
    have hall : ∀ r ∈ x.answer e, r.elim (InHand (ts ++ [t]) b) (Quoted config (ts ++ [t]) b) :=
      h.answer hlabel hle
    exact hall _ hanswer
  answer_makes := by
    intro ts t b x i e v hlabel hle hanswer h
    exact h.answer hlabel hle _ hanswer

/-- However calls overlap, each is served a price of less than a minute ago: the one configured,
the quotient of the two accounts as they were read within the minute before it began or since,
or 1, and then no reserve is configured or there was no price within that time. -/
theorem eusxNav_fresh (config : SolsticeConfig) {env : YieldReserve} {dateNow : Int}
    {ts : EusxHistory} {s : State YieldReserve EusxStage Price}
    (hrun : Run (Step (getEusxNav config)) (State.idle env dateNow) ts s) :
    ∀ r ∈ s.served, ServedBy (Quoted config) eusxCacheTtlMs ts r :=
  served_fresh (getEusxNav_accounted config) (show (0 : Int) < 60000 by decide) hrun

/-- A call that is slow to end, and one that begins and ends meanwhile, when there is more in the
reserve; a third is served what the slow one left. -/
def overlapping : List (Event YieldReserve Bool) :=
  [.call, .sample 0, .answer 0 true, .pass 30000, .world ⟨some 300, some 100⟩, .call, .sample 1,
    .answer 1 true, .sample 1, .answer 1 true, .sample 0, .answer 0 true, .pass 20000, .call]

theorem eusxNav_fresh_overlapping :
    (final (State.apply (getEusxNav ⟨none, true⟩))
        (State.idle ⟨some 200, some 100⟩ 0) overlapping).served.length = 3 ∧
    ∀ r ∈ (final (State.apply (getEusxNav ⟨none, true⟩))
        (State.idle ⟨some 200, some 100⟩ 0) overlapping).served,
      ServedBy (Quoted ⟨none, true⟩) eusxCacheTtlMs
        (play (State.apply (getEusxNav ⟨none, true⟩)) (State.idle ⟨some 200, some 100⟩ 0)
          overlapping) r :=
  ⟨by decide +kernel, eusxNav_fresh ⟨none, true⟩
    (play_run (P := fun _ => True) (fun h _ => h) (fun _ _ => trivial) _)⟩

/-- The third call is served 2, though the reserve had been worth 3 before it began. -/
example : (final (State.apply (getEusxNav ⟨none, true⟩)) (State.idle ⟨some 200, some 100⟩ 0)
    overlapping).served.map (fun r => (r.began, r.value.1)) = [(30000, 3), (0, 2), (50000, 2)] := by
  decide +kernel

end Backend
