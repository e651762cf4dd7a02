/-
# `Oragami.Lib.Custody` — a token account and a mint in one program's hands

`Ledger.Custody L owner account shareMint`: the tokens in `account` are `owner`'s
to spend, and nobody else's, and the tokens of `shareMint` are `owner`'s to issue.
The two are different tokens.

`owner` signs for itself alone, one of the keys `P` outsiders cannot sign for.
So nothing an outsider has the token program do lowers the account or inflates the
mint (`Custody.kept`), and a vault that keeps its assets so has two movements of
its own: assets paid in and shares issued (`Custody.paidIn`), shares burned and
assets paid out (`Custody.paidOut`).  To any other vault either is at most a gift
(`Custody.evolves_le`).  Nobody but the holder and the two accounts of the payment
can stand in the way of the second (`Custody.sell_iff`).
-/
import Oragami.Lib.Ledger

namespace Ledger

variable {K : Type}

/-- `owner` alone spends from `account`, and alone issues the tokens of `shareMint`. -/
structure Custody (L : Ledger K) (owner account shareMint : K) : Prop where
  account : ∃ a, L.account account = some a ∧ a.owner = owner ∧ a.delegate = none ∧
    a.mint ≠ shareMint ∧ a.program = .token
  mint : ∃ M, L.mint shareMint = some M ∧ M.mintAuthority = some owner

/-- `account` and `dst` are such that the one can pay `n` to the other, if it has the funds. -/
def PayOk (L : Ledger K) (account dst : K) (n : Nat) : Prop :=
  ∃ v d, L.account account = some v ∧ L.account dst = some d ∧ d.program = .token ∧
    v.mint = d.mint ∧ v.frozen = false ∧ d.frozen = false ∧
    (account ≠ dst → d.amount.toNat + n < 2 ^ 64)

namespace Custody

variable {L L' L'' : Ledger K} {owner account shareMint : K}

theorem of_holding (h : L.Custody owner account shareMint)
    (ha : ∀ {a}, L.account account = some a → a.owner = owner → a.delegate = none →
      ∃ a', L'.account account = some a' ∧ a.SameHolding a')
    (hm : ∀ {M}, L.mint shareMint = some M → M.mintAuthority = some owner →
      ∃ M', L'.mint shareMint = some M' ∧ M.SameIssuer M') :
    L'.Custody owner account shareMint where
  account := by
    obtain ⟨a, hacc, howner, hdel, hne, hprog⟩ := h.account
    obtain ⟨a', hacc', hs⟩ := ha hacc howner hdel
    refine ⟨a', hacc', hs.owner.trans howner, ?_, hs.mint ▸ hne, hs.program.trans hprog⟩
    rcases hs.delegate with hd | hd
    · exact hd.trans hdel
    · exact hd
  mint := by
    obtain ⟨M, hM, hauth⟩ := h.mint
    obtain ⟨M', hM', hs⟩ := hm hM hauth
    exact ⟨M', hM', hs.mintAuthority.trans hauth⟩

/-- Calls to the token program leave custody in order, whoever makes them. -/
theorem evolves {d c b m : K → Nat} (h : L.Custody owner account shareMint)
    (he : L.Evolves L' d c b m) : L'.Custody owner account shareMint :=
  h.of_holding (fun ha _ _ => he.account ha) (fun hM _ => he.mint hM)

/-- Where the account is not debited it does not fall. -/
theorem evolves_le {d c b m : K → Nat} (h : L.Custody owner account shareMint)
    (he : L.Evolves L' d c b m) (hd : d account = 0) :
    L'.Custody owner account shareMint ∧ L.amount account ≤ L'.amount account := by
  refine ⟨h.evolves he, ?_⟩
  have hamount := he.amount account
  omega

/-- Shares are no assets: an account that holds them is another one. -/
theorem share_ne {dst : K} {a : TokenAccount K} (h : L.Custody owner account shareMint)
    (ha : L.account dst = some a) (hm : a.mint = shareMint) : dst ≠ account := by
  rintro rfl
  obtain ⟨v, hv, -, -, hne, -⟩ := h.account
  cases ha.symm.trans hv
  exact hne hm

/-- Nor is the mint inflated, nor the account lowered, by what outsiders do. -/
theorem kept {P : K → Prop} (h : L.Custody owner account shareMint) (ho : P owner)
    (hk : Kept P L L') :
    L'.Custody owner account shareMint ∧ L.amount account ≤ L'.amount account := by
  refine ⟨h.of_holding ?_ ?_, ?_⟩
  · intro a ha howner hd
    obtain ⟨a', ha', hs, -⟩ := hk.account ha (howner ▸ ho) hd
    exact ⟨a', ha', hs⟩
  · intro M hM hauth
    obtain ⟨M', hM', hs, -⟩ := hk.mint hM fun auth h' => by
      cases hauth.symm.trans h'
      exact ho
    exact ⟨M', hM', hs⟩
  · obtain ⟨a, ha, howner, hdel, -⟩ := h.account
    obtain ⟨a', ha', -, hle⟩ := hk.account ha (howner ▸ ho) hdel
    rw [amount_of_account ha, amount_of_account ha']
    exact hle

variable [DecidableEq K]

/-- A new mint and a new account elsewhere change nothing here. -/
theorem opened {k j : K} (h : L.Custody owner account shareMint) (hk : L.mint k = none)
    (hj : L.account j = none) (auth m o : K) :
    ((L.openMint k auth).openAccount j m o).Custody owner account shareMint ∧
      ((L.openMint k auth).openAccount j m o).amount account = L.amount account ∧
      ((L.openMint k auth).openAccount j m o).supply shareMint = L.supply shareMint := by
  obtain ⟨a, ha, -⟩ := h.account
  obtain ⟨M, hM, -⟩ := h.mint
  have hne : account ≠ j := by
    rintro rfl
    cases ha.symm.trans hj
  have hneM : shareMint ≠ k := by
    rintro rfl
    cases hM.symm.trans hk
  have hacc : ((L.openMint k auth).openAccount j m o).account account = L.account account :=
    setAccount_account_ne _ _ hne
  have hmint : ((L.openMint k auth).openAccount j m o).mint shareMint = L.mint shareMint :=
    setMint_mint_ne _ _ hneM
  refine ⟨h.of_holding ?_ ?_, ?_, ?_⟩
  · intro a ha _ _
    exact ⟨a, hacc.trans ha, ⟨rfl, rfl, rfl, rfl, .inl rfl⟩⟩
  · intro M hM _
    exact ⟨M, hmint.trans hM, ⟨rfl, rfl⟩⟩
  · unfold amount
    rw [hacc]
  · unfold supply
    rw [hmint]

section Signed

variable {P : K → Prop} {n : UInt64}

/-- No outsider debits the account. -/
theorem debit_ne {src auth : K} {a : TokenAccount K} (h : L.Custody owner account shareMint)
    (ho : P owner) (ha : L.account src = some a) (hd : a.CanDebit auth n) (hauth : ¬ P auth) :
    src ≠ account := by
  rintro rfl
  obtain ⟨v, hv, howner, hdel, -⟩ := h.account
  cases ha.symm.trans hv
  exact hauth (hd.of_owner (P := P) (howner ▸ ho) hdel)

variable [TokenProgram K]

theorem transfer_ne {src dst auth : K} (h : L.Custody owner account shareMint) (ho : P owner)
    (hauth : ¬ P auth) (ht : TokenProgram.transfer L src dst auth n = some L') :
    src ≠ account := by
  obtain ⟨a, b, ha, -, -, -, -, -, -, -, hdeb, -⟩ := TokenProgram.transfer_ok ht
  exact h.debit_ne ho ha hdeb hauth

theorem burn_ne {src m auth : K} (h : L.Custody owner account shareMint) (ho : P owner)
    (hauth : ¬ P auth) (hb : TokenProgram.burn L src m auth n = some L') : src ≠ account := by
  obtain ⟨a, M, ha, -, -, -, -, -, -, hdeb, -⟩ := TokenProgram.burn_ok hb
  exact h.debit_ne ho ha hdeb hauth

/-- What outsiders burn is not the account's. -/
theorem burn {src m auth : K} (h : L.Custody owner account shareMint) (ho : P owner)
    (hauth : ¬ P auth) (hb : TokenProgram.burn L src m auth n = some L') :
    L'.Custody owner account shareMint ∧ L'.amount account = L.amount account := by
  have he := TokenProgram.burn_evolves hb
  have hamount := he.amount account
  rw [Pi.single_eq_of_ne (h.burn_ne ho hauth hb).symm] at hamount
  exact ⟨h.evolves he, hamount⟩

/-- Assets an outsider pays in, and shares issued for them. -/
theorem paidIn {src dst auth vault : K} {x : UInt64} (h : L.Custody owner account shareMint)
    (ho : P owner) (hauth : ¬ P auth)
    (ht : TokenProgram.transfer L src account auth n = some L')
    (hm : TokenProgram.mintTo L' shareMint dst vault x = some L'') :
    L''.Custody owner account shareMint ∧ L''.amount account = L.amount account + n.toNat := by
  have he := (TokenProgram.transfer_evolves ht).trans (TokenProgram.mintTo_evolves hm)
  have hsrc := h.transfer_ne ho hauth ht
  obtain ⟨M, b, -, hb, -, -, hmint, -⟩ := TokenProgram.mintTo_ok hm
  have hdst := (h.evolves (TokenProgram.transfer_evolves ht)).share_ne hb hmint
  have hamount := he.amount account
  simp only [Pi.add_apply, Pi.zero_apply, Pi.single_eq_same, Pi.single_eq_of_ne hsrc.symm,
    Pi.single_eq_of_ne hdst.symm] at hamount
  exact ⟨h.evolves he, by omega⟩

/-- Tokens an outsider burns, and assets paid out for them: the account had them, and they
leave it unless they are paid to it. -/
theorem paidOut {src m auth dst vault : K} {x : UInt64} (h : L.Custody owner account shareMint)
    (ho : P owner) (hauth : ¬ P auth) (hb : TokenProgram.burn L src m auth x = some L')
    (ht : TokenProgram.transfer L' account dst vault n = some L'') :
    L''.Custody owner account shareMint ∧ n.toNat ≤ L.amount account ∧
      ∃ out, out ≤ n.toNat ∧ L''.amount account = L.amount account - out := by
  obtain ⟨h', hsame⟩ := h.burn ho hauth hb
  have he := TokenProgram.transfer_evolves ht
  have hamount := he.amount account
  rw [Pi.single_eq_same, hsame] at hamount
  refine ⟨h'.evolves he, ?_, ?_⟩
  · obtain ⟨a, b, ha, -, -, -, -, -, -, hle, -⟩ := TokenProgram.transfer_ok ht
    rw [← hsame, amount_of_account ha]
    exact UInt64.le_iff_toNat_le.mp hle
  · by_cases hdst : dst = account
    · rw [hdst, Pi.single_eq_same] at hamount
      exact ⟨0, Nat.zero_le _, by omega⟩
    · rw [Pi.single_eq_of_ne (Ne.symm hdst)] at hamount
      exact ⟨n.toNat, Nat.le_refl _, by omega⟩

/-- Shares are bought back wherever the burn is accepted, the account can pay their holder, and
it has the funds. -/
theorem sell_iff {src dst auth : K} {x : UInt64} (h : L.Custody owner account shareMint)
    (ho : P owner) (hauth : ¬ P auth) :
    (∃ L' L'', TokenProgram.burn L src shareMint auth x = some L' ∧
      TokenProgram.transfer L' account dst owner n = some L'') ↔
      L.BurnOk src shareMint auth x ∧ L.PayOk account dst n.toNat ∧ n.toNat ≤ L.amount account := by
  obtain ⟨v, hv, howner, hdel, hne, hprog⟩ := h.account
  -- what the burn leaves of the two accounts of the payment
  have after : ∀ {L' : Ledger K}, TokenProgram.burn L src shareMint auth x = some L' →
      L'.amount account = L.amount account ∧
        ∀ d, L.account dst = some d → d.mint = v.mint → L'.amount dst = L.amount dst := by
    intro L' hb
    have he := TokenProgram.burn_evolves hb
    obtain ⟨a, _, ha, -, -, -, ham, -⟩ := TokenProgram.burn_ok hb
    refine ⟨(h.burn ho hauth hb).2, ?_⟩
    intro d hd hm
    have hdst : dst ≠ src := by
      rintro rfl
      cases ha.symm.trans hd
      exact hne (hm.symm.trans ham)
    have hamount := he.amount dst
    rw [Pi.single_eq_of_ne hdst] at hamount
    exact hamount
  constructor
  · rintro ⟨L', L'', hb, ht⟩
    have he := TokenProgram.burn_evolves hb
    obtain ⟨v', d', hv', hd', -, hdp, hm, hvf, hdf, hle, -, hlt⟩ := TokenProgram.transfer_ok ht
    obtain ⟨v₀, hv₀, hsv⟩ := he.account_back hv'
    cases hv.symm.trans hv₀
    obtain ⟨d, hd, hsd⟩ := he.account_back hd'
    have hmint : v.mint = d.mint := hsv.mint.symm.trans (hm.trans hsd.mint)
    obtain ⟨hsame, hdsame⟩ := after hb
    have hdamount := hdsame d hd hmint.symm
    rw [amount_of_account hd, amount_of_account hd'] at hdamount
    refine ⟨TokenProgram.burn_ok hb, ⟨v, d, hv, hd, hsd.program.symm.trans hdp, hmint,
      hsv.frozen.symm.trans hvf, hsd.frozen.symm.trans hdf, ?_⟩, ?_⟩
    · intro hacc
      rw [← hdamount]
      exact hlt hacc
    · rw [← hsame, amount_of_account hv']
      exact UInt64.le_iff_toNat_le.mp hle
  · rintro ⟨hburn, ⟨v₀, d, hv₀, hd, hdp, hm, hvf, hdf, hlt⟩, hfunds⟩
    cases hv.symm.trans hv₀
    obtain ⟨L', hb⟩ := Option.isSome_iff_exists.mp ((TokenProgram.burn_isSome ..).mpr hburn)
    have he := TokenProgram.burn_evolves hb
    obtain ⟨hsame, hdsame⟩ := after hb
    obtain ⟨v', hv', hsv⟩ := he.account hv
    obtain ⟨d', hd', hsd⟩ := he.account hd
    have hdamount := hdsame d hd hm.symm
    rw [amount_of_account hd, amount_of_account hd'] at hdamount
    rw [← hsame, amount_of_account hv'] at hfunds
    have hnodel : v'.delegate = none := by
      rcases hsv.delegate with hsome | hnone
      · exact hsome.trans hdel
      · exact hnone
    have hok : L'.TransferOk account dst owner n := by
      refine ⟨v', d', hv', hd', hsv.program.trans hprog, hsd.program.trans hdp,
        hsv.mint.trans (hm.trans hsd.mint.symm), hsv.frozen.trans hvf, hsd.frozen.trans hdf,
        UInt64.le_iff_toNat_le.mpr hfunds, ?_, ?_⟩
      · rw [TokenAccount.CanDebit, if_neg (by simp [hnodel])]
        exact hsv.owner.trans howner
      · intro hacc
        rw [hdamount]
        exact hlt hacc
    obtain ⟨L'', ht⟩ := Option.isSome_iff_exists.mp ((TokenProgram.transfer_isSome ..).mpr hok)
    exact ⟨L', L'', hb, ht⟩

end Signed

end Custody

end Ledger
