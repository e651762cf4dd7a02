/-
# `Oragami.TransferHook.ExtraAccounts` — the accounts registered, the accounts demanded

`initialize_extra_account_metas` writes, once for each mint, how the extra accounts
of a transfer are found: seeds, some of which stand for the key of an account of
the Execute instruction.  The `TransferHook` context demands three accounts by
seeds of its own.

The two describe the configuration alike.  They describe the whitelist entries
differently: what is registered is derived from the keys at positions 3 and 2, the
transfer's authority and the destination *token account*; what is demanded is
derived from the `owner` fields of the two token accounts.  The lists agree exactly
where these keys do (`registered_eq_demanded_iff`), which a transfer to an ordinary
token account never meets.
-/
import Oragami.TransferHook.Entry

namespace TransferHook

open Anchor Addresses

/-! ## Resolution -/

variable {K : Type}

/-- A seed on the accounts of the Execute instruction. -/
def MetaSeed.resolve (accounts : List K) : MetaSeed → Option (Seed K)
  | literal bytes => some (.text bytes)
  | accountKey index => accounts[index]?.map .key

variable [Addresses K] [Deployment K]

/-- The address a registered account resolves to. -/
def ExtraAccountMeta.resolve (accounts : List K) (m : ExtraAccountMeta) : Option K := do
  let seeds ← m.seeds.mapM (·.resolve accounts)
  pure (find programId seeds)

/-- The addresses of all of them, in the order registered. -/
def resolveAll (accounts : List K) (metas : List ExtraAccountMeta) : Option (List K) :=
  metas.mapM (·.resolve accounts)

/-- What the `TransferHook` context demands for `compliance_config`, `source_whitelist`
and `destination_whitelist`. -/
def demanded (sourceOwner destinationOwner : K) : List K :=
  [complianceKey, whitelistKey sourceOwner, whitelistKey destinationOwner]

/-- The metas the handler writes resolve by authority and destination account. -/
theorem resolveAll_extraAccountMetas {source mint destination authority : K} :
    resolveAll [source, mint, destination, authority] extraAccountMetas =
      some [complianceKey, whitelistKey authority, whitelistKey destination] := rfl

theorem whitelistKey_inj {owner owner' : K} (h : whitelistKey owner = whitelistKey owner') :
    owner = owner' := by
  have hseeds := (find_inj h).2
  simp only [List.cons.injEq, Seed.key.injEq, and_true, true_and] at hseeds
  exact hseeds

/-! ## Registered against demanded -/

variable [DecidableEq K] {now : Int64} {L : Ledger K} {st st' : State K}

theorem initializeExtraAccountMetas_metas {a : InitializeExtraAccountMetas K}
    (h : initializeExtraAccountMetas a st = .ok st') :
    st'.metas (extraAccountMetasKey a.mint) = some extraAccountMetas := by
  simp only [initializeExtraAccountMetas, bind_eq_ok, seeds_eq_ok, pure_eq_ok] at h
  obtain ⟨_, hkey, _, -, rfl⟩ := h
  rw [← hkey]
  exact Function.update_self ..

/-- An entry passed to the context lives at the address of the token account's owner. -/
theorem loadEntry_some {owner k : K} {o : Option (WhitelistEntry K)}
    (h : st.loadEntry owner (some k) = .ok o) : k = whitelistKey owner := by
  rcases optional_eq_ok.mp h with ⟨hk, -⟩ | ⟨k', e, hk, -, hload⟩
  · cases hk
  · cases hk
    simp only [bind_eq_ok, seeds_eq_ok, pure_eq_ok] at hload
    obtain ⟨_, -, _, hkey, -⟩ := hload
    exact hkey

/-- The handler takes only the accounts demanded, as far as they are passed. -/
theorem transferHook_demands {a : Transfer K} {amount : UInt64}
    {source destination : TokenAccount K} (hs : L.account a.sourceToken = some source)
    (hd : L.account a.destinationToken = some destination)
    (h : transferHook now L a amount st = .ok st') :
    a.complianceConfig = complianceKey ∧
      (∀ k ∈ a.sourceWhitelist, k = whitelistKey source.owner) ∧
      ∀ k ∈ a.destinationWhitelist, k = whitelistKey destination.owner := by
  simp only [transferHook, bind_eq_ok, orFail_eq_ok, hs, hd, Option.some.injEq, exists_eq_left',
    State.loadConfig, pure_eq_ok] at h
  obtain ⟨_, -, config, ⟨config', hconfig, -⟩, se, hse, de, hde, -⟩ := h
  refine ⟨?_, ?_, ?_⟩
  · split at hconfig
    · assumption
    · cases hconfig
  · intro k hk
    rw [Option.mem_def.mp hk] at hse
    exact loadEntry_some hse
  · intro k hk
    rw [Option.mem_def.mp hk] at hde
    exact loadEntry_some hde

/-- With the accounts registered for it, the handler refuses every transfer but those
signed for by the owner and into a token account that is its own owner. -/
theorem transferHook_registered {src mint dst authority metas : K} {amount : UInt64}
    {source destination : TokenAccount K} (hs : L.account src = some source)
    (hd : L.account dst = some destination)
    (h : transferHook now L
      ⟨src, mint, dst, authority, metas, complianceKey, some (whitelistKey authority),
        some (whitelistKey dst)⟩ amount st = .ok st') :
    authority = source.owner ∧ dst = destination.owner := by
  obtain ⟨-, hsource, hdestination⟩ := transferHook_demands hs hd h
  exact ⟨whitelistKey_inj (hsource _ rfl), whitelistKey_inj (hdestination _ rfl)⟩

/-- What is registered for a mint is what a transfer of it is later asked for exactly if
the authority is the owner of the source account and the destination account is its own
owner. -/
theorem registered_eq_demanded_iff {a : InitializeExtraAccountMetas K}
    (h : initializeExtraAccountMetas a st = .ok st') {src dst authority : K}
    {source destination : TokenAccount K} (_hs : L.account src = some source)
    (_hd : L.account dst = some destination) :
    (st'.metas (extraAccountMetasKey a.mint)).bind (resolveAll [src, a.mint, dst, authority]) =
        some (demanded source.owner destination.owner) ↔
      authority = source.owner ∧ dst = destination.owner := by
  rw [initializeExtraAccountMetas_metas h, Option.bind_some, resolveAll_extraAccountMetas]
  constructor
  · intro heq
    simp only [demanded, Option.some.injEq, List.cons.injEq, true_and, and_true] at heq
    exact ⟨whitelistKey_inj heq.1, whitelistKey_inj heq.2⟩
  · rintro ⟨rfl, hdst⟩
    rw [← hdst, demanded]

/-! ## A transfer by the owner -/

/-- The registration for the mint of `pair`. -/
def register : InitializeExtraAccountMetas FreeKey where
  extraAccountMetas := extraAccountMetasKey (.num 9)
  mint := .num 9
  payer := .num 20

/-- Wallet 7 sends to the token account of wallet 8. -/
def payment : List FreeKey := [.num 5, .num 9, .num 6, .num 7]

theorem registered_eq_demanded_iff_payment : ∃ st' : State FreeKey,
    initializeExtraAccountMetas register closed = .ok st' ∧
    ((st'.metas (extraAccountMetasKey (.num 9))).bind (resolveAll payment) =
        some (demanded (.num 7) (.num 8)) ↔
      FreeKey.num 7 = .num 7 ∧ FreeKey.num 6 = .num 8) := by
  obtain ⟨st', h⟩ := ok_of_isOk (show (initializeExtraAccountMetas register closed).isOk by decide)
  exact ⟨st', h, registered_eq_demanded_iff h pair_source pair_destination⟩

/-- The owner signs, and still the registered list names the whitelist entry of a token
account where the context demands that of its owner. -/
theorem registered_ne_demanded : ∃ st' : State FreeKey,
    initializeExtraAccountMetas register closed = .ok st' ∧
    pair.account (.num 5) = some ⟨.token2022, .num 9, .num 7, 100, none, 0, false⟩ ∧
    pair.account (.num 6) = some ⟨.token2022, .num 9, .num 8, 0, none, 0, false⟩ ∧
    (st'.metas (extraAccountMetasKey (.num 9))).bind (resolveAll payment) ≠
      some (demanded (.num 7) (.num 8)) := by
  obtain ⟨st', h⟩ := ok_of_isOk (show (initializeExtraAccountMetas register closed).isOk by decide)
  refine ⟨st', h, pair_source, pair_destination, ?_⟩
  have hmetas : st'.metas (extraAccountMetasKey (.num 9)) = some extraAccountMetas :=
    initializeExtraAccountMetas_metas h
  rw [hmetas]
  decide

end TransferHook
