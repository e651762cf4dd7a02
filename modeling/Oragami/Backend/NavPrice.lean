/-
# `Oragami.Backend.NavPrice` — what the NAV crank computes

`nav-crank.service.ts` turns two prices of SIX and the price of eUSX into a NAV.  A price
weighs by how far it is from its baseline, the first price the process came to see of the
asset.  The baselines and the last prices are fields of the service, and with the process
they are gone.

Two things follow for every observation.  The NAV is in `[5000, 20000]` and any of them is
the NAV of some gold price (`observedNav_surjective`).  And a restart is forgotten just
by the processes that had seen no price before (`restart_unnoticed_iff`).
-/
import Mathlib.Algebra.Order.Field.Rat
import Mathlib.Data.Rat.Floor
import Mathlib.Tactic.FieldSimp
import Mathlib.Tactic.Linarith
import Mathlib.Tactic.NormNum
import Mathlib.Tactic.Ring

namespace Backend

/-! ## Prices in a response -/

/-- A value of `JSON.parse`, its numbers taken exactly.  The entries of an object are in
the order `Object.entries` gives them. -/
inductive Json where
  | null
  | bool (b : Bool)
  | str (s : String)
  | num (x : ℚ)
  | arr (items : List Json)
  | obj (entries : List (String × Json))

/-- A price: a number the walk below lets through. -/
abbrev Price := {x : ℚ // 0 < x}

def par : Price := ⟨1, by decide⟩

/-- The keys of an object that are walked first, in this order. -/
def priceKeys : List String := ["value", "lastPrice", "price", "last", "close", "intradaySnapshot"]

/-- The price of an object, from what is found under each of its keys. -/
def pickPrice (found : List (String × Option Price)) : Option Price :=
  (priceKeys.findSome? fun key => (found.lookup key).join).or
    ((found.filter (·.1 ∉ priceKeys)).findSome? (·.2))

mutual

/-- The first positive number. -/
def walkForPrice : Json → Option Price
  | .num x => if h : 0 < x then some ⟨x, h⟩ else none
  | .arr items => walkItems items
  | .obj entries => pickPrice (walkEntries entries)
  | .null => none
  | .bool _ => none
  | .str _ => none

def walkItems : List Json → Option Price
  | [] => none
  | item :: items => (walkForPrice item).or (walkItems items)

def walkEntries : List (String × Json) → List (String × Option Price)
  | [] => []
  | (key, v) :: entries => (key, walkForPrice v) :: walkEntries entries

end

/-- A response is an object or it has no price. -/
def extractPrice : Json → Option Price
  | .arr items => walkForPrice (.arr items)
  | .obj entries => walkForPrice (.obj entries)
  | .null => none
  | .bool _ => none
  | .str _ => none
  | .num _ => none

/-- A response with one price in it. -/
def quoted (p : Price) : Json := .obj [("value", .num p)]

theorem extractPrice_quoted (p : Price) : extractPrice (quoted p) = some p := by
  show pickPrice [("value", if h : 0 < p.1 then some ⟨p.1, h⟩ else none)] = some p
  rw [dif_pos p.2]
  rfl

/-! ## Fields of the service -/

/-- The fields of `NavCrankService`. -/
structure Fields where
  lastGoldPrice : Option Price
  lastChfUsd : Option Price
  baselineGoldPrice : Option Price
  baselineChfUsd : Option Price
  lastOnChainUpdateMs : Int

/-- A process that has just started. -/
def Fields.started : Fields where
  lastGoldPrice := none
  lastChfUsd := none
  baselineGoldPrice := none
  baselineChfUsd := none
  lastOnChainUpdateMs := 0

/-- The price in an answer of SIX; a call that throws has none. -/
def fetchedPrice (raw : Option Json) : Option Price := raw.bind extractPrice

/-- `if (goldPrice !== null) this.lastGoldPrice = goldPrice`. -/
def Fields.cacheGold (f : Fields) (goldPrice : Option Price) : Fields :=
  { f with lastGoldPrice := goldPrice.or f.lastGoldPrice }

def Fields.cacheChf (f : Fields) (chfUsd : Option Price) : Fields :=
  { f with lastChfUsd := chfUsd.or f.lastChfUsd }

/-- The prices a NAV is computed from. -/
structure Quotes where
  goldPrice : Option Price
  chfUsd : Option Price
  sixSource : String

/-- A price that was not fetched is the last one that was. -/
def Fields.quotes (f : Fields) (goldPrice chfUsd : Option Price) : Quotes where
  goldPrice := goldPrice.or f.lastGoldPrice
  chfUsd := chfUsd.or f.lastChfUsd
  sixSource :=
    if goldPrice.isNone ∧ f.lastGoldPrice.isSome ∨ chfUsd.isNone ∧ f.lastChfUsd.isSome
    then "SIX-cached" else "SIX"

/-- `getEusxNav`, which answers with a price; `1` where it throws. -/
def eusxOr (answer : Option Price) : Price := answer.getD par

/-! ## `computeNavBps` -/

def weightGoldBps : ℚ := 5000
def weightChfBps : ℚ := 3000
def weightUsxBps : ℚ := 2000

/-- A price against its baseline, `1` where there is none.  That the baseline is positive,
which the source asks too, it is as a price. -/
def priceFactor : Option Price → Option Price → ℚ
  | some p, some baseline => p / baseline
  | some _, none => 1
  | none, _ => 1

/-- The first price seen is the baseline. -/
def Fields.setBaselines (f : Fields) (q : Quotes) : Fields :=
  { f with
    baselineGoldPrice := f.baselineGoldPrice.or q.goldPrice
    baselineChfUsd := f.baselineChfUsd.or q.chfUsd }

def navFloat (f : Fields) (q : Quotes) (eusxNav : ℚ) : ℚ :=
  weightGoldBps / 10000 * priceFactor q.goldPrice f.baselineGoldPrice +
    weightChfBps / 10000 * priceFactor q.chfUsd f.baselineChfUsd + weightUsxBps / 10000 * eusxNav

/-- The NAV, and the fields with the baselines it was computed against.  The allocation and the
current NAV, which the source passes as well, it does not use. -/
def computeNavBps (f : Fields) (q : Quotes) (eusxNav : ℚ) : Int × Fields :=
  (max 5000 (min 20000 (round (navFloat (f.setBaselines q) q eusxNav * 10000))), f.setBaselines q)

theorem le_computeNavBps (f : Fields) (q : Quotes) (eusxNav : ℚ) :
    5000 ≤ (computeNavBps f q eusxNav).1 := le_max_left ..

theorem computeNavBps_le (f : Fields) (q : Quotes) (eusxNav : ℚ) :
    (computeNavBps f q eusxNav).1 ≤ 20000 := max_le (by decide) (min_le_left ..)

/-! ## From one observation to the next -/

/-- What a run of the crank hears of the market. -/
structure Observation where
  gold : Option Json
  chf : Option Json
  eusx : Option Price

/-- The prices of a run, and the fields once both are cached. -/
def Fields.observe (f : Fields) (o : Observation) : Quotes × Fields :=
  let goldPrice := fetchedPrice o.gold
  let chfUsd := fetchedPrice o.chf
  let f := (f.cacheGold goldPrice).cacheChf chfUsd
  (f.quotes goldPrice chfUsd, f)

/-- The NAV of a run, and the fields it leaves. -/
def observedNav (f : Fields) (o : Observation) : Int × Fields :=
  computeNavBps (f.observe o).2 (f.observe o).1 (eusxOr o.eusx).1

/-- The NAVs of one run after the other. -/
def navs : Fields → List Observation → List Int
  | _, [] => []
  | f, o :: os => (observedNav f o).1 :: navs (observedNav f o).2 os

/-- The fields after some runs. -/
def Fields.after : Fields → List Observation → Fields
  | f, [] => f
  | f, o :: os => (observedNav f o).2.after os

/-- The time of the last update has no part in it. -/
theorem navs_updated (f : Fields) (ms : Int) (os : List Observation) :
    navs { f with lastOnChainUpdateMs := ms } os = navs f os := by
  induction os generalizing f with
  | nil => rfl
  | cons o os ih => exact congrArg _ (ih (observedNav f o).2)

theorem or_idem (a b : Option Price) : a.or (a.or b) = a.or b := by
  rw [← Option.or_assoc, Option.or_self]

theorem or_again (a b : Option Price) : (a.or b).or b = a.or b := by
  rw [Option.or_assoc, Option.or_self]

/-- Told the same again, a run computes the same again. -/
theorem observedNav_again (f : Fields) (o : Observation) :
    (observedNav (observedNav f o).2 o).1 = (observedNav f o).1 := by
  simp only [observedNav, computeNavBps, navFloat, Fields.observe, Fields.quotes,
    Fields.setBaselines, Fields.cacheGold, Fields.cacheChf, or_idem, or_again]

/-- The two assets quoted, and eUSX at one. -/
def quotedBoth (gold chf : Price) : Observation := ⟨some (quoted gold), some (quoted chf), none⟩

/-- The NAV of two factors with eUSX at one. -/
def factorNav (goldFactor chfFactor : ℚ) : Int :=
  max 5000 (min 20000 (round ((1 / 2 * goldFactor + 3 / 10 * chfFactor + 1 / 5) * 10000)))

/-- They weigh against their baselines, or against themselves where there are none. -/
theorem navs_quotedBoth (f : Fields) (gold chf : Price) :
    navs f [quotedBoth gold chf] = [factorNav (gold.1 / (f.baselineGoldPrice.getD gold).1)
      (chf.1 / (f.baselineChfUsd.getD chf).1)] := by
  have hnav : (observedNav f (quotedBoth gold chf)).1 = (computeNavBps
      ((f.cacheGold (some gold)).cacheChf (some chf)) ⟨some gold, some chf, "SIX"⟩ 1).1 := by
    simp only [observedNav, Fields.observe, quotedBoth, fetchedPrice, Option.bind_some,
      extractPrice_quoted]
    rfl
  have hgold : priceFactor (some gold) (f.baselineGoldPrice.or (some gold)) =
      gold.1 / (f.baselineGoldPrice.getD gold).1 := by
    cases f.baselineGoldPrice <;> rfl
  have hchf : priceFactor (some chf) (f.baselineChfUsd.or (some chf)) =
      chf.1 / (f.baselineChfUsd.getD chf).1 := by
    cases f.baselineChfUsd <;> rfl
  show [(observedNav f (quotedBoth gold chf)).1] = _
  rw [hnav]
  show [max 5000 (min 20000 (round ((5000 / 10000 *
    priceFactor (some gold) (f.baselineGoldPrice.or (some gold)) + 3000 / 10000 *
      priceFactor (some chf) (f.baselineChfUsd.or (some chf)) + 2000 / 10000 * 1) * 10000)))] = _
  rw [hgold, hchf, factorNav]
  norm_num

/-- A process that was told both are at one dollar. -/
def Fields.atPar : Fields := Fields.started.after [quotedBoth par par]

theorem navs_atPar (p : Price) :
    navs .atPar [quotedBoth p par] = [max 5000 (min 20000 (round (5000 * p.1 + 5000)))] := by
  have hgold : Fields.atPar.baselineGoldPrice.getD p = par := rfl
  have hchf : Fields.atPar.baselineChfUsd.getD par = par := rfl
  have hsum : (1 / 2 * (p.1 / 1) + 3 / 10 * (1 / 1) + 1 / 5) * 10000 = 5000 * p.1 + 5000 := by ring
  rw [navs_quotedBoth, hgold, hchf]
  show [max 5000 (min 20000 (round ((1 / 2 * (p.1 / 1) + 3 / 10 * (1 / 1) + 1 / 5) * 10000)))] = _
  rw [hsum]

/-- Every NAV in the range is the NAV of a gold price. -/
theorem observedNav_surjective {n : Int} (hlo : 5000 ≤ n) (hhi : n ≤ 20000) :
    ∃ p : Price, (observedNav .atPar (quotedBoth p par)).1 = n := by
  rcases Int.lt_or_eq_of_le hlo with hlt | heq
  · have hpos : (0 : ℚ) < n - 5000 := by
      have hcast : ((5000 : Int) : ℚ) < n := Int.cast_lt.mpr hlt
      norm_num at hcast
      linarith
    refine ⟨⟨(n - 5000) / 5000, div_pos hpos (by norm_num)⟩, ?_⟩
    have hexact : 5000 * (((n : ℚ) - 5000) / 5000) + 5000 = n := by
      field_simp
      ring
    have hnavs := navs_atPar ⟨(n - 5000) / 5000, div_pos hpos (by norm_num)⟩
    rw [hexact, round_intCast, min_eq_right hhi, max_eq_right hlo] at hnavs
    exact List.head_eq_of_cons_eq hnavs
  · -- no price is zero, but one is small enough
    refine ⟨⟨1 / 100000, by norm_num⟩, ?_⟩
    rw [List.head_eq_of_cons_eq (navs_atPar ⟨1 / 100000, by norm_num⟩), ← heq]
    decide +kernel

/-! ## Restarts -/

/-- A run that was told no price. -/
def Observation.Blind (o : Observation) : Prop :=
  fetchedPrice o.gold = none ∧ fetchedPrice o.chf = none

theorem observedNav_blind {o : Observation} (h : o.Blind) :
    (observedNav .started o).2 = .started := by
  obtain ⟨hgold, hchf⟩ := h
  simp only [observedNav, computeNavBps, Fields.observe, hgold, hchf]
  rfl

theorem after_blind {os : List Observation} (h : ∀ o ∈ os, o.Blind) :
    Fields.started.after os = .started := by
  induction os with
  | nil => rfl
  | cons o os ih =>
      show (observedNav .started o).2.after os = _
      rw [observedNav_blind (h o List.mem_cons_self)]
      exact ih fun o' ho' => h o' (List.mem_cons_of_mem o ho')

/-- A baseline is kept, -/
theorem after_kept {baseline : Fields → Option Price} {p : Price}
    (hkeep : ∀ {f} o, baseline f = some p → baseline (observedNav f o).2 = some p) {f : Fields}
    (h : baseline f = some p) (os : List Observation) : baseline (f.after os) = some p := by
  induction os generalizing f with
  | nil => exact h
  | cons o os ih => exact ih (hkeep o h)

/-- and there is one once there was a price. -/
theorem after_seen {baseline : Fields → Option Price} {p : Observation → Option Price}
    (hstep : ∀ f o, ∃ last, baseline (observedNav f o).2 = (baseline f).or ((p o).or last))
    {os : List Observation} {o : Observation} (ho : o ∈ os) (h : p o ≠ none) (f : Fields) :
    ∃ b, baseline (f.after os) = some b := by
  induction os generalizing f with
  | nil => cases ho
  | cons o' os ih =>
      rcases List.mem_cons.mp ho with rfl | hmem
      · obtain ⟨x, hx⟩ := Option.ne_none_iff_exists'.mp h
        have hset : ∃ b, baseline (observedNav f o).2 = some b := by
          obtain ⟨last, hlast⟩ := hstep f o
          rw [hlast, hx]
          cases baseline f with
          | none => exact ⟨x, rfl⟩
          | some b => exact ⟨b, rfl⟩
        obtain ⟨b, hb⟩ := hset
        refine ⟨b, after_kept ?_ hb os⟩
        intro f o hf
        obtain ⟨last, hlast⟩ := hstep f o
        rw [hlast, hf]
        rfl
      · exact ih hmem (observedNav f o').2

theorem after_seenGold {os : List Observation} {o : Observation} (ho : o ∈ os)
    (h : fetchedPrice o.gold ≠ none) (f : Fields) : ∃ p, (f.after os).baselineGoldPrice = some p :=
  after_seen (p := fun o => fetchedPrice o.gold) (fun f _ => ⟨f.lastGoldPrice, by
    show f.baselineGoldPrice.or (Option.or _ (Option.or _ _)) = _
    rw [or_idem]⟩) ho h f

theorem after_seenChf {os : List Observation} {o : Observation} (ho : o ∈ os)
    (h : fetchedPrice o.chf ≠ none) (f : Fields) : ∃ p, (f.after os).baselineChfUsd = some p :=
  after_seen (p := fun o => fetchedPrice o.chf) (fun f _ => ⟨f.lastChfUsd, by
    show f.baselineChfUsd.or (Option.or _ (Option.or _ _)) = _
    rw [or_idem]
    rfl⟩) ho h f

theorem div_price (p : Price) : p.1 / p.1 = 1 := div_self (ne_of_gt p.2)

def Price.double (p : Price) : Price := ⟨2 * p.1, by linarith [p.2]⟩

theorem Price.double_div (p : Price) : p.double.1 / p.1 = 2 :=
  mul_div_cancel_right₀ 2 (ne_of_gt p.2)

/-- To a process just started everything is at its baseline. -/
theorem navs_started (gold chf : Price) : navs .started [quotedBoth gold chf] = [10000] := by
  rw [navs_quotedBoth]
  show [factorNav (gold.1 / gold.1) (chf.1 / chf.1)] = _
  rw [div_price, div_price]
  decide +kernel

theorem exists_at_baseline (baseline : Option Price) : ∃ p, baseline.getD p = p := by
  cases baseline with
  | none => exact ⟨par, rfl⟩
  | some b => exact ⟨b, rfl⟩

/-- A price seen before a restart is missed when it doubles. -/
theorem restart_noticed {f : Fields} {b : Price}
    (h : f.baselineGoldPrice = some b ∨ f.baselineChfUsd = some b) :
    ∃ later, navs f later ≠ navs .started later := by
  rcases h with hgold | hchf
  · obtain ⟨c, hc⟩ := exists_at_baseline f.baselineChfUsd
    refine ⟨[quotedBoth b.double c], ?_⟩
    rw [navs_started, navs_quotedBoth, hgold, hc, Option.getD_some, b.double_div, div_price]
    decide +kernel
  · obtain ⟨g, hg⟩ := exists_at_baseline f.baselineGoldPrice
    refine ⟨[quotedBoth g b.double], ?_⟩
    rw [navs_started, navs_quotedBoth, hchf, hg, Option.getD_some, b.double_div, div_price]
    decide +kernel

/-- A restart goes unnoticed, whatever comes later, if and only if the process had not been told
a price. -/
theorem restart_unnoticed_iff (before : List Observation) (ms : Int) :
    (∀ later, navs { Fields.started.after before with lastOnChainUpdateMs := ms } later =
      navs .started later) ↔ ∀ o ∈ before, o.Blind := by
  simp only [navs_updated]
  constructor
  · intro h o ho
    constructor
    · by_contra hgold
      obtain ⟨b, hb⟩ := after_seenGold ho hgold .started
      obtain ⟨later, hne⟩ := restart_noticed (.inl hb)
      exact hne (h later)
    · by_contra hchf
      obtain ⟨b, hb⟩ := after_seenChf ho hchf .started
      obtain ⟨later, hne⟩ := restart_noticed (.inr hb)
      exact hne (h later)
  · intro h later
    rw [after_blind h]

/-- Gold at 2000, then at 2100: up by a twentieth, or a new baseline. -/
theorem restart_reprices :
    let at2000 : Observation := quotedBoth ⟨2000, by decide⟩ par
    let at2100 : Observation := quotedBoth ⟨2100, by decide⟩ par
    navs (Fields.started.after [at2000]) [at2100] = [10250] ∧ navs .started [at2100] = [10000] := by
  intro at2000 at2100
  refine ⟨?_, navs_started _ _⟩
  have hgold : (Fields.started.after [at2000]).baselineGoldPrice = some ⟨2000, by decide⟩ := rfl
  have hchf : (Fields.started.after [at2000]).baselineChfUsd = some par := rfl
  rw [navs_quotedBoth, hgold, hchf]
  decide +kernel

end Backend
