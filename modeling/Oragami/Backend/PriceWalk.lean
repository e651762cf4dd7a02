/-
# `Oragami.Backend.PriceWalk` — which number of a response becomes the price

`walkForPrice` takes the first positive number it meets.  Under an object it first tries the
keys of a price, but an object has no say over what surrounds it: with nothing under its own
price keys, the walk goes on with whatever else it has, in order, and a number met there is
taken before a price further on.

So the number taken is a price exactly where the way down passes an object with a positive
number under one of its own price keys (`LeadsToPrice`).
-/
import Oragami.Backend.NavPrice

namespace Backend

/-! ## The walk, node by node -/

theorem sizeOf_lt_arr {v : Json} {items : List Json} (h : v ∈ items) :
    sizeOf v < sizeOf (Json.arr items) := by
  have hlt := List.sizeOf_lt_of_mem h
  rw [Json.arr.sizeOf_spec]
  omega

theorem sizeOf_lt_obj {e : String × Json} {entries : List (String × Json)} (h : e ∈ entries) :
    sizeOf e.2 < sizeOf (Json.obj entries) := by
  have hlt := List.sizeOf_lt_of_mem h
  obtain ⟨key, v⟩ := e
  rw [Prod.mk.sizeOf_spec] at hlt
  rw [Json.obj.sizeOf_spec]
  show sizeOf v < _
  omega

/-- What holds of a node if it holds of its children holds of every value. -/
theorem Json.induct {P : Json → Prop} (null : P .null) (bool : ∀ b, P (.bool b))
    (str : ∀ s, P (.str s)) (num : ∀ x, P (.num x))
    (arr : ∀ items, (∀ v ∈ items, P v) → P (.arr items))
    (obj : ∀ entries, (∀ e ∈ entries, P e.2) → P (.obj entries)) : ∀ v, P v
  | .null => null
  | .bool b => bool b
  | .str s => str s
  | .num x => num x
  | .arr items => arr items fun v _ => Json.induct null bool str num arr obj v
  | .obj entries => obj entries fun e _ => Json.induct null bool str num arr obj e.2
termination_by v => sizeOf v
decreasing_by
  · exact sizeOf_lt_arr ‹_›
  · exact sizeOf_lt_obj ‹_›

/-- The entries of an object in the order they are walked: those under the keys of a price, in
the order of the keys, and then the others. -/
def walked (entries : List (String × Json)) : List (String × Json) :=
  (priceKeys.filterMap fun key => (entries.lookup key).map (key, ·)) ++
    entries.filter (·.1 ∉ priceKeys)

theorem walkForPrice_arr (items : List Json) :
    walkForPrice (.arr items) = items.findSome? walkForPrice := by
  rw [walkForPrice]
  induction items with
  | nil => rfl
  | cons item items ih => rw [walkItems, ih, List.findSome?_cons]; cases walkForPrice item <;> rfl

theorem walkEntries_eq (entries : List (String × Json)) :
    walkEntries entries = entries.map fun e => (e.1, walkForPrice e.2) := by
  induction entries with
  | nil => rfl
  | cons e entries ih => rw [walkEntries, ih, List.map_cons]

theorem lookup_walkEntries (entries : List (String × Json)) (key : String) :
    (walkEntries entries).lookup key = (entries.lookup key).map walkForPrice := by
  rw [walkEntries_eq]
  induction entries with
  | nil => rfl
  | cons e entries ih =>
      rw [List.map_cons, List.lookup_cons, List.lookup_cons]
      cases key == e.1
      · exact ih
      · rfl

theorem walkForPrice_obj (entries : List (String × Json)) :
    walkForPrice (.obj entries) = (walked entries).findSome? fun e => walkForPrice e.2 := by
  have hkeys : ∀ keys : List String,
      (keys.findSome? fun key => ((walkEntries entries).lookup key).join) =
        (keys.filterMap fun key => (entries.lookup key).map (key, ·)).findSome?
          fun e => walkForPrice e.2 := by
    intro keys
    induction keys with
    | nil => rfl
    | cons key keys ih =>
        rw [List.findSome?_cons, List.filterMap_cons, lookup_walkEntries]
        cases entries.lookup key with
        | none => exact ih
        | some v =>
            rw [Option.map_some, Option.map_some, Option.join_some, List.findSome?_cons, ih]
  have hrest : ((walkEntries entries).filter (·.1 ∉ priceKeys)).findSome? (·.2) =
      (entries.filter (·.1 ∉ priceKeys)).findSome? fun e => walkForPrice e.2 := by
    rw [walkEntries_eq, List.filter_map, List.findSome?_map]
    rfl
  rw [walkForPrice, pickPrice, walked, List.findSome?_append, hkeys, hrest]

theorem mem_walked {e : String × Json} {entries : List (String × Json)} (h : e ∈ walked entries) :
    e ∈ entries := by
  rcases List.mem_append.mp h with h | h
  · obtain ⟨key, -, hkey⟩ := List.mem_filterMap.mp h
    obtain ⟨v, hv, rfl⟩ := Option.map_eq_some_iff.mp hkey
    obtain ⟨before, after, rfl, -⟩ := List.lookup_eq_some_iff.mp hv
    exact List.mem_append_right _ List.mem_cons_self
  · exact List.mem_of_mem_filter h

/-! ## Where a number is -/

/-- A step into a value. -/
inductive Into where
  | item (i : Nat)
  | key (k : String)

/-- A positive number of a value, by the way to it. -/
inductive At : Json → List Into → Price → Prop
  | here {x : ℚ} (h : 0 < x) : At (.num x) [] ⟨x, h⟩
  | item {items : List Json} {i : Nat} {v : Json} {path : List Into} {p : Price} :
      items[i]? = some v → At v path p → At (.arr items) (.item i :: path) p
  | entry {entries : List (String × Json)} {k : String} {v : Json} {path : List Into}
      {p : Price} : (k, v) ∈ entries → At v path p → At (.obj entries) (.key k :: path) p

/-- The keys that name a price. -/
def quoteKeys : List String := ["value", "lastPrice", "price", "last", "close"]

/-- Some object on the way selects it by one of these. -/
def Priced (path : List Into) : Prop := ∃ k ∈ quoteKeys, .key k ∈ path

/-- The walk takes this number: none before it on the way has one. -/
inductive Finds : Json → List Into → Price → Prop
  | here {x : ℚ} (h : 0 < x) : Finds (.num x) [] ⟨x, h⟩
  | item {before after : List Json} {v : Json} {path : List Into} {p : Price} :
      (∀ u ∈ before, walkForPrice u = none) → Finds v path p →
      Finds (.arr (before ++ v :: after)) (.item before.length :: path) p
  | entry {entries before after : List (String × Json)} {k : String} {v : Json}
      {path : List Into} {p : Price} : walked entries = before ++ (k, v) :: after →
      (∀ e ∈ before, walkForPrice e.2 = none) → Finds v path p →
      Finds (.obj entries) (.key k :: path) p

theorem Finds.walk {v : Json} {path : List Into} {p : Price} (h : Finds v path p) :
    walkForPrice v = some p := by
  induction h with
  | here h => rw [walkForPrice, dif_pos h]
  | @item before after v _ _ hnone _ ih =>
      rw [walkForPrice_arr, List.findSome?_eq_some_iff]
      exact ⟨before, v, after, rfl, ih, hnone⟩
  | @entry entries before after k v _ _ hwalked hnone _ ih =>
      rw [walkForPrice_obj, List.findSome?_eq_some_iff]
      exact ⟨before, (k, v), after, hwalked, ih, hnone⟩

theorem Finds.walk_ne {v : Json} {path : List Into} {p : Price} (h : Finds v path p) :
    walkForPrice v ≠ none := by
  rw [h.walk]
  exact nofun

theorem finds_of_walk {v : Json} : ∀ {p}, walkForPrice v = some p → ∃ path, Finds v path p := by
  induction v using Json.induct with
  | null => intro p h; cases h
  | bool b => intro p h; cases h
  | str s => intro p h; cases h
  | num x =>
      intro p h
      rw [walkForPrice] at h
      split at h
      · cases h
        exact ⟨[], .here _⟩
      · cases h
  | arr items ih =>
      intro p h
      rw [walkForPrice_arr, List.findSome?_eq_some_iff] at h
      obtain ⟨before, v, after, rfl, hv, hnone⟩ := h
      obtain ⟨path, hpath⟩ := ih v (List.mem_append_right _ List.mem_cons_self) hv
      exact ⟨_, .item hnone hpath⟩
  | obj entries ih =>
      intro p h
      rw [walkForPrice_obj, List.findSome?_eq_some_iff] at h
      obtain ⟨before, ⟨k, v⟩, after, hwalked, hv, hnone⟩ := h
      have hmem : (k, v) ∈ entries :=
        mem_walked (hwalked ▸ List.mem_append_right _ List.mem_cons_self)
      obtain ⟨path, hpath⟩ := ih _ hmem hv
      exact ⟨_, .entry hwalked hnone hpath⟩

/-- Two splits of a list at its first element of a kind are one. -/
theorem first_unique {α : Type} {P : α → Prop} {before before' after after' : List α} {x x' : α}
    (h : before ++ x :: after = before' ++ x' :: after') (hbefore : ∀ y ∈ before, ¬ P y)
    (hx : P x) (hbefore' : ∀ y ∈ before', ¬ P y) (hx' : P x') : before = before' ∧ x = x' := by
  classical
  -- what comes before the first is what is taken while there is none
  have htake : ∀ {init rest : List α} {y : α}, (∀ z ∈ init, ¬ P z) → P y →
      (init ++ y :: rest).takeWhile (fun z => decide (¬ P z)) = init := by
    intro init rest y hinit hy
    rw [List.takeWhile_append_of_pos fun z hz => decide_eq_true (hinit z hz),
      List.takeWhile_cons_of_neg (by simpa using hy), List.append_nil]
  have hsame : before = before' := by rw [← htake hbefore hx, h, htake hbefore' hx']
  subst hsame
  exact ⟨rfl, (List.cons.inj (List.append_cancel_left h)).1⟩

/-- There is one way to the number the walk takes. -/
theorem Finds.unique {v : Json} {path path' : List Into} {p p' : Price} (h : Finds v path p)
    (h' : Finds v path' p') : path = path' := by
  induction h generalizing path' p' with
  | here _ =>
      cases h'
      rfl
  | @item before after v path p hnone hfinds ih =>
      generalize hitems : before ++ v :: after = items at h'
      cases h' with
      | @item before' after' v' path' p' hnone' hfinds' =>
          obtain ⟨rfl, rfl⟩ := first_unique (P := fun u => walkForPrice u ≠ none) hitems
            (fun u hu hne => hne (hnone u hu)) hfinds.walk_ne
            (fun u hu hne => hne (hnone' u hu)) hfinds'.walk_ne
          rw [ih hfinds']
  | @entry entries before after k v path p hwalked hnone hfinds ih =>
      cases h' with
      | @entry _ before' after' k' v' path' p' hwalked' hnone' hfinds' =>
          obtain ⟨rfl, hkv⟩ := first_unique (P := fun e => walkForPrice e.2 ≠ none)
            (hwalked.symm.trans hwalked')
            (fun e he hne => hne (hnone e he)) hfinds.walk_ne
            (fun e he hne => hne (hnone' e he)) hfinds'.walk_ne
          obtain ⟨rfl, rfl⟩ := Prod.mk.inj hkv
          rw [ih hfinds']

/-! ## The way down -/

/-- The walk comes to a positive number in it. -/
inductive Shows : Json → Prop
  | num {x : ℚ} : 0 < x → Shows (.num x)
  | item {items : List Json} {v : Json} : v ∈ items → Shows v → Shows (.arr items)
  | entry {entries : List (String × Json)} {k : String} {v : Json} :
      (k, v) ∈ walked entries → Shows v → Shows (.obj entries)

/-- From child to first child with a positive number, an object with one under its own price
keys is met. -/
inductive LeadsToPrice : Json → Prop
  | priced {entries : List (String × Json)} {k : String} {v : Json} : k ∈ quoteKeys →
      entries.lookup k = some v → Shows v → LeadsToPrice (.obj entries)
  | item {before after : List Json} {v : Json} : (∀ u ∈ before, ¬ Shows u) → LeadsToPrice v →
      LeadsToPrice (.arr (before ++ v :: after))
  | entry {entries before after : List (String × Json)} {k : String} {v : Json} :
      walked entries = before ++ (k, v) :: after → (∀ e ∈ before, ¬ Shows e.2) → LeadsToPrice v →
      LeadsToPrice (.obj entries)

theorem Finds.shows {v : Json} {path : List Into} {p : Price} (h : Finds v path p) : Shows v := by
  induction h with
  | here h => exact .num h
  | item _ _ ih => exact .item (List.mem_append_right _ List.mem_cons_self) ih
  | entry hwalked _ _ ih =>
      exact .entry (hwalked ▸ List.mem_append_right _ List.mem_cons_self) ih

theorem Shows.walk {v : Json} (h : Shows v) : walkForPrice v ≠ none := by
  induction h with
  | num h =>
      rw [walkForPrice, dif_pos h]
      exact nofun
  | item hmem _ ih =>
      rw [walkForPrice_arr, ne_eq, List.findSome?_eq_none_iff]
      exact fun hall => ih (hall _ hmem)
  | entry hmem _ ih =>
      rw [walkForPrice_obj, ne_eq, List.findSome?_eq_none_iff]
      exact fun hall => ih (hall _ hmem)

theorem walk_eq_none {v : Json} : walkForPrice v = none ↔ ¬ Shows v := by
  constructor
  · exact fun hnone hshows => hshows.walk hnone
  · intro hshows
    cases hwalk : walkForPrice v with
    | none => rfl
    | some p =>
        obtain ⟨path, hfinds⟩ := finds_of_walk hwalk
        exact absurd hfinds.shows hshows

theorem Shows.finds {v : Json} (h : Shows v) : ∃ path p, Finds v path p := by
  obtain ⟨p, hp⟩ := Option.ne_none_iff_exists'.mp h.walk
  obtain ⟨path, hfinds⟩ := finds_of_walk hp
  exact ⟨path, p, hfinds⟩

/-- The entries under the keys of a price come first. -/
theorem walked_eq (entries : List (String × Json)) : ∃ others, walked entries =
    (quoteKeys.filterMap fun key => (entries.lookup key).map (key, ·)) ++ others := by
  have hkeys : priceKeys = quoteKeys ++ ["intradaySnapshot"] := rfl
  rw [walked, hkeys, List.filterMap_append, List.append_assoc]
  exact ⟨_, rfl⟩

theorem mem_quoted {entries : List (String × Json)} {k : String} {v : Json} :
    (k, v) ∈ (quoteKeys.filterMap fun key => (entries.lookup key).map (key, ·)) ↔
      k ∈ quoteKeys ∧ entries.lookup k = some v := by
  simp only [List.mem_filterMap, Option.map_eq_some_iff, Prod.mk.injEq]
  constructor
  · rintro ⟨key, hkey, v', hv, rfl, rfl⟩
    exact ⟨hkey, hv⟩
  · rintro ⟨hk, hv⟩
    exact ⟨k, hk, v, hv, rfl, rfl⟩

/-- An entry walked under the key of a price is the object's own. -/
theorem lookup_of_walked {entries : List (String × Json)} {k : String} {v : Json}
    (hk : k ∈ quoteKeys) (h : (k, v) ∈ walked entries) : entries.lookup k = some v := by
  have hprice : k ∈ priceKeys :=
    (show quoteKeys ⊆ priceKeys from List.subset_append_left _ ["intradaySnapshot"]) hk
  rcases List.mem_append.mp h with h | h
  · obtain ⟨key, -, hkey⟩ := List.mem_filterMap.mp h
    obtain ⟨v', hv, heq⟩ := Option.map_eq_some_iff.mp hkey
    obtain ⟨rfl, rfl⟩ := Prod.mk.inj heq
    exact hv
  · exact absurd hprice (by simpa using (List.mem_filter.mp h).2)

theorem Priced.cons {step : Into} {path : List Into} (h : Priced path) : Priced (step :: path) := by
  obtain ⟨k, hk, hmem⟩ := h
  exact ⟨k, hk, List.mem_cons_of_mem _ hmem⟩

/-- A list with an element of a kind has a first one. -/
theorem exists_first {α : Type} {P : α → Prop} {l : List α} (h : ∃ x ∈ l, P x) :
    ∃ before x after, l = before ++ x :: after ∧ (∀ y ∈ before, ¬ P y) ∧ P x := by
  classical
  obtain ⟨x, hmem, hx⟩ := h
  have hfound : (l.find? fun y => decide (P y)).isSome :=
    List.find?_isSome.mpr ⟨x, hmem, decide_eq_true hx⟩
  obtain ⟨y, hy⟩ := Option.isSome_iff_exists.mp hfound
  obtain ⟨hPy, before, after, rfl, hbefore⟩ := List.find?_eq_some_iff_append.mp hy
  exact ⟨before, y, after, rfl, fun z hz => by simpa using hbefore z hz, of_decide_eq_true hPy⟩

theorem LeadsToPrice.finds {v : Json} (h : LeadsToPrice v) :
    ∃ path p, Finds v path p ∧ Priced path := by
  induction h with
  | @priced entries k v hk hlookup hshows =>
      -- the first such entry comes before the entries under other keys
      obtain ⟨before, ⟨key, u⟩, after, hsplit, hbefore, hu⟩ :=
        exists_first (P := fun e => Shows e.2) ⟨(k, v), mem_quoted.mpr ⟨hk, hlookup⟩, hshows⟩
      have hkey : key ∈ quoteKeys :=
        (mem_quoted.mp (hsplit ▸ List.mem_append_right _ List.mem_cons_self)).1
      obtain ⟨others, hwalked⟩ := walked_eq entries
      rw [hsplit, List.append_assoc, List.cons_append] at hwalked
      obtain ⟨path, p, hfinds⟩ := hu.finds
      exact ⟨_, p, .entry hwalked (fun e he => walk_eq_none.mpr (hbefore e he)) hfinds,
        key, hkey, List.mem_cons_self⟩
  | item hbefore _ ih =>
      obtain ⟨path, p, hfinds, hpriced⟩ := ih
      exact ⟨_, p, .item (fun u hu => walk_eq_none.mpr (hbefore u hu)) hfinds, hpriced.cons⟩
  | entry hwalked hbefore _ ih =>
      obtain ⟨path, p, hfinds, hpriced⟩ := ih
      exact ⟨_, p, .entry hwalked (fun e he => walk_eq_none.mpr (hbefore e he)) hfinds,
        hpriced.cons⟩

theorem Finds.leads {v : Json} {path : List Into} {p : Price} (h : Finds v path p)
    (hpriced : Priced path) : LeadsToPrice v := by
  induction h with
  | here _ =>
      obtain ⟨_, -, hmem⟩ := hpriced
      cases hmem
  | item hnone _ ih =>
      obtain ⟨k, hk, hmem⟩ := hpriced
      cases hmem with
      | tail _ hmem => exact .item (fun u hu => walk_eq_none.mp (hnone u hu)) (ih ⟨k, hk, hmem⟩)
  | @entry entries before after key v path p hwalked hnone hfinds ih =>
      obtain ⟨k, hk, hmem⟩ := hpriced
      rcases List.mem_cons.mp hmem with heq | hmem
      · cases heq
        have hwalk : (key, v) ∈ walked entries :=
          hwalked ▸ List.mem_append_right _ List.mem_cons_self
        exact .priced hk (lookup_of_walked hk hwalk) hfinds.shows
      · exact .entry hwalked (fun e he => walk_eq_none.mp (hnone e he)) (ih ⟨k, hk, hmem⟩)

/-- The number the walk takes is a price, where there is one in the value, exactly if the way
down leads to one. -/
theorem walk_prefers_price_iff (v : Json) :
    (∀ p, walkForPrice v = some p ↔ ∃ path, Finds v path p) ∧
    (∀ path path' p p', Finds v path p → Finds v path' p' → path = path') ∧
    (((∃ path p, At v path p ∧ Priced path) → ∃ path p, Finds v path p ∧ Priced path) ↔
      ((∃ path p, At v path p ∧ Priced path) → LeadsToPrice v)) := by
  refine ⟨fun p => ⟨finds_of_walk, ?_⟩, fun _ _ _ _ h h' => h.unique h', ?_⟩
  · rintro ⟨path, hfinds⟩
    exact hfinds.walk
  · refine imp_congr_right fun _ => ⟨?_, LeadsToPrice.finds⟩
    rintro ⟨path, p, hfinds, hpriced⟩
    exact hfinds.leads hpriced

/-- A status before the data. -/
def statusFirst : Json := .obj [("status", .num 200), ("data", .obj [("value", .num 3)])]

/-- The status is taken, and the one price of the response is another number. -/
theorem walk_takes_status :
    (∃ path p, At statusFirst path p ∧ Priced path) ∧
      (walkForPrice statusFirst).map (·.1) = some 200 ∧
      ∀ path p, At statusFirst path p → Priced path → p.1 = 3 := by
  have hpos : (0 : ℚ) < 3 := by decide
  refine ⟨⟨[.key "data", .key "value"], ⟨3, hpos⟩, ?_, "value", by decide, ?_⟩, ?_, ?_⟩
  · exact .entry (List.mem_cons_of_mem _ List.mem_cons_self)
      (.entry List.mem_cons_self (.here hpos))
  · exact List.mem_cons_of_mem _ List.mem_cons_self
  · rfl
  · rintro path p (_ | _ | ⟨hmem, hat⟩) ⟨k, hk, hpath⟩
    rcases List.mem_cons.mp hmem with heq | hmem
    · cases heq
      cases hat
      cases List.mem_singleton.mp hpath
      exact absurd hk (by decide)
    · cases List.mem_singleton.mp hmem
      cases hat with
      | entry hmem hat =>
          cases List.mem_singleton.mp hmem
          cases hat
          rfl

end Backend
