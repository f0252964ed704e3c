import Mathlib.Data.Finset.Card
import Mathlib.Data.List.Nodup
import Mathlib.Data.Nat.Notation

/-!
# Caches with a time to live

A bounded cache serves an entry for a while after it was set. An entry past that time is
not served, and one that was used least recently is evicted when there are more keys than
the cache holds. What a cache promises is stated by the entries it holds and the times at
which they were set; a list in the order of use keeps these promises.

## Main definitions

* `LruCache` — the operations of a cache, with the entries it holds
* `LruCache.Lawful` — what they promise
* `LruCache.recency` — a cache that keeps its entries in the order of their use

## Main results

* `LruCache.recency_lawful` — that cache keeps the promises
-/

/-- The operations of a cache. An entry is held with the time at which it was set. -/
structure LruCache (K V : Type) where
  Cache : Type
  /-- An empty cache of a capacity and a time to live. -/
  empty : ℕ → ℕ → Cache
  get : Cache → ℕ → K → Option V × Cache
  has : Cache → ℕ → K → Bool
  set : Cache → ℕ → K → V → Cache
  /-- A held value is changed in place. -/
  modify : Cache → K → (V → V) → Cache
  capacity : Cache → ℕ
  ttl : Cache → ℕ
  held : Cache → K → Option (V × ℕ)

namespace LruCache

variable {K V : Type} (lru : LruCache K V)

/-- What is served at a time: an entry that is held and not past its time to live. -/
def served (cache : lru.Cache) (now : ℕ) (key : K) : Option V :=
  match lru.held cache key with
  | some entry => if now ≤ entry.2 + lru.ttl cache then some entry.1 else none
  | none => none

/-- What the operations promise. -/
structure Lawful [DecidableEq K] : Prop where
  capacity_empty : ∀ capacity ttl, lru.capacity (lru.empty capacity ttl) = capacity
  ttl_empty : ∀ capacity ttl, lru.ttl (lru.empty capacity ttl) = ttl
  held_empty : ∀ capacity ttl key, lru.held (lru.empty capacity ttl) key = none
  get_value : ∀ cache now key, (lru.get cache now key).1 = lru.served cache now key
  /-- Only an entry past its time is dropped by a look. -/
  get_held : ∀ cache now key key', lru.held (lru.get cache now key).2 key' = lru.held cache key' ∨
    lru.held (lru.get cache now key).2 key' = none ∧ lru.served cache now key' = none
  get_capacity : ∀ cache now key, lru.capacity (lru.get cache now key).2 = lru.capacity cache
  get_ttl : ∀ cache now key, lru.ttl (lru.get cache now key).2 = lru.ttl cache
  has_eq : ∀ cache now key, lru.has cache now key = (lru.served cache now key).isSome
  set_self : ∀ cache now key value, 0 < lru.capacity cache →
    lru.held (lru.set cache now key value) key = some (value, now)
  set_other : ∀ cache now key value key', key' ≠ key →
    lru.held (lru.set cache now key value) key' = lru.held cache key' ∨
      lru.held (lru.set cache now key value) key' = none
  /-- Nothing is evicted while there is room for all keys. -/
  set_kept : ∀ cache now key value (keys : Finset K), key ∈ keys →
    keys.card ≤ lru.capacity cache → (∀ key', lru.held cache key' ≠ none → key' ∈ keys) →
    ∀ key' ≠ key, lru.held (lru.set cache now key value) key' = lru.held cache key'
  set_capacity : ∀ cache now key value,
    lru.capacity (lru.set cache now key value) = lru.capacity cache
  set_ttl : ∀ cache now key value, lru.ttl (lru.set cache now key value) = lru.ttl cache
  modify_held : ∀ cache key change key', lru.held (lru.modify cache key change) key' =
    if key' = key then (lru.held cache key).map (Prod.map change id) else lru.held cache key'
  modify_capacity : ∀ cache key change,
    lru.capacity (lru.modify cache key change) = lru.capacity cache
  modify_ttl : ∀ cache key change, lru.ttl (lru.modify cache key change) = lru.ttl cache

variable {lru}

theorem served_eq_some {cache : lru.Cache} {now : ℕ} {key : K} {value : V} :
    lru.served cache now key = some value ↔
      ∃ time, lru.held cache key = some (value, time) ∧ now ≤ time + lru.ttl cache := by
  unfold served
  cases h : lru.held cache key with
  | none => simp
  | some entry =>
    obtain ⟨v, time⟩ := entry
    simp only [Option.ite_none_right_eq_some, Option.some.injEq, Prod.mk.injEq]
    constructor
    · rintro ⟨hfresh, rfl⟩
      exact ⟨time, ⟨rfl, rfl⟩, hfresh⟩
    · rintro ⟨_, ⟨rfl, rfl⟩, hfresh⟩
      exact ⟨hfresh, rfl⟩

section Laws

variable [DecidableEq K] (h : lru.Lawful) {cache : lru.Cache} {now : ℕ} {key key' : K} {value : V}

include h

/-- What is held after a look was held before. -/
theorem Lawful.held_of_get {entry : V × ℕ}
    (hheld : lru.held (lru.get cache now key).2 key' = some entry) :
    lru.held cache key' = some entry := by
  rcases h.get_held cache now key key' with hsame | ⟨hnone, -⟩
  · rwa [hsame] at hheld
  · rw [hnone] at hheld
    cases hheld

/-- What is held after a write was written or held before. -/
theorem Lawful.held_of_set (hcapacity : 0 < lru.capacity cache) {entry : V × ℕ}
    (hheld : lru.held (lru.set cache now key value) key' = some entry) :
    key' = key ∧ entry = (value, now) ∨ lru.held cache key' = some entry := by
  by_cases hkey : key' = key
  · subst hkey
    rw [h.set_self _ _ _ _ hcapacity] at hheld
    exact Or.inl ⟨rfl, (Option.some.inj hheld).symm⟩
  · right
    rcases h.set_other cache now key value key' hkey with hsame | hnone
    · rwa [hsame] at hheld
    · rw [hnone] at hheld
      cases hheld

/-- What is served at a time by the cache was set at most its time to live before. -/
theorem Lawful.held_of_has (hhas : lru.has cache now key = true) :
    ∃ value time, lru.held cache key = some (value, time) ∧ now ≤ time + lru.ttl cache := by
  rw [h.has_eq] at hhas
  obtain ⟨value, hvalue⟩ := Option.isSome_iff_exists.mp hhas
  exact ⟨value, served_eq_some.mp hvalue⟩

end Laws

/-! ### A list in the order of use -/

/-- Entries in the order of their use, the last one first. -/
structure RecencyCache (K V : Type) where
  capacity : ℕ
  ttl : ℕ
  entries : List (K × V × ℕ)
  nodup : (entries.map Prod.fst).Nodup
  bounded : entries.length ≤ capacity

namespace RecencyCache

variable {K V : Type} [DecidableEq K]

/-- The entry of a key in a list. -/
def find (key : K) (entries : List (K × V × ℕ)) : Option (V × ℕ) :=
  (entries.find? fun entry => entry.1 = key).map Prod.snd

/-- A list without a key. -/
def without (key : K) (entries : List (K × V × ℕ)) : List (K × V × ℕ) :=
  entries.filter fun entry => entry.1 ≠ key

@[simp] theorem find_nil (key : K) : find (V := V) key [] = none := rfl

theorem find_cons (key : K) (entry : K × V × ℕ) (entries : List (K × V × ℕ)) :
    find key (entry :: entries) = if entry.1 = key then some entry.2 else find key entries := by
  unfold find
  rw [List.find?_cons]
  split_ifs with h <;> simp [h]

@[simp] theorem find_without_self (key : K) (entries : List (K × V × ℕ)) :
    find key (without key entries) = none := by
  simp [find, without]

theorem find_without_of_ne {key key' : K} (hne : key' ≠ key) (entries : List (K × V × ℕ)) :
    find key' (without key entries) = find key' entries := by
  induction entries with
  | nil => rfl
  | cons entry entries ih =>
    by_cases hkey : entry.1 = key
    · have hskip : without key (entry :: entries) = without key entries := by simp [without, hkey]
      rw [hskip, ih, find_cons, if_neg (by rw [hkey]; exact hne.symm)]
    · have hkeep : without key (entry :: entries) = entry :: without key entries := by
        simp [without, hkey]
      rw [hkeep, find_cons, find_cons, ih]

/-- A prefix of a list with different keys has what it has of that list. -/
theorem find_take (n : ℕ) (key : K) (entries : List (K × V × ℕ)) :
    find key (entries.take n) = find key entries ∨ find key (entries.take n) = none := by
  induction entries generalizing n with
  | nil => simp
  | cons entry entries ih =>
    cases n with
    | zero => simp
    | succ n =>
      rw [List.take_succ_cons, find_cons, find_cons]
      split_ifs with h
      · exact Or.inl rfl
      · exact ih n

theorem find_ne_none_iff {key : K} {entries : List (K × V × ℕ)} :
    find key entries ≠ none ↔ key ∈ entries.map Prod.fst := by
  induction entries with
  | nil => simp
  | cons entry entries ih =>
    rw [find_cons, List.map_cons, List.mem_cons]
    split_ifs with h
    · simp [h]
    · rw [ih]
      exact ⟨Or.inr, fun hor => hor.resolve_left (Ne.symm h)⟩

theorem nodup_without {key : K} {entries : List (K × V × ℕ)}
    (h : (entries.map Prod.fst).Nodup) : ((without key entries).map Prod.fst).Nodup :=
  h.sublist (List.filter_sublist.map Prod.fst)

theorem not_mem_without (key : K) (entries : List (K × V × ℕ)) :
    key ∉ (without key entries).map Prod.fst := by
  rw [← find_ne_none_iff, not_ne_iff]
  exact find_without_self key entries

theorem nodup_cons_without {key : K} {entries : List (K × V × ℕ)} (entry : V × ℕ)
    (h : (entries.map Prod.fst).Nodup) :
    (((key, entry) :: without key entries).map Prod.fst).Nodup :=
  List.nodup_cons.mpr ⟨not_mem_without key entries, nodup_without h⟩

/-- A key of the list leaves room for itself. -/
theorem length_without_lt {key : K} {entries : List (K × V × ℕ)}
    (h : key ∈ entries.map Prod.fst) : (without key entries).length < entries.length := by
  obtain ⟨entry, hmem, rfl⟩ := List.mem_map.mp h
  exact List.length_filter_lt_length_iff_exists.mpr ⟨entry, hmem, by simp⟩

/-- Look for a key: an entry past its time is dropped, one that is served moves to the
front. -/
def get (cache : RecencyCache K V) (now : ℕ) (key : K) : Option V × RecencyCache K V :=
  match h : find key cache.entries with
  | none => (none, cache)
  | some entry =>
    if now ≤ entry.2 + cache.ttl then
      (some entry.1, ⟨cache.capacity, cache.ttl, (key, entry) :: without key cache.entries,
        nodup_cons_without entry cache.nodup,
        (length_without_lt (find_ne_none_iff.mp (by simp [h]))).trans_le cache.bounded⟩)
    else (none, ⟨cache.capacity, cache.ttl, without key cache.entries,
      nodup_without cache.nodup, (List.length_filter_le _ _).trans cache.bounded⟩)

/-- Write an entry to the front, and drop what is beyond the capacity. -/
def set (cache : RecencyCache K V) (now : ℕ) (key : K) (value : V) : RecencyCache K V where
  capacity := cache.capacity
  ttl := cache.ttl
  entries := ((key, value, now) :: without key cache.entries).take cache.capacity
  nodup := (nodup_cons_without (value, now) cache.nodup).sublist ((List.take_sublist _ _).map _)
  bounded := List.length_take_le _ _

/-- Change the value of a key in place. -/
def modify (cache : RecencyCache K V) (key : K) (change : V → V) : RecencyCache K V where
  capacity := cache.capacity
  ttl := cache.ttl
  entries := cache.entries.map fun entry =>
    if entry.1 = key then (entry.1, change entry.2.1, entry.2.2) else entry
  nodup := by
    have hkeys : (cache.entries.map fun entry =>
        if entry.1 = key then (entry.1, change entry.2.1, entry.2.2) else entry).map Prod.fst =
        cache.entries.map Prod.fst := by
      rw [List.map_map]
      refine List.map_congr_left fun entry _ => ?_
      simp only [Function.comp_apply]
      split_ifs <;> rfl
    rw [hkeys]
    exact cache.nodup
  bounded := by simpa using cache.bounded

end RecencyCache

variable {K V : Type} [DecidableEq K]

open RecencyCache in
/-- The cache that keeps its entries in the order of their use. -/
def recency (K V : Type) [DecidableEq K] : LruCache K V where
  Cache := RecencyCache K V
  empty capacity ttl := ⟨capacity, ttl, [], List.nodup_nil, Nat.zero_le _⟩
  get := RecencyCache.get
  has cache now key := (cache.get now key).1.isSome
  set := RecencyCache.set
  modify := RecencyCache.modify
  capacity := RecencyCache.capacity
  ttl := RecencyCache.ttl
  held cache key := find key cache.entries

namespace RecencyCache

variable (cache : RecencyCache K V) (now : ℕ) (key key' : K) (value : V)

/-- A look moves entries and drops at most the one that is past its time. -/
theorem get_cases : ((find key cache.entries = none ∧ cache.get now key = (none, cache)) ∨
    ∃ entry, find key cache.entries = some entry ∧
      ((now ≤ entry.2 + cache.ttl ∧ (cache.get now key).1 = some entry.1 ∧
        (cache.get now key).2.entries = (key, entry) :: without key cache.entries) ∨
      (¬now ≤ entry.2 + cache.ttl ∧ (cache.get now key).1 = none ∧
        (cache.get now key).2.entries = without key cache.entries))) := by
  unfold RecencyCache.get
  split
  · next h => exact Or.inl ⟨h, rfl⟩
  · next entry h =>
    refine Or.inr ⟨entry, h, ?_⟩
    split_ifs with hfresh
    · exact Or.inl ⟨hfresh, rfl, rfl⟩
    · exact Or.inr ⟨hfresh, rfl, rfl⟩

theorem get_capacity : (cache.get now key).2.capacity = cache.capacity := by
  unfold RecencyCache.get
  split
  · rfl
  · split_ifs <;> rfl

theorem get_ttl : (cache.get now key).2.ttl = cache.ttl := by
  unfold RecencyCache.get
  split
  · rfl
  · split_ifs <;> rfl

theorem get_value : (cache.get now key).1 = (recency K V).served cache now key := by
  change _ = match find key cache.entries with
    | some entry => if now ≤ entry.2 + cache.ttl then some entry.1 else none
    | none => none
  rcases get_cases cache now key with ⟨hnone, hget⟩ | ⟨entry, hentry, hcase⟩
  · rw [hnone, hget]
  · rw [hentry]
    rcases hcase with ⟨hfresh, hvalue, -⟩ | ⟨hstale, hvalue, -⟩
    · simp only [hvalue, if_pos hfresh]
    · simp only [hvalue, if_neg hstale]

theorem find_get : find key' (cache.get now key).2.entries = find key' cache.entries ∨
    find key' (cache.get now key).2.entries = none ∧
      (recency K V).served cache now key' = none := by
  rcases get_cases cache now key with ⟨-, hget⟩ | ⟨entry, hentry, hcase⟩
  · rw [hget]
    exact Or.inl rfl
  · by_cases hkey : key' = key
    · subst hkey
      rcases hcase with ⟨-, -, hentries⟩ | ⟨-, hvalue, hentries⟩
      · left
        rw [hentries, find_cons, if_pos rfl, hentry]
      · right
        rw [hentries, find_without_self]
        exact ⟨rfl, (get_value cache now key').symm.trans hvalue⟩
    · left
      rcases hcase with ⟨-, -, hentries⟩ | ⟨-, -, hentries⟩
      · rw [hentries, find_cons, if_neg (Ne.symm hkey), find_without_of_ne hkey]
      · rw [hentries, find_without_of_ne hkey]

/-- The entries fit the room that is there for their keys. -/
theorem length_le_card {keys : Finset K} {entries : List (K × V × ℕ)}
    (hnodup : (entries.map Prod.fst).Nodup) (hkeys : ∀ k, find k entries ≠ none → k ∈ keys) :
    entries.length ≤ keys.card := by
  have hcard := List.toFinset_card_of_nodup hnodup
  rw [List.length_map] at hcard
  rw [← hcard]
  refine Finset.card_le_card fun k hk => hkeys k ?_
  rwa [find_ne_none_iff, ← List.mem_toFinset]

theorem find_set_of_room {keys : Finset K} (hkey : key ∈ keys)
    (hroom : keys.card ≤ cache.capacity) (hkeys : ∀ k, find k cache.entries ≠ none → k ∈ keys)
    (hne : key' ≠ key) :
    find key' (cache.set now key value).entries = find key' cache.entries := by
  have hlength : ((key, value, now) :: without key cache.entries).length ≤ cache.capacity := by
    refine le_trans (length_le_card (nodup_cons_without (value, now) cache.nodup) ?_) hroom
    intro k hk
    rw [find_cons] at hk
    split_ifs at hk with hsame
    · exact hsame ▸ hkey
    · rw [find_without_of_ne (Ne.symm hsame)] at hk
      exact hkeys k hk
  change find key' (((key, value, now) :: without key cache.entries).take cache.capacity) = _
  rw [List.take_of_length_le hlength, find_cons, if_neg hne.symm, find_without_of_ne hne]

theorem find_modify (change : V → V) : find key' (cache.modify key change).entries =
    if key' = key then (find key cache.entries).map (Prod.map change id)
    else find key' cache.entries := by
  change find key' (cache.entries.map _) = _
  induction cache.entries with
  | nil => simp
  | cons entry entries ih =>
    rw [List.map_cons, find_cons, find_cons, find_cons, ih]
    by_cases hsame : entry.1 = key
    · by_cases hkey : key' = key
      · simp [hsame, hkey, Prod.map]
      · simp [hsame, hkey, Ne.symm hkey]
    · by_cases hkey : key' = key
      · subst hkey
        simp [hsame]
      · simp [hsame, hkey]

end RecencyCache

open RecencyCache in
/-- The list in the order of use keeps the promises. -/
theorem recency_lawful : (recency K V).Lawful where
  capacity_empty _ _ := rfl
  ttl_empty _ _ := rfl
  held_empty _ _ _ := rfl
  get_value := RecencyCache.get_value
  get_held := find_get
  get_capacity := RecencyCache.get_capacity
  get_ttl := RecencyCache.get_ttl
  has_eq cache now key := congrArg Option.isSome (RecencyCache.get_value cache now key)
  set_self cache now key value hcapacity := by
    change find key (((key, value, now) :: without key cache.entries).take cache.capacity) = _
    obtain ⟨n, hn⟩ := Nat.exists_eq_add_one.mpr hcapacity
    change cache.capacity = n + 1 at hn
    rw [hn, List.take_succ_cons, find_cons, if_pos rfl]
  set_other cache now key value key' hne := by
    change find key' (((key, value, now) :: without key cache.entries).take cache.capacity) =
        find key' cache.entries ∨
      find key' (((key, value, now) :: without key cache.entries).take cache.capacity) = none
    have htake := find_take cache.capacity key' ((key, value, now) :: without key cache.entries)
    rwa [find_cons, if_neg hne.symm, find_without_of_ne hne] at htake
  set_kept cache now key value keys hkey hroom hkeys key' hne :=
    find_set_of_room cache now key key' value hkey hroom hkeys hne
  set_capacity _ _ _ _ := rfl
  set_ttl _ _ _ _ := rfl
  modify_held cache key change key' := find_modify cache key key' change
  modify_capacity _ _ _ := rfl
  modify_ttl _ _ _ := rfl

end LruCache
