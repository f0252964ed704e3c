import PrivacyPool.Base.HashMap

/-!
# Maps that keep their insertion order

The entries of a map in the order in which their keys were first set.

## Main results

* `mem_keys_set`, `get_set` — what setting an entry changes
* `mem_keys_foldl_set` — the keys after setting a list of entries
-/

namespace AddressMap

universe u v w

variable {κ : Type u} {β : Type v} {γ : Type w} [DecidableEq κ]

open HashMap

/-- `get(key)` -/
def get (m : List (κ × β)) (key : κ) : Option β :=
  (m.find? fun entry => entry.1 = key).map Prod.snd

/-- `set(key, value)`: a present entry keeps its place. -/
def set (m : List (κ × β)) (key : κ) (value : β) : List (κ × β) :=
  if key ∈ keys m then m.map fun entry => if entry.1 = key then (key, value) else entry
  else m ++ [(key, value)]

/-- `delete(key)` -/
def delete (m : List (κ × β)) (key : κ) : List (κ × β) := m.filter fun entry => entry.1 ≠ key

variable {m : List (κ × β)}

theorem get_eq_some_iff (hnodup : (keys m).Nodup) {key : κ} {value : β} :
    get m key = some value ↔ (key, value) ∈ m := by
  induction m with
  | nil => simp [get]
  | cons entry m ih =>
    rw [keys, List.map_cons, List.nodup_cons] at hnodup
    have htail := ih hnodup.2
    unfold get at htail ⊢
    by_cases hkey : entry.1 = key
    · have hnot : (key, value) ∉ m := fun hmem => hnodup.1 (hkey ▸ mem_keys_of_mem hmem)
      rw [List.find?_cons_of_pos (by simpa using hkey), Option.map_some, Option.some_inj,
        List.mem_cons, or_iff_left hnot]
      constructor
      · rintro rfl
        rw [← hkey]
      · intro h
        rw [← h]
    · have hne : (key, value) ≠ entry := fun h => hkey (h ▸ rfl)
      rw [List.find?_cons_of_neg (by simpa using hkey), htail, List.mem_cons, or_iff_right hne]

theorem find?_eq_none_iff {key : κ} : m.find? (fun entry => entry.1 = key) = none ↔ key ∉ keys m := by
  rw [List.find?_eq_none]
  constructor
  · intro h hmem
    obtain ⟨entry, hentry, rfl⟩ := List.mem_map.mp hmem
    exact h entry hentry (decide_eq_true rfl)
  · intro h entry hentry hsame
    exact h (of_decide_eq_true hsame ▸ mem_keys_of_mem hentry)

theorem get_eq_none_iff {key : κ} : get m key = none ↔ key ∉ keys m := by
  rw [get, Option.map_eq_none_iff, find?_eq_none_iff]

theorem mem_of_get {key : κ} {value : β} (h : get m key = some value) : (key, value) ∈ m := by
  obtain ⟨entry, hentry, rfl⟩ := Option.map_eq_some_iff.mp h
  have hkey := List.find?_some hentry
  rw [← of_decide_eq_true hkey]
  exact List.mem_of_find?_eq_some hentry

theorem keys_replace (m : List (κ × β)) (key : κ) (value : β) :
    keys (m.map fun entry => if entry.1 = key then (key, value) else entry) = keys m := by
  rw [keys, keys, List.map_map]
  refine List.map_congr_left fun entry _ => ?_
  dsimp only [Function.comp]
  split_ifs with h
  · exact h.symm
  · rfl

theorem mem_keys_set {key key' : κ} {value : β} :
    key' ∈ keys (set m key value) ↔ key' ∈ keys m ∨ key' = key := by
  unfold set
  split_ifs with hmem
  · rw [keys_replace]
    constructor
    · exact .inl
    · rintro (h | rfl)
      · exact h
      · exact hmem
  · simp [keys]

theorem nodup_keys_set {key : κ} {value : β} (h : (keys m).Nodup) :
    (keys (set m key value)).Nodup := by
  unfold set
  split_ifs with hmem
  · rwa [keys_replace]
  · rw [keys_append, List.nodup_append]
    refine ⟨h, List.nodup_singleton key, ?_⟩
    rintro key' hkey' _ hsame rfl
    obtain rfl : key' = key := List.mem_singleton.mp hsame
    exact hmem hkey'

theorem get_set {key key' : κ} {value : β} :
    get (set m key value) key' = if key' = key then some value else get m key' := by
  unfold set get
  split_ifs with hmem hsame hsame
  · subst hsame
    induction m with
    | nil => simp [keys] at hmem
    | cons entry m ih =>
      rw [List.map_cons]
      by_cases hkey : entry.1 = key'
      · simp [hkey]
      · rw [if_neg hkey, List.find?_cons_of_neg (by simpa using hkey)]
        refine ih ?_
        simpa [keys, Ne.symm hkey] using hmem
  · clear hmem
    congr 1
    induction m with
    | nil => rfl
    | cons entry m ih =>
      rw [List.map_cons]
      by_cases hkey : entry.1 = key
      · rw [if_pos hkey, List.find?_cons_of_neg (by simpa using Ne.symm hsame), ih,
          List.find?_cons_of_neg (by simpa [hkey] using Ne.symm hsame)]
      · rw [if_neg hkey, List.find?_cons, List.find?_cons, ih]
  · subst hsame
    simp [List.find?_append, find?_eq_none_iff.mpr hmem]
  · simp [List.find?_append, Ne.symm hsame]

theorem length_set_of_mem {key : κ} {value : β} (h : key ∈ keys m) :
    (set m key value).length = m.length := by
  rw [set, if_pos h, List.length_map]

theorem length_set_of_not_mem {key : κ} {value : β} (h : key ∉ keys m) :
    (set m key value).length = m.length + 1 := by
  rw [set, if_neg h, List.length_append, List.length_singleton]

/-- An entry of a map after `set` is the new one or an old one. -/
theorem mem_of_mem_set {key : κ} {value : β} {entry : κ × β} (h : entry ∈ set m key value) :
    entry = (key, value) ∨ entry ∈ m := by
  unfold set at h
  split_ifs at h
  · obtain ⟨old, hold, rfl⟩ := List.mem_map.mp h
    split_ifs
    · exact .inl rfl
    · exact .inr hold
  · exact (List.mem_append.mp h).symm.imp_left List.mem_singleton.mp

theorem mem_of_mem_foldl_set {items : List (κ × β)} {entry : κ × β}
    (h : entry ∈ items.foldl (fun m item => set m item.1 item.2) m) : entry ∈ items ∨ entry ∈ m := by
  induction items generalizing m with
  | nil => exact .inr h
  | cons item items ih =>
    rcases ih h with hitems | hset
    · exact .inl (List.mem_cons_of_mem item hitems)
    · refine (mem_of_mem_set hset).imp_left ?_
      rintro rfl
      exact List.mem_cons_self

theorem mem_keys_foldl_set (items : List γ) (keyOf : γ → κ) (value : γ → β) {key : κ} :
    key ∈ keys (items.foldl (fun m item => set m (keyOf item) (value item)) m) ↔
      key ∈ keys m ∨ ∃ item ∈ items, keyOf item = key := by
  induction items generalizing m with
  | nil => simp
  | cons item items ih =>
    rw [List.foldl_cons, ih, mem_keys_set, or_assoc]
    refine or_congr_right ?_
    simp only [List.exists_mem_cons_iff, eq_comm]

/-- After setting a list of entries with distinct keys, they come first. -/
theorem get_foldl_set {items : List (κ × β)} (hnodup : (keys items).Nodup) (key : κ) :
    get (items.foldl (fun m entry => set m entry.1 entry.2) m) key =
      (get items key).or (get m key) := by
  induction items generalizing m with
  | nil => rfl
  | cons entry items ih =>
    rw [keys, List.map_cons, List.nodup_cons] at hnodup
    rw [List.foldl_cons, ih hnodup.2, get_set]
    unfold get
    by_cases hkey : entry.1 = key
    · rw [List.find?_cons_of_pos (by simpa using hkey), if_pos hkey.symm,
        find?_eq_none_iff.mpr (hkey ▸ hnodup.1)]
      rfl
    · rw [List.find?_cons_of_neg (by simpa using hkey), if_neg (Ne.symm hkey)]

theorem nodup_keys_foldl_set {items : List (κ × β)} (hm : (keys m).Nodup) :
    (keys (items.foldl (fun m entry => set m entry.1 entry.2) m)).Nodup := by
  induction items generalizing m with
  | nil => exact hm
  | cons entry items ih => exact ih (nodup_keys_set hm)

/-- Entries with new keys are appended. -/
theorem foldl_set_eq {items : List (κ × β)} (hnodup : (keys (m ++ items)).Nodup) :
    items.foldl (fun m entry => set m entry.1 entry.2) m = m ++ items := by
  induction items generalizing m with
  | nil => exact (List.append_nil m).symm
  | cons item items ih =>
    have hfresh : item.1 ∉ keys m := by
      rw [keys_append, List.nodup_append] at hnodup
      exact fun hmem => hnodup.2.2 _ hmem _ List.mem_cons_self rfl
    rw [List.foldl_cons, set, if_neg hfresh, ih, List.append_assoc]
    · rfl
    · rwa [List.append_assoc]

/-- Entries that have all the keys replace what was there. -/
theorem mem_foldl_set_iff {items : List (κ × β)} (hnodup : (keys items).Nodup)
    (hm : (keys m).Nodup) (hkeys : keys m ⊆ keys items) {entry : κ × β} :
    entry ∈ items.foldl (fun m entry => set m entry.1 entry.2) m ↔ entry ∈ items := by
  rw [← get_eq_some_iff (nodup_keys_foldl_set hm), ← get_eq_some_iff hnodup, get_foldl_set hnodup]
  cases hget : get items entry.1 with
  | some value => rfl
  | none =>
    have hnone : get m entry.1 = none := by
      rw [get_eq_none_iff] at hget ⊢
      exact fun hmem => hget (hkeys hmem)
    rw [hnone]
    rfl

theorem get_append (m m' : List (κ × β)) (key : κ) : get (m ++ m') key = (get m key).or (get m' key) := by
  unfold get
  rw [List.find?_append]
  cases m.find? fun entry => entry.1 = key <;> rfl

theorem get_map (m : List (κ × β)) (f : κ → β → γ) (key : κ) :
    get (m.map fun entry => (entry.1, f entry.1 entry.2)) key = (get m key).map (f key) := by
  induction m with
  | nil => rfl
  | cons entry m ih =>
    unfold get at ih ⊢
    rw [List.map_cons]
    by_cases hkey : entry.1 = key
    · rw [List.find?_cons_of_pos (by simpa using hkey), List.find?_cons_of_pos (by simpa using hkey),
        Option.map_some, Option.map_some, Option.map_some, hkey]
    · rw [List.find?_cons_of_neg (by simpa using hkey), List.find?_cons_of_neg (by simpa using hkey)]
      exact ih

theorem get_filter (m : List (κ × β)) (p : κ → Bool) (key : κ) :
    get (m.filter fun entry => p entry.1) key = if p key then get m key else none := by
  unfold get
  rw [List.find?_filter]
  split_ifs with hp
  · congr 2
    funext entry
    by_cases hkey : entry.1 = key
    · simp [hkey, hp]
    · simp [hkey]
  · rw [List.find?_eq_none.mpr, Option.map_none]
    intro entry _ hsame
    simp only [decide_eq_true_eq] at hsame
    rw [hsame.2] at hsame
    exact hp hsame.1

theorem get_insert (m : List (κ × β)) (key key' : κ) (value : β) :
    get (HashMap.insert m key value) key' = if key = key' then some value else get m key' := by
  rw [HashMap.insert, get_append]
  have hkept := get_filter m (fun k => decide (k ≠ key)) key'
  rw [hkept]
  by_cases hkey : key = key'
  · rw [if_neg (by simpa using hkey.symm), if_pos hkey, Option.none_or]
    unfold get
    rw [List.find?_cons_of_pos (by simpa using hkey)]
    rfl
  · have hnone : get [(key, value)] key' = none :=
      get_eq_none_iff.mpr fun hmem => hkey (List.mem_singleton.mp hmem).symm
    rw [if_pos (by simpa using Ne.symm hkey), if_neg hkey, hnone, Option.or_none]

end AddressMap
