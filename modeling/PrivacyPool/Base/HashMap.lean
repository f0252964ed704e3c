import Mathlib.Data.List.Forall2
import Mathlib.Data.List.Nodup

/-!
# Maps as lists of entries

A hash map is the list of its entries, with keys that are pairwise distinct. The
order of the list means nothing: what is said about a map holds of every
permutation of it.

## Main results

* `foldl_orInsert_eq`, `foldl_insert_eq` — entries with fresh keys are appended
* `extractIf_perm` — what is taken out and what stays are all entries
-/

namespace HashMap

universe u v w

variable {κ : Type u} {β : Type v} {γ : Type w} [DecidableEq κ]

/-- The keys of a map. -/
def keys (m : List (κ × β)) : List κ := m.map Prod.fst

/-- `entry(key).or_insert(value)`: a present entry stays. -/
def orInsert (m : List (κ × β)) (key : κ) (value : β) : List (κ × β) :=
  if key ∈ keys m then m else m ++ [(key, value)]

/-- `insert(key, value)`: a present entry is replaced. -/
def insert (m : List (κ × β)) (key : κ) (value : β) : List (κ × β) :=
  m.filter (fun entry => entry.1 ≠ key) ++ [(key, value)]

/-- `get_mut(key)`: a present entry is changed. -/
def modify (m : List (κ × β)) (key : κ) (f : β → β) : List (κ × β) :=
  m.map fun entry => if entry.1 = key then (entry.1, f entry.2) else entry

/-- `extract_if`: the entries that stay, and those that are taken out. -/
def extractIf (m : List (κ × β)) (pred : β → Bool) : List (κ × β) × List (κ × β) :=
  (m.filter fun entry => !pred entry.2, m.filter fun entry => pred entry.2)

variable {m : List (κ × β)}

omit [DecidableEq κ] in
@[simp] theorem keys_append (m m' : List (κ × β)) : keys (m ++ m') = keys m ++ keys m' :=
  List.map_append

@[simp] theorem keys_modify (m : List (κ × β)) (key : κ) (f : β → β) :
    keys (modify m key f) = keys m := by
  rw [keys, modify, List.map_map]
  refine List.map_congr_left fun entry _ => ?_
  rw [Function.comp_apply]
  split_ifs <;> rfl

theorem modify_append (m m' : List (κ × β)) (key : κ) (f : β → β) :
    modify (m ++ m') key f = modify m key f ++ modify m' key f := List.map_append

omit [DecidableEq κ] in
theorem mem_keys_of_mem {entry : κ × β} (h : entry ∈ m) : entry.1 ∈ keys m :=
  List.mem_map_of_mem h

omit [DecidableEq κ] in
/-- Entries with distinct fresh keys leave the keys distinct. -/
theorem nodup_keys_append (items : List γ) (key : γ → κ) (value : γ → β) (hm : (keys m).Nodup)
    (hnodup : (items.map key).Nodup) (hfresh : ∀ item ∈ items, key item ∉ keys m) :
    (keys (m ++ items.map fun item => (key item, value item))).Nodup := by
  have hkeys : keys (items.map fun item => (key item, value item)) = items.map key := by
    rw [keys, List.map_map]
    rfl
  rw [keys_append, hkeys, List.nodup_append]
  refine ⟨hm, hnodup, ?_⟩
  rintro _ hold _ hnew rfl
  obtain ⟨item, hitem, rfl⟩ := List.mem_map.mp hnew
  exact hfresh item hitem hold

/-- New entries are appended by `or_insert`, others stay as they are. -/
theorem foldl_orInsert_eq (m : List (κ × β)) (items : List γ) (key : γ → κ) (value : γ → β)
    (hnodup : (items.map key).Nodup) :
    items.foldl (fun m item => orInsert m (key item) (value item)) m =
      m ++ (items.filter fun item => key item ∉ keys m).map fun item => (key item, value item) := by
  induction items generalizing m with
  | nil => simp
  | cons item items ih =>
    rw [List.map_cons, List.nodup_cons] at hnodup
    rw [List.foldl_cons, ih _ hnodup.2]
    by_cases hmem : key item ∈ keys m
    · rw [orInsert, if_pos hmem, List.filter_cons_of_neg (by simpa using hmem)]
    · -- The keys of the other items are not that of the new entry.
      have hsame : (items.filter fun item' => key item' ∉ keys (m ++ [(key item, value item)])) =
          items.filter fun item' => key item' ∉ keys m := by
        refine List.filter_congr fun item' hitem' => decide_eq_decide.mpr (not_congr ?_)
        rw [keys_append, List.mem_append]
        refine or_iff_left fun hsingle => hnodup.1 ?_
        rw [show key item = key item' from (List.mem_singleton.mp hsingle).symm]
        exact List.mem_map_of_mem hitem'
      rw [orInsert, if_neg hmem, hsame, List.filter_cons_of_pos (by simpa using hmem),
        List.map_cons, List.append_assoc]
      rfl

/-- Whatever the keys are, `or_insert` appends some of the entries and leaves no key out. -/
theorem foldl_orInsert_sublist (m : List (κ × β)) (items : List γ) (key : γ → κ) (value : γ → β) :
    ∃ new : List γ, new.Sublist items ∧
      items.foldl (fun m item => orInsert m (key item) (value item)) m =
        m ++ new.map (fun item => (key item, value item)) ∧
      (∀ item ∈ items, key item ∈ keys m ∨ key item ∈ new.map key) ∧
      (new.map key).Nodup ∧ ∀ item ∈ new, key item ∉ keys m := by
  induction items generalizing m with
  | nil => exact ⟨[], List.nil_sublist _, by simp, by simp, by simp, by simp⟩
  | cons item items ih =>
    -- An item with a known key is dropped; a new one is appended and is known from then on.
    by_cases hmem : key item ∈ keys m
    · obtain ⟨new, hsub, heq, hall, hnodup, hfresh⟩ := ih m
      refine ⟨new, hsub.cons _, ?_, ?_, hnodup, hfresh⟩
      · rw [List.foldl_cons, orInsert, if_pos hmem, heq]
      · exact List.forall_mem_cons.mpr ⟨.inl hmem, hall⟩
    · obtain ⟨new, hsub, heq, hall, hnodup, hfresh⟩ := ih (m ++ [(key item, value item)])
      have hkeys : ∀ k, k ∈ keys (m ++ [(key item, value item)]) ↔ k ∈ keys m ∨ k = key item := by
        intro k
        rw [keys_append, List.mem_append]
        exact or_congr_right List.mem_singleton
      refine ⟨item :: new, hsub.cons_cons _, ?_, ?_, ?_, ?_⟩
      · rw [List.foldl_cons, orInsert, if_neg hmem, heq, List.map_cons, List.append_assoc]
        rfl
      · rw [List.map_cons]
        refine List.forall_mem_cons.mpr ⟨.inr List.mem_cons_self, fun item' hitem' => ?_⟩
        rcases hall item' hitem' with hold | hnew
        · rcases (hkeys _).mp hold with hold | hsame
          · exact .inl hold
          · exact .inr (hsame ▸ List.mem_cons_self)
        · exact .inr (List.mem_cons_of_mem _ hnew)
      · rw [List.map_cons, List.nodup_cons]
        refine ⟨fun hdup => ?_, hnodup⟩
        obtain ⟨item', hitem', hsame⟩ := List.mem_map.mp hdup
        exact hfresh item' hitem' ((hkeys _).mpr (.inr hsame))
      · refine List.forall_mem_cons.mpr ⟨hmem, fun item' hitem' hold => ?_⟩
        exact hfresh item' hitem' ((hkeys _).mpr (.inl hold))

theorem insert_of_fresh {key : κ} (value : β) (h : key ∉ keys m) :
    insert m key value = m ++ [(key, value)] := by
  have hkept : m.filter (fun entry => entry.1 ≠ key) = m := by
    refine List.filter_eq_self.mpr fun entry hentry => ?_
    exact decide_eq_true fun heq => h (heq ▸ mem_keys_of_mem hentry)
  rw [insert, hkept]

/-- Entries with fresh keys are appended by `insert`. -/
theorem foldl_insert_eq (items : List γ) (key : γ → κ) (value : γ → β)
    (hnodup : (items.map key).Nodup) (hfresh : ∀ item ∈ items, key item ∉ keys m) :
    items.foldl (fun m item => insert m (key item) (value item)) m =
      m ++ items.map fun item => (key item, value item) := by
  induction items generalizing m with
  | nil => simp
  | cons item items ih =>
    rw [List.map_cons, List.nodup_cons] at hnodup
    have hrest : ∀ item' ∈ items, key item' ∉ keys (m ++ [(key item, value item)]) := by
      intro item' hitem' hmem
      rw [keys_append, List.mem_append] at hmem
      rcases hmem with hmem | hmem
      · exact hfresh item' (List.mem_cons_of_mem _ hitem') hmem
      · have hsame : key item' = key item := List.mem_singleton.mp hmem
        exact hnodup.1 (hsame ▸ List.mem_map_of_mem hitem')
    rw [List.foldl_cons, insert_of_fresh _ (hfresh item List.mem_cons_self), ih hnodup.2 hrest,
      List.map_cons, List.append_assoc]
    rfl

omit [DecidableEq κ] in
/-- What is taken out and what stays are all entries. -/
theorem extractIf_perm (m : List (κ × β)) (pred : β → Bool) :
    ((extractIf m pred).1 ++ (extractIf m pred).2).Perm m := by
  refine List.perm_append_comm.trans ?_
  exact List.filter_append_perm (fun entry : κ × β => pred entry.2) m

theorem exists_left_of_forall₂ {α δ : Type*} {R : α → δ → Prop} {as : List α} {bs : List δ}
    (h : List.Forall₂ R as bs) {b : δ} (hb : b ∈ bs) : ∃ a ∈ as, R a b := by
  induction h with
  | nil => cases hb
  | @cons a b' as bs hR _ ih =>
    rcases List.mem_cons.mp hb with rfl | hmem
    · exact ⟨a, List.mem_cons_self, hR⟩
    · obtain ⟨a', ha', hR'⟩ := ih hmem
      exact ⟨a', List.mem_cons_of_mem _ ha', hR'⟩

theorem exists_right_of_forall₂ {α δ : Type*} {R : α → δ → Prop} {as : List α} {bs : List δ}
    (h : List.Forall₂ R as bs) {a : α} (ha : a ∈ as) : ∃ b ∈ bs, R a b :=
  exists_left_of_forall₂ h.flip ha

/-- Related lists agree on what related elements agree on. -/
theorem map_eq_map_of_forall₂ {α δ ρ : Type*} {R : α → δ → Prop} {as : List α} {bs : List δ}
    {f : α → ρ} {g : δ → ρ} (h : List.Forall₂ R as bs) (hfg : ∀ a b, R a b → g b = f a) :
    bs.map g = as.map f := by
  induction h with
  | nil => rfl
  | cons hR _ ih => exact congrArg₂ List.cons (hfg _ _ hR) ih

omit [DecidableEq κ] in
/-- Results that keep the keys of the entries they are for have those keys. -/
theorem map_eq_keys {R : κ × β → γ → Prop} {results : List γ} {key : γ → κ}
    (h : List.Forall₂ R m results) (hkey : ∀ entry result, R entry result → key result = entry.1) :
    results.map key = keys m := map_eq_map_of_forall₂ h hkey

/-- The results of the entries that were taken out are put back beside those that stayed. -/
theorem foldl_insert_extractIf (hnodup : (keys m).Nodup) {pred : β → Bool} {results : List γ}
    {key : γ → κ} (value : γ → β) (hkeys : results.map key = keys (extractIf m pred).2) :
    results.foldl (fun m result => insert m (key result) (value result)) (extractIf m pred).1 =
      (extractIf m pred).1 ++ results.map fun result => (key result, value result) := by
  have hall : (keys (extractIf m pred).1 ++ keys (extractIf m pred).2).Nodup := by
    rw [← keys_append]
    exact ((extractIf_perm m pred).map Prod.fst).nodup_iff.mpr hnodup
  rw [List.nodup_append] at hall
  refine foldl_insert_eq results key value (hkeys ▸ hall.2.1) fun result hresult hmem => ?_
  exact hall.2.2 _ hmem _ (hkeys ▸ List.mem_map_of_mem hresult) rfl

omit [DecidableEq κ] in
/-- Putting results back does not change the keys. -/
theorem keys_extractIf_perm {pred : β → Bool} {results : List γ} {key : γ → κ} (value : γ → β)
    (hkeys : results.map key = keys (extractIf m pred).2) :
    (keys ((extractIf m pred).1 ++ results.map fun result => (key result, value result))).Perm
      (keys m) := by
  have hput : keys (results.map fun result => (key result, value result)) = results.map key := by
    rw [keys, List.map_map]
    rfl
  rw [keys_append, hput, hkeys, ← keys_append]
  exact (extractIf_perm m pred).map Prod.fst

end HashMap
