import Mathlib.Data.List.Basic
import Mathlib.Tactic.Cases

/-!
# Self-delimiting serialization

A codec writes a value as a list of symbols and reads it back from the front of
a longer list. Its two laws say that reading undoes writing whatever follows,
and that a list which is read was written: so distinct values never share a
serialization, even as prefixes of longer messages, and nothing but a
serialization is accepted. The laws are fields, and every combinator below
proves them for the format it builds.

## Main definitions

* `Codec` — a serializer with its deserializer and their two laws
* `Codec.symbol`, `Codec.pair`, `Codec.imap` — one symbol, sequencing, renaming
* `Codec.option` — a value that may be absent
* `Codec.times`, `Codec.counted` — a fixed number of items, and a list behind
  its length

## Main results

* `Codec.encode_append_inj` — serializations are self-delimiting
* `Codec.encode_injective` — serializations determine the value
-/

/-- A serializer for `α` over the symbols `σ`, with its deserializer. -/
structure Codec (σ α : Type*) where
  encode : α → List σ
  decode : List σ → Option (α × List σ)
  decode_encode : ∀ a rest, decode (encode a ++ rest) = some (a, rest)
  encode_of_decode : ∀ {input a rest}, decode input = some (a, rest) → input = encode a ++ rest

namespace Codec

variable {σ α β γ : Type*}

/-- Serializations are self-delimiting: equal streams start with the same value
and continue with the same rest. -/
theorem encode_append_inj (c : Codec σ α) {a b : α} {r r' : List σ}
    (h : c.encode a ++ r = c.encode b ++ r') : a = b ∧ r = r' := by
  have hleft := c.decode_encode a r
  rw [h, c.decode_encode b r', Option.some.injEq, Prod.mk.injEq] at hleft
  exact ⟨hleft.1.symm, hleft.2.symm⟩

theorem encode_injective (c : Codec σ α) : Function.Injective c.encode := by
  intro a b h
  have happ : c.encode a ++ [] = c.encode b ++ [] := by rw [h]
  exact (c.encode_append_inj happ).1

/-! ### Combinators -/

/-- One symbol stands for a value; `read` rejects the symbols that stand for
none. -/
def symbol (write : α → σ) (read : σ → Option α) (read_write : ∀ a, read (write a) = some a)
    (write_of_read : ∀ s a, read s = some a → write a = s) : Codec σ α where
  encode a := [write a]
  decode
    | [] => none
    | s :: rest => (read s).map fun a => (a, rest)
  decode_encode a rest := by simp [read_write]
  encode_of_decode := by
    intro input a rest h
    cases input with
    | nil => simp at h
    | cons s tail =>
      obtain ⟨b, hread, hpair⟩ := Option.map_eq_some_iff.mp h
      obtain ⟨rfl, rfl⟩ := Prod.mk.inj hpair
      simp [write_of_read s b hread]

/-- One value after the other. -/
def pair (c : Codec σ α) (d : Codec σ β) : Codec σ (α × β) where
  encode p := c.encode p.1 ++ d.encode p.2
  decode input := (c.decode input).bind fun p =>
    (d.decode p.2).map fun q => ((p.1, q.1), q.2)
  decode_encode p rest := by
    rw [List.append_assoc, c.decode_encode, Option.bind_some, d.decode_encode, Option.map_some]
  encode_of_decode := by
    intro input p rest h
    obtain ⟨⟨a, tail⟩, hfirst, h⟩ := Option.bind_eq_some_iff.mp h
    obtain ⟨⟨b, rest'⟩, hsecond, hpair⟩ := Option.map_eq_some_iff.mp h
    obtain ⟨rfl, rfl⟩ := Prod.mk.inj hpair
    dsimp only at hsecond ⊢
    rw [c.encode_of_decode hfirst, d.encode_of_decode hsecond, List.append_assoc]

/-- The same format read as a type of the same shape. -/
def imap (c : Codec σ α) (make : α → β) (fields : β → α) (make_fields : ∀ b, make (fields b) = b)
    (fields_make : ∀ a, fields (make a) = a) : Codec σ β where
  encode b := c.encode (fields b)
  decode input := (c.decode input).map fun p => (make p.1, p.2)
  decode_encode b rest := by rw [c.decode_encode, Option.map_some, make_fields]
  encode_of_decode := by
    intro input b rest h
    obtain ⟨⟨a, tail⟩, hread, hpair⟩ := Option.map_eq_some_iff.mp h
    obtain ⟨rfl, rfl⟩ := Prod.mk.inj hpair
    rw [fields_make]
    exact c.encode_of_decode hread

/-- A value behind one tag, or another tag alone. -/
def option [DecidableEq σ] (c : Codec σ α) (present absent : σ) (hne : absent ≠ present) :
    Codec σ (Option α) where
  encode
    | some a => present :: c.encode a
    | none => [absent]
  decode
    | [] => none
    | tag :: rest =>
      if tag = present then (c.decode rest).map fun p => (some p.1, p.2)
      else if tag = absent then some (none, rest)
      else none
  decode_encode a rest := by
    cases a with
    | none => simp [hne]
    | some a => simp [c.decode_encode]
  encode_of_decode := by
    intro input a rest h
    cases input with
    | nil => cases h
    | cons tag tail =>
      dsimp only at h
      split_ifs at h with hpresent habsent
      · obtain ⟨⟨b, rest'⟩, hread, hpair⟩ := Option.map_eq_some_iff.mp h
        obtain ⟨rfl, rfl⟩ := Prod.mk.inj hpair
        rw [hpresent, c.encode_of_decode hread]
        rfl
      · obtain ⟨rfl, rfl⟩ := Prod.mk.inj (Option.some.inj h)
        rw [habsent]
        rfl

/-! ### Lists

A list is written behind its length. The items are then read one by one, and
the lists that are read are exactly those of the announced length. -/

/-- Read `n` values in a row. -/
def times (c : Codec σ α) : ℕ → List σ → Option (List α × List σ)
  | 0, input => some ([], input)
  | n + 1, input => (c.decode input).bind fun p =>
      (c.times n p.2).map fun q => (p.1 :: q.1, q.2)

theorem times_flatMap (c : Codec σ α) (as : List α) (rest : List σ) :
    c.times as.length (as.flatMap c.encode ++ rest) = some (as, rest) := by
  induction as with
  | nil => rfl
  | cons a as ih =>
    rw [List.flatMap_cons, List.append_assoc, List.length_cons, times, c.decode_encode,
      Option.bind_some, ih, Option.map_some]

theorem eq_of_times (c : Codec σ α) {n : ℕ} {input rest : List σ} {as : List α}
    (h : c.times n input = some (as, rest)) :
    as.length = n ∧ input = as.flatMap c.encode ++ rest := by
  induction n generalizing input as with
  | zero =>
    obtain ⟨rfl, rfl⟩ := Prod.mk.inj (Option.some.inj h)
    simp
  | succ n ih =>
    obtain ⟨⟨a, tail⟩, hfirst, h⟩ := Option.bind_eq_some_iff.mp h
    obtain ⟨⟨bs, rest'⟩, hmore, hpair⟩ := Option.map_eq_some_iff.mp h
    obtain ⟨rfl, rfl⟩ := Prod.mk.inj hpair
    obtain ⟨hlength, htail⟩ := ih hmore
    dsimp only at htail
    refine ⟨by rw [List.length_cons, hlength], ?_⟩
    rw [c.encode_of_decode hfirst, htail, List.flatMap_cons, List.append_assoc]

/-- Lists shorter than `bound`, written behind their length. -/
def counted {bound : ℕ} (length : Codec σ (Fin bound)) (c : Codec σ α) :
    Codec σ {as : List α // as.length < bound} where
  encode as := length.encode ⟨as.1.length, as.2⟩ ++ as.1.flatMap c.encode
  decode input := (length.decode input).bind fun p =>
    (c.times p.1.val p.2).bind fun q =>
      if h : q.1.length < bound then some (⟨q.1, h⟩, q.2) else none
  decode_encode as rest := by
    rw [List.append_assoc, length.decode_encode, Option.bind_some, c.times_flatMap,
      Option.bind_some, dif_pos as.2]
  encode_of_decode := by
    intro input as rest h
    obtain ⟨⟨n, tail⟩, hlength, h⟩ := Option.bind_eq_some_iff.mp h
    obtain ⟨⟨bs, rest'⟩, hitems, h⟩ := Option.bind_eq_some_iff.mp h
    obtain ⟨hcount, htail⟩ := c.eq_of_times hitems
    dsimp only at h hcount htail
    split at h
    · next hbound =>
      obtain ⟨rfl, rfl⟩ := Prod.mk.inj (Option.some.inj h)
      have hn : n = ⟨bs.length, hbound⟩ := Fin.ext hcount.symm
      rw [length.encode_of_decode hlength, htail, List.append_assoc, hn]
    · cases h

end Codec
