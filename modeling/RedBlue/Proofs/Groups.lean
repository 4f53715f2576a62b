import Mathlib.Tactic.IntervalCases
import RedBlue.Bytes.Chunks
import RedBlue.Proofs.Ranges

/-! # Groups of four, byte by byte

`exchange` is defined on the groups of a list from its start. Here it is said which byte ends up
at which index, also when the groups come from one place and go to another. -/

namespace RedBlue.Bytes

/-! ## The exchange and the structure of lists -/

theorem exchange_append {a : Bytes} (h : 4 ∣ a.length) (b : Bytes) :
    exchange (a ++ b) = exchange a ++ exchange b := by
  fun_induction exchange a with
  | case1 b₀ b₁ b₂ b₃ rest ih =>
      have hrest : 4 ∣ rest.length := by
        simp only [List.length_cons] at h
        omega
      simp only [List.cons_append, exchange_group, ih hrest]
  | case2 a hno =>
      have hzero : a.length = 0 := Nat.eq_zero_of_dvd_of_lt h (length_lt_of_no_group hno)
      rw [List.eq_nil_of_length_eq_zero hzero, List.nil_append, List.nil_append]

/-- A list that is cut between two groups is exchanged part by part. -/
theorem exchange_eq_append {b : Bytes} {n : Nat} (h : 4 ∣ n) (hn : n ≤ b.length) :
    exchange b = exchange (b.take n) ++ exchange (b.drop n) := by
  have hlen : (b.take n).length = n := List.length_take_of_le hn
  rw [← exchange_append (hlen.symm ▸ h), List.take_append_drop]

theorem exchange_take {b : Bytes} {n : Nat} (h : 4 ∣ n ∨ n = b.length) (hn : n ≤ b.length) :
    exchange (b.take n) = (exchange b).take n := by
  rcases h with hdvd | rfl
  · have hlen : (exchange (b.take n)).length = n := by
      rw [length_exchange, List.length_take_of_le hn]
    rw [exchange_eq_append hdvd hn, List.take_left' hlen]
  · rw [List.take_length, List.take_of_length_le (length_exchange b).le]

theorem exchange_drop {b : Bytes} {n : Nat} (h : 4 ∣ n) (hn : n ≤ b.length) :
    exchange (b.drop n) = (exchange b).drop n := by
  have hlen : (exchange (b.take n)).length = n := by
    rw [length_exchange, List.length_take_of_le hn]
  rw [exchange_eq_append h hn, List.drop_left' hlen]

/-- A part that begins between two groups, and ends there too or with the list, is exchanged as it
is in the list. -/
theorem exchange_range {b : Bytes} {i j : Nat} (hi : 4 ∣ i) (hij : i ≤ j) (hj : j ≤ b.length)
    (hend : 4 ∣ j ∨ j = b.length) : (b.range i j).exchange = b.exchange.range i j := by
  have hrest : (b.drop i).length = b.length - i := List.length_drop
  rw [range, exchange_take (by omega) (by omega), exchange_drop hi (hij.trans hj), range]

/-- On lists of `n` bytes, `f` makes of each group what `f'` makes of the group alone. -/
structure GroupByGroup (n : Nat) (f f' : Bytes → Bytes) : Prop where
  length_eq : ∀ b : Bytes, b.length = n → (f b).length = n
  group_eq : ∀ b : Bytes, b.length = n → ∀ g, 4 * g + 4 ≤ n →
    (f b).range (4 * g) (4 * g + 4) = f' (b.range (4 * g) (4 * g + 4))

/-- Two ways to exchange, one for longer lists and one for a single group, agree on every group. -/
theorem groupByGroup_of_exchange {n : Nat} {f f' : Bytes → Bytes}
    (hf : ∀ b : Bytes, b.length = n → f b = exchange b)
    (hf' : ∀ b : Bytes, b.length = 4 → f' b = exchange b) : GroupByGroup n f f' := by
  refine ⟨fun b hb => ?_, fun b hb g hg => ?_⟩
  · rw [hf b hb, length_exchange, hb]
  · have hend : 4 * g + 4 ≤ b.length := hb.symm ▸ hg
    have hgroup : (b.range (4 * g) (4 * g + 4)).length = 4 := by
      rw [length_range hend, Nat.add_sub_cancel_left]
    have hdvd : 4 ∣ 4 * g + 4 := ⟨g + 1, by omega⟩
    rw [hf b hb, hf' _ hgroup,
      exchange_range (Nat.dvd_mul_right 4 g) (Nat.le_add_right _ 4) hend (.inl hdvd)]

/-! ## Where each byte comes from -/

/-- The place in a group whose byte an exchange puts at the place `k`: 0 and 2 change places. -/
def partner : Nat → Nat
  | 0 => 2
  | 2 => 0
  | k => k

theorem partner_lt {k : Nat} (hk : k < 4) : partner k < 4 := by
  interval_cases k <;> decide

@[simp] theorem partner_partner (k : Nat) : partner (partner k) = k := by
  rcases k with _ | _ | _ | k <;> rfl

/-- Every byte of whole groups is at some place in one of them. -/
theorem exists_group {n j : Nat} (hn : 4 ∣ n) (hj : j < n) :
    ∃ g k, 4 * g + 4 ≤ n ∧ k < 4 ∧ 4 * g + k = j :=
  ⟨j / 4, j % 4, by omega, Nat.mod_lt j (by decide), Nat.div_add_mod j 4⟩

theorem getElem?_exchange {b : Bytes} {g k : Nat} (hg : 4 * g + 4 ≤ b.length) (hk : k < 4) :
    (exchange b)[4 * g + k]? = b[4 * g + partner k]? := by
  fun_induction exchange b generalizing g with
  | case1 b₀ b₁ b₂ b₃ rest ih =>
      cases g with
      | zero => interval_cases k <;> rfl
      | succ g =>
          have hrest : 4 * g + 4 ≤ rest.length := by
            simp only [List.length_cons] at hg
            omega
          have hshift : ∀ i, 4 * (g + 1) + i = 4 * g + i + 4 := by omega
          simp only [hshift, List.getElem?_cons_succ]
          exact ih hrest
  | case2 b hno =>
      have hlen := length_lt_of_no_group hno
      omega

/-- `new` is `old` after the exchanged groups of the `n` bytes that `source` has at `start` have
been written to `dest`. Nothing else has changed. -/
structure ExchangedInto (source : Bytes) (start n : Nat) (old : Bytes) (dest : Nat)
    (new : Bytes) : Prop where
  length_eq : new.length = old.length
  exchanged : ∀ g k, 4 * g + 4 ≤ n → k < 4 →
    new[dest + (4 * g + k)]? = source[start + (4 * g + partner k)]?
  kept : ∀ i, i < dest ∨ dest + n ≤ i → new[i]? = old[i]?

theorem exchangedInto_splice {source old : Bytes} {start n dest : Nat}
    (hs : start + n ≤ source.length) (ht : dest + n ≤ old.length) :
    ExchangedInto source start n old dest
      (old.splice dest (dest + n) (source.range start (start + n)).exchange) := by
  have hn : (source.range start (start + n)).length = n := by
    rw [length_range hs, Nat.add_sub_cancel_left]
  have hx : (source.range start (start + n)).exchange.length = dest + n - dest := by
    rw [length_exchange, hn, Nat.add_sub_cancel_left]
  have hget := getElem?_splice (Nat.le_add_right dest n) ht hx
  refine ⟨length_splice (Nat.le_add_right dest n) ht hx, ?_, ?_⟩
  · intro g k hg hk
    have hp := partner_lt hk
    rw [hget, if_pos (by omega), Nat.add_sub_cancel_left,
      getElem?_exchange (by omega) hk, getElem?_range, if_pos (by omega)]
  · intro i hi
    rw [hget, if_neg (by omega)]

/-! ## Exchanged groups over the start of other bytes -/

/-- `target` with its first `n` bytes replaced by the exchanged groups of those of `source`. -/
def exchangeOver (n : Nat) (source target : Bytes) : Bytes :=
  exchange (source.take n) ++ target.drop n

@[simp] theorem exchangeOver_zero (source target : Bytes) :
    exchangeOver 0 source target = target := rfl

theorem length_exchangeOver {n : Nat} {source target : Bytes} (hs : n ≤ source.length)
    (ht : n ≤ target.length) : (exchangeOver n source target).length = target.length := by
  simp only [exchangeOver, List.length_append, length_exchange, List.length_take,
    List.length_drop]
  omega

theorem exchangeOver_eq_splice (n : Nat) (source target : Bytes) :
    exchangeOver n source target = target.splice 0 n (source.range 0 n).exchange := by
  simp only [exchangeOver, splice, range, List.take_zero, List.drop_zero, List.nil_append,
    Nat.sub_zero]

theorem exchangedInto_exchangeOver {n : Nat} {source target : Bytes} (hs : n ≤ source.length)
    (ht : n ≤ target.length) :
    ExchangedInto source 0 n target 0 (exchangeOver n source target) := by
  have hs' : 0 + n ≤ source.length := (Nat.zero_add n).trans_le hs
  have ht' : 0 + n ≤ target.length := (Nat.zero_add n).trans_le ht
  have h := exchangedInto_splice hs' ht'
  rwa [Nat.zero_add, ← exchangeOver_eq_splice] at h

theorem exchangeOver_of_length_le {n : Nat} {source target : Bytes} (hs : source.length ≤ n)
    (ht : target.length ≤ n) : exchangeOver n source target = exchange source := by
  rw [exchangeOver, List.take_of_length_le hs, List.drop_of_length_le ht, List.append_nil]

/-- The part that has been written is a prefix: what follows it is still the target. -/
theorem drop_exchangeOver {n : Nat} {source : Bytes} (hs : n ≤ source.length) (target : Bytes) :
    (exchangeOver n source target).drop n = target.drop n := by
  have hlen : (exchange (source.take n)).length = n := by
    rw [length_exchange, List.length_take_of_le hs]
  rw [exchangeOver, List.drop_append_of_le_length hlen.ge, List.drop_of_length_le hlen.le,
    List.nil_append]

theorem take_exchangeOver {n : Nat} {source : Bytes} (hs : n ≤ source.length) (target : Bytes) :
    (exchangeOver n source target).take n = exchange (source.take n) := by
  have hlen : (exchange (source.take n)).length = n := by
    rw [length_exchange, List.length_take_of_le hs]
  rw [exchangeOver, List.take_append_of_le_length hlen.ge, List.take_of_length_le hlen.le]

/-- Writing some whole groups and then more after them is writing all of them. -/
theorem exchangeOver_add {m : Nat} {source : Bytes} (hm : 4 ∣ m) (hs : m ≤ source.length)
    (n : Nat) (target : Bytes) :
    exchangeOver (m + n) source target =
      exchange (source.take m) ++ exchangeOver n (source.drop m) (target.drop m) := by
  have hlen : (source.take m).length = m := List.length_take_of_le hs
  rw [exchangeOver, exchangeOver, List.take_add, exchange_append (hlen.symm ▸ hm),
    List.append_assoc, List.drop_drop]

theorem range_exchangeOver {n : Nat} {source target : Bytes} (hs : n ≤ source.length)
    (ht : n ≤ target.length) :
    (exchangeOver n source target).range n target.length = target.drop n := by
  rw [← length_exchangeOver hs ht, range_to_length, drop_exchangeOver hs]

/-- An exchange that is written behind an exchanged prefix continues it. -/
theorem splice_exchangeOver {m : Nat} {source target : Bytes} (hm : 4 ∣ m)
    (hs : m ≤ source.length) (ht : m ≤ target.length) (n : Nat) :
    (exchangeOver m source target).splice m target.length
        (exchangeOver n (source.drop m) (target.drop m)) =
      exchangeOver (m + n) source target := by
  have hlen := length_exchangeOver hs ht
  calc
    (exchangeOver m source target).splice m target.length
        (exchangeOver n (source.drop m) (target.drop m))
        = (exchangeOver m source target).take m ++
            exchangeOver n (source.drop m) (target.drop m) := by
          rw [← hlen, splice_to_length]
    _ = exchangeOver (m + n) source target := by
          rw [take_exchangeOver hs, exchangeOver_add hm hs]

/-- An exchange over a part of the target is an exchange over the target. -/
theorem splice_exchangeOver_range {n m : Nat} (h : n ≤ m) (source target : Bytes)
    (hm : m ≤ target.length) :
    target.splice 0 m (exchangeOver n (source.range 0 m) (target.range 0 m)) =
      exchangeOver n source target := by
  have hsplit : (target.take m).drop n ++ target.drop m = target.drop n := by
    have hn : n ≤ (target.take m).length := by
      rw [List.length_take]
      omega
    rw [← List.drop_append_of_le_length hn, List.take_append_drop]
  simp only [splice, range, exchangeOver, Nat.sub_zero, List.drop_zero, List.take_zero,
    List.nil_append, List.take_take, Nat.min_eq_left h, List.append_assoc, hsplit]

/-- The whole groups at the start of a list are all that an exchange changes. -/
theorem exchangeOver_whole (b : Bytes) :
    exchangeOver (b.length - b.length % 4) b b = exchange b := by
  have hrest : (b.drop (b.length - b.length % 4)).length < 4 := by
    rw [List.length_drop]
    omega
  rw [exchangeOver, exchange_eq_append (Nat.dvd_sub_mod b.length) (Nat.sub_le _ _),
    exchange_of_length_lt hrest]

/-! ## Chunks of whole groups -/

/-- Writing chunk after chunk is writing their groups, if each chunk is exchanged. -/
theorem copyFirst_eq_exchangeOver {n : Nat} {f : Bytes → Bytes} (hn : 4 ∣ n)
    (hf : ∀ c : Bytes, c.length = n → f c = exchange c) (count : Nat) (source target : Bytes)
    (hs : n * count ≤ source.length) :
    copyFirst n f count source target = exchangeOver (n * count) source target := by
  induction count generalizing source target with
  | zero => rfl
  | succ count ih =>
      have hsum : n * (count + 1) = n + n * count := by rw [Nat.mul_succ, Nat.add_comm]
      have hchunk : n ≤ source.length := by omega
      have hrest : n * count ≤ (source.drop n).length := by
        rw [List.length_drop]
        omega
      rw [copyFirst_succ, hf _ (List.length_take_of_le hchunk), ih _ _ hrest, hsum,
        exchangeOver_add hn hchunk]

theorem commonChunks_eq (n : Nat) (source target : Bytes) :
    commonChunks n source target = min source.length target.length / n := by
  rw [commonChunks]
  rcases Nat.le_total source.length target.length with h | h
  · rw [Nat.min_eq_left h, Nat.min_eq_left (Nat.div_le_div_right h)]
  · rw [Nat.min_eq_right h, Nat.min_eq_right (Nat.div_le_div_right h)]

theorem copyChunks_eq_exchangeOver {n : Nat} {f : Bytes → Bytes} (hn : 4 ∣ n)
    (hf : ∀ c : Bytes, c.length = n → f c = exchange c) (source target : Bytes) :
    copyChunks n f source target =
      exchangeOver (n * (min source.length target.length / n)) source target := by
  have hle : n * (min source.length target.length / n) ≤ source.length :=
    (Nat.mul_div_le _ _).trans (Nat.min_le_left _ _)
  rw [copyChunks, commonChunks_eq, copyFirst_eq_exchangeOver hn hf _ _ _ hle]

theorem mapChunks_eq_exchangeOver {n : Nat} {f : Bytes → Bytes} (hn : 4 ∣ n)
    (hf : ∀ c : Bytes, c.length = n → f c = exchange c) (b : Bytes) :
    mapChunks n f b = exchangeOver (n * (b.length / n)) b b := by
  rw [← copyChunks_self, copyChunks_eq_exchangeOver hn hf, Nat.min_self]

/-- Whole chunks on both sides leave nothing of the target. -/
theorem copyChunks_eq_exchange {n : Nat} {f : Bytes → Bytes} (hn : 4 ∣ n)
    (hf : ∀ c : Bytes, c.length = n → f c = exchange c) {source target : Bytes}
    (hdvd : n ∣ source.length) (hlen : target.length = source.length) :
    copyChunks n f source target = exchange source := by
  rw [copyChunks_eq_exchangeOver hn hf, hlen, Nat.min_self, Nat.mul_div_cancel' hdvd,
    exchangeOver_of_length_le le_rfl hlen.le]

end RedBlue.Bytes
