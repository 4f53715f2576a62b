import RedBlue.Proofs.Rows

/-! # Rows, byte by byte

Which byte ends up at which index when the rows of one buffer are written over those of another
one. The answer determines the buffer, so rows that lie in the first part of a buffer can be worked
on there. -/

namespace RedBlue.Bytes

/-- `new` is `old` after the exchanged groups of the first `row` bytes of `count` rows of `source`
have been written over the start of its own rows. Nothing else has changed. -/
structure RowsExchangedInto (row count : Nat) (source : Bytes) (sourceStride : Nat) (old : Bytes)
    (stride : Nat) (new : Bytes) : Prop where
  length_eq : new.length = old.length
  exchanged : ∀ y g k, y < count → 4 * g + 4 ≤ row → k < 4 →
    new[y * stride + (4 * g + k)]? = source[y * sourceStride + (4 * g + partner k)]?
  kept : ∀ i, (∀ y < count, i < y * stride ∨ y * stride + row ≤ i) → new[i]? = old[i]?

variable {row count sourceStride stride : Nat} {source old new new' : Bytes}

/-! ## What copied rows hold -/

/-- A first row and the rows behind it are the rows of the two parts put together. -/
theorem RowsExchangedInto.cons {first rest : Bytes}
    (hs : RowsWithin row sourceStride (count + 1) source.length)
    (h : RowsWithin row stride (count + 1) old.length)
    (hfirst : ExchangedInto (source.take sourceStride) 0 row (old.take stride) 0 first)
    (hrest : RowsExchangedInto row count (source.drop sourceStride) sourceStride (old.drop stride)
      stride rest) :
    RowsExchangedInto row (count + 1) source sourceStride old stride (first ++ rest) := by
  have hlen : first.length = min stride old.length := by
    rw [hfirst.length_eq, List.length_take]
  have hlenRest : rest.length = old.length - stride := by
    rw [hrest.length_eq, List.length_drop]
  refine ⟨?_, ?_, ?_⟩
  · rw [List.length_append, hlen, hlenRest]
    omega
  · intro y g k hy hg hk
    have hpartner := partner_lt hk
    have hrow := hs.row_le
    cases y with
    | zero =>
        have hwithin := h.first
        rw [Nat.zero_mul, Nat.zero_mul, List.getElem?_append_left (by omega),
          hfirst.exchanged g k hg hk, List.getElem?_take_of_lt (by omega)]
    | succ y =>
        -- There is a row behind the first one, so that one has its full stride.
        have hend := h.ends (y + 1) hy
        rw [Nat.succ_mul y] at hend
        have hfull : first.length = stride := by omega
        have hshift : (y + 1) * stride + (4 * g + k) - stride = y * stride + (4 * g + k) := by
          rw [Nat.succ_mul y]
          omega
        have hback : sourceStride + (y * sourceStride + (4 * g + partner k)) =
            (y + 1) * sourceStride + (4 * g + partner k) := by
          rw [Nat.succ_mul y]
          omega
        rw [List.getElem?_append_right (by rw [hfull, Nat.succ_mul y]; omega), hfull, hshift,
          hrest.exchanged y g k (Nat.lt_of_succ_lt_succ hy) hg hk, List.getElem?_drop, hback]
  · intro i hi
    have hrow : row ≤ i := by
      have hzero := hi 0 (Nat.succ_pos count)
      omega
    by_cases hlt : i < first.length
    · rw [List.getElem?_append_left hlt, hfirst.kept i (.inr (by omega)),
        List.getElem?_take_of_lt (by omega)]
    · by_cases hfull : stride ≤ old.length
      · have hbehind : ∀ y < count, i - stride < y * stride ∨ y * stride + row ≤ i - stride := by
          intro y hy
          have hnext := hi (y + 1) (Nat.succ_lt_succ hy)
          rw [Nat.succ_mul y] at hnext
          omega
        have hlenFirst : first.length = stride := by omega
        rw [List.getElem?_append_right (by omega), hlenFirst, hrest.kept _ hbehind,
          List.getElem?_drop, Nat.add_sub_cancel' (by omega)]
      · rw [List.getElem?_eq_none (by rw [List.length_append]; omega),
          List.getElem?_eq_none (by omega)]

theorem rowsExchangedInto_copyRows (hs : RowsWithin row sourceStride count source.length)
    (h : RowsWithin row stride count old.length) :
    RowsExchangedInto row count source sourceStride old stride
      (copyRows row sourceStride stride count source old) := by
  induction count generalizing source old with
  | zero => exact ⟨rfl, fun y _ _ hy => absurd hy (Nat.not_lt_zero y), fun _ _ => rfl⟩
  | succ count ih =>
      exact .cons hs h (exchangedInto_exchangeOver hs.row_le_take h.row_le_take) (ih hs.drop h.drop)

theorem copyRows_zero_row (sourceStride stride count : Nat) (source target : Bytes) :
    copyRows 0 sourceStride stride count source target = target := by
  induction count generalizing source target with
  | zero => rfl
  | succ count ih => rw [copyRows, exchangeOver_zero, ih, List.take_append_drop]

/-- Some rows and then more behind them are the rows of the two parts. -/
theorem copyRows_add (row sourceStride stride first rest : Nat) (source target : Bytes) :
    copyRows row sourceStride stride (first + rest) source target =
      copyRows row sourceStride stride first (source.take (first * sourceStride))
          (target.take (first * stride)) ++
        copyRows row sourceStride stride rest (source.drop (first * sourceStride))
          (target.drop (first * stride)) := by
  induction first generalizing source target with
  | zero => simp only [Nat.zero_add, Nat.zero_mul, List.take_zero, List.drop_zero, copyRows,
      List.nil_append]
  | succ first ih =>
      have hone : ∀ n : Nat, min n ((first + 1) * n) = n := by
        intro n
        rw [Nat.succ_mul]
        omega
      have hmore : ∀ n : Nat, (first + 1) * n - n = first * n := by
        intro n
        rw [Nat.succ_mul, Nat.add_sub_cancel]
      have hbehind : ∀ n : Nat, n + first * n = (first + 1) * n := by
        intro n
        rw [Nat.succ_mul, Nat.add_comm]
      rw [Nat.add_right_comm, copyRows, ih, copyRows, List.take_take, List.take_take, hone, hone,
        List.drop_take, List.drop_take, hmore, hmore, List.drop_drop, List.drop_drop, hbehind,
        hbehind, List.append_assoc]

theorem RowsExchangedInto.of_empty (h : row = 0 ∨ count = 0) (source : Bytes) (sourceStride : Nat)
    (old : Bytes) (stride : Nat) :
    RowsExchangedInto row count source sourceStride old stride old := by
  refine ⟨rfl, ?_, fun _ _ => rfl⟩
  intro y g k hy hg
  omega

/-! ## Rows in the first part of a buffer -/

/-- Every byte is in a row or outside of all of them. -/
theorem RowsExchangedInto.unique (hdvd : 4 ∣ row)
    (h : RowsExchangedInto row count source sourceStride old stride new)
    (h' : RowsExchangedInto row count source sourceStride old stride new') : new = new' := by
  apply List.ext_getElem?
  intro i
  by_cases hi : ∀ y < count, i < y * stride ∨ y * stride + row ≤ i
  · rw [h.kept i hi, h'.kept i hi]
  · push Not at hi
    obtain ⟨y, hy, hle, hlt⟩ := hi
    obtain ⟨j, rfl⟩ := Nat.exists_eq_add_of_le hle
    obtain ⟨g, k, hg, hk, rfl⟩ := exists_group hdvd (Nat.lt_of_add_lt_add_left hlt)
    rw [h.exchanged y g k hy hg hk, h'.exchanged y g k hy hg hk]

theorem RowsWithin.mono {size size' : Nat} (h : RowsWithin row stride count size)
    (hle : size ≤ size') : RowsWithin row stride count size' :=
  ⟨h.row_le, fun y hy => (h.ends y hy).trans hle⟩

/-- Only the bytes up to the end of the last row take part. -/
theorem copyRows_of_prefix {m n : Nat} (hdvd : 4 ∣ row)
    (hs : RowsWithin row sourceStride count n) (h : RowsWithin row stride count m)
    (hn : n ≤ source.length) (hm : m ≤ old.length) :
    copyRows row sourceStride stride count (source.take n) (old.take m) ++ old.drop m =
      copyRows row sourceStride stride count source old := by
  have hlenSource : (source.take n).length = n := List.length_take_of_le hn
  have hlenOld : (old.take m).length = m := List.length_take_of_le hm
  have hpart := rowsExchangedInto_copyRows (hlenSource.symm ▸ hs) (hlenOld.symm ▸ h)
  have hlen := hpart.length_eq.trans hlenOld
  refine RowsExchangedInto.unique hdvd ⟨?_, ?_, ?_⟩
    (rowsExchangedInto_copyRows (hs.mono hn) (h.mono hm))
  · rw [List.length_append, hlen, List.length_drop]
    omega
  · intro y g k hy hg hk
    have hpartner := partner_lt hk
    have hend := h.ends y hy
    have hsend := hs.ends y hy
    rw [List.getElem?_append_left (by omega), hpart.exchanged y g k hy hg hk,
      List.getElem?_take_of_lt (by omega)]
  · intro i hi
    by_cases hlt : i < m
    · rw [List.getElem?_append_left (by omega), hpart.kept i hi, List.getElem?_take_of_lt hlt]
    · rw [List.getElem?_append_right (by omega), hlen, List.getElem?_drop,
        Nat.add_sub_cancel' (by omega)]

end RedBlue.Bytes
