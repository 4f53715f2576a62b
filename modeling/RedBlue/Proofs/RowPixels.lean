import RedBlue.Proofs.Effects
import RedBlue.Proofs.RowBytes

/-! # Rows, pixel by pixel

Where the pixels of rows lie in a buffer, and what a swap of the rows does to each of them. -/

namespace RedBlue

namespace Rows

/-- Where a pixel begins. -/
def offset (r : Rows) (y x : Nat) : Nat := y * r.stride + 4 * x

/-- The pixels lie within `size` bytes, and no byte is in two of them. -/
structure Placed (r : Rows) (size : Nat) : Prop where
  within : ∀ y x, y < r.height → x < r.width → r.offset y x + 4 ≤ size
  apart : ∀ y x k y' x' k', x < r.width → k < 4 → x' < r.width → k' < 4 →
    r.offset y x + k = r.offset y' x' + k' → y = y' ∧ x = x' ∧ k = k'

/-- `new` is `old` after the exchanged pixels of the rows of `source`, which begin at a distance
of `sourceStride`, have been written over the pixels at the same places in its own rows. Nothing
else has changed. -/
structure PixelsExchanged (r : Rows) (source : Bytes) (sourceStride : Nat) (old new : Bytes) :
    Prop where
  length_eq : new.length = old.length
  exchanged : ∀ y x k, y < r.height → x < r.width → k < 4 →
    new[r.offset y x + k]? =
      source[{ r with stride := sourceStride }.offset y x + Bytes.partner k]?
  kept : ∀ i, (∀ y x, y < r.height → x < r.width → i < r.offset y x ∨ r.offset y x + 4 ≤ i) →
    new[i]? = old[i]?

/-- The pixels in the rows `r` of `b` are those in the rows `r'` of `b'`. -/
def SamePixels (r r' : Rows) (b b' : Bytes) : Prop :=
  ∀ y x k, y < r.height → x < r.width → k < 4 → b[r.offset y x + k]? = b'[r'.offset y x + k]?

variable {r : Rows} {size sourceStride : Nat} {source old new : Bytes}

/-! ## Where pixels lie -/

/-- A row that does not reach the next one is told by any of its bytes. -/
theorem row_unique {stride y i y' i' : Nat} (hi : i < stride) (hi' : i' < stride)
    (h : y * stride + i = y' * stride + i') : y = y' ∧ i = i' := by
  have hpos : 0 < stride := by omega
  have hrow : y = y' := by
    have hdiv := congrArg (· / stride) h
    simpa only [Nat.mul_comm _ stride, Nat.mul_add_div hpos, Nat.div_eq_of_lt hi,
      Nat.div_eq_of_lt hi', Nat.add_zero] using hdiv
  subst hrow
  exact ⟨rfl, Nat.add_left_cancel h⟩

theorem Fits.placed (h : r.Fits size) : r.Placed size := by
  have hrows := h.rowsWithin
  refine ⟨?_, ?_⟩
  · intro y x hy hx
    have hend := hrows.ends y hy
    rw [offset]
    omega
  · intro y x k y' x' k' hx hk hx' hk' heq
    have hrow := hrows.row_le
    rw [offset, offset, Nat.add_assoc, Nat.add_assoc] at heq
    obtain ⟨hy, hoffset⟩ := row_unique (by omega) (by omega) heq
    omega

/-! ## What swapped rows hold -/

/-- The bytes of a row are those of its pixels. -/
theorem pixelsExchanged_of_rows
    (h : Bytes.RowsExchangedInto (4 * r.width) r.height source sourceStride old r.stride new) :
    r.PixelsExchanged source sourceStride old new := by
  refine ⟨h.length_eq, ?_, ?_⟩
  · intro y x k hy hx hk
    rw [offset, offset, Nat.add_assoc, Nat.add_assoc]
    exact h.exchanged y x k hy (by omega) hk
  · intro i hi
    refine h.kept i fun y hy => ?_
    by_contra hin
    obtain ⟨hbegin, hend⟩ := not_or.mp hin
    -- The pixel of its row that the byte is in.
    have hpixel := hi y ((i - y * r.stride) / 4) hy (by omega)
    rw [offset] at hpixel
    omega

/-! ## Buffers with the same pixels -/

/-- Rows fit a buffer that has their pixels: the last one ends where the rows end. -/
theorem Fits.of_samePixels {b b' : Bytes} (h : r.Fits b.length) (hsame : r.SamePixels r b' b) :
    r.Fits b'.length := by
  obtain ⟨hwidth, hheight, hstride, hextent⟩ := h
  have hlast := hsame (r.height - 1) (r.width - 1) 3 (by omega) (by omega) (by decide)
  have hwithin : r.offset (r.height - 1) (r.width - 1) + 3 < b.length := by
    rw [offset]
    omega
  rw [List.getElem?_eq_getElem hwithin] at hlast
  obtain ⟨hend, -⟩ := List.getElem?_eq_some_iff.mp hlast
  rw [offset] at hend
  exact ⟨hwidth, hheight, hstride, by omega⟩

/-- Pixels that come from a source come from every source with the same ones. -/
theorem PixelsExchanged.of_samePixels {source' : Bytes}
    (h : r.PixelsExchanged source' sourceStride old new)
    (hsame : { r with stride := sourceStride }.SamePixels { r with stride := sourceStride }
      source' source) :
    r.PixelsExchanged source sourceStride old new := by
  refine ⟨h.length_eq, ?_, h.kept⟩
  intro y x k hy hx hk
  exact (h.exchanged y x k hy hx hk).trans (hsame y x _ hy hx (Bytes.partner_lt hk))

/-- Every byte is in a pixel or outside of all of them. -/
theorem PixelsExchanged.unique {new' : Bytes} (h : r.PixelsExchanged source sourceStride old new)
    (h' : r.PixelsExchanged source sourceStride old new') : new = new' := by
  apply List.ext_getElem?
  intro i
  by_cases hi : ∀ y x, y < r.height → x < r.width → i < r.offset y x ∨ r.offset y x + 4 ≤ i
  · rw [h.kept i hi, h'.kept i hi]
  · push Not at hi
    obtain ⟨y, x, hy, hx, hle, hlt⟩ := hi
    obtain ⟨k, rfl⟩ := Nat.exists_eq_add_of_le hle
    have hk : k < 4 := Nat.lt_of_add_lt_add_left hlt
    rw [h.exchanged y x k hy hx hk, h'.exchanged y x k hy hx hk]

end Rows

namespace Edit

/-! ## In place -/

theorem fits_of_swapRows_ok {hw : Hardware} {r : Rows} {w : Workspace}
    (h : (exec hw (swapRows r) w).1 = .ok ()) : r.Fits w.view.length := by
  by_contra hnot
  rw [exec_swapRows_of_not_fits hw hnot] at h
  cases h

/-- A swap of rows that succeeds has exchanged channels once in every pixel of the rows, on any
tier and hardware, and has kept every other byte: the padding of the rows and all that lies after
the last one. -/
theorem swapRows_pixelsExchanged (hw : Hardware) (r : Rows) (w : Workspace)
    (hlen : w.view.length < Size.limit) (h : (exec hw (swapRows r) w).1 = .ok ()) :
    r.Placed w.view.length ∧
      r.PixelsExchanged w.view r.stride w.view (exec hw (swapRows r) w).2.view := by
  have hfits := fits_of_swapRows_ok h
  have hrows := hfits.rowsWithin
  rw [exec_swapRows_of_fits hw hfits hlen]
  exact ⟨hfits.placed, Rows.pixelsExchanged_of_rows (Bytes.rowsExchangedInto_copyRows hrows hrows)⟩

/-- The last of two rows ends with the buffer, and there is no padding after it. -/
theorem swapRows_pixelsExchanged_short_last_row :
    ((List.range 18).map UInt8.ofNat).length < Size.limit ∧
      (exec ⟨true, true⟩ (swapRows ⟨2, 2, 10⟩) ⟨.start, (List.range 18).map UInt8.ofNat⟩).1 =
        .ok () ∧
      Rows.Placed ⟨2, 2, 10⟩ 18 ∧
      Rows.PixelsExchanged ⟨2, 2, 10⟩ ((List.range 18).map UInt8.ofNat) 10
        ((List.range 18).map UInt8.ofNat)
        (exec ⟨true, true⟩ (swapRows ⟨2, 2, 10⟩)
          ⟨.start, (List.range 18).map UInt8.ofNat⟩).2.view := by
  have hlen : ((List.range 18).map UInt8.ofNat).length < Size.limit := by decide
  have hok : (exec ⟨true, true⟩ (swapRows ⟨2, 2, 10⟩)
      ⟨.start, (List.range 18).map UInt8.ofNat⟩).1 = .ok () := by
    rw [exec_swapRows_of_fits _ (by decide) hlen]
  exact ⟨hlen, hok, swapRows_pixelsExchanged ⟨true, true⟩ ⟨2, 2, 10⟩ _ hlen hok⟩

/-- Two rows of one pixel with padding, and a third one past the given height. -/
example : (exec ⟨true, true⟩ (swapRows ⟨1, 2, 5⟩)
      ⟨.start, [1, 2, 3, 4, 0, 5, 6, 7, 8, 0, 9, 10, 11, 12]⟩).2.view =
    [3, 2, 1, 4, 0, 7, 6, 5, 8, 0, 9, 10, 11, 12] := by
  decide +kernel

/-! ## From another buffer -/

theorem effect_swapRowsFrom_of_fits (hw : Hardware) (s : Selection) {source old : Bytes}
    {sourceStride : Nat} {r : Rows} (hs : { r with stride := sourceStride }.Fits source.length)
    (h : r.Fits old.length) (hslen : source.length < Size.limit) (hlen : old.length < Size.limit) :
    ∃ new, effect hw s (swapRowsFrom source sourceStride r) old = (.ok (), new) ∧
      r.PixelsExchanged source sourceStride old new := by
  refine ⟨_, ?_, Rows.pixelsExchanged_of_rows
    (Bytes.rowsExchangedInto_copyRows hs.rowsWithin h.rowsWithin)⟩
  rw [effect_swapRowsFrom hw s sourceStride r hslen hlen, if_pos ⟨hs, h⟩]

theorem fits_of_effect_swapRowsFrom {hw : Hardware} {s : Selection} {source old new : Bytes}
    {sourceStride : Nat} {r : Rows} (hslen : source.length < Size.limit)
    (hlen : old.length < Size.limit)
    (h : effect hw s (swapRowsFrom source sourceStride r) old = (.ok (), new)) :
    { r with stride := sourceStride }.Fits source.length ∧ r.Fits old.length := by
  by_contra hnot
  rw [effect_swapRowsFrom hw s sourceStride r hslen hlen, if_neg hnot] at h
  cases h

/-- A copy of rows that succeeds has written each pixel of the rows of the source, exchanged, to its
place in the rows of the target, and nothing else. Whatever the source holds outside of its rows,
and however long it is, the copy ends with the same bytes, on any tier and hardware. -/
theorem swapRowsFrom_pixelsExchanged (hw : Hardware) (s : Selection) (sourceStride : Nat) (r : Rows)
    (source old new : Bytes) (hslen : source.length < Size.limit) (hlen : old.length < Size.limit)
    (h : effect hw s (swapRowsFrom source sourceStride r) old = (.ok (), new)) :
    Rows.Placed { r with stride := sourceStride } source.length ∧ r.Placed old.length ∧
      r.PixelsExchanged source sourceStride old new ∧
      ∀ (hw' : Hardware) (s' : Selection) (source' : Bytes), source'.length < Size.limit →
        Rows.SamePixels { r with stride := sourceStride } { r with stride := sourceStride } source'
          source →
        effect hw' s' (swapRowsFrom source' sourceStride r) old = (.ok (), new) := by
  obtain ⟨hs, ht⟩ := fits_of_effect_swapRowsFrom hslen hlen h
  obtain ⟨_, hrun, hpixels⟩ := effect_swapRowsFrom_of_fits hw s hs ht hslen hlen
  obtain rfl := congrArg Prod.snd (h.symm.trans hrun)
  refine ⟨hs.placed, ht.placed, hpixels, ?_⟩
  intro hw' s' source' hslen' hsame
  obtain ⟨new', hrun', hpixels'⟩ :=
    effect_swapRowsFrom_of_fits hw' s' (hs.of_samePixels hsame) ht hslen' hlen
  rw [hrun', (hpixels'.of_samePixels hsame).unique hpixels]

/-- The second source has another byte of padding and goes on after its last row. -/
theorem swapRowsFrom_pixelsExchanged_other_strides :
    ([1, 2, 3, 4, 0, 5, 6, 7, 8] : Bytes).length < Size.limit ∧
      (List.replicate 12 (9 : UInt8)).length < Size.limit ∧
      effect ⟨true, true⟩ .start (swapRowsFrom [1, 2, 3, 4, 0, 5, 6, 7, 8] 5 ⟨1, 2, 6⟩)
          (List.replicate 12 9) =
        (.ok (), [3, 2, 1, 4, 9, 9, 7, 6, 5, 8, 9, 9]) ∧
      (Rows.Placed ⟨1, 2, 5⟩ 9 ∧ Rows.Placed ⟨1, 2, 6⟩ 12 ∧
        Rows.PixelsExchanged ⟨1, 2, 6⟩ [1, 2, 3, 4, 0, 5, 6, 7, 8] 5 (List.replicate 12 9)
          [3, 2, 1, 4, 9, 9, 7, 6, 5, 8, 9, 9]) ∧
      ([1, 2, 3, 4, 77, 5, 6, 7, 8, 78, 79] : Bytes).length < Size.limit ∧
      Rows.SamePixels ⟨1, 2, 5⟩ ⟨1, 2, 5⟩ [1, 2, 3, 4, 77, 5, 6, 7, 8, 78, 79]
        [1, 2, 3, 4, 0, 5, 6, 7, 8] ∧
      effect ⟨false, true⟩ .start (swapRowsFrom [1, 2, 3, 4, 77, 5, 6, 7, 8, 78, 79] 5 ⟨1, 2, 6⟩)
          (List.replicate 12 9) =
        (.ok (), [3, 2, 1, 4, 9, 9, 7, 6, 5, 8, 9, 9]) := by
  have hrun : effect ⟨true, true⟩ .start (swapRowsFrom [1, 2, 3, 4, 0, 5, 6, 7, 8] 5 ⟨1, 2, 6⟩)
      (List.replicate 12 9) = (.ok (), [3, 2, 1, 4, 9, 9, 7, 6, 5, 8, 9, 9]) := by
    decide +kernel
  have hsame : Rows.SamePixels ⟨1, 2, 5⟩ ⟨1, 2, 5⟩ [1, 2, 3, 4, 77, 5, 6, 7, 8, 78, 79]
      [1, 2, 3, 4, 0, 5, 6, 7, 8] := by
    intro y x k (hy : y < 2) (hx : x < 1) hk
    interval_cases y <;> interval_cases x <;> interval_cases k <;> rfl
  obtain ⟨hs, ht, hpixels, hother⟩ := swapRowsFrom_pixelsExchanged ⟨true, true⟩ .start 5 ⟨1, 2, 6⟩
    _ _ _ (by decide) (by decide) hrun
  exact ⟨by decide, by decide, hrun, ⟨hs, ht, hpixels⟩, by decide, hsame,
    hother ⟨false, true⟩ .start _ (by decide) hsame⟩

end Edit

end RedBlue
