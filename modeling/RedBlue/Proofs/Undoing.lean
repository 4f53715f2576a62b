import RedBlue.Proofs.RowPixels

/-! # Swapping again

A swap is undone by swapping again, whichever tiers and hardware the two of them run on. Rows that
are copied twice arrive as they were, although all three buffers may have other distances between
their rows. A region that is swapped to its destination and from there back is as it was, although
the two may overlap. -/

namespace RedBlue

/-! ## Rows in place -/

namespace Bytes

variable {row count stride : Nat} {old new : Bytes}

theorem RowsExchangedInto.undo (h : RowsExchangedInto row count old stride old stride new) :
    RowsExchangedInto row count new stride new stride old := by
  refine ⟨h.length_eq.symm, ?_, fun i hi => (h.kept i hi).symm⟩
  intro y g k hy hg hk
  rw [h.exchanged y g _ hy hg (partner_lt hk), partner_partner]

theorem copyRows_copyRows (hdvd : 4 ∣ row) (h : RowsWithin row stride count old.length) :
    copyRows row stride stride count (copyRows row stride stride count old old)
      (copyRows row stride stride count old old) = old := by
  have hthere := rowsExchangedInto_copyRows h h
  have hwithin := h
  rw [← hthere.length_eq] at hwithin
  exact (rowsExchangedInto_copyRows hwithin hwithin).unique hdvd hthere.undo

end Bytes

/-! ## Rows by way of another buffer -/

namespace Rows

/-- `new` is `old` after the pixels in the rows `r'` of `source` have been written over those in the
rows `r` as they are. Nothing else has changed. -/
structure PixelsCopied (r r' : Rows) (source old new : Bytes) : Prop where
  length_eq : new.length = old.length
  copied : r.SamePixels r' new source
  kept : ∀ i, (∀ y x, y < r.height → x < r.width → i < r.offset y x ∨ r.offset y x + 4 ≤ i) →
    new[i]? = old[i]?

/-- The second exchange of a pixel undoes the first one. -/
theorem PixelsExchanged.again {width height first middle last : Nat} {a b b' c c' : Bytes}
    (h : PixelsExchanged ⟨width, height, middle⟩ a first b b')
    (h' : PixelsExchanged ⟨width, height, last⟩ b' middle c c') :
    PixelsCopied ⟨width, height, last⟩ ⟨width, height, first⟩ a c c' := by
  refine ⟨h'.length_eq, ?_, h'.kept⟩
  intro y x k hy hx hk
  have hthere := h.exchanged y x _ hy hx (Bytes.partner_lt hk)
  have hback := h'.exchanged y x k hy hx hk
  rw [Bytes.partner_partner] at hthere
  exact hback.trans hthere

end Rows

/-! ## A region and back -/

namespace Region

variable {r : Region} {size : Nat}

/-- The way back: from the destination of a region, with all of its length, to where it was. -/
def reversed (r : Region) : Region := ⟨r.dest, r.dest + (r.stop - r.start), r.start⟩

theorem wholeLength_reversed (r : Region) : r.reversed.wholeLength = r.wholeLength := by
  rw [wholeLength, wholeLength, reversed, Nat.add_sub_cancel_left]

theorem Fits.reversed (h : r.Fits size) : r.reversed.Fits size := by
  obtain ⟨hstart, hstop, hdest⟩ := h
  refine ⟨Nat.le_add_right _ _, hdest, ?_⟩
  dsimp only [Region.reversed]
  omega

theorem Fits.whole_le (h : r.Fits size) :
    r.start + r.wholeLength ≤ size ∧ r.dest + r.wholeLength ≤ size := by
  obtain ⟨hstart, hstop, hdest⟩ := h
  have hwhole : r.wholeLength ≤ r.stop - r.start := Nat.sub_le _ _
  omega

/-- `back` is `old` after the complete groups of a region have been swapped to its destination,
which left `there`, and from the destination back to where they were. -/
structure Returned (r : Region) (old there back : Bytes) : Prop where
  length_eq : back.length = old.length
  restored : ∀ i, r.start ≤ i → i < r.start + r.wholeLength → back[i]? = old[i]?
  left : ∀ i, r.dest ≤ i → i < r.dest + r.wholeLength →
    i < r.start ∨ r.start + r.wholeLength ≤ i → back[i]? = there[i]?
  kept : ∀ i, i < r.start ∨ r.start + r.wholeLength ≤ i →
    i < r.dest ∨ r.dest + r.wholeLength ≤ i → back[i]? = old[i]?

/-- All that the second swap reads has been written by the first one, and all that the first one
read is written by the second. -/
theorem Returned.of_exchanged {old there back : Bytes}
    (h : Bytes.ExchangedInto old r.start r.wholeLength old r.dest there)
    (h' : Bytes.ExchangedInto there r.dest r.wholeLength there r.start back) :
    r.Returned old there back := by
  refine ⟨h'.length_eq.trans h.length_eq, ?_, fun i _ _ hi => h'.kept i hi,
    fun i hi hi' => (h'.kept i hi).trans (h.kept i hi')⟩
  intro i hle hlt
  have hdvd : 4 ∣ r.wholeLength := Nat.dvd_sub_mod _
  obtain ⟨j, rfl⟩ := Nat.exists_eq_add_of_le hle
  obtain ⟨g, k, hg, hk, rfl⟩ := Bytes.exists_group hdvd (Nat.lt_of_add_lt_add_left hlt)
  rw [h'.exchanged g k hg hk, h.exchanged g _ hg (Bytes.partner_lt hk), Bytes.partner_partner]

end Region

namespace Edit

theorem effect_swapRegion_of_fits (hw : Hardware) (s : Selection) {r : Region} {b : Bytes}
    (h : r.Fits b.length) (hb : b.length < Size.limit) :
    ∃ new, effect hw s (swapRegion r) b = (.ok (), new) ∧
      Bytes.ExchangedInto b r.start r.wholeLength b r.dest new := by
  refine ⟨_, ?_, Bytes.exchangedInto_splice h.whole_le.1 h.whole_le.2⟩
  rw [effect_swapRegion hw s r hb, if_pos h]

theorem fits_of_effect_swapRegion {hw : Hardware} {s : Selection} {r : Region} {b new : Bytes}
    (hb : b.length < Size.limit) (h : effect hw s (swapRegion r) b = (.ok (), new)) :
    r.Fits b.length := by
  by_contra hnot
  rw [effect_swapRegion hw s r hb, if_neg hnot] at h
  cases h

/-- A region that has been swapped to its destination can be swapped back, and then all of its
complete groups are as they were, however the region and its destination overlap. What is left of
the first swap is at the destination, outside of the region. -/
theorem swapRegion_returned (hw hw' : Hardware) (s s' : Selection) (r : Region) (old there : Bytes)
    (hlen : old.length < Size.limit) (h : effect hw s (swapRegion r) old = (.ok (), there)) :
    Bytes.ExchangedInto old r.start r.wholeLength old r.dest there ∧
      ∃ back, effect hw' s' (swapRegion r.reversed) there = (.ok (), back) ∧
        r.Returned old there back := by
  have hfits := fits_of_effect_swapRegion hlen h
  obtain ⟨_, hrun, hthere⟩ := effect_swapRegion_of_fits hw s hfits hlen
  obtain rfl := congrArg Prod.snd (h.symm.trans hrun)
  have hfits' : r.reversed.Fits there.length := hthere.length_eq.symm ▸ hfits.reversed
  obtain ⟨back, hback, hreturned⟩ :=
    effect_swapRegion_of_fits hw' s' hfits' (hthere.length_eq.trans_lt hlen)
  rw [r.wholeLength_reversed] at hreturned
  exact ⟨hthere, back, hback, .of_exchanged hthere hreturned⟩

/-- The region begins two bytes before its destination, and its last three bytes are no group. -/
theorem swapRegion_returned_overlapping :
    ([1, 2, 3, 4, 5, 6, 7, 8, 9, 10, 11, 12, 13, 14] : Bytes).length < Size.limit ∧
      effect ⟨true, true⟩ .start (swapRegion ⟨1, 12, 3⟩)
          [1, 2, 3, 4, 5, 6, 7, 8, 9, 10, 11, 12, 13, 14] =
        (.ok (), [1, 2, 3, 4, 3, 2, 5, 8, 7, 6, 9, 12, 13, 14]) ∧
      Bytes.ExchangedInto [1, 2, 3, 4, 5, 6, 7, 8, 9, 10, 11, 12, 13, 14] 1 8
        [1, 2, 3, 4, 5, 6, 7, 8, 9, 10, 11, 12, 13, 14] 3
        [1, 2, 3, 4, 3, 2, 5, 8, 7, 6, 9, 12, 13, 14] ∧
      ∃ back,
        effect ⟨true, false⟩ .start (swapRegion ⟨3, 14, 1⟩)
            [1, 2, 3, 4, 3, 2, 5, 8, 7, 6, 9, 12, 13, 14] = (.ok (), back) ∧
          Region.Returned ⟨1, 12, 3⟩ [1, 2, 3, 4, 5, 6, 7, 8, 9, 10, 11, 12, 13, 14]
            [1, 2, 3, 4, 3, 2, 5, 8, 7, 6, 9, 12, 13, 14] back := by
  have hlen : ([1, 2, 3, 4, 5, 6, 7, 8, 9, 10, 11, 12, 13, 14] : Bytes).length < Size.limit := by
    decide
  have hrun : effect ⟨true, true⟩ .start (swapRegion ⟨1, 12, 3⟩)
      [1, 2, 3, 4, 5, 6, 7, 8, 9, 10, 11, 12, 13, 14] =
        (.ok (), [1, 2, 3, 4, 3, 2, 5, 8, 7, 6, 9, 12, 13, 14]) := by
    decide +kernel
  exact ⟨hlen, hrun,
    swapRegion_returned ⟨true, true⟩ ⟨true, false⟩ .start .start ⟨1, 12, 3⟩ _ _ hlen hrun⟩

/-! ## Two swaps -/

/-- Rows that are refused are refused again, and rows that are swapped fit as they did before. -/
theorem effect_swapRows_twice (hw hw' : Hardware) (s s' : Selection) (r : Rows) {b : Bytes}
    (hb : b.length < Size.limit) :
    ∃ answer new, effect hw s (swapRows r) b = (answer, new) ∧
      effect hw' s' (swapRows r) new = (answer, b) := by
  by_cases hfits : r.Fits b.length
  · have hrows := hfits.rowsWithin
    have hlen := (Bytes.rowsExchangedInto_copyRows hrows hrows).length_eq
    refine ⟨.ok (), Bytes.copyRows (4 * r.width) r.stride r.stride r.height b b, ?_, ?_⟩
    · rw [effect_swapRows hw s r hb, if_pos hfits]
    · rw [effect_swapRows hw' s' r (hlen.symm ▸ hb), hlen, if_pos hfits,
        Bytes.copyRows_copyRows (Nat.dvd_mul_right 4 r.width) hrows]
  · refine ⟨.error (.size .invalidStride), b, ?_, ?_⟩
    · rw [effect_swapRows hw s r hb, if_neg hfits]
    · rw [effect_swapRows hw' s' r hb, if_neg hfits]

/-- Swapping with any tier and then with any other one restores every byte. Swapping rows twice does
so too, whether they are accepted both times or refused both times. Rows that are copied to a second
buffer and from there to a third one arrive there as they were, and the third buffer keeps all of
its other bytes; the distance between rows may be another one in each buffer. -/
theorem swaps_undone (hw hw' : Hardware) (s s' : Selection) (b : Bytes)
    (hb : b.length < Size.limit) :
    (∀ t t' : Tier, ∃ new, effect hw s t.swap b = (.ok (), new) ∧
      effect hw' s' t'.swap new = (.ok (), b)) ∧
    (∀ r : Rows, ∃ answer new, effect hw s (swapRows r) b = (answer, new) ∧
      effect hw' s' (swapRows r) new = (answer, b)) ∧
    ∀ (width height first middle last : Nat) (a c : Bytes), a.length < Size.limit →
      c.length < Size.limit → Rows.Fits ⟨width, height, first⟩ a.length →
      Rows.Fits ⟨width, height, middle⟩ b.length → Rows.Fits ⟨width, height, last⟩ c.length →
      ∃ b' c', effect hw s (swapRowsFrom a first ⟨width, height, middle⟩) b = (.ok (), b') ∧
        effect hw' s' (swapRowsFrom b' middle ⟨width, height, last⟩) c = (.ok (), c') ∧
        Rows.PixelsCopied ⟨width, height, last⟩ ⟨width, height, first⟩ a c c' := by
  refine ⟨?_, fun r => effect_swapRows_twice hw hw' s s' r hb, ?_⟩
  · intro t t'
    refine ⟨b.exchange, (performs_tierSwap t).effect_eq hw s hb, ?_⟩
    rw [(performs_tierSwap t').effect_eq hw' s' ((Bytes.length_exchange b).trans_lt hb),
      Bytes.exchange_exchange]
  · intro width height first middle last a c ha hc hfirst hmiddle hlast
    obtain ⟨b', hthere, hpixels⟩ := effect_swapRowsFrom_of_fits hw s hfirst hmiddle ha hb
    have hlen := hpixels.length_eq
    obtain ⟨c', hback, hpixels'⟩ :=
      effect_swapRowsFrom_of_fits hw' s' (hlen.symm ▸ hmiddle) hlast (hlen.symm ▸ hb) hc
    exact ⟨b', c', hthere, hback, hpixels.again hpixels'⟩

/-- The three buffers have rows of two pixels 9, 8 and 11 bytes apart. -/
theorem swaps_undone_three_strides :
    (List.replicate 16 (7 : UInt8)).length < Size.limit ∧
      (∃ new, effect ⟨true, true⟩ .start (Tier.swap .vector16) (List.replicate 16 7) =
          (.ok (), new) ∧
        effect ⟨false, true⟩ .start (Tier.swap .vector256) new = (.ok (), List.replicate 16 7)) ∧
      ((List.range 17).map UInt8.ofNat).length < Size.limit ∧
      (List.replicate 20 (5 : UInt8)).length < Size.limit ∧
      (Rows.Fits ⟨2, 2, 9⟩ ((List.range 17).map UInt8.ofNat).length ∧
        Rows.Fits ⟨2, 2, 8⟩ (List.replicate 16 (7 : UInt8)).length ∧
        Rows.Fits ⟨2, 2, 11⟩ (List.replicate 20 (5 : UInt8)).length) ∧
      ∃ b' c',
        effect ⟨true, true⟩ .start (swapRowsFrom ((List.range 17).map UInt8.ofNat) 9 ⟨2, 2, 8⟩)
            (List.replicate 16 7) = (.ok (), b') ∧
          effect ⟨false, true⟩ .start (swapRowsFrom b' 8 ⟨2, 2, 11⟩) (List.replicate 20 5) =
            (.ok (), c') ∧
          Rows.PixelsCopied ⟨2, 2, 11⟩ ⟨2, 2, 9⟩ ((List.range 17).map UInt8.ofNat)
            (List.replicate 20 5) c' := by
  obtain ⟨htiers, -, hcopies⟩ :=
    swaps_undone ⟨true, true⟩ ⟨false, true⟩ .start .start (List.replicate 16 7) (by decide)
  exact ⟨by decide, htiers .vector16 .vector256, by decide, by decide, by decide,
    hcopies 2 2 9 8 11 _ _ (by decide) (by decide) (by decide) (by decide) (by decide)⟩

end Edit

end RedBlue
