import RedBlue.Proofs.Effects

/-! # The forms of the swap

There are several ways to ask for the same exchange: in place, from a copy, as a region onto itself,
and row by row. They end alike and leave the same bytes. Rows without padding are one contiguous
part of the buffer, however its pixels are divided into rows. -/

namespace RedBlue

namespace Bytes

/-- Rows without padding are chunks. -/
theorem copyRows_packed (row count : Nat) (source target : Bytes) :
    copyRows row row row count source target = copyFirst row exchange count source target := by
  induction count generalizing source target with
  | zero => rfl
  | succ count ih =>
      rw [copyRows, copyFirst_succ, ih,
        exchangeOver_of_length_le (List.length_take_le row source) (List.length_take_le row target)]

end Bytes

namespace Edit

/-! ## One region -/

/-- A buffer fits onto itself, and all of its groups are exchanged there. -/
theorem effect_swapRegion_self (hw : Hardware) (s : Selection) {b : Bytes}
    (hb : b.length < Size.limit) :
    effect hw s (swapRegion ⟨0, b.length, 0⟩) b = (.ok (), b.exchange) := by
  have hfits : Region.Fits ⟨0, b.length, 0⟩ b.length := by
    simp [Region.Fits]
  have hwhole : Region.wholeLength ⟨0, b.length, 0⟩ = b.length - b.length % 4 := rfl
  rw [effect_swapRegion hw s _ hb, if_pos hfits, hwhole, Nat.zero_add,
    ← Bytes.exchangeOver_eq_splice, Bytes.exchangeOver_whole]

/-! ## Rows -/

theorem effect_swapRowsFrom_self (hw : Hardware) (s : Selection) (r : Rows) {b : Bytes}
    (hb : b.length < Size.limit) :
    effect hw s (swapRowsFrom b r.stride r) b = effect hw s (swapRows r) b := by
  rw [effect_swapRowsFrom hw s r.stride r hb hb, effect_swapRows hw s r hb]
  simp only [and_self]

theorem extent_of_packed {width height : Nat} (hheight : 0 < height) :
    (height - 1) * (4 * width) + 4 * width = 4 * (width * height) :=
  calc
    (height - 1) * (4 * width) + 4 * width = (height - 1 + 1) * (4 * width) :=
      (Nat.succ_mul _ _).symm
    _ = height * (4 * width) := by rw [Nat.sub_add_cancel hheight]
    _ = 4 * (width * height) := by rw [Nat.mul_left_comm, Nat.mul_comm height]

theorem effect_swapRows_packed (hw : Hardware) (s : Selection) {width height : Nat} {b : Bytes}
    (hwidth : 0 < width) (hheight : 0 < height) (h : 4 * (width * height) ≤ b.length)
    (hb : b.length < Size.limit) :
    effect hw s (swapRows ⟨width, height, 4 * width⟩) b =
      (.ok (), Bytes.exchangeOver (4 * (width * height)) b b) := by
  have hfits : Rows.Fits ⟨width, height, 4 * width⟩ b.length :=
    ⟨hwidth, hheight, le_rfl, (extent_of_packed hheight).trans_le h⟩
  have hchunks : 4 * width * height ≤ b.length := by rwa [Nat.mul_assoc]
  rw [effect_swapRows hw s _ hb, if_pos hfits, Bytes.copyRows_packed,
    Bytes.copyFirst_eq_exchangeOver (Nat.dvd_mul_right 4 width) (fun _ _ => rfl) height b b hchunks,
    Nat.mul_assoc]

/-! ## All forms -/

/-- Swapping in place, copying a buffer over itself and moving it as a region onto itself succeed
with the same bytes, with any tiers on any hardware. Rows in place and rows copied over themselves
end alike. Any division of some pixels into rows without padding is the swap of the contiguous bytes
of these pixels. -/
theorem swap_forms_agree (b : Bytes) (hb : b.length < Size.limit) :
    (∃ new, ∀ (hw : Hardware) (s : Selection),
      (∀ t : Tier, effect hw s t.swap b = (.ok (), new) ∧
        effect hw s (t.swapFrom b) b = (.ok (), new)) ∧
      effect hw s swap b = (.ok (), new) ∧
      effect hw s (swapFrom b) b = (.ok (), new) ∧
      effect hw s (swapRegion ⟨0, b.length, 0⟩) b = (.ok (), new)) ∧
    (∀ (r : Rows) (hw hw' : Hardware) (s s' : Selection),
      effect hw s (swapRows r) b = effect hw' s' (swapRowsFrom b r.stride r) b) ∧
    ∀ count, 4 * count ≤ b.length → ∃ new, ∀ (hw : Hardware) (s : Selection),
      effect hw s (focus 0 (4 * count) swap) b = (.ok (), new) ∧
        ∀ width height, 0 < width → 0 < height → width * height = count →
          effect hw s (swapRows ⟨width, height, 4 * width⟩) b = (.ok (), new) := by
  refine ⟨⟨b.exchange, fun hw s => ⟨fun t => ⟨?_, ?_⟩, ?_, ?_, ?_⟩⟩, fun r hw hw' s s' => ?_,
    fun count h => ?_⟩
  · exact (performs_tierSwap t).effect_eq hw s hb
  · rw [(performs_tierSwapFrom t b).effect_eq hw s hb, copied_self]
  · exact performs_swap.effect_eq hw s hb
  · rw [(performs_swapFrom b).effect_eq hw s hb, copied_self]
  · exact effect_swapRegion_self hw s hb
  · rw [effect_swapRowsFrom_self hw' s' r hb, effect_swapRows hw s r hb,
      effect_swapRows hw' s' r hb]
  · refine ⟨_, fun hw s => ⟨effect_focus_swap hw s h hb, ?_⟩⟩
    rintro width height hwidth hheight rfl
    exact effect_swapRows_packed hw s hwidth hheight h hb

/-- Six pixels as two rows and as three, and two rows with padding. -/
theorem swap_forms_agree_six_pixels :
    ((List.range 27).map UInt8.ofNat).length < Size.limit ∧
      effect ⟨true, false⟩ .start (Tier.swap .vector256) ((List.range 27).map UInt8.ofNat) =
        effect ⟨false, true⟩ .start (swapRegion ⟨0, 27, 0⟩) ((List.range 27).map UInt8.ofNat) ∧
      effect ⟨true, true⟩ .start (swapRows ⟨3, 2, 15⟩) ((List.range 27).map UInt8.ofNat) =
        effect ⟨false, false⟩ .start (swapRowsFrom ((List.range 27).map UInt8.ofNat) 15 ⟨3, 2, 15⟩)
          ((List.range 27).map UInt8.ofNat) ∧
      4 * 6 ≤ ((List.range 27).map UInt8.ofNat).length ∧
      (0 < 3 ∧ 0 < 2 ∧ 3 * 2 = 6) ∧ (0 < 2 ∧ 0 < 3 ∧ 2 * 3 = 6) ∧
      ∃ new,
        effect ⟨true, true⟩ .start (focus 0 24 swap) ((List.range 27).map UInt8.ofNat) =
          (.ok (), new) ∧
        effect ⟨true, true⟩ .start (swapRows ⟨3, 2, 12⟩) ((List.range 27).map UInt8.ofNat) =
          (.ok (), new) ∧
        effect ⟨false, true⟩ .start (swapRows ⟨2, 3, 8⟩) ((List.range 27).map UInt8.ofNat) =
          (.ok (), new) := by
  have hb : ((List.range 27).map UInt8.ofNat).length < Size.limit := by decide
  have hcount : 4 * 6 ≤ ((List.range 27).map UInt8.ofNat).length := by decide
  obtain ⟨⟨whole, hwhole⟩, hrows, hpacked⟩ := swap_forms_agree ((List.range 27).map UInt8.ofNat) hb
  obtain ⟨hplace, -⟩ := hwhole ⟨true, false⟩ .start
  obtain ⟨new, hnew⟩ := hpacked 6 hcount
  obtain ⟨hfirst, hdivided⟩ := hnew ⟨true, true⟩ .start
  refine ⟨hb, ?_, hrows _ _ _ _ _, hcount, by decide, by decide, new, hfirst,
    hdivided 3 2 (by decide) (by decide) rfl,
    (hnew ⟨false, true⟩ .start).2 2 3 (by decide) (by decide) rfl⟩
  rw [(hplace .vector256).1]
  exact ((hwhole ⟨false, true⟩ .start).2.2.2).symm

end Edit

end RedBlue
