import RedBlue.Proofs.Effects
import RedBlue.Proofs.Images
import RedBlue.Proofs.Pixels

/-! # Slices of pixels

Converting a slice of pixels changes their bytes and no channel of any of them. In place, the same
memory then shows the same pixels in the other order; into another slice, the pixels that both
slices have arrive, and the later ones stay. -/

namespace RedBlue

namespace ChannelOrder

/-! ## Parts of a slice -/

theorem encode_append (o : ChannelOrder) (ps qs : List Pixel) :
    o.encode (ps ++ qs) = o.encode ps ++ o.encode qs := by
  induction ps with
  | nil => rfl
  | cons p ps ih => simp only [List.cons_append, encode, ih, List.append_assoc]

theorem length_encode_take (o : ChannelOrder) {ps : List Pixel} {n : Nat} (h : n ≤ ps.length) :
    (o.encode (ps.take n)).length = 4 * n := by
  rw [length_encode, List.length_take_of_le h]

theorem encode_take_append_drop (o : ChannelOrder) (ps : List Pixel) (n : Nat) :
    o.encode (ps.take n) ++ o.encode (ps.drop n) = o.encode ps := by
  rw [← encode_append, List.take_append_drop]

theorem take_encode (o : ChannelOrder) {ps : List Pixel} {n : Nat} (h : n ≤ ps.length) :
    (o.encode ps).take (4 * n) = o.encode (ps.take n) := by
  rw [← o.encode_take_append_drop ps n, List.take_left' (o.length_encode_take h)]

theorem drop_encode (o : ChannelOrder) {ps : List Pixel} {n : Nat} (h : n ≤ ps.length) :
    (o.encode ps).drop (4 * n) = o.encode (ps.drop n) := by
  rw [← o.encode_take_append_drop ps n, List.drop_left' (o.length_encode_take h)]

end ChannelOrder

/-! ## Into another slice -/

/-- `new` is `old` after the pixels of `source` have been written over its own, as long as both
slices have one. -/
structure Pixel.CopiedInto (source old new : List Pixel) : Prop where
  length_eq : new.length = old.length
  shown : ∀ i < min source.length old.length, new[i]? = source[i]?
  kept : ∀ i, min source.length old.length ≤ i → new[i]? = old[i]?

theorem Pixel.copiedInto_take_drop {source old : List Pixel} {n : Nat}
    (hn : min source.length old.length = n) :
    CopiedInto source old (source.take n ++ old.drop n) := by
  have htake : (source.take n).length = n := List.length_take_of_le (by omega)
  refine ⟨?_, ?_, ?_⟩
  · rw [List.length_append, htake, List.length_drop]
    omega
  · intro i hi
    rw [hn] at hi
    rw [List.getElem?_append_left (htake.symm ▸ hi), List.getElem?_take_of_lt hi]
  · intro i hi
    rw [hn] at hi
    rw [List.getElem?_append_right (htake.symm ▸ hi), htake, List.getElem?_drop,
      Nat.add_sub_cancel' hi]

namespace Edit

/-- Bytes are counted in whole groups, and the groups are the pixels. -/
theorem copied_encode (o : ChannelOrder) {source old : List Pixel} {n : Nat}
    (hn : min source.length old.length = n) :
    copied (o.encode source) (o.other.encode old) =
      o.other.encode (source.take n ++ old.drop n) := by
  have hcommon : min (4 * source.length) (4 * old.length) = 4 * n := by omega
  have hwhole : 4 * n - 4 * n % 4 = 4 * n := by omega
  rw [copied, ChannelOrder.length_encode, ChannelOrder.length_encode, hcommon, hwhole,
    Bytes.exchangeOver, o.take_encode (by omega), ChannelOrder.exchange_encode,
    o.other.drop_encode (by omega), ChannelOrder.encode_append]

theorem effect_convertFrom (hw : Hardware) (s : Selection) (o : ChannelOrder)
    (source : List Pixel) {old : List Pixel} (h : 4 * old.length < Size.limit) :
    ∃ new, Pixel.CopiedInto source old new ∧
      effect hw s (convertFrom o source) (o.other.encode old) = (.ok (), o.other.encode new) := by
  have hlen : (o.other.encode old).length < Size.limit := by
    rw [ChannelOrder.length_encode]
    exact h
  refine ⟨_, Pixel.copiedInto_take_drop rfl, ?_⟩
  rw [convertFrom, (performs_swapFrom _).effect_eq hw s hlen, copied_encode o rfl]

/-! ## In place -/

theorem effect_convert (hw : Hardware) (s : Selection) (o : ChannelOrder) {ps : List Pixel}
    (h : 4 * ps.length < Size.limit) :
    effect hw s (convert o) (o.encode ps) = (.ok ps, o.other.encode ps) := by
  have hlen : (o.encode ps).length < Size.limit := by
    rw [ChannelOrder.length_encode]
    exact h
  have hdvd : 4 ∣ (o.encode ps).exchange.length := by
    rw [ChannelOrder.exchange_encode]
    exact o.other.four_dvd_length_encode ps
  have hrun : exec hw (convert o) ⟨s, o.encode ps⟩ =
      (.ok ps, ⟨s.use hw (o.encode ps).length, o.other.encode ps⟩) := by
    rw [convert, exec_bind_ok (exec_swap_eq hw hlen), exec_pixels hw o.other hdvd]
    simp only [ChannelOrder.exchange_encode, ChannelOrder.decode_encode]
  exact effect_of_exec hrun

/-- Converting pixels in place shows the same pixels in the other order, and converting them back
restores their memory. Converting them into another slice writes as many pixels as both slices have
and keeps the later ones. So it is in both directions, on any tier and hardware. -/
theorem conversions_keep_pixels (o : ChannelOrder) (hw hw' : Hardware) (s s' : Selection) :
    (∀ ps : List Pixel, 4 * ps.length < Size.limit →
      effect hw s (convert o) (o.encode ps) = (.ok ps, o.other.encode ps) ∧
        effect hw' s' (convert o.other) (effect hw s (convert o) (o.encode ps)).2 =
          (.ok ps, o.encode ps)) ∧
    ∀ source old : List Pixel, 4 * old.length < Size.limit →
      ∃ new, Pixel.CopiedInto source old new ∧
        effect hw s (convertFrom o source) (o.other.encode old) =
          (.ok (), o.other.encode new) := by
  refine ⟨?_, fun source old h => effect_convertFrom hw s o source h⟩
  intro ps h
  have hthere := effect_convert hw s o h
  have hback := effect_convert hw' s' o.other h
  rw [ChannelOrder.other_other] at hback
  refine ⟨hthere, ?_⟩
  rw [hthere]
  exact hback

theorem conversions_keep_pixels_nine :
    4 * (List.replicate 9 (⟨1, 2, 3, 4⟩ : Pixel)).length < Size.limit ∧
      (effect ⟨true, true⟩ .start (convert .rgba)
          (ChannelOrder.rgba.encode (List.replicate 9 ⟨1, 2, 3, 4⟩)) =
        (.ok (List.replicate 9 ⟨1, 2, 3, 4⟩),
          ChannelOrder.bgra.encode (List.replicate 9 ⟨1, 2, 3, 4⟩)) ∧
        effect ⟨true, false⟩ ⟨Tier.vector128.code, []⟩ (convert .bgra)
            (effect ⟨true, true⟩ .start (convert .rgba)
              (ChannelOrder.rgba.encode (List.replicate 9 ⟨1, 2, 3, 4⟩))).2 =
          (.ok (List.replicate 9 ⟨1, 2, 3, 4⟩),
            ChannelOrder.rgba.encode (List.replicate 9 ⟨1, 2, 3, 4⟩))) ∧
      4 * (List.replicate 5 (⟨5, 6, 7, 8⟩ : Pixel)).length < Size.limit ∧
      ∃ new, Pixel.CopiedInto [⟨9, 10, 11, 12⟩, ⟨13, 14, 15, 16⟩]
          (List.replicate 5 ⟨5, 6, 7, 8⟩) new ∧
        effect ⟨true, true⟩ .start (convertFrom .rgba [⟨9, 10, 11, 12⟩, ⟨13, 14, 15, 16⟩])
            (ChannelOrder.bgra.encode (List.replicate 5 ⟨5, 6, 7, 8⟩)) =
          (.ok (), ChannelOrder.bgra.encode new) := by
  obtain ⟨hplace, hfrom⟩ := conversions_keep_pixels .rgba ⟨true, true⟩ ⟨true, false⟩ .start
    ⟨Tier.vector128.code, []⟩
  exact ⟨by decide, hplace _ (by decide), by decide,
    hfrom [⟨9, 10, 11, 12⟩, ⟨13, 14, 15, 16⟩] _ (by decide)⟩

end Edit

end RedBlue
