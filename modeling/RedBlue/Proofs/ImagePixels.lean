import RedBlue.Proofs.Images
import RedBlue.Proofs.Pixels

/-! # Images, pixel by pixel

The pixels in the rows of an image keep their channels, and the memory of every other pixel stays
as it is. -/

namespace RedBlue

namespace Geometry

/-- The pixel at index `i` of the buffer is one of a row. -/
def Covers (g : Geometry) (i : Nat) : Prop :=
  ∃ y < g.height, ∃ x < g.width, i = y * g.stride + x

variable {g : Geometry}

/-- The bytes of a pixel of a row, counted in the row and in the buffer. -/
theorem byte_of_row (y stride x k : Nat) :
    y * (4 * stride) + (4 * x + k) = 4 * (y * stride + x) + k := by
  rw [Nat.mul_left_comm]
  omega

theorem Covers.lt_span {i : Nat} (h : g.Covers i) : i < g.span := by
  obtain ⟨y, hy, x, hx, rfl⟩ := h
  have hlast : y * g.stride ≤ (g.height - 1) * g.stride := Nat.mul_le_mul_right _ (by omega)
  rw [span_of_not_empty (by omega), Nat.mul_comm g.stride]
  omega

/-- The bytes of a pixel of no row are in no row of bytes. -/
theorem outside_of_not_covers {i k : Nat} (h : ¬g.Covers i) (hk : k < 4) :
    ∀ y < g.height, 4 * i + k < y * (4 * g.stride) ∨
      y * (4 * g.stride) + 4 * g.width ≤ 4 * i + k := by
  intro y hy
  rw [Nat.mul_left_comm]
  by_contra hin
  exact h ⟨y, hy, i - y * g.stride, by omega, by omega⟩

end Geometry

/-! ## Converted images -/

/-- `new` is `old` in the other order: each pixel of a row has the same channels, and the bytes of
each other pixel are the same. -/
structure Image.Converted (old new : Image) : Prop where
  geometry_eq : new.geometry = old.geometry
  order_eq : new.order = old.order.other
  length_eq : new.pixels.length = old.pixels.length
  shown : ∀ i, old.geometry.Covers i →
    ∃ p, old.pixels[i]? = some p ∧ new.pixels[i]? = some p
  kept : ∀ i k, ¬old.geometry.Covers i → k < 4 → new.memory[4 * i + k]? = old.memory[4 * i + k]?

/-- `new` is `old` after the pixels in the rows of `source` have been written over those in the rows
of `g`. -/
structure Image.CopiedOver (source : Image) (g : Geometry) (old new : List Pixel) : Prop where
  length_eq : new.length = old.length
  shown : ∀ y x, y < g.height → x < g.width →
    ∃ p, source.pixels[y * source.geometry.stride + x]? = some p ∧
      new[y * g.stride + x]? = some p
  kept : ∀ i, ¬g.Covers i → new[i]? = old[i]?

namespace Geometry

variable {g : Geometry}

/-- The pixel of a row is read, in the other order, from where it was in the source. -/
theorem getElem?_decode_overwrite (o : ChannelOrder) {sg : Geometry} {ps : List Pixel}
    {target : Bytes} (hwidth : sg.width = g.width) (hheight : sg.height = g.height)
    (hs : sg.span ≤ ps.length) (h : 4 * g.span ≤ target.length) {y x : Nat} (hy : y < g.height)
    (hx : x < g.width) :
    ∃ p, ps[y * sg.stride + x]? = some p ∧
      (o.other.decode (overwrite (o.encode ps) sg.stride g target))[y * g.stride + x]? =
        some p := by
  have hmemory := four_mul_span_le_encode o hs
  have hcovers : sg.Covers (y * sg.stride + x) := ⟨y, by omega, x, by omega, rfl⟩
  have hp := List.getElem?_eq_getElem (hcovers.lt_span.trans_le hs)
  refine ⟨_, hp, o.getElem?_decode_of_exchanged hp fun k hk => ?_⟩
  have hbytes := (rowsExchangedInto_overwrite hwidth hheight hmemory h).exchanged y x k hy (by omega)
    hk
  rwa [byte_of_row, byte_of_row] at hbytes

/-- The bytes of a pixel of no row stay. -/
theorem getElem?_overwrite_of_not_covers {sg : Geometry} {source target : Bytes}
    (hwidth : sg.width = g.width) (hheight : sg.height = g.height)
    (hs : 4 * sg.span ≤ source.length) (h : 4 * g.span ≤ target.length) {i k : Nat}
    (hi : ¬g.Covers i) (hk : k < 4) :
    (overwrite source sg.stride g target)[4 * i + k]? = target[4 * i + k]? :=
  (rowsExchangedInto_overwrite hwidth hheight hs h).kept _ (outside_of_not_covers hi hk)

end Geometry

/-! ## In place -/

namespace Image

/-- The image that a conversion of `old` in place makes of its memory. -/
def converted (old : Image) : Image where
  geometry := old.geometry
  order := old.order.other
  pixels :=
    old.order.other.decode (old.geometry.overwrite old.memory old.geometry.stride old.memory)

theorem length_memory (i : Image) : i.memory.length = 4 * i.pixels.length :=
  i.order.length_encode i.pixels

theorem length_overwrite_memory {old : Image} (h : old.geometry.span ≤ old.pixels.length) :
    (old.geometry.overwrite old.memory old.geometry.stride old.memory).length =
      4 * old.pixels.length := by
  have hmemory : 4 * old.geometry.span ≤ old.memory.length :=
    Geometry.four_mul_span_le_encode old.order h
  rw [(Geometry.rowsExchangedInto_overwrite rfl rfl hmemory hmemory).length_eq, length_memory]

theorem memory_converted {old : Image} (h : old.geometry.span ≤ old.pixels.length) :
    old.converted.memory =
      old.geometry.overwrite old.memory old.geometry.stride old.memory := by
  apply ChannelOrder.encode_decode
  rw [length_overwrite_memory h]
  exact Nat.dvd_mul_right 4 _

theorem Converted.of_span_le {old : Image} (h : old.geometry.span ≤ old.pixels.length) :
    old.Converted old.converted := by
  have hmemory : 4 * old.geometry.span ≤ old.memory.length :=
    Geometry.four_mul_span_le_encode old.order h
  refine ⟨rfl, rfl, ?_, ?_, ?_⟩
  · rw [converted, ChannelOrder.length_decode, length_overwrite_memory h]
    omega
  · rintro _ ⟨y, hy, x, hx, rfl⟩
    exact Geometry.getElem?_decode_overwrite old.order rfl rfl h hmemory hy hx
  · intro i k hi hk
    rw [memory_converted h]
    exact Geometry.getElem?_overwrite_of_not_covers rfl rfl hmemory hmemory hi hk

end Image

/-- An image is refused exactly if it has fewer pixels than its rows reach, a number that need not
be a size, and then its memory is as before. Otherwise the converted image is returned, and it is
what the memory holds. -/
theorem Edit.convertImage_outcome (hw : Hardware) (s : Selection) (old : Image)
    (hlen : 4 * old.pixels.length < Size.limit) :
    (old.pixels.length < old.geometry.span →
      exec hw (convertImage old.order old.geometry) ⟨s, old.memory⟩ =
        (.error (.layout (old.geometry.refusal old.pixels.length
            (min old.geometry.span (Size.limit - 1)))),
          ⟨(s.choose hw).2, old.memory⟩)) ∧
    (old.geometry.span ≤ old.pixels.length →
      ∃ new : Image, old.Converted new ∧
        exec hw (convertImage old.order old.geometry) ⟨s, old.memory⟩ =
          (.ok new, ⟨(s.choose hw).2, new.memory⟩)) := by
  have hmemory := old.length_memory
  have hcount : old.memory.length / 4 = old.pixels.length :=
    old.order.length_encode_div_four old.pixels
  constructor
  · intro hlt
    have hrun := exec_convertImage_of_lt_span hw old.order (w := ⟨s, old.memory⟩) (hcount ▸ hlt)
    rwa [hcount] at hrun
  · intro hle
    have hdvd : 4 ∣ old.memory.length := old.order.four_dvd_length_encode old.pixels
    refine ⟨old.converted, .of_span_le hle, ?_⟩
    rw [exec_convertImage_of_span_le hw old.order hdvd (hmemory ▸ hlen) (hcount ▸ hle),
      Image.memory_converted hle]
    rfl

theorem Edit.convertImage_outcome_padded :
    4 * (List.replicate 5 (⟨1, 2, 3, 4⟩ : Pixel)).length < Size.limit ∧
      ∃ new : Image,
        Image.Converted ⟨⟨1, 2, 3, by decide, by decide, by decide, by decide⟩, .bgra,
          List.replicate 5 ⟨1, 2, 3, 4⟩⟩ new ∧
        exec ⟨true, false⟩ (convertImage .bgra ⟨1, 2, 3, by decide, by decide, by decide, by decide⟩)
            ⟨.start, ChannelOrder.bgra.encode (List.replicate 5 ⟨1, 2, 3, 4⟩)⟩ =
          (.ok new, ⟨⟨1, [⟨.vector16⟩]⟩, new.memory⟩) :=
  ⟨by decide, (Edit.convertImage_outcome ⟨true, false⟩ .start
    ⟨⟨1, 2, 3, by decide, by decide, by decide, by decide⟩, .bgra, List.replicate 5 ⟨1, 2, 3, 4⟩⟩
    (by decide)).2 (by decide)⟩

/-! ## Into another image -/

theorem Image.copiedOver_overwrite {source : Image} {g : Geometry} {old : List Pixel}
    (hwidth : source.geometry.width = g.width) (hheight : source.geometry.height = g.height)
    (hs : source.geometry.span ≤ source.pixels.length) (h : g.span ≤ old.length) :
    ∃ new : List Pixel, source.CopiedOver g old new ∧
      g.overwrite source.memory source.geometry.stride (source.order.other.encode old) =
        source.order.other.encode new := by
  have htarget := g.four_mul_span_le_encode source.order.other h
  have hsource : 4 * source.geometry.span ≤ source.memory.length :=
    Geometry.four_mul_span_le_encode source.order hs
  have hrows := Geometry.rowsExchangedInto_overwrite hwidth hheight hsource htarget
  have hnew := hrows.length_eq.trans (source.order.other.length_encode old)
  refine ⟨source.order.other.decode
    (g.overwrite source.memory source.geometry.stride (source.order.other.encode old)),
    ⟨?_, ?_, ?_⟩, ?_⟩
  · rw [ChannelOrder.length_decode, hnew]
    omega
  · intro y x hy hx
    exact Geometry.getElem?_decode_overwrite source.order hwidth hheight hs htarget hy hx
  · intro i hi
    rw [source.order.other.getElem?_decode_congr fun k hk =>
        Geometry.getElem?_overwrite_of_not_covers hwidth hheight hsource htarget hi hk,
      ChannelOrder.decode_encode]
  · rw [ChannelOrder.encode_decode _ (hnew ▸ Nat.dvd_mul_right 4 _)]

/-- Images of different sides do not match, whether or not either has enough pixels. If the sides
are the same, the source is refused before the target is, each exactly if its rows reach past its
pixels. No failure changes a pixel. -/
theorem Edit.convertImageFrom_outcome (hw : Hardware) (s : Selection) (source : Image)
    (g : Geometry) (old : List Pixel) (hslen : 4 * source.pixels.length < Size.limit)
    (hlen : 4 * old.length < Size.limit) :
    ∃ (answer : Except Failure Unit) (s' : Selection) (new : List Pixel),
      exec hw (convertImageFrom source g) ⟨s, source.order.other.encode old⟩ =
          (answer, ⟨s', source.order.other.encode new⟩) ∧
        answer =
          (if ¬(source.geometry.width = g.width ∧ source.geometry.height = g.height) then
            .error (.size .dimensionMismatch)
          else if source.pixels.length < source.geometry.span then
            .error (.layout (source.geometry.refusal source.pixels.length
              (min source.geometry.span (Size.limit - 1))))
          else if old.length < g.span then
            .error (.layout (g.refusal old.length (min g.span (Size.limit - 1))))
          else .ok ()) ∧
        (answer = .ok () → source.CopiedOver g old new) ∧
        (answer ≠ .ok () → new = old) := by
  have hmemory := source.order.other.length_encode old
  have hcount := source.order.other.length_encode_div_four old
  by_cases hsides : source.geometry.width = g.width ∧ source.geometry.height = g.height
  · rw [if_neg (not_not.mpr hsides)]
    by_cases hs : source.pixels.length < source.geometry.span
    · refine ⟨_, _, old, exec_convertImageFrom_of_source_lt_span hw hsides hs, (if_pos hs).symm, ?_,
        fun _ => rfl⟩
      intro h
      cases h
    · have hslimit : source.pixels.length < Size.limit := by omega
      rw [if_neg hs]
      by_cases ht : old.length < g.span
      · have hrun := exec_convertImageFrom_of_lt_span hw
          (w := ⟨s, source.order.other.encode old⟩) hsides (Nat.not_lt.mp hs) hslimit (hcount ▸ ht)
        rw [hcount] at hrun
        refine ⟨_, _, old, hrun, (if_pos ht).symm, ?_, fun _ => rfl⟩
        intro h
        cases h
      · obtain ⟨new, hcopied, hnew⟩ := Image.copiedOver_overwrite hsides.1 hsides.2
          (Nat.not_lt.mp hs) (Nat.not_lt.mp ht)
        have hrun := exec_convertImageFrom_of_span_le hw
          (w := ⟨s, source.order.other.encode old⟩) hsides (Nat.not_lt.mp hs) hslimit
          (hcount ▸ Nat.not_lt.mp ht) (hmemory ▸ hlen)
        rw [hnew] at hrun
        exact ⟨_, _, new, hrun, (if_neg ht).symm, fun _ => hcopied, fun h => absurd rfl h⟩
  · refine ⟨_, _, old, exec_convertImageFrom_of_other_sides hw hsides, (if_pos hsides).symm, ?_,
      fun _ => rfl⟩
    intro h
    cases h

theorem Edit.convertImageFrom_outcome_other_strides :
    4 * (List.replicate 5 (⟨1, 2, 3, 4⟩ : Pixel)).length < Size.limit ∧
      4 * (List.replicate 7 (⟨5, 6, 7, 8⟩ : Pixel)).length < Size.limit ∧
      ∃ (s' : Selection) (new : List Pixel),
        exec ⟨true, true⟩
            (convertImageFrom
              ⟨⟨2, 2, 3, by decide, by decide, by decide, by decide⟩, .rgba,
                List.replicate 5 ⟨1, 2, 3, 4⟩⟩
              ⟨2, 2, 4, by decide, by decide, by decide, by decide⟩)
            ⟨.start, ChannelOrder.bgra.encode (List.replicate 7 ⟨5, 6, 7, 8⟩)⟩ =
          (.ok (), ⟨s', ChannelOrder.bgra.encode new⟩) ∧
        Image.CopiedOver
          ⟨⟨2, 2, 3, by decide, by decide, by decide, by decide⟩, .rgba,
            List.replicate 5 ⟨1, 2, 3, 4⟩⟩
          ⟨2, 2, 4, by decide, by decide, by decide, by decide⟩ (List.replicate 7 ⟨5, 6, 7, 8⟩)
          new := by
  obtain ⟨answer, s', new, hrun, hanswer, hcopied, -⟩ :=
    Edit.convertImageFrom_outcome ⟨true, true⟩ .start
      ⟨⟨2, 2, 3, by decide, by decide, by decide, by decide⟩, .rgba, List.replicate 5 ⟨1, 2, 3, 4⟩⟩
      ⟨2, 2, 4, by decide, by decide, by decide, by decide⟩ (List.replicate 7 ⟨5, 6, 7, 8⟩)
      (by decide) (by decide)
  rw [if_neg (by decide), if_neg (by decide), if_neg (by decide)] at hanswer
  exact ⟨by decide, by decide, s', new, hanswer ▸ hrun, hcopied hanswer⟩

end RedBlue
