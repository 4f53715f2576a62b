import RedBlue.Proofs.ImagePixels
import RedBlue.Proofs.PixelSlices
import RedBlue.Proofs.Undoing
import RedBlue.Session.Call

/-! # Images there and back

An image that is converted in place and then converted again is the image it was, with the pixels
of no row as well. Pixels that are copied from one image into a second one and from there into a
third one arrive as they were, wherever the three images lie in their buffers. -/

namespace RedBlue

/-! ## In place -/

theorem Geometry.overwrite_overwrite {g : Geometry} {b : Bytes} (h : 4 * g.span ≤ b.length) :
    g.overwrite (g.overwrite b g.stride b) g.stride (g.overwrite b g.stride b) = b := by
  have hthere := rowsExchangedInto_overwrite rfl rfl h h
  have hback := h
  rw [← hthere.length_eq] at hback
  exact (rowsExchangedInto_overwrite rfl rfl hback hback).unique (Nat.dvd_mul_right 4 g.width)
    hthere.undo

theorem Image.converted_converted {i : Image} (h : i.geometry.span ≤ i.pixels.length) :
    i.converted.converted = i := by
  have hmemory : 4 * i.geometry.span ≤ i.memory.length :=
    Geometry.four_mul_span_le_encode i.order h
  have hpixels : i.order.other.other.decode
      (i.geometry.overwrite i.converted.memory i.geometry.stride i.converted.memory) =
        i.pixels := by
    rw [memory_converted h, Geometry.overwrite_overwrite hmemory, ChannelOrder.other_other, memory,
      ChannelOrder.decode_encode]
  exact congr (congrArg (Image.mk i.geometry) i.order.other_other) hpixels

namespace Edit

theorem effect_convertImage (hw : Hardware) (s : Selection) {i : Image}
    (hlen : 4 * i.pixels.length < Size.limit) (h : i.geometry.span ≤ i.pixels.length) :
    effect hw s (convertImage i.order i.geometry) i.memory =
      (.ok i.converted, i.converted.memory) := by
  have hmemory := i.length_memory
  have hcount : i.memory.length / 4 = i.pixels.length := i.order.length_encode_div_four i.pixels
  have hdvd : 4 ∣ i.memory.length := i.order.four_dvd_length_encode i.pixels
  rw [Image.memory_converted h]
  exact effect_of_exec (exec_convertImage_of_span_le hw i.order (w := ⟨s, i.memory⟩) hdvd
    (hmemory ▸ hlen) (hcount ▸ h))

theorem span_le_of_effect_convertImage {hw : Hardware} {s : Selection} {i new : Image}
    {memory : Bytes} (h : effect hw s (convertImage i.order i.geometry) i.memory =
      (.ok new, memory)) :
    i.geometry.span ≤ i.pixels.length := by
  have hcount : i.memory.length / 4 = i.pixels.length := i.order.length_encode_div_four i.pixels
  by_contra hnot
  rw [effect_of_exec (exec_convertImage_of_lt_span hw i.order (w := ⟨s, i.memory⟩)
    (hcount ▸ Nat.not_le.mp hnot))] at h
  cases h

end Edit

/-! ## From buffer to buffer -/

/-- The index of a pixel of the image in its buffer. -/
def Frame.index (f : Frame) (y x : Nat) : Nat := f.offset + (y * f.stride.getD f.width + x)

/-- The numbers make a geometry, and its rows end within a buffer of `count` pixels. -/
def Frame.Fits (f : Frame) (count : Nat) : Prop :=
  ∃ g, f.geometry = .ok g ∧ f.offset + g.span ≤ count

/-- `new` is `old` after the pixels of an image in `source` have been written over those of an image
in `old`. Nothing else has changed. -/
structure Frame.PixelsCopied (sf f : Frame) (source old new : List Pixel) : Prop where
  length_eq : new.length = old.length
  shown : ∀ y x, y < f.height → x < f.width →
    ∃ p, source[sf.index y x]? = some p ∧ new[f.index y x]? = some p
  kept : ∀ i, (∀ y x, y < f.height → x < f.width → i ≠ f.index y x) → new[i]? = old[i]?

theorem Frame.eq_of_geometry {f : Frame} {g : Geometry} (h : f.geometry = .ok g) :
    g.width = f.width ∧ g.height = f.height ∧ g.stride = f.stride.getD f.width := by
  rw [geometry, Geometry.make] at h
  split at h
  · cases h
    exact ⟨rfl, rfl, rfl⟩
  · cases h

/-- What is copied to the second image is what is there to be copied to the third one. -/
theorem Frame.PixelsCopied.trans {fa fb fc : Frame} {a b b' c c' : List Pixel}
    (hsides : fb.width = fc.width ∧ fb.height = fc.height) (h : PixelsCopied fa fb a b b')
    (h' : PixelsCopied fb fc b' c c') : PixelsCopied fa fc a c c' := by
  refine ⟨h'.length_eq, ?_, h'.kept⟩
  intro y x hy hx
  obtain ⟨p, hp, hthere⟩ := h.shown y x (hsides.2 ▸ hy) (hsides.1 ▸ hx)
  obtain ⟨p', hp', hback⟩ := h'.shown y x hy hx
  obtain rfl : p = p' := Option.some.inj (hthere.symm.trans hp')
  exact ⟨p, hp, hback⟩

/-- The pixels before an image are not part of it. -/
theorem Frame.pixelsCopied_of_copiedOver {o : ChannelOrder} {sf f : Frame} {sg g : Geometry}
    {source old new : List Pixel} (hsg : sf.geometry = .ok sg) (hg : f.geometry = .ok g)
    (hoffset : f.offset ≤ old.length)
    (h : Image.CopiedOver ⟨sg, o, source.drop sf.offset⟩ g (old.drop f.offset) new) :
    PixelsCopied sf f source old (old.take f.offset ++ new) := by
  obtain ⟨-, -, hsstride⟩ := eq_of_geometry hsg
  obtain ⟨hwidth, hheight, hstride⟩ := eq_of_geometry hg
  have hbefore : (old.take f.offset).length = f.offset := List.length_take_of_le hoffset
  refine ⟨?_, ?_, ?_⟩
  · rw [List.length_append, hbefore, h.length_eq, List.length_drop, Nat.add_sub_cancel' hoffset]
  · intro y x hy hx
    obtain ⟨p, hp, hnew⟩ := h.shown y x (hheight ▸ hy) (hwidth ▸ hx)
    rw [List.getElem?_drop] at hp
    refine ⟨p, ?_, ?_⟩
    · rw [index, ← hsstride, hp]
    · rw [index, ← hstride, List.getElem?_append_right (hbefore.symm ▸ Nat.le_add_right _ _),
        hbefore, Nat.add_sub_cancel_left, hnew]
  · intro i hi
    by_cases hlt : i < f.offset
    · rw [List.getElem?_append_left (hbefore.symm ▸ hlt), List.getElem?_take_of_lt hlt]
    · have hle := Nat.not_lt.mp hlt
      have hout : ¬g.Covers (i - f.offset) := by
        rintro ⟨y, hy, x, hx, heq⟩
        refine hi y x (hheight ▸ hy) (hwidth ▸ hx) ?_
        rw [index, ← hstride, ← heq, Nat.add_sub_cancel' hle]
      rw [List.getElem?_append_right (hbefore.symm ▸ hle), hbefore, h.kept _ hout,
        List.getElem?_drop, Nat.add_sub_cancel' hle]

namespace Edit

/-- An image that is converted into one behind the first `n` pixels of a buffer. -/
theorem exec_focus_convertImageFrom (hw : Hardware) (s : Selection) (source : Image) {g : Geometry}
    {old : List Pixel} {n : Nat}
    (hsides : source.geometry.width = g.width ∧ source.geometry.height = g.height)
    (hs : source.geometry.span ≤ source.pixels.length) (h : n + g.span ≤ old.length)
    (hslen : source.pixels.length < Size.limit) (hlen : 4 * old.length < Size.limit) :
    ∃ new, source.CopiedOver g (old.drop n) new ∧
      exec hw (focus (4 * n) (source.order.other.encode old).length (convertImageFrom source g))
          ⟨s, source.order.other.encode old⟩ =
        (.ok (), ⟨(s.choose hw).2, source.order.other.encode (old.take n ++ new)⟩) := by
  have hn : n ≤ old.length := by omega
  have hrest : g.span ≤ (old.drop n).length := by
    rw [List.length_drop]
    omega
  have hmemory := source.order.other.length_encode old
  have hpart := source.order.other.length_encode (old.drop n)
  have hcount := source.order.other.length_encode_div_four (old.drop n)
  rw [List.length_drop] at hpart
  obtain ⟨new, hcopied, hnew⟩ := Image.copiedOver_overwrite hsides.1 hsides.2 hs hrest
  have hrun := exec_convertImageFrom_of_span_le hw
    (w := ⟨s, source.order.other.encode (old.drop n)⟩) hsides hs hslen (hcount ▸ hrest) (by
      dsimp only
      omega)
  have hstart : 4 * n ≤ (source.order.other.encode old).length := by omega
  refine ⟨new, hcopied, ?_⟩
  rw [exec_focus_of_le (w := ⟨s, source.order.other.encode old⟩) hstart le_rfl,
    Bytes.range_to_length, source.order.other.drop_encode hn,
    hrun, hnew, Bytes.splice_to_length, source.order.other.take_encode hn,
    ChannelOrder.encode_append]

theorem effect_copyImage (hw : Hardware) (s : Selection) (o : ChannelOrder) {sf f : Frame}
    {source old : List Pixel} (hsides : sf.width = f.width ∧ sf.height = f.height)
    (hs : sf.Fits source.length) (h : f.Fits old.length) (hslen : 4 * source.length < Size.limit)
    (hlen : 4 * old.length < Size.limit) :
    ∃ new, sf.PixelsCopied f source old new ∧
      effect hw s ((Copy.image o sf f).edit (o.encode source)) (o.other.encode old) =
        (.ok .done, o.other.encode new) := by
  obtain ⟨sg, hsg, hsspan⟩ := hs
  obtain ⟨g, hg, hspan⟩ := h
  obtain ⟨hswidth, hsheight, -⟩ := Frame.eq_of_geometry hsg
  obtain ⟨hwidth, hheight, -⟩ := Frame.eq_of_geometry hg
  have hsame : sg.width = g.width ∧ sg.height = g.height := by omega
  have hrest : sg.span ≤ (source.drop sf.offset).length := by
    rw [List.length_drop]
    omega
  have hsrest : (source.drop sf.offset).length < Size.limit := by
    rw [List.length_drop]
    omega
  obtain ⟨new, hcopied, hrun⟩ :=
    exec_focus_convertImageFrom hw s ⟨sg, o, source.drop sf.offset⟩ hsame hrest hspan hsrest hlen
  have hpixels := exec_pixels hw o.other (w := ⟨s, o.other.encode old⟩)
    (o.other.four_dvd_length_encode old)
  have hedit : exec hw ((Copy.image o sf f).edit (o.encode source)) ⟨s, o.other.encode old⟩ =
      (.ok .done, ⟨(s.choose hw).2, o.other.encode (old.take f.offset ++ new)⟩) := by
    rw [Copy.edit, ChannelOrder.pixels_encode, sure_ok, pure_bind, exec_bind_ok hpixels, hsg, hg,
      layout_ok, layout_ok, pure_bind, pure_bind, exec_bind, exec_size]
    exact exec_bind_ok hrun
  exact ⟨_, Frame.pixelsCopied_of_copiedOver hsg hg (by omega) hcopied, effect_of_exec hedit⟩

/-! ## Both ways -/

/-- An image that has been converted in place is converted back to what it was: every pixel of its
buffer, also the padding and those behind the last row, and its sides, stride and order. Pixels that
are copied to a second image and from there, in the other direction, to a third one are those of the
first image, and no other pixel of the third buffer changes. The strides of the three images, and
where they begin in their buffers, have nothing to do with each other. -/
theorem images_roundTrip (hw hw' : Hardware) (s s' : Selection) :
    (∀ (i new : Image) (memory : Bytes), 4 * i.pixels.length < Size.limit →
      effect hw s (convertImage i.order i.geometry) i.memory = (.ok new, memory) →
      new.order = i.order.other ∧ memory = new.memory ∧
        effect hw' s' (convertImage new.order new.geometry) new.memory = (.ok i, i.memory)) ∧
    ∀ (o : ChannelOrder) (fa fb fc : Frame) (a b c : List Pixel),
      4 * a.length < Size.limit → 4 * b.length < Size.limit → 4 * c.length < Size.limit →
      fa.width = fb.width ∧ fa.height = fb.height → fb.width = fc.width ∧ fb.height = fc.height →
      fa.Fits a.length → fb.Fits b.length → fc.Fits c.length →
      ∃ b' c',
        effect hw s ((Copy.image o fa fb).edit (o.encode a)) (o.other.encode b) =
            (.ok .done, o.other.encode b') ∧
          effect hw' s' ((Copy.image o.other fb fc).edit (o.other.encode b')) (o.encode c) =
            (.ok .done, o.encode c') ∧
          fa.PixelsCopied fc a c c' := by
  refine ⟨?_, ?_⟩
  · intro i new memory hlen h
    have hspan := span_le_of_effect_convertImage h
    have hnew := Image.Converted.of_span_le hspan
    rw [effect_convertImage hw s hlen hspan] at h
    cases h
    -- The geometry is the old one, so the way back cannot be refused.
    have hback := effect_convertImage hw' s' (i := i.converted) (hnew.length_eq.symm ▸ hlen)
      (hnew.length_eq.symm ▸ hspan)
    rw [Image.converted_converted hspan] at hback
    exact ⟨rfl, rfl, hback⟩
  · intro o fa fb fc a b c ha hb hc hab hbc hfa hfb hfc
    obtain ⟨b', hthere, hrun⟩ := effect_copyImage hw s o hab hfa hfb ha hb
    have hlen := hthere.length_eq
    obtain ⟨c', hback, hrun'⟩ := effect_copyImage hw' s' o.other hbc (hlen.symm ▸ hfb) hfc
      (hlen.symm ▸ hb) hc
    rw [ChannelOrder.other_other] at hrun'
    exact ⟨b', c', hrun, hrun', hthere.trans hbc hback⟩

/-- The converted image has one column, two pixels of padding between its rows and a pixel behind
them. The three images have two rows of two pixels; only the second one begins with its buffer, and
only it has no padding. -/
theorem images_roundTrip_other_strides :
    (4 * (List.replicate 5 (⟨1, 2, 3, 4⟩ : Pixel)).length < Size.limit ∧
      effect ⟨true, true⟩ .start
          (convertImage .bgra ⟨1, 2, 3, by decide, by decide, by decide, by decide⟩)
          (ChannelOrder.bgra.encode (List.replicate 5 ⟨1, 2, 3, 4⟩)) =
        (.ok ⟨⟨1, 2, 3, by decide, by decide, by decide, by decide⟩, .rgba,
            [⟨1, 2, 3, 4⟩, ⟨3, 2, 1, 4⟩, ⟨3, 2, 1, 4⟩, ⟨1, 2, 3, 4⟩, ⟨3, 2, 1, 4⟩]⟩,
          [1, 2, 3, 4, 3, 2, 1, 4, 3, 2, 1, 4, 1, 2, 3, 4, 3, 2, 1, 4]) ∧
      effect ⟨false, false⟩ .start
          (convertImage .rgba ⟨1, 2, 3, by decide, by decide, by decide, by decide⟩)
          [1, 2, 3, 4, 3, 2, 1, 4, 3, 2, 1, 4, 1, 2, 3, 4, 3, 2, 1, 4] =
        (.ok ⟨⟨1, 2, 3, by decide, by decide, by decide, by decide⟩, .bgra,
            List.replicate 5 ⟨1, 2, 3, 4⟩⟩,
          ChannelOrder.bgra.encode (List.replicate 5 ⟨1, 2, 3, 4⟩))) ∧
      (Frame.Fits ⟨2, 2, some 3, 1⟩ 6 ∧ Frame.Fits ⟨2, 2, none, 0⟩ 4 ∧
        Frame.Fits ⟨2, 2, some 4, 2⟩ 9) ∧
      ∃ b' c',
        effect ⟨true, true⟩ .start
            ((Copy.image .rgba ⟨2, 2, some 3, 1⟩ ⟨2, 2, none, 0⟩).edit
              (ChannelOrder.rgba.encode (List.replicate 6 ⟨1, 2, 3, 4⟩)))
            (ChannelOrder.bgra.encode (List.replicate 4 ⟨5, 6, 7, 8⟩)) =
          (.ok .done, ChannelOrder.bgra.encode b') ∧
        effect ⟨false, false⟩ .start
            ((Copy.image .bgra ⟨2, 2, none, 0⟩ ⟨2, 2, some 4, 2⟩).edit
              (ChannelOrder.bgra.encode b'))
            (ChannelOrder.rgba.encode (List.replicate 9 ⟨9, 10, 11, 12⟩)) =
          (.ok .done, ChannelOrder.rgba.encode c') ∧
        Frame.PixelsCopied ⟨2, 2, some 3, 1⟩ ⟨2, 2, some 4, 2⟩ (List.replicate 6 ⟨1, 2, 3, 4⟩)
          (List.replicate 9 ⟨9, 10, 11, 12⟩) c' := by
  have hrun : effect ⟨true, true⟩ .start
      (convertImage .bgra ⟨1, 2, 3, by decide, by decide, by decide, by decide⟩)
      (ChannelOrder.bgra.encode (List.replicate 5 ⟨1, 2, 3, 4⟩)) =
        (.ok ⟨⟨1, 2, 3, by decide, by decide, by decide, by decide⟩, .rgba,
            [⟨1, 2, 3, 4⟩, ⟨3, 2, 1, 4⟩, ⟨3, 2, 1, 4⟩, ⟨1, 2, 3, 4⟩, ⟨3, 2, 1, 4⟩]⟩,
          [1, 2, 3, 4, 3, 2, 1, 4, 3, 2, 1, 4, 1, 2, 3, 4, 3, 2, 1, 4]) := by
    decide +kernel
  have hfa : Frame.Fits ⟨2, 2, some 3, 1⟩ 6 :=
    ⟨_, Geometry.make_self ⟨2, 2, 3, by decide, by decide, by decide, by decide⟩, by decide⟩
  have hfb : Frame.Fits ⟨2, 2, none, 0⟩ 4 :=
    ⟨_, Geometry.make_self ⟨2, 2, 2, by decide, by decide, by decide, by decide⟩, by decide⟩
  have hfc : Frame.Fits ⟨2, 2, some 4, 2⟩ 9 :=
    ⟨_, Geometry.make_self ⟨2, 2, 4, by decide, by decide, by decide, by decide⟩, by decide⟩
  obtain ⟨hplace, hcopies⟩ := images_roundTrip ⟨true, true⟩ ⟨false, false⟩ .start .start
  obtain ⟨-, -, hback⟩ := hplace
    ⟨⟨1, 2, 3, by decide, by decide, by decide, by decide⟩, .bgra, List.replicate 5 ⟨1, 2, 3, 4⟩⟩
    _ _ (by decide) hrun
  exact ⟨⟨by decide, hrun, hback⟩, ⟨hfa, hfb, hfc⟩,
    hcopies .rgba ⟨2, 2, some 3, 1⟩ ⟨2, 2, none, 0⟩ ⟨2, 2, some 4, 2⟩ _ _ _ (by decide) (by decide)
      (by decide) (by decide) (by decide) hfa hfb hfc⟩

end Edit

end RedBlue
