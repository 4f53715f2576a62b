import RedBlue.Proofs.ImagePixels

/-! # Images as rows of bytes

An image with a pixel is nothing but rows of bytes at four times its stride. The two checks count in
different units and overflow at different numbers, but they refuse the same buffers, and the two
loops leave the same memory. -/

namespace RedBlue

/-- The rows of an image as rows of bytes. -/
def Geometry.rows (g : Geometry) : Rows := ⟨g.width, g.height, 4 * g.stride⟩

theorem Geometry.fits_rows_iff {g : Geometry} (hwidth : 0 < g.width) (hheight : 0 < g.height)
    (size : Nat) : g.rows.Fits size ↔ g.span ≤ size / 4 := by
  have hspan := four_mul_span_of_not_empty (g := g) (by omega)
  have hstride := g.width_le
  constructor
  · rintro ⟨-, -, -, hextent⟩
    dsimp only [rows] at hextent
    omega
  · intro h
    refine ⟨hwidth, hheight, Nat.mul_le_mul_left 4 hstride, ?_⟩
    dsimp only [rows]
    omega

namespace Edit

/-- A run on an image and a run on rows of bytes, both from the bytes `before`, have ended in the
same way: both have succeeded with the same bytes in view, or the rows and the image's layout have
been refused and the bytes are as before. -/
structure EndLikeRows {α : Type} (before : Bytes) (image : Except Failure α × Workspace)
    (rows : Except Failure Unit × Workspace) : Prop where
  ok_iff : (∃ a, image.1 = .ok a) ↔ rows.1 = .ok ()
  view_eq : image.2.view = rows.2.view
  refused : rows.1 = .error (.size .invalidStride) →
    (∃ r, image.1 = .error (.layout r)) ∧ image.2.view = before

namespace EndLikeRows

variable {α : Type} {before : Bytes} {image : Except Failure α × Workspace}
  {rows : Except Failure Unit × Workspace}

theorem of_ok {a : α} {s s' : Selection} {v : Bytes} (h : image = (.ok a, ⟨s, v⟩))
    (h' : rows = (.ok (), ⟨s', v⟩)) : EndLikeRows before image rows := by
  subst h h'
  refine ⟨⟨fun _ => rfl, fun _ => ⟨a, rfl⟩⟩, rfl, ?_⟩
  intro h
  cases h

theorem of_refused {r : Refusal} {s s' : Selection} (h : image = (.error (.layout r), ⟨s, before⟩))
    (h' : rows = (.error (.size .invalidStride), ⟨s', before⟩)) :
    EndLikeRows before image rows := by
  subst h h'
  refine ⟨⟨?_, ?_⟩, rfl, fun _ => ⟨⟨r, rfl⟩, rfl⟩⟩
  · rintro ⟨a, h⟩
    cases h
  · intro h
    cases h

end EndLikeRows

theorem convertImage_endLikeRows (hw hw' : Hardware) (s s' : Selection) {i : Image}
    (hwidth : 0 < i.geometry.width) (hheight : 0 < i.geometry.height)
    (hlen : i.memory.length < Size.limit) :
    EndLikeRows i.memory (exec hw (convertImage i.order i.geometry) ⟨s, i.memory⟩)
      (exec hw' (swapRows i.geometry.rows) ⟨s', i.memory⟩) := by
  have hfits := Geometry.fits_rows_iff hwidth hheight i.memory.length
  by_cases h : i.geometry.span ≤ i.memory.length / 4
  · have hdvd : 4 ∣ i.memory.length := i.order.four_dvd_length_encode i.pixels
    exact .of_ok (exec_convertImage_of_span_le hw i.order hdvd hlen h)
      (exec_swapRows_of_fits hw' (hfits.mpr h) hlen)
  · exact .of_refused (exec_convertImage_of_lt_span hw i.order (Nat.not_le.mp h))
      (exec_swapRows_of_not_fits hw' (mt hfits.mp h))

/-- The returned image is the one that the memory holds. -/
theorem memory_of_convertImage {hw : Hardware} {s : Selection} {i new : Image}
    (hlen : i.memory.length < Size.limit)
    (hok : (exec hw (convertImage i.order i.geometry) ⟨s, i.memory⟩).1 = .ok new) :
    new.memory = (exec hw (convertImage i.order i.geometry) ⟨s, i.memory⟩).2.view := by
  have hcount : i.memory.length / 4 = i.pixels.length :=
    i.order.length_encode_div_four i.pixels
  by_cases h : i.geometry.span ≤ i.memory.length / 4
  · have hdvd : 4 ∣ i.memory.length := i.order.four_dvd_length_encode i.pixels
    rw [exec_convertImage_of_span_le hw i.order hdvd hlen h] at hok ⊢
    obtain rfl : i.converted = new := Except.ok.inj hok
    exact Image.memory_converted (hcount ▸ h)
  · rw [exec_convertImage_of_lt_span hw i.order (Nat.not_le.mp h)] at hok
    cases hok

theorem convertImageFrom_endLikeRows (hw hw' : Hardware) (s s' : Selection) {i : Image}
    {g : Geometry} {target : Bytes} (hwidth : 0 < g.width) (hheight : 0 < g.height)
    (hsides : i.geometry.width = g.width ∧ i.geometry.height = g.height)
    (hslen : i.memory.length < Size.limit) (hlen : target.length < Size.limit) :
    EndLikeRows target (exec hw (convertImageFrom i g) ⟨s, target⟩)
      (exec hw' (swapRowsFrom i.memory i.geometry.rows.stride g.rows) ⟨s', target⟩) := by
  have hrows : { g.rows with stride := i.geometry.rows.stride } = i.geometry.rows := by
    rw [Geometry.rows, Geometry.rows, hsides.1, hsides.2]
  have hfits := Geometry.fits_rows_iff hwidth hheight target.length
  have hsfits := Geometry.fits_rows_iff (g := i.geometry) (by omega) (by omega) i.memory.length
  have hcount : i.memory.length / 4 = i.pixels.length :=
    i.order.length_encode_div_four i.pixels
  have hsplen : i.pixels.length < Size.limit := by omega
  rw [← hrows, hcount] at hsfits
  by_cases hs : i.geometry.span ≤ i.pixels.length
  · by_cases h : g.span ≤ target.length / 4
    · exact .of_ok (exec_convertImageFrom_of_span_le hw hsides hs hsplen h hlen)
        (exec_swapRowsFrom_of_fits hw' (hsfits.mpr hs) (hfits.mpr h) hslen hlen)
    · exact .of_refused
        (exec_convertImageFrom_of_lt_span hw hsides hs hsplen (Nat.not_le.mp h))
        (exec_swapRowsFrom_of_not_fits hw' hslen fun hboth => h (hfits.mp hboth.2))
  · exact .of_refused (exec_convertImageFrom_of_source_lt_span hw hsides (Nat.not_le.mp hs))
      (exec_swapRowsFrom_of_not_fits hw' hslen fun hboth => hs (hsfits.mp hboth.1))

/-- Converting an image with a pixel succeeds exactly if its rows, taken as rows of bytes, are
accepted, and leaves the same memory, which is the memory of the returned image. So does converting
it into another image of the same sides. The hardware and the tiers of the two sides may differ. -/
theorem images_endLikeRows (hw hw' : Hardware) (s s' : Selection) (i : Image)
    (hwidth : 0 < i.geometry.width) (hheight : 0 < i.geometry.height)
    (hlen : 4 * i.pixels.length < Size.limit) :
    EndLikeRows i.memory (exec hw (convertImage i.order i.geometry) ⟨s, i.memory⟩)
        (exec hw' (swapRows i.geometry.rows) ⟨s', i.memory⟩) ∧
      (∀ new, (exec hw (convertImage i.order i.geometry) ⟨s, i.memory⟩).1 = .ok new →
        new.memory = (exec hw' (swapRows i.geometry.rows) ⟨s', i.memory⟩).2.view) ∧
      ∀ (g : Geometry) (old : List Pixel), i.geometry.width = g.width →
        i.geometry.height = g.height → 4 * old.length < Size.limit →
        EndLikeRows (i.order.other.encode old)
          (exec hw (convertImageFrom i g) ⟨s, i.order.other.encode old⟩)
          (exec hw' (swapRowsFrom i.memory i.geometry.rows.stride g.rows)
            ⟨s', i.order.other.encode old⟩) := by
  have hmemory : i.memory.length < Size.limit := by
    rw [i.length_memory]
    exact hlen
  have hplace := convertImage_endLikeRows hw hw' s s' hwidth hheight hmemory
  refine ⟨hplace, ?_, ?_⟩
  · intro new hok
    rw [memory_of_convertImage hmemory hok, hplace.view_eq]
  · intro g old hwidths hheights hold
    have htarget : (i.order.other.encode old).length < Size.limit := by
      rw [ChannelOrder.length_encode]
      exact hold
    exact convertImageFrom_endLikeRows hw hw' s s' (hwidths ▸ hwidth) (hheights ▸ hheight)
      ⟨hwidths, hheights⟩ hmemory htarget

/-- The second row of the last image would end past its buffer. -/
theorem images_endLikeRows_padded :
    EndLikeRows (ChannelOrder.rgba.encode (List.replicate 5 ⟨1, 2, 3, 4⟩))
        (exec ⟨true, false⟩
          (convertImage .rgba ⟨2, 2, 3, by decide, by decide, by decide, by decide⟩)
          ⟨.start, ChannelOrder.rgba.encode (List.replicate 5 ⟨1, 2, 3, 4⟩)⟩)
        (exec ⟨false, true⟩ (swapRows ⟨2, 2, 12⟩)
          ⟨.start, ChannelOrder.rgba.encode (List.replicate 5 ⟨1, 2, 3, 4⟩)⟩) ∧
      EndLikeRows (ChannelOrder.bgra.encode (List.replicate 4 ⟨5, 6, 7, 8⟩))
        (exec ⟨true, false⟩
          (convertImageFrom
            ⟨⟨2, 2, 3, by decide, by decide, by decide, by decide⟩, .rgba,
              List.replicate 5 ⟨1, 2, 3, 4⟩⟩
            ⟨2, 2, 4, by decide, by decide, by decide, by decide⟩)
          ⟨.start, ChannelOrder.bgra.encode (List.replicate 4 ⟨5, 6, 7, 8⟩)⟩)
        (exec ⟨false, true⟩
          (swapRowsFrom (ChannelOrder.rgba.encode (List.replicate 5 ⟨1, 2, 3, 4⟩)) 12 ⟨2, 2, 16⟩)
          ⟨.start, ChannelOrder.bgra.encode (List.replicate 4 ⟨5, 6, 7, 8⟩)⟩) := by
  obtain ⟨hplace, -, hfrom⟩ := images_endLikeRows ⟨true, false⟩ ⟨false, true⟩ .start .start
    ⟨⟨2, 2, 3, by decide, by decide, by decide, by decide⟩, .rgba, List.replicate 5 ⟨1, 2, 3, 4⟩⟩
    (by decide) (by decide) (by decide)
  exact ⟨hplace, hfrom ⟨2, 2, 4, by decide, by decide, by decide, by decide⟩
    (List.replicate 4 ⟨5, 6, 7, 8⟩) rfl rfl (by decide)⟩

end Edit

end RedBlue
