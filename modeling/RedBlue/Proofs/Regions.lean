import RedBlue.Proofs.Chains
import RedBlue.Swap.Region

/-! # Regions of one buffer

Whatever the overlap, the groups that arrive are those that the source had before the call. -/

namespace RedBlue

/-- The bytes in the complete groups of a region. -/
def Region.wholeLength (r : Region) : Nat := (r.stop - r.start) - (r.stop - r.start) % 4

namespace Edit

/-! ## Swapping within a focus -/

theorem exec_focus_swap (hw : Hardware) {w : Workspace} {dest n : Nat}
    (hd : dest + n ≤ w.view.length) (hlen : w.view.length < Size.limit) :
    exec hw (focus dest (dest + n) swap) w =
      (.ok (), ⟨w.selection.use hw n,
        w.view.splice dest (dest + n) (w.view.range dest (dest + n)).exchange⟩) := by
  have hpart : (w.view.range dest (dest + n)).length = n := by
    rw [Bytes.length_range hd, Nat.add_sub_cancel_left]
  have hswap := exec_swap_eq hw (w := ⟨w.selection, w.view.range dest (dest + n)⟩) (by
    rw [hpart]
    omega)
  rw [exec_focus_of_le (Nat.le_add_right _ _) hd, hswap, hpart]

theorem exec_swapFrom_of_length_eq (hw : Hardware) {source : Bytes} {w : Workspace} {n : Nat}
    (hn : 4 ∣ n) (hs : source.length = n) (hw' : w.view.length = n) (h : n < Size.limit) :
    exec hw (swapFrom source) w = (.ok (), ⟨w.selection.use hw n, source.exchange⟩) := by
  have hcommon : min source.length w.view.length = n := by rw [hs, hw', Nat.min_self]
  have hwhole : n - n % 4 = n := by omega
  rw [exec_swapFrom_eq hw hcommon h, hwhole, Bytes.exchangeOver_of_length_le hs.le hw'.le]

theorem exec_focus_swapFrom (hw : Hardware) {source : Bytes} {w : Workspace} {dest n : Nat}
    (hn : 4 ∣ n) (hs : source.length = n) (hd : dest + n ≤ w.view.length) (h : n < Size.limit) :
    exec hw (focus dest (dest + n) (swapFrom source)) w =
      (.ok (), ⟨w.selection.use hw n, w.view.splice dest (dest + n) source.exchange⟩) := by
  have hpart : (w.view.range dest (dest + n)).length = n := by
    rw [Bytes.length_range hd, Nat.add_sub_cancel_left]
  rw [exec_focus_of_le (Nat.le_add_right _ _) hd, exec_swapFrom_of_length_eq hw hn hs hpart h]

/-- A focus around it does not change where the groups go. -/
theorem exec_focus_focus_swapFrom (hw : Hardware) {source : Bytes} {w : Workspace}
    (start stop dest : Nat) {n : Nat} (hn : 4 ∣ n) (hs : source.length = n)
    (hd : start + (dest + n) ≤ stop) (hstop : stop ≤ w.view.length) (h : n < Size.limit) :
    exec hw (focus start stop (focus dest (dest + n) (swapFrom source))) w =
      (.ok (), ⟨w.selection.use hw n,
        w.view.splice (start + dest) (start + dest + n) source.exchange⟩) := by
  have hpart : (w.view.range (start + dest) (start + (dest + n))).length = n := by
    rw [Bytes.length_range (by omega)]
    omega
  have hkeeps : (exec hw (swapFrom source)
      ⟨w.selection, w.view.range (start + dest) (start + (dest + n))⟩).2.view.length =
      dest + n - dest := by
    rw [exec_swapFrom_of_length_eq hw hn hs hpart h, Bytes.length_exchange, hs,
      Nat.add_sub_cancel_left]
  rw [exec_focus_focus (Nat.le_add_right _ _) hd hstop hkeeps, ← Nat.add_assoc,
    exec_focus_swapFrom hw hn hs (by omega) h]

theorem exec_move (hw : Hardware) {w : Workspace} {start n dest : Nat}
    (hs : start + n ≤ w.view.length) (hd : dest + n ≤ w.view.length) :
    exec hw (move start (start + n) dest) w =
      (.ok (), { w with view := w.view.splice dest (dest + n) (w.view.range start (start + n)) }) := by
  have hroom : dest ≤ w.view.length - n := by omega
  have hsub : n ≤ w.view.length := by omega
  simp only [move, exec_bind, exec_view, exec_size, slice_of_le (Nat.le_add_right _ _) hs, exec_pure,
    Nat.add_sub_cancel_left, Size.sub_of_le hsub, sure_ok, hroom, if_true, exec_rewrite]

/-! ## The ways across -/

/-- The buffer is cut at a destination that lies after the source. -/
theorem exec_swap_after (hw : Hardware) {w : Workspace} {start dest n : Nat} (hn : 4 ∣ n)
    (h : start + n ≤ dest) (hd : dest + n ≤ w.view.length) (hlen : w.view.length < Size.limit) :
    exec hw (focusFrom dest fun before => do
        let source ← slice before start (start + n)
        focus 0 n (swapFrom source)) w =
      (.ok (), ⟨w.selection.use hw n,
        w.view.splice dest (dest + n) (w.view.range start (start + n)).exchange⟩) := by
  have hcut : dest ≤ w.view.length := by omega
  have hbefore : start + n ≤ (w.view.range 0 dest).length := by
    rw [Bytes.length_range hcut]
    omega
  have hsource : (w.view.range 0 dest).range start (start + n) =
      w.view.range start (start + n) := by
    rw [Bytes.range_range _ (by omega), Nat.zero_add, Nat.zero_add]
  have hlength : (w.view.range start (start + n)).length = n := by
    rw [Bytes.length_range (by omega), Nat.add_sub_cancel_left]
  have hrun := exec_focus_focus_swapFrom hw dest w.view.length 0 hn hlength (by omega) le_rfl
    (by omega)
  rw [Nat.zero_add, Nat.add_zero] at hrun
  simp only [focusFrom, exec_bind, exec_size, exec_view, slice_of_le (Nat.zero_le _) hcut,
    slice_of_le (Nat.le_add_right _ _) hbefore, hsource, pure_bind, hrun]

/-- The buffer is cut at a source that lies after the destination. -/
theorem exec_swap_before (hw : Hardware) {w : Workspace} {start dest n : Nat} (hn : 4 ∣ n)
    (h : dest + n ≤ start) (hs : start + n ≤ w.view.length) (hlen : w.view.length < Size.limit) :
    exec hw (focusBefore start fun after => do
        let source ← slice after 0 n
        focus dest (dest + n) (swapFrom source)) w =
      (.ok (), ⟨w.selection.use hw n,
        w.view.splice dest (dest + n) (w.view.range start (start + n)).exchange⟩) := by
  have hcut : start ≤ w.view.length := by omega
  have hafter : n ≤ (w.view.range start w.view.length).length := by
    rw [Bytes.length_range le_rfl]
    omega
  have hsource : (w.view.range start w.view.length).range 0 n =
      w.view.range start (start + n) := Bytes.range_range _ hs
  have hlength : (w.view.range start (start + n)).length = n := by
    rw [Bytes.length_range hs, Nat.add_sub_cancel_left]
  have hrun := exec_focus_focus_swapFrom hw 0 start dest hn hlength (by omega) hcut (by omega)
  rw [Nat.zero_add] at hrun
  simp only [focusBefore, exec_bind, exec_size, exec_view, slice_of_le hcut le_rfl,
    slice_of_le (Nat.zero_le _) hafter, hsource, pure_bind, hrun]

/-- The source is moved as a whole and exchanged where it has arrived. -/
theorem exec_move_swap (hw : Hardware) {w : Workspace} {start dest n : Nat}
    (hs : start + n ≤ w.view.length) (hd : dest + n ≤ w.view.length)
    (hlen : w.view.length < Size.limit) :
    exec hw (do
        move start (start + n) dest
        focus dest (dest + n) swap) w =
      (.ok (), ⟨w.selection.use hw n,
        w.view.splice dest (dest + n) (w.view.range start (start + n)).exchange⟩) := by
  have hmoved : (w.view.range start (start + n)).length = dest + n - dest := by
    rw [Bytes.length_range hs]
    omega
  have hlength := Bytes.length_splice (Nat.le_add_right dest n) hd hmoved
  have hswap := exec_focus_swap hw (w := ⟨w.selection,
    w.view.splice dest (dest + n) (w.view.range start (start + n))⟩) (hlength ▸ hd) (hlength ▸ hlen)
  rw [exec_bind, exec_move hw hs hd]
  dsimp only
  rw [hswap, Bytes.range_splice (Nat.le_add_right dest n) hd hmoved,
    Bytes.splice_splice (Nat.le_add_right dest n) hd hmoved
      ((Bytes.length_exchange _).trans hmoved)]

/-- All ways across have the same effect: the old bytes of the source arrive, exchanged. -/
theorem exec_swapAcross (hw : Hardware) {w : Workspace} {start dest n : Nat} (hn : 4 ∣ n)
    (hs : start + n ≤ w.view.length) (hd : dest + n ≤ w.view.length)
    (hlen : w.view.length < Size.limit) :
    exec hw (swapAcross start dest n) w =
      (.ok (), ⟨w.selection.use hw n,
        w.view.splice dest (dest + n) (w.view.range start (start + n)).exchange⟩) := by
  have hstop := Size.add_of_lt (hs.trans_lt hlen)
  have hlanding := Size.add_of_lt (hd.trans_lt hlen)
  rw [swapAcross]
  split
  -- The groups stay where they are.
  · subst dest
    simp only [hlanding, sure_ok, pure_bind]
    exact exec_focus_swap hw hd hlen
  · simp only [hstop, hlanding, sure_ok, pure_bind]
    split
    · exact exec_swap_after hw hn ‹_› hd hlen
    · split
      · exact exec_swap_before hw hn ‹_› hs hlen
      · exact exec_move_swap hw hs hd hlen

/-! ## A region with its checks -/

theorem exec_swapRegion_of_not_fits (hw : Hardware) {r : Region} {w : Workspace}
    (h : ¬r.Fits w.view.length) :
    exec hw (swapRegion r) w = (.error (.size .outOfBounds), w) := by
  rw [swapRegion, exec_bind, exec_size]
  dsimp only
  by_cases hsource : r.start ≤ r.stop ∧ r.stop ≤ w.view.length
  · rw [require_of_true hsource, pure_bind, Size.sub_of_le hsource.1, sure_ok, pure_bind]
    have hpast : ¬r.dest + (r.stop - r.start) ≤ w.view.length := fun hle =>
      h ⟨hsource.1, hsource.2, hle⟩
    by_cases hsum : r.dest + (r.stop - r.start) < Size.limit
    · rw [expect_add?_of_lt hsum, pure_bind, require_of_false hpast]
      exact exec_bind_error rfl
    · rw [expect_add?_of_not_lt hsum]
      exact exec_bind_error rfl
  · rw [require_of_false hsource]
    exact exec_bind_error rfl

theorem exec_swapRegion_of_fits (hw : Hardware) {r : Region} {w : Workspace}
    (h : r.Fits w.view.length) (hlen : w.view.length < Size.limit) :
    exec hw (swapRegion r) w =
      (.ok (), ⟨w.selection.use hw r.wholeLength,
        w.view.splice r.dest (r.dest + r.wholeLength)
          (w.view.range r.start (r.start + r.wholeLength)).exchange⟩) := by
  obtain ⟨hstart, hstop, hdest⟩ := h
  have hwhole : r.wholeLength ≤ r.stop - r.start := Nat.sub_le _ _
  -- The checks pass, and what is left to ask is whether there is a group at all.
  have hrun : exec hw (swapRegion r) w =
      exec hw (if r.wholeLength = 0 then pure () else swapAcross r.start r.dest r.wholeLength) w := by
    have hsum : r.dest + (r.stop - r.start) < Size.limit := hdest.trans_lt hlen
    rw [swapRegion, exec_bind, exec_size]
    dsimp only
    rw [require_of_true ⟨hstart, hstop⟩, pure_bind, Size.sub_of_le hstart, sure_ok, pure_bind,
      expect_add?_of_lt hsum, pure_bind, require_of_true hdest, pure_bind, Size.whole_eq, sure_ok,
      pure_bind]
    rfl
  rw [hrun]
  split
  · rename_i hnone
    have hempty : w.view.splice r.dest r.dest (w.view.range r.start r.start).exchange = w.view := by
      rw [Bytes.range_self, Bytes.exchange_of_length_lt (by decide),
        ← Bytes.range_self w.view r.dest, Bytes.splice_range _ le_rfl]
    rw [hnone, Nat.add_zero, Nat.add_zero, hempty]
    rfl
  · exact exec_swapAcross hw (Nat.dvd_sub_mod _) (by omega) (by omega) hlen

/-- A swap of regions that succeeds has written the exchanged groups of the old source to the
destination, whatever the overlap, and nothing else. -/
theorem swapRegion_exchangedInto (hw : Hardware) (r : Region) (w : Workspace)
    (hlen : w.view.length < Size.limit) (h : (exec hw (swapRegion r) w).1 = .ok ()) :
    Bytes.ExchangedInto w.view r.start r.wholeLength w.view r.dest
      (exec hw (swapRegion r) w).2.view := by
  have hfits : r.Fits w.view.length := by
    by_contra hnot
    rw [exec_swapRegion_of_not_fits hw hnot] at h
    cases h
  rw [exec_swapRegion_of_fits hw hfits hlen]
  obtain ⟨hstart, hstop, hdest⟩ := hfits
  have hwhole : r.wholeLength ≤ r.stop - r.start := Nat.sub_le _ _
  exact Bytes.exchangedInto_splice (by omega) (by omega)

theorem swapRegion_exchangedInto_overlapping :
    [1, 2, 3, 4, 5, 6, 7, 8, 9, 10, 11, 12, 13, 14].length < Size.limit ∧
      (exec ⟨true, true⟩ (swapRegion ⟨1, 12, 3⟩)
        ⟨.start, [1, 2, 3, 4, 5, 6, 7, 8, 9, 10, 11, 12, 13, 14]⟩).1 = .ok () ∧
      Bytes.ExchangedInto [1, 2, 3, 4, 5, 6, 7, 8, 9, 10, 11, 12, 13, 14] 1 8
        [1, 2, 3, 4, 5, 6, 7, 8, 9, 10, 11, 12, 13, 14] 3
        (exec ⟨true, true⟩ (swapRegion ⟨1, 12, 3⟩)
          ⟨.start, [1, 2, 3, 4, 5, 6, 7, 8, 9, 10, 11, 12, 13, 14]⟩).2.view := by
  have hok : (exec ⟨true, true⟩ (swapRegion ⟨1, 12, 3⟩)
      ⟨.start, [1, 2, 3, 4, 5, 6, 7, 8, 9, 10, 11, 12, 13, 14]⟩).1 = .ok () := by
    rw [exec_swapRegion_of_fits _ (by decide) (by decide)]
  exact ⟨by decide, hok, swapRegion_exchangedInto _ ⟨1, 12, 3⟩ _ (by decide) hok⟩

end Edit

end RedBlue
