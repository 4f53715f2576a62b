import RedBlue.Proofs.Passes
import RedBlue.Swap.Contiguous

/-! # The chain covers every group once -/

namespace RedBlue

open Edit

namespace Tier

/-! ## The offsets of a chain -/

/-- The offset at which the passes of some tiers end over `size` bytes, if they begin at `done`. -/
def reach (hw : Hardware) (size : Nat) : List Tier → Nat → Nat
  | [], done => done
  | t :: rest, done => reach hw size rest (done + t.handled hw (size - done))

/-- The links that the passes of some tiers leave over `size` bytes, if they begin at `done`. What
a pass gets depends on the offset alone. -/
def linksFrom {γ : Type} (hw : Hardware) (size : Nat) (given : Nat → γ) :
    List Tier → Nat → List (Link γ)
  | [], _ => []
  | t :: rest, done =>
    ⟨t, done, done + t.handled hw (size - done), given done⟩ ::
      linksFrom hw size given rest (done + t.handled hw (size - done))

/-- The offset stays between groups and within the buffer. -/
structure OffsetOk (size done : Nat) : Prop where
  dvd : 4 ∣ done
  le : done ≤ size

theorem OffsetOk.zero (size : Nat) : OffsetOk size 0 := ⟨Nat.dvd_zero 4, Nat.zero_le size⟩

theorem OffsetOk.next {size done : Nat} (h : OffsetOk size done) (t : Tier) (hw : Hardware) :
    OffsetOk size (done + t.handled hw (size - done)) := by
  have hle := t.handled_le hw (size - done)
  have hstart := h.le
  exact ⟨Nat.dvd_add h.dvd (t.four_dvd_handled hw _), by omega⟩

theorem reach_append (hw : Hardware) (size : Nat) (ts us : List Tier) (done : Nat) :
    reach hw size (ts ++ us) done = reach hw size us (reach hw size ts done) := by
  induction ts generalizing done with
  | nil => rfl
  | cons t ts ih => exact ih _

theorem OffsetOk.reach {size done : Nat} (h : OffsetOk size done) (ts : List Tier)
    (hw : Hardware) : OffsetOk size (reach hw size ts done) := by
  induction ts generalizing done with
  | nil => exact h
  | cons t ts ih => exact ih (h.next t hw)

/-- Every chain ends with the scalar tier, which leaves less than a group. -/
theorem reach_chain (hw : Hardware) (size : Nat) (t : Tier) :
    reach hw size t.chain 0 = size - size % 4 := by
  obtain ⟨ts, hts⟩ : ∃ ts, t.chain = ts ++ [scalar4] := by
    cases t with
    | scalar4 => exact ⟨[], rfl⟩
    | vector16 => exact ⟨[vector16], rfl⟩
    | vector128 => exact ⟨[vector128, vector16], rfl⟩
    | vector256 => exact ⟨[vector256, vector128, vector16], rfl⟩
  -- Wherever the wider tiers have stopped, it is between two groups.
  obtain ⟨hdvd, hle⟩ := (OffsetOk.zero size).reach ts hw
  rw [hts, reach_append]
  simp only [reach, handled, Hardware.runs, block, if_true]
  omega

/-! ## One link after another -/

/-- A link goes on where the exchange of the bytes before it has ended. -/
theorem exec_linkBy {hw : Hardware} {act : Edit Nat} {s : Selection} {source b : Bytes}
    {done n : Nat} (hdvd : 4 ∣ done) (hs : done ≤ source.length) (ht : done ≤ b.length)
    (hact : exec hw act ⟨s, b.drop done⟩ =
      (.ok n, ⟨s, Bytes.exchangeOver n (source.drop done) (b.drop done)⟩)) :
    exec hw (focus done b.length (do return (← view, ← act)))
        ⟨s, Bytes.exchangeOver done source b⟩ =
      (.ok (b.drop done, n), ⟨s, Bytes.exchangeOver (done + n) source b⟩) := by
  have hview : b.length ≤ (Bytes.exchangeOver done source b).length :=
    (Bytes.length_exchangeOver hs ht).ge
  rw [exec_focus_of_le ht hview]
  simp only [exec_bind, exec_view, exec_pure, Bytes.range_exchangeOver hs ht, hact,
    Bytes.splice_exchangeOver hdvd hs ht]

theorem exec_link (hw : Hardware) (s : Selection) {b : Bytes} (hb : b.length < Size.limit)
    (t : Tier) {done : Nat} (h : OffsetOk b.length done) :
    exec hw (focus done b.length (do return (← view, ← t.pass.inPlace)))
        ⟨s, Bytes.exchangeOver done b b⟩ =
      (.ok (b.drop done, t.handled hw (b.length - done)),
        ⟨s, Bytes.exchangeOver (done + t.handled hw (b.length - done)) b b⟩) := by
  have hrest : (b.drop done).length < Size.limit := by
    rw [List.length_drop]
    omega
  have hpass := t.handles_pass.inPlace hw ⟨s, b.drop done⟩ hrest
  rw [List.length_drop] at hpass
  exact exec_linkBy h.dvd h.le h.le hpass

theorem exec_linksAlong (hw : Hardware) (s : Selection) {b : Bytes} (hb : b.length < Size.limit)
    (ts : List Tier) {done : Nat} (h : OffsetOk b.length done) :
    exec hw (linksAlong ts done) ⟨s, Bytes.exchangeOver done b b⟩ =
      (.ok (linksFrom hw b.length b.drop ts done),
        ⟨s, Bytes.exchangeOver (reach hw b.length ts done) b b⟩) := by
  -- Before each pass the bytes up to its offset are exchanged and the others are old.
  induction ts generalizing done with
  | nil => rfl
  | cons t ts ih =>
      have hnext := h.next t hw
      have hsum := hnext.le.trans_lt hb
      simp only [linksAlong, exec_bind, exec_size, Bytes.length_exchangeOver h.le h.le,
        exec_link hw s hb t h, Size.add_of_lt hsum, sure_ok, exec_pure, ih hnext]
      rfl

theorem exec_copyLink (hw : Hardware) (s : Selection) {source b : Bytes}
    (hlen : source.length = b.length) (hb : b.length < Size.limit) (t : Tier) {done : Nat}
    (h : OffsetOk b.length done) :
    exec hw (focus done b.length (do return (← view, ← t.pass.copy (source.drop done))))
        ⟨s, Bytes.exchangeOver done source b⟩ =
      (.ok (b.drop done, t.handled hw (b.length - done)),
        ⟨s, Bytes.exchangeOver (done + t.handled hw (b.length - done)) source b⟩) := by
  have hs : done ≤ source.length := hlen ▸ h.le
  have hcommon : min (source.drop done).length (b.drop done).length = b.length - done := by
    rw [List.length_drop, List.length_drop, hlen, Nat.min_self]
  have hpass := t.handles_pass.copy hw (source.drop done) ⟨s, b.drop done⟩ (by
    rw [hcommon]
    omega)
  rw [hcommon] at hpass
  exact exec_linkBy h.dvd hs h.le hpass

theorem exec_copyLinksAlong (hw : Hardware) (s : Selection) {source b : Bytes}
    (hlen : source.length = b.length) (hb : b.length < Size.limit) (ts : List Tier) {done : Nat}
    (h : OffsetOk b.length done) :
    exec hw (copyLinksAlong source ts done) ⟨s, Bytes.exchangeOver done source b⟩ =
      (.ok (linksFrom hw b.length (fun d => (source.drop d, b.drop d)) ts done),
        ⟨s, Bytes.exchangeOver (reach hw b.length ts done) source b⟩) := by
  induction ts generalizing done with
  | nil => rfl
  | cons t ts ih =>
      have hs : done ≤ source.length := hlen ▸ h.le
      have hnext := h.next t hw
      have hsum := hnext.le.trans_lt hb
      simp only [copyLinksAlong, exec_bind, exec_size, slice_of_le hs le_rfl, exec_pure,
        Bytes.range_to_length, Bytes.length_exchangeOver hs h.le, exec_copyLink hw s hlen hb t h,
        Size.add_of_lt hsum, sure_ok, ih hnext]
      rfl

/-! ## Whole chains -/

/-- Whichever tiers run, all whole groups end up exchanged. -/
theorem exec_links (t : Tier) (hw : Hardware) {w : Workspace} (h : w.view.length < Size.limit) :
    exec hw t.links w =
      (.ok (linksFrom hw w.view.length w.view.drop t.chain 0),
        { w with view := w.view.exchange }) := by
  have hrun := exec_linksAlong hw w.selection h t.chain (.zero _)
  rw [reach_chain, Bytes.exchangeOver_whole] at hrun
  exact hrun

theorem exec_swap (t : Tier) (hw : Hardware) {w : Workspace} (h : w.view.length < Size.limit) :
    exec hw t.swap w = (.ok (), { w with view := w.view.exchange }) := by
  simp only [swap, exec_bind, exec_links t hw h, exec_pure]

/-- A copy covers the whole groups of the length that both buffers have. -/
theorem exec_copyLinks (t : Tier) (hw : Hardware) {source : Bytes} {w : Workspace} {n : Nat}
    (hn : min source.length w.view.length = n) (h : n < Size.limit) :
    exec hw (t.copyLinks source) w =
      (.ok (linksFrom hw n (fun d => ((source.range 0 n).drop d, (w.view.range 0 n).drop d))
          t.chain 0),
        { w with view := Bytes.exchangeOver (n - n % 4) source w.view }) := by
  have hs : n ≤ source.length := hn ▸ Nat.min_le_left _ _
  have ht : n ≤ w.view.length := hn ▸ Nat.min_le_right _ _
  have hpart : (source.range 0 n).length = n := Bytes.length_range hs
  have hview : (w.view.range 0 n).length = n := Bytes.length_range ht
  have hrun := exec_copyLinksAlong hw w.selection (hpart.trans hview.symm) (hview.trans_lt h)
    t.chain (.zero _)
  rw [reach_chain, hview, Bytes.exchangeOver_zero] at hrun
  simp only [copyLinks, exec_bind, exec_size, hn, slice_of_le (Nat.zero_le _) hs, exec_pure,
    exec_focus_of_le (Nat.zero_le _) ht, hrun,
    Bytes.splice_exchangeOver_range (Nat.sub_le n (n % 4)) source w.view ht]

theorem exec_swapFrom (t : Tier) (hw : Hardware) {source : Bytes} {w : Workspace} {n : Nat}
    (hn : min source.length w.view.length = n) (h : n < Size.limit) :
    exec hw (t.swapFrom source) w =
      (.ok (), { w with view := Bytes.exchangeOver (n - n % 4) source w.view }) := by
  simp only [swapFrom, exec_bind, exec_copyLinks t hw hn h, exec_pure]

end Tier

/-! ## The tier of the process -/

/-- What a process remembers after it has worked on `size` bytes. Less than a group settles
nothing. -/
def Selection.use (hw : Hardware) (size : Nat) (s : Selection) : Selection :=
  if size < 4 then s else (s.choose hw).2

namespace Edit

theorem exec_swap_eq (hw : Hardware) {w : Workspace} (h : w.view.length < Size.limit) :
    exec hw swap w = (.ok (), ⟨w.selection.use hw w.view.length, w.view.exchange⟩) := by
  rw [exec_swap, Selection.use]
  split
  · rw [Bytes.exchange_of_length_lt ‹_›]
  · exact Tier.exec_swap _ hw h

theorem exec_swapFrom_eq (hw : Hardware) {source : Bytes} {w : Workspace} {n : Nat}
    (hn : min source.length w.view.length = n) (h : n < Size.limit) :
    exec hw (swapFrom source) w =
      (.ok (), ⟨w.selection.use hw n, Bytes.exchangeOver (n - n % 4) source w.view⟩) := by
  rw [exec_swapFrom, hn, Selection.use]
  split
  · have hnone : n - n % 4 = 0 := by omega
    rw [hnone, Bytes.exchangeOver_zero]
  · exact Tier.exec_swapFrom _ hw hn h

end Edit

/-! ## Every group once -/

/-- Swapping with any tier on any hardware exchanges each whole group and leaves the bytes after
the last one. -/
theorem Tier.swap_exchangedInto (t : Tier) (hw : Hardware) (w : Workspace)
    (h : w.view.length < Size.limit) :
    ∃ new, exec hw t.swap w = (.ok (), { w with view := new }) ∧
      Bytes.ExchangedInto w.view 0 (4 * (w.view.length / 4)) w.view 0 new := by
  have hle : 4 * (w.view.length / 4) ≤ w.view.length := Nat.mul_div_le _ 4
  refine ⟨_, t.exec_swap hw h, ?_⟩
  rw [← Bytes.exchangeOver_whole, ← Nat.mul_div_self_eq_mod_sub_self]
  exact Bytes.exchangedInto_exchangeOver hle hle

theorem Tier.swap_exchangedInto_level2_only :
    ((List.range 23).map UInt8.ofNat).length < Size.limit ∧
      ∃ new, exec ⟨true, false⟩ Tier.vector256.swap ⟨.start, (List.range 23).map UInt8.ofNat⟩ =
          (.ok (), ⟨.start, new⟩) ∧
        Bytes.ExchangedInto ((List.range 23).map UInt8.ofNat) 0 20
          ((List.range 23).map UInt8.ofNat) 0 new :=
  ⟨by decide, Tier.swap_exchangedInto .vector256 ⟨true, false⟩
    ⟨.start, (List.range 23).map UInt8.ofNat⟩ (by decide)⟩

/-- A copy exchanges the whole groups that both buffers have, and its result depends neither on
the tier and the hardware nor on what the process remembers. -/
theorem Edit.swapFrom_exchangedInto (source old : Bytes)
    (h : min source.length old.length < Size.limit) :
    ∃ new, Bytes.ExchangedInto source 0 (4 * (min source.length old.length / 4)) old 0 new ∧
      ∀ (hw : Hardware) (s : Selection),
        (∀ t : Tier, exec hw (t.swapFrom source) ⟨s, old⟩ = (.ok (), ⟨s, new⟩)) ∧
        exec hw (swapFrom source) ⟨s, old⟩ =
          (.ok (), ⟨s.use hw (min source.length old.length), new⟩) := by
  have hle : 4 * (min source.length old.length / 4) ≤ min source.length old.length :=
    Nat.mul_div_le _ 4
  have hs := hle.trans (Nat.min_le_left _ _)
  have ht := hle.trans (Nat.min_le_right _ _)
  refine ⟨_, Bytes.exchangedInto_exchangeOver hs ht, fun hw s => ⟨fun t => ?_, ?_⟩⟩
  · rw [Tier.exec_swapFrom t hw rfl h, Nat.mul_div_self_eq_mod_sub_self]
  · rw [exec_swapFrom_eq hw rfl h, Nat.mul_div_self_eq_mod_sub_self]

theorem Edit.swapFrom_exchangedInto_shorter_target :
    min ((List.range 31).map UInt8.ofNat).length (List.replicate 22 (255 : UInt8)).length <
        Size.limit ∧
      ∃ new, Bytes.ExchangedInto ((List.range 31).map UInt8.ofNat) 0 20
          (List.replicate 22 255) 0 new ∧
        ∀ (hw : Hardware) (s : Selection),
          (∀ t : Tier, exec hw (t.swapFrom ((List.range 31).map UInt8.ofNat))
            ⟨s, List.replicate 22 255⟩ = (.ok (), ⟨s, new⟩)) ∧
          exec hw (swapFrom ((List.range 31).map UInt8.ofNat)) ⟨s, List.replicate 22 255⟩ =
            (.ok (), ⟨s.use hw 22, new⟩) :=
  ⟨by decide, Edit.swapFrom_exchangedInto ((List.range 31).map UInt8.ofNat)
    (List.replicate 22 255) (by decide)⟩

end RedBlue
