import RedBlue.Proofs.Chains
import RedBlue.Proofs.Spans

/-! # What the links of a chain account for

The offset after a pass does not show what the passes before it have done. The blocks of the tiers
of a chain divide one another, so a pass that runs always stops at the last whole block of the
buffer, and the links have every group between them just once. -/

namespace RedBlue

open Edit

/-- The bytes that the pass of a link takes over. -/
def Link.span {γ : Type} (l : Link γ) : Span := ⟨l.start, l.stop⟩

namespace Tier

variable {γ : Type} {hw : Hardware} {size done : Nat} {given : Nat → γ} {ts : List Tier}
  {l : Link γ}

/-! ## Where a pass stops -/

/-- After whole blocks a pass stops where it would have stopped from the start of the buffer. -/
theorem add_handled_eq (t : Tier) (hw : Hardware) (hdvd : t.block ∣ done) (hle : done ≤ size) :
    done + t.handled hw (size - done) =
      if hw.runs t then size - size % t.block else done := by
  rw [handled]
  split
  · have hmod : (size - done) % t.block = size % t.block := by
      obtain ⟨blocks, rfl⟩ := hdvd
      exact Nat.sub_mul_mod hle
    have hrest : (size - done) % t.block ≤ size - done := Nat.mod_le _ _
    omega
  · rfl

/-- Each link of a chain stops at the last whole block of its tier, or where it has begun if its
hardware is absent. -/
theorem stop_of_mem_linksFrom (hts : ts.Pairwise fun wide narrow => narrow.block ∣ wide.block)
    (hdvd : ∀ t ∈ ts, t.block ∣ done) (hle : done ≤ size)
    (hl : l ∈ linksFrom hw size given ts done) :
    l.stop = if hw.runs l.tier then size - size % l.tier.block else l.start := by
  -- The offset is a multiple of every block still to come, whichever passes have run.
  induction ts generalizing done with
  | nil => cases hl
  | cons t ts ih =>
      obtain ⟨hnarrow, hrest⟩ := List.pairwise_cons.mp hts
      cases hl with
      | head => exact add_handled_eq t hw (hdvd t List.mem_cons_self) hle
      | tail _ hl =>
          have hnext : done + t.handled hw (size - done) ≤ size := by
            have hhandled := t.handled_le hw (size - done)
            omega
          refine ih hrest (fun u hu => ?_) hnext hl
          have hblock : u.block ∣ t.handled hw (size - done) :=
            (hnarrow u hu).trans (t.block_dvd_handled hw _)
          exact Nat.dvd_add (hdvd u (List.mem_cons_of_mem t hu)) hblock

/-! ## What the links are -/

theorem map_tier_linksFrom (hw : Hardware) (size : Nat) (given : Nat → γ) (ts : List Tier)
    (done : Nat) : (linksFrom hw size given ts done).map Link.tier = ts := by
  induction ts generalizing done with
  | nil => rfl
  | cons t ts ih => exact congrArg (t :: ·) (ih _)

/-- A link gets what there is from its own offset on, and goes as far as its pass does. -/
theorem of_mem_linksFrom (h : OffsetOk size done) (hl : l ∈ linksFrom hw size given ts done) :
    l.given = given l.start ∧ l.stop = l.start + l.tier.handled hw (size - l.start) ∧
      OffsetOk size l.start := by
  induction ts generalizing done with
  | nil => cases hl
  | cons t ts ih =>
      cases hl with
      | head => exact ⟨rfl, rfl, h⟩
      | tail _ hl => exact ih (h.next t hw) hl

theorem consecutive_linksFrom (hw : Hardware) (size : Nat) (given : Nat → γ) (ts : List Tier)
    (done : Nat) :
    Span.Consecutive Link.span done (reach hw size ts done) (linksFrom hw size given ts done) := by
  induction ts generalizing done with
  | nil => exact rfl
  | cons t ts ih => exact ⟨rfl, Nat.le_add_right _ _, ih _⟩

/-! ## The account -/

/-- The links that a chain leaves over `size` bytes account for each of its groups. `given` tells
what a pass that begins at an offset has to get. -/
structure Account (t : Tier) (hw : Hardware) (size : Nat) (given : Nat → γ)
    (links : List (Link γ)) : Prop where
  tiers_eq : links.map Link.tier = t.chain
  /-- Each link goes on where the one before it has stopped, from 0 to the last whole group. -/
  consecutive : Span.Consecutive Link.span 0 (4 * (size / 4)) links
  given_eq : ∀ l ∈ links, l.given = given l.start
  stop_eq : ∀ l ∈ links,
    l.stop = if hw.runs l.tier then size - size % l.tier.block else l.start
  /-- No byte is in two of the links. -/
  apart : links.Pairwise fun l next => l.span.Apart next.span
  /-- Every whole group is in just one of the links. -/
  group : ∀ g < size / 4, ∃! l, l ∈ links ∧ l.start ≤ 4 * g ∧ 4 * g + 4 ≤ l.stop

theorem account_linksFrom (t : Tier) (hw : Hardware) (size : Nat) (given : Nat → γ) :
    t.Account hw size given (linksFrom hw size given t.chain 0) := by
  have hstart := OffsetOk.zero size
  have hcover := consecutive_linksFrom hw size given t.chain 0
  rw [reach_chain, ← Nat.mul_div_self_eq_mod_sub_self] at hcover
  refine ⟨map_tier_linksFrom hw size given t.chain 0, hcover,
    fun l hl => (of_mem_linksFrom hstart hl).1, fun l hl => ?_,
    hcover.pairwise_apart, fun g hg => ?_⟩
  · exact stop_of_mem_linksFrom t.pairwise_block_dvd_chain (fun u _ => Nat.dvd_zero u.block)
      hstart.le hl
  · obtain ⟨l, hl, hholds⟩ := hcover.exists_holds (Nat.zero_le (4 * g)) (by omega)
    obtain ⟨-, hstop, hoffset⟩ := of_mem_linksFrom hstart hl
    have hend : OffsetOk size l.stop := hstop ▸ hoffset.next l.tier hw
    have hgroup : 4 * g + 4 ≤ l.stop := by
      obtain ⟨groups, hgroups⟩ := hend.dvd
      have hlt : 4 * g < l.stop := hholds.2
      omega
    refine ⟨l, ⟨hl, hholds.1, hgroup⟩, ?_⟩
    rintro l' ⟨hl', hle, hge⟩
    exact hcover.eq_of_holds hl' hl ⟨hle, Nat.lt_of_lt_of_le (by omega) hge⟩ hholds

example :
    (linksFrom ⟨true, false⟩ 150 (fun d => d) vector256.chain 0).map (fun l => (l.start, l.stop)) =
      [(0, 0), (0, 0), (0, 144), (144, 148)] := by decide

/-! ## What a pass does with what it gets -/

theorem passInPlace_of_mem_linksFrom {b : Bytes} (hb : b.length < Size.limit) {l : Link Bytes}
    (h : OffsetOk b.length done) (hl : l ∈ linksFrom hw b.length b.drop ts done) (s : Selection) :
    exec hw l.tier.pass.inPlace ⟨s, l.given⟩ =
      (.ok (l.stop - l.start),
        ⟨s, Bytes.exchangeOver (l.stop - l.start) l.given l.given⟩) := by
  obtain ⟨hgiven, hstop, -⟩ := of_mem_linksFrom h hl
  have hlen : l.given.length = b.length - l.start := by rw [hgiven, List.length_drop]
  have hpass := l.tier.handles_pass.inPlace hw ⟨s, l.given⟩ (by dsimp only; omega)
  rwa [hlen, ← Nat.sub_eq_of_eq_add' hstop] at hpass

theorem passCopy_of_mem_linksFrom {source b : Bytes} (hsource : source.length = size)
    (hb : b.length = size) (hsize : size < Size.limit) {l : Link (Bytes × Bytes)}
    (h : OffsetOk size done)
    (hl : l ∈ linksFrom hw size (fun d => (source.drop d, b.drop d)) ts done) (s : Selection) :
    exec hw (l.tier.pass.copy l.given.1) ⟨s, l.given.2⟩ =
      (.ok (l.stop - l.start),
        ⟨s, Bytes.exchangeOver (l.stop - l.start) l.given.1 l.given.2⟩) := by
  obtain ⟨hgiven, hstop, -⟩ := of_mem_linksFrom h hl
  have hcommon : min l.given.1.length l.given.2.length = size - l.start := by
    rw [hgiven, List.length_drop, List.length_drop, hsource, hb, Nat.min_self]
  have hpass := l.tier.handles_pass.copy hw l.given.1 ⟨s, l.given.2⟩ (by dsimp only; omega)
  rwa [hcommon, ← Nat.sub_eq_of_eq_add' hstop] at hpass

/-! ## Whole chains -/

/-- Whichever tier a chain begins with and whatever hardware is present, each pass gets the rest of
the buffer from the running offset on. After a pass that runs, the offset is that of the last whole
block of its tier, and a pass whose hardware is absent leaves it alone. In the end each whole group
has been in just one pass. A copy goes over the length that both buffers have. -/
theorem links_account (t : Tier) (hw : Hardware) (w : Workspace) :
    (w.view.length < Size.limit →
      ∃ links : List (Link Bytes),
        exec hw t.links w = (.ok links, { w with view := w.view.exchange }) ∧
        exec hw t.swap w = (.ok (), { w with view := w.view.exchange }) ∧
        t.Account hw w.view.length w.view.drop links ∧
        ∀ l ∈ links, ∀ s : Selection, exec hw l.tier.pass.inPlace ⟨s, l.given⟩ =
          (.ok (l.stop - l.start),
            ⟨s, Bytes.exchangeOver (l.stop - l.start) l.given l.given⟩)) ∧
    ∀ (source : Bytes) (n : Nat), min source.length w.view.length = n → n < Size.limit →
      ∃ links : List (Link (Bytes × Bytes)),
        exec hw (t.copyLinks source) w =
          (.ok links, { w with view := Bytes.exchangeOver (4 * (n / 4)) source w.view }) ∧
        exec hw (t.swapFrom source) w =
          (.ok (), { w with view := Bytes.exchangeOver (4 * (n / 4)) source w.view }) ∧
        t.Account hw n (fun d => ((source.range 0 n).drop d, (w.view.range 0 n).drop d)) links ∧
        ∀ l ∈ links, ∀ s : Selection, exec hw (l.tier.pass.copy l.given.1) ⟨s, l.given.2⟩ =
          (.ok (l.stop - l.start),
            ⟨s, Bytes.exchangeOver (l.stop - l.start) l.given.1 l.given.2⟩) := by
  refine ⟨fun hb => ?_, fun source n hn hlimit => ?_⟩
  · exact ⟨_, t.exec_links hw hb, t.exec_swap hw hb, t.account_linksFrom hw _ _,
      fun l hl s => passInPlace_of_mem_linksFrom hb (.zero _) hl s⟩
  · have hsource : (source.range 0 n).length = n := Bytes.length_range (by omega)
    have hview : (w.view.range 0 n).length = n := Bytes.length_range (by omega)
    rw [Nat.mul_div_self_eq_mod_sub_self]
    exact ⟨_, t.exec_copyLinks hw hn hlimit, t.exec_swapFrom hw hn hlimit,
      t.account_linksFrom hw n _,
      fun l hl s => passCopy_of_mem_linksFrom hsource hview hlimit (.zero n) hl s⟩

theorem links_account_level2_only :
    ((List.range 150).map UInt8.ofNat).length < Size.limit ∧
      (∃ links, (exec ⟨true, false⟩ vector256.links
          ⟨.start, (List.range 150).map UInt8.ofNat⟩).1 = .ok links ∧
        vector256.Account ⟨true, false⟩ 150 (fun d => ((List.range 150).map UInt8.ofNat).drop d)
          links) ∧
      (min (List.replicate 63 (255 : UInt8)).length ((List.range 150).map UInt8.ofNat).length = 63 ∧
        63 < Size.limit) ∧
      ∃ links, (exec ⟨true, false⟩ (vector256.copyLinks (List.replicate 63 255))
          ⟨.start, (List.range 150).map UInt8.ofNat⟩).1 = .ok links ∧
        links.map Link.tier = [vector256, vector128, vector16, scalar4] := by
  obtain ⟨hinPlace, hcopy⟩ :=
    links_account vector256 ⟨true, false⟩ ⟨.start, (List.range 150).map UInt8.ofNat⟩
  have hlen : ((List.range 150).map UInt8.ofNat).length = 150 := by
    rw [List.length_map, List.length_range]
  have hlimit : ((List.range 150).map UInt8.ofNat).length < Size.limit := by
    rw [hlen]
    decide
  have hmin : min (List.replicate 63 (255 : UInt8)).length
      ((List.range 150).map UInt8.ofNat).length = 63 := by
    rw [hlen, List.length_replicate]
    rfl
  obtain ⟨links, hrun, -, haccount, -⟩ := hinPlace hlimit
  obtain ⟨copied, hrunCopy, -, haccountCopy, -⟩ :=
    hcopy (List.replicate 63 255) 63 hmin (by decide)
  rw [hlen] at haccount
  exact ⟨hlimit, ⟨links, congrArg Prod.fst hrun, haccount⟩, ⟨hmin, by decide⟩, copied,
    congrArg Prod.fst hrunCopy, haccountCopy.tiers_eq⟩

end Tier

end RedBlue
