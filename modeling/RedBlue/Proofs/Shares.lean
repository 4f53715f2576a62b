import RedBlue.Proofs.Effects
import RedBlue.Proofs.RowBytes
import RedBlue.Proofs.Spans
import RedBlue.Session.Run

/-! # Shares of work

The work on a buffer can be cut into shares, calls that work on consecutive parts of it. If each of
them makes its own part of the result, they do so in any order, and on hardware of their own. So it
is for pieces that are cut between groups and for bands of rows. -/

namespace RedBlue

/-! ## Cutting between rows -/

namespace Rows

variable {r : Rows} {b : Bytes}

/-- A buffer after the pixels of its rows have been exchanged. -/
def swapped (r : Rows) (b : Bytes) : Bytes :=
  Bytes.copyRows (4 * r.width) r.stride r.stride r.height b b

theorem length_swapped (h : r.Fits b.length) : (r.swapped b).length = b.length :=
  (Bytes.rowsExchangedInto_copyRows h.rowsWithin h.rowsWithin).length_eq

/-- The first rows are swapped in their part of the buffer, and the others in the rest. -/
theorem swapped_eq_append {first : Nat} (h : first ≤ r.height) (b : Bytes) :
    r.swapped b = { r with height := first }.swapped (b.take (first * r.stride)) ++
      { r with height := r.height - first }.swapped (b.drop (first * r.stride)) := by
  have hall := Bytes.copyRows_add (4 * r.width) r.stride r.stride first (r.height - first) b b
  rwa [Nat.add_sub_cancel' h] at hall

end Rows

/-! ## Shares -/

/-- A call that changes the bytes of a buffer from `start` up to `stop`, on hardware of its own. -/
structure Share where
  start : Nat
  stop : Nat
  hardware : Hardware
  change : Change

namespace Share

def call (buffer : Nat) (p : Share) : Hardware × Call :=
  (p.hardware, .change p.change ⟨buffer, some (p.start, p.stop)⟩)

def span (p : Share) : Span := ⟨p.start, p.stop⟩

/-- On its own part of `old`, the share makes that part of `new`. -/
def Makes (old new : Bytes) (p : Share) : Prop :=
  ∀ s, Edit.effect p.hardware s p.change.edit (old.range p.start p.stop) =
    (.ok .done, new.range p.start p.stop)

variable {shares : List Share} {p : Share}

/-! ## Some shares done and some not -/

/-- The parts of some shares still are those of `old`, and everything else is that of `new`. -/
structure Pending (old new : Bytes) (shares : List Share) (b : Bytes) : Prop where
  length_eq : b.length = old.length
  waiting : ∀ p ∈ shares, ∀ k, p.span.Holds k → b[k]? = old[k]?
  ready : ∀ k, (∀ p ∈ shares, ¬p.span.Holds k) → b[k]? = new[k]?

variable {old new b : Bytes}

theorem Pending.of_consecutive (h : Span.Consecutive span 0 old.length shares)
    (hlen : new.length = old.length) : Pending old new shares old := by
  refine ⟨rfl, fun _ _ _ _ => rfl, ?_⟩
  intro k hk
  have hpast : old.length ≤ k := by
    by_contra hlt
    obtain ⟨p, hp, hholds⟩ := h.exists_holds (Nat.zero_le k) (Nat.not_le.mp hlt)
    exact hk p hp hholds
  rw [List.getElem?_eq_none hpast, List.getElem?_eq_none (hlen.trans_le hpast)]

theorem Pending.eq_of_done (h : Pending old new [] b) : b = new := by
  apply List.ext_getElem?
  intro k
  exact h.ready k fun p hp => absurd hp List.not_mem_nil

theorem Pending.range_eq (h : Pending old new (p :: shares) b) :
    b.range p.start p.stop = old.range p.start p.stop := by
  apply List.ext_getElem?
  intro k
  rw [Bytes.getElem?_range, Bytes.getElem?_range]
  split
  · exact h.waiting p List.mem_cons_self _ ⟨Nat.le_add_right _ _, ‹_›⟩
  · rfl

/-- A share that makes its part leaves the parts of the others alone. -/
theorem Pending.step (h : Pending old new (p :: shares) b) (hle : p.start ≤ p.stop)
    (hstop : p.stop ≤ old.length) (hlen : new.length = old.length)
    (hapart : ∀ q ∈ shares, p.span.Apart q.span) :
    Pending old new shares (b.splice p.start p.stop (new.range p.start p.stop)) := by
  have hb : p.stop ≤ b.length := hstop.trans_eq h.length_eq.symm
  have hnew : (new.range p.start p.stop).length = p.stop - p.start :=
    Bytes.length_range (hstop.trans_eq hlen.symm)
  have hget := Bytes.getElem?_splice hle hb hnew
  refine ⟨(Bytes.length_splice hle hb hnew).trans h.length_eq, ?_, ?_⟩
  · intro q hq k hk
    have hout : ¬(p.start ≤ k ∧ k < p.stop) := (hapart q hq).symm.not_holds hk
    rw [hget, if_neg hout]
    exact h.waiting q (List.mem_cons_of_mem p hq) k hk
  · intro k hk
    rw [hget]
    split
    · rename_i hin
      rw [Bytes.getElem?_range, Nat.add_sub_cancel' hin.1, if_pos hin.2]
    · rename_i hout
      refine h.ready k fun q hq => ?_
      rcases List.mem_cons.mp hq with rfl | hq
      · exact hout
      · exact hk q hq

end Share

namespace Edit

variable (hw : Hardware) (s : Selection) {b : Bytes}

/-! ## What single changes do -/

theorem effect_done {act : Edit Unit} {r : Except Failure Unit} {new : Bytes}
    (h : effect hw s act b = (r, new)) :
    effect hw s (do
        act
        return Reply.done) b = (r.map fun _ => .done, new) := by
  obtain ⟨rfl, rfl⟩ := Prod.mk.inj h
  rw [effect, exec_bind]
  rcases exec hw act ⟨s, b⟩ with ⟨_ | _, _⟩ <;> rfl

theorem effect_change_swap (t : Option Tier) (hb : b.length < Size.limit) :
    effect hw s (Change.swap t).edit b = (.ok .done, b.exchange) := by
  cases t with
  | none => exact effect_done hw s (performs_swap.effect_eq hw s hb)
  | some t => exact effect_done hw s ((performs_tierSwap t).effect_eq hw s hb)

theorem effect_change_rows (r : Rows) (hb : b.length < Size.limit) :
    effect hw s (Change.rows r).edit b =
      if r.Fits b.length then (.ok .done, r.swapped b)
      else (.error (.size .invalidStride), b) := by
  have hrows := effect_swapRows hw s r hb
  split
  · rw [if_pos ‹_›] at hrows
    exact effect_done hw s hrows
  · rw [if_neg ‹_›] at hrows
    exact effect_done hw s hrows

theorem effect_change_rows_ok_iff (r : Rows) (hb : b.length < Size.limit) :
    (effect hw s (Change.rows r).edit b).1 = .ok .done ↔ r.Fits b.length := by
  rw [effect_change_rows hw s r hb]
  split
  · simp only [*]
  · simp only [*, reduceCtorEq]

end Edit

/-! ## Pieces and bands -/

/-- A piece that is cut between groups is exchanged as it is in the buffer. -/
theorem Share.makes_exchange {p : Share} {t : Option Tier} {b : Bytes}
    (hchange : p.change = .swap t) (hdvd : 4 ∣ p.start) (hle : p.start ≤ p.stop)
    (hstop : p.stop ≤ b.length)
    (hend : 4 ∣ p.stop ∨ p.stop = b.length) (hb : b.length < Size.limit) :
    p.Makes b b.exchange := by
  intro s
  have hpart : (b.range p.start p.stop).length < Size.limit := by
    rw [Bytes.length_range hstop]
    omega
  rw [hchange, Edit.effect_change_swap _ _ t hpart, Bytes.exchange_range hdvd hle hstop hend]

namespace Rows

variable {r : Rows} {first size : Nat} {hw₁ hw₂ : Hardware} {b : Bytes}

/-- The first rows of a picture in a buffer of `size` bytes, and all the others. -/
def bands (r : Rows) (first size : Nat) (hw₁ hw₂ : Hardware) : List Share :=
  [⟨0, first * r.stride, hw₁, .rows { r with height := first }⟩,
    ⟨first * r.stride, size, hw₂, .rows { r with height := r.height - first }⟩]

theorem consecutive_bands (r : Rows) (hw₁ hw₂ : Hardware) (h : first * r.stride ≤ size) :
    Span.Consecutive Share.span 0 size (r.bands first size hw₁ hw₂) :=
  ⟨rfl, Nat.zero_le _, rfl, h, rfl⟩

/-- The first rows end where the others begin, so they fit whenever a row does. -/
theorem fits_bands_iff (hpos : 0 < first) (hlt : first < r.height)
    (h : first * r.stride ≤ size) :
    r.Fits size ↔ { r with height := first }.Fits (first * r.stride) ∧
      { r with height := r.height - first }.Fits (size - first * r.stride) := by
  have habove : (first - 1) * r.stride + r.stride = first * r.stride := by
    rw [← Nat.succ_mul, Nat.succ_eq_add_one, Nat.sub_add_cancel hpos]
  have hrows : (r.height - first - 1) * r.stride + first * r.stride =
      (r.height - 1) * r.stride := by
    rw [← Nat.add_mul]
    congr 1
    omega
  constructor
  · rintro ⟨hwidth, -, hstride, hextent⟩
    refine ⟨⟨hwidth, hpos, hstride, ?_⟩, hwidth, Nat.sub_pos_of_lt hlt, hstride, ?_⟩
    · dsimp only
      omega
    · dsimp only
      omega
  · rintro ⟨-, hwidth, -, hstride, hextent⟩
    dsimp only at hwidth hstride hextent
    exact ⟨hwidth, by omega, hstride, by omega⟩

/-- Each band makes its part of the swapped picture. -/
theorem makes_bands (hpos : 0 < first) (hlt : first < r.height) (h : r.Fits b.length)
    (hcut : first * r.stride ≤ b.length) (hb : b.length < Size.limit) :
    ∀ p ∈ r.bands first b.length hw₁ hw₂, p.Makes b (r.swapped b) := by
  obtain ⟨hupper, hlower⟩ := (fits_bands_iff hpos hlt hcut).mp h
  have htake : (b.take (first * r.stride)).length = first * r.stride := List.length_take_of_le hcut
  have hdrop : (b.drop (first * r.stride)).length = b.length - first * r.stride := List.length_drop
  rw [← htake] at hupper
  rw [← hdrop] at hlower
  have hall := swapped_eq_append hlt.le b
  have hend := (length_swapped hupper).trans htake
  intro p hp s
  rcases List.mem_cons.mp hp with rfl | hp
  · dsimp only
    rw [Bytes.range_zero, Bytes.range_zero, Edit.effect_change_rows _ _ _ (by omega),
      if_pos hupper, hall, List.take_left' hend]
  · obtain rfl := List.mem_singleton.mp hp
    have hrest : (r.swapped b).range (first * r.stride) b.length =
        (r.swapped b).drop (first * r.stride) := by
      rw [← length_swapped h, Bytes.range_to_length]
    dsimp only
    rw [hrest, Bytes.range_to_length, Edit.effect_change_rows _ _ _ (by omega), if_pos hlower, hall,
      List.drop_left' hend]

end Rows

namespace Session

variable {s : Session} {i : Nat} {b : Bytes} {hw : Hardware} {c : Change}

/-! ## Calls on one buffer -/

theorem call_change (range : Option (Nat × Nat)) {r : Except Failure Reply} {new : Bytes}
    (hi : s.buffers[i]? = some b)
    (h : Edit.effect hw s.selection (Place.focus ⟨i, range⟩ c.edit) b = (r, new)) :
    (s.call hw (.change c ⟨i, range⟩)).1 = r ∧
      (s.call hw (.change c ⟨i, range⟩)).2.buffers = s.buffers.set i new := by
  obtain ⟨rfl, rfl⟩ := Prod.mk.inj h
  rw [call, edit, hi]
  exact ⟨rfl, rfl⟩

/-- A share that makes its part of the result is done, and the others are still to be done. -/
theorem call_share {p : Share} {shares : List Share} {old new : Bytes}
    (hi : s.buffers[i]? = some b) (h : Share.Pending old new (p :: shares) b)
    (hmakes : p.Makes old new) (hle : p.start ≤ p.stop) (hstop : p.stop ≤ old.length) :
    (s.call (p.call i).1 (p.call i).2).1 = .ok .done ∧
      (s.call (p.call i).1 (p.call i).2).2.buffers =
        s.buffers.set i (b.splice p.start p.stop (new.range p.start p.stop)) := by
  have hb : p.stop ≤ b.length := hstop.trans_eq h.length_eq.symm
  have hrun := Edit.effect_focus p.hardware s.selection p.change.edit hle hb
  rw [h.range_eq, hmakes s.selection] at hrun
  exact call_change (some (p.start, p.stop)) hi hrun

/-- Shares that are apart make all of the result, one after the other in the given order. -/
theorem run_pending {old new : Bytes} {order : List Share} (hlen : new.length = old.length)
    (hmakes : ∀ p ∈ order, p.Makes old new)
    (hbounds : ∀ p ∈ order, p.start ≤ p.stop ∧ p.stop ≤ old.length)
    (hapart : order.Pairwise fun p q => p.span.Apart q.span) (hi : s.buffers[i]? = some b)
    (h : Share.Pending old new order b) :
    (∀ e ∈ run (order.map (Share.call i)) s, e.1 = .ok .done) ∧
      (after (order.map (Share.call i)) s).buffers = s.buffers.set i new := by
  -- Before each call its share and all those behind it are pending, and after it only the latter.
  induction order generalizing s b with
  | nil =>
      obtain rfl := h.eq_of_done
      obtain ⟨hlt, rfl⟩ := List.getElem?_eq_some_iff.mp hi
      exact ⟨fun e he => absurd he List.not_mem_nil, (List.set_getElem_self hlt).symm⟩
  | cons p rest ih =>
      obtain ⟨hpapart, hrest⟩ := List.pairwise_cons.mp hapart
      obtain ⟨hle, hstop⟩ := hbounds p List.mem_cons_self
      obtain ⟨hok, hbuffers⟩ := call_share hi h (hmakes p List.mem_cons_self) hle hstop
      have hnext : (s.call (p.call i).1 (p.call i).2).2.buffers[i]? =
          some (b.splice p.start p.stop (new.range p.start p.stop)) := by
        obtain ⟨hlt, -⟩ := List.getElem?_eq_some_iff.mp hi
        rw [hbuffers, List.getElem?_set_self hlt]
      obtain ⟨hokRest, hafter⟩ := ih (fun q hq => hmakes q (List.mem_cons_of_mem p hq))
        (fun q hq => hbounds q (List.mem_cons_of_mem p hq)) hrest hnext
        (h.step hle hstop hlen hpapart)
      refine ⟨?_, ?_⟩
      · intro e he
        rcases List.mem_cons.mp he with rfl | he
        · exact hok
        · exact hokRest e he
      · rw [hbuffers, List.set_set] at hafter
        exact hafter

/-- Consecutive shares make all of the result in any order. -/
theorem run_of_perm {old new : Bytes} {shares order : List Share} (hi : s.buffers[i]? = some old)
    (hlen : new.length = old.length) (hcover : Span.Consecutive Share.span 0 old.length shares)
    (hmakes : ∀ p ∈ shares, p.Makes old new) (hperm : order.Perm shares) :
    (∀ e ∈ run (order.map (Share.call i)) s, e.1 = .ok .done) ∧
      (after (order.map (Share.call i)) s).buffers = s.buffers.set i new := by
  have hapart : order.Pairwise fun p q => p.span.Apart q.span :=
    (hperm.pairwise_iff fun h => h.symm).mpr hcover.pairwise_apart
  have hbounds : ∀ p ∈ order, p.start ≤ p.stop ∧ p.stop ≤ old.length := fun p hp =>
    (hcover.bounds (hperm.subset hp)).2
  obtain ⟨-, hwaiting, hready⟩ := Share.Pending.of_consecutive hcover hlen
  exact run_pending hlen (fun p hp => hmakes p (hperm.subset hp)) hbounds hapart hi
    ⟨rfl, fun p hp => hwaiting p (hperm.subset hp),
      fun k hk => hready k fun p hp => hk p (hperm.mem_iff.mpr hp)⟩

theorem call_rows_ok_iff (hi : s.buffers[i]? = some b) (hb : b.length < Size.limit) (r : Rows) :
    (s.call hw (.change (.rows r) ⟨i, none⟩)).1 = .ok .done ↔ r.Fits b.length := by
  rw [(call_change none hi rfl).1]
  exact Edit.effect_change_rows_ok_iff hw s.selection r hb

theorem call_rows_part_ok_iff (hi : s.buffers[i]? = some b) (hb : b.length < Size.limit)
    {start stop : Nat} (hle : start ≤ stop) (hstop : stop ≤ b.length) (r : Rows) :
    (s.call hw (.change (.rows r) ⟨i, some (start, stop)⟩)).1 = .ok .done ↔
      r.Fits (stop - start) := by
  have hpart : (b.range start stop).length = stop - start := Bytes.length_range hstop
  have hrun := Edit.effect_focus hw s.selection (Change.rows r).edit hle hstop
  rw [(call_change (some (start, stop)) hi hrun).1, Edit.effect_change_rows_ok_iff _ _ r (by omega),
    hpart]

/-- Both bands are accepted exactly if the picture is. -/
theorem call_bands_ok_iff (hi : s.buffers[i]? = some b) (hb : b.length < Size.limit) {r : Rows}
    {first : Nat} (hw₁ hw₂ : Hardware) (hpos : 0 < first) (hlt : first < r.height)
    (hcut : first * r.stride ≤ b.length) :
    (∀ p ∈ r.bands first b.length hw₁ hw₂, (s.call (p.call i).1 (p.call i).2).1 = .ok .done) ↔
      r.Fits b.length := by
  rw [Rows.fits_bands_iff hpos hlt hcut, Rows.bands, List.forall_mem_cons,
    List.forall_mem_singleton]
  exact and_congr (call_rows_part_ok_iff hi hb (Nat.zero_le _) hcut _)
    (call_rows_part_ok_iff hi hb hcut le_rfl _)

/-! ## Any division of the work -/

/-- A buffer that is cut between groups can be swapped piece by piece, in any order, with any tier
and any hardware for each piece: all of the calls succeed, and together they do what one swap of the
buffer does. A picture that is cut between rows is accepted exactly if both of its bands are, and
then swapping the bands, in either order, does what one swap of the picture does. -/
theorem shares_in_any_order (s : Session) (i : Nat) (b : Bytes) (hi : s.buffers[i]? = some b)
    (hb : b.length < Size.limit) :
    (∀ pieces order : List Share, Span.Consecutive Share.span 0 b.length pieces →
      (∀ p ∈ pieces, 4 ∣ p.start ∧ ∃ t, p.change = .swap t) → order.Perm pieces →
      (∀ e ∈ run (order.map (Share.call i)) s, e.1 = .ok .done) ∧
        ∀ (hw : Hardware) (t : Option Tier),
          (s.call hw (.change (.swap t) ⟨i, none⟩)).1 = .ok .done ∧
            (after (order.map (Share.call i)) s).buffers =
              (s.call hw (.change (.swap t) ⟨i, none⟩)).2.buffers) ∧
    ∀ (r : Rows) (first : Nat) (hw hw₁ hw₂ : Hardware), 0 < first → first < r.height →
      first * r.stride ≤ b.length →
      ((s.call hw (.change (.rows r) ⟨i, none⟩)).1 = .ok .done ↔
        ∀ p ∈ r.bands first b.length hw₁ hw₂, (s.call (p.call i).1 (p.call i).2).1 = .ok .done) ∧
      ((s.call hw (.change (.rows r) ⟨i, none⟩)).1 = .ok .done →
        ∀ order : List Share, order.Perm (r.bands first b.length hw₁ hw₂) →
          (∀ e ∈ run (order.map (Share.call i)) s, e.1 = .ok .done) ∧
            (after (order.map (Share.call i)) s).buffers =
              (s.call hw (.change (.rows r) ⟨i, none⟩)).2.buffers) := by
  refine ⟨?_, ?_⟩
  · intro pieces order hcover hpieces hperm
    have hmakes : ∀ p ∈ pieces, p.Makes b b.exchange := by
      intro p hp
      obtain ⟨hdvd, t, hchange⟩ := hpieces p hp
      obtain ⟨-, hle, hstop⟩ := hcover.bounds hp
      refine Share.makes_exchange hchange hdvd hle hstop ?_ hb
      rcases hcover.stop_eq hp with hend | ⟨q, hq, (hnext : q.start = p.stop)⟩
      · exact .inr hend
      · exact .inl (hnext ▸ (hpieces q hq).1)
    obtain ⟨hok, hafter⟩ := run_of_perm hi (Bytes.length_exchange b) hcover hmakes hperm
    refine ⟨hok, fun hw t => ?_⟩
    obtain ⟨hwhole, hbuffers⟩ :=
      call_change none hi (Edit.effect_change_swap hw s.selection t hb)
    exact ⟨hwhole, hafter.trans hbuffers.symm⟩
  · intro r first hw hw₁ hw₂ hpos hlt hcut
    have hcover := r.consecutive_bands hw₁ hw₂ hcut
    refine ⟨?_, ?_⟩
    · rw [call_rows_ok_iff hi hb r, call_bands_ok_iff hi hb hw₁ hw₂ hpos hlt hcut]
    · intro hok order hperm
      have hfits := (call_rows_ok_iff hi hb r).mp hok
      obtain ⟨hbands, hafter⟩ := run_of_perm hi (Rows.length_swapped hfits) hcover
        (Rows.makes_bands hpos hlt hfits hcut hb) hperm
      have hrun := Edit.effect_change_rows hw s.selection r hb
      rw [if_pos hfits] at hrun
      exact ⟨hbands, hafter.trans (call_change none hi hrun).2.symm⟩

/-- Three pieces with other tiers and hardware, last one first, and three rows of which two are one
band. -/
theorem shares_in_any_order_three_pieces :
    Span.Consecutive Share.span 0 23
        [⟨0, 16, ⟨true, true⟩, .swap (some .vector128)⟩,
          ⟨16, 20, ⟨true, false⟩, .swap (some .vector256)⟩,
          ⟨20, 23, ⟨false, false⟩, .swap none⟩] ∧
      (∀ e ∈ run
          ([⟨20, 23, ⟨false, false⟩, .swap none⟩,
            ⟨16, 20, ⟨true, false⟩, .swap (some .vector256)⟩,
            ⟨0, 16, ⟨true, true⟩, .swap (some .vector128)⟩].map (Share.call 1))
          (start [[7], (List.range 23).map UInt8.ofNat]), e.1 = .ok .done) ∧
      (after
          ([⟨20, 23, ⟨false, false⟩, .swap none⟩,
            ⟨16, 20, ⟨true, false⟩, .swap (some .vector256)⟩,
            ⟨0, 16, ⟨true, true⟩, .swap (some .vector128)⟩].map (Share.call 1))
          (start [[7], (List.range 23).map UInt8.ofNat])).buffers =
        ((start [[7], (List.range 23).map UInt8.ofNat]).call ⟨true, true⟩
          (.change (.swap (some .scalar4)) ⟨1, none⟩)).2.buffers ∧
      (0 < 2 ∧ 2 < 3 ∧ 2 * 7 ≤ ((List.range 23).map UInt8.ofNat).length) ∧
      ((start [[7], (List.range 23).map UInt8.ofNat]).call ⟨true, true⟩
        (.change (.rows ⟨1, 3, 7⟩) ⟨1, none⟩)).1 = .ok .done ∧
      (after
          ([⟨14, 23, ⟨false, true⟩, .rows ⟨1, 1, 7⟩⟩,
            ⟨0, 14, ⟨true, false⟩, .rows ⟨1, 2, 7⟩⟩].map (Share.call 1))
          (start [[7], (List.range 23).map UInt8.ofNat])).buffers =
        ((start [[7], (List.range 23).map UInt8.ofNat]).call ⟨true, true⟩
          (.change (.rows ⟨1, 3, 7⟩) ⟨1, none⟩)).2.buffers := by
  obtain ⟨hpieces, hrows⟩ := shares_in_any_order
    (start [[7], (List.range 23).map UInt8.ofNat]) 1 ((List.range 23).map UInt8.ofNat) rfl
    (by decide)
  have hcover : Span.Consecutive Share.span 0 23
      [⟨0, 16, ⟨true, true⟩, .swap (some .vector128)⟩,
        ⟨16, 20, ⟨true, false⟩, .swap (some .vector256)⟩,
        ⟨20, 23, ⟨false, false⟩, .swap none⟩] :=
    ⟨rfl, by decide, rfl, by decide, rfl, by decide, rfl⟩
  have hcut : 2 * 7 ≤ ((List.range 23).map UInt8.ofNat).length := by decide
  have hok : ((start [[7], (List.range 23).map UInt8.ofNat]).call ⟨true, true⟩
      (.change (.rows ⟨1, 3, 7⟩) ⟨1, none⟩)).1 = .ok .done := by
    decide +kernel
  obtain ⟨hall, hsame⟩ := hpieces _ _ hcover (by simp) (List.reverse_perm _)
  obtain ⟨-, hbands⟩ := hrows ⟨1, 3, 7⟩ 2 ⟨true, true⟩ ⟨true, false⟩ ⟨false, true⟩ (by decide)
    (by decide) hcut
  exact ⟨hcover, hall, (hsame ⟨true, true⟩ (some .scalar4)).2, ⟨by decide, by decide, hcut⟩, hok,
    (hbands hok _ (List.reverse_perm _)).2⟩

end Session

end RedBlue
