import RedBlue.Image.Convert
import RedBlue.Proofs.Regions
import RedBlue.Swap.Rows

/-! # Edits that agree

Two edits agree if neither the hardware nor what a process remembers can tell their results and
their bytes apart. Agreement is kept by every way to build an edit, and any two tiers agree; so
whatever is built from the same steps with other tiers in them agrees too. -/

namespace RedBlue.Edit

variable {α β γ δ : Type} {R : α → β → Prop}

/-! ## Ends of two runs -/

/-- Two runs have ended alike: both with results that `R` relates or both with the same failure,
and with the same `size` bytes in view. What the processes remember is left open. -/
inductive EndAlike (R : α → β → Prop) (size : Nat) :
    Except Failure α × Workspace → Except Failure β × Workspace → Prop
  | done {a : α} {b : β} {s s' : Selection} {v : Bytes} (h : R a b) (hv : v.length = size) :
      EndAlike R size (.ok a, ⟨s, v⟩) (.ok b, ⟨s', v⟩)
  | failed {e : Failure} {s s' : Selection} {v : Bytes} (hv : v.length = size) :
      EndAlike R size (.error e, ⟨s, v⟩) (.error e, ⟨s', v⟩)

/-- From the same bytes, two edits end alike on any hardware and from any two states of the
process. -/
def Agree (R : α → β → Prop) (act : Edit α) (act' : Edit β) : Prop :=
  ∀ (hw hw' : Hardware) (s s' : Selection) (v : Bytes), v.length < Size.limit →
    EndAlike R v.length (exec hw act ⟨s, v⟩) (exec hw' act' ⟨s', v⟩)

namespace Agree

/-! ## Single steps -/

theorem pure {a : α} {b : β} (h : R a b) : Agree R (pure a) (pure b) :=
  fun _ _ _ _ _ _ => .done h rfl

theorem fail (e : Failure) : Agree R (fail e) (fail e) :=
  fun _ _ _ _ _ _ => .failed rfl

theorem view : Agree Eq view view :=
  fun _ _ _ _ _ _ => .done rfl rfl

theorem size : Agree Eq size size :=
  fun _ _ _ _ _ _ => .done rfl rfl

/-- The tiers of two processes may be any two tiers. -/
theorem tier : Agree (fun _ _ => True) tier tier :=
  fun _ _ _ _ _ _ => .done trivial rfl

theorem require (e : GeometryError) (p : Prop) [Decidable p] :
    Agree Eq (require e p) (require e p) := by
  by_cases h : p
  · rw [require_of_true h]
    exact pure rfl
  · rw [require_of_false h]
    exact fail _

theorem expect (e : GeometryError) (n : Option α) : Agree Eq (expect e n) (expect e n) := by
  cases n with
  | none => exact fail _
  | some n => exact pure rfl

theorem layout (x : Except Refusal α) : Agree Eq (layout x) (layout x) := by
  cases x with
  | error r => exact fail _
  | ok a => exact pure rfl

theorem sure (x : Except Fault α) : Agree Eq (sure x) (sure x) := by
  cases x with
  | error f => exact fail _
  | ok a => exact pure rfl

theorem slice (b : Bytes) (start stop : Nat) : Agree Eq (slice b start stop) (slice b start stop) := by
  rw [Edit.slice]
  split
  · exact pure rfl
  · exact fail _

/-! ## Steps put together -/

theorem bind {S : γ → δ → Prop} {act : Edit α} {act' : Edit β} {next : α → Edit γ}
    {next' : β → Edit δ} (h : Agree R act act') (hnext : ∀ a b, R a b → Agree S (next a) (next' b)) :
    Agree S (act >>= next) (act' >>= next') := by
  intro hw hw' s s' v hv
  have hfirst := h hw hw' s s' v hv
  rw [exec_bind, exec_bind]
  generalize exec hw act ⟨s, v⟩ = first at hfirst ⊢
  generalize exec hw' act' ⟨s', v⟩ = first' at hfirst ⊢
  cases hfirst with
  | done hr hlen =>
      rw [← hlen] at hv ⊢
      exact hnext _ _ hr hw hw' _ _ _ hv
  | failed hlen => exact .failed hlen

/-- Equal results are handed on as one. -/
theorem bind_eq {S : γ → δ → Prop} {act act' : Edit α} {next : α → Edit γ} {next' : α → Edit δ}
    (h : Agree Eq act act') (hnext : ∀ a, Agree S (next a) (next' a)) :
    Agree S (act >>= next) (act' >>= next') :=
  h.bind fun a _ hab => hab ▸ hnext a

theorem focus {act : Edit α} {act' : Edit β} (h : Agree R act act') (start stop : Nat) :
    Agree R (focus start stop act) (focus start stop act') := by
  intro hw hw' s s' v hv
  by_cases hrange : start ≤ stop ∧ stop ≤ v.length
  · obtain ⟨hle, hstop⟩ := hrange
    have hpart : (v.range start stop).length = stop - start := Bytes.length_range hstop
    have hinner := h hw hw' s s' (v.range start stop) (by omega)
    rw [exec_focus_of_le hle hstop, exec_focus_of_le hle hstop]
    dsimp only
    generalize exec hw act ⟨s, v.range start stop⟩ = inner at hinner ⊢
    generalize exec hw' act' ⟨s', v.range start stop⟩ = inner' at hinner ⊢
    cases hinner with
    | done hr hlen => exact .done hr (Bytes.length_splice hle hstop (hlen.trans hpart))
    | failed hlen => exact .failed (Bytes.length_splice hle hstop (hlen.trans hpart))
  · rw [Edit.focus, Edit.focus, exec_ofExec, exec_ofExec, if_neg hrange, if_neg hrange]
    exact .failed rfl

theorem focusFrom {act : Bytes → Edit α} {act' : Bytes → Edit β}
    (h : ∀ before, Agree R (act before) (act' before)) (cut : Nat) :
    Agree R (focusFrom cut act) (focusFrom cut act') :=
  size.bind_eq fun stop =>
    view.bind_eq fun b =>
      (slice b 0 cut).bind_eq fun before => (h before).focus cut stop

theorem focusBefore {act : Bytes → Edit α} {act' : Bytes → Edit β}
    (h : ∀ after, Agree R (act after) (act' after)) (cut : Nat) :
    Agree R (focusBefore cut act) (focusBefore cut act') :=
  view.bind_eq fun b =>
    size.bind_eq fun stop =>
      (slice b cut stop).bind_eq fun after => (h after).focus 0 cut

theorem move (start stop dest : Nat) : Agree Eq (move start stop dest) (move start stop dest) := by
  intro hw hw' s s' v hv
  by_cases hrange : start ≤ stop ∧ stop ≤ v.length
  · obtain ⟨n, rfl⟩ := Nat.exists_eq_add_of_le hrange.1
    by_cases hd : dest + n ≤ v.length
    · have hmoved : (v.range start (start + n)).length = dest + n - dest := by
        rw [Bytes.length_range hrange.2]
        omega
      rw [exec_move hw hrange.2 hd, exec_move hw' hrange.2 hd]
      exact .done rfl (Bytes.length_splice (Nat.le_add_right dest n) hd hmoved)
    · have hsub : n ≤ v.length := by omega
      have hroom : ¬dest ≤ v.length - n := by omega
      simp only [Edit.move, exec_bind, exec_view, exec_size, slice_of_le hrange.1 hrange.2, exec_pure,
        Nat.add_sub_cancel_left, Size.sub_of_le hsub, sure_ok, hroom, if_false, exec_fail]
      exact .failed rfl
  · simp only [Edit.move, exec_bind, exec_view, Edit.slice, hrange, if_false, exec_fail]
    exact .failed rfl

/-! ## Loops -/

theorem eachOf {act act' : Edit Unit} (h : Agree Eq act act') (step count : Nat) :
    Agree Eq (eachOf step act count) (eachOf step act' count) := by
  induction count with
  | zero => exact pure rfl
  | succ count ih =>
      refine size.bind_eq fun stop => ?_
      split
      · exact pure rfl
      · exact (h.focus _ _).bind_eq fun _ => ih.focus _ _

theorem eachPiece {act act' : Edit Unit} (h : Agree Eq act act') (step count : Nat) :
    Agree Eq (eachPiece step count act) (eachPiece step count act') := by
  rw [Edit.eachPiece, Edit.eachPiece]
  split
  · exact fail _
  · exact h.eachOf step count

theorem eachPairOf {act act' : Bytes → Edit Unit} (h : ∀ piece, Agree Eq (act piece) (act' piece))
    (sourceStep step count : Nat) (source : Bytes) :
    Agree Eq (eachPairOf sourceStep step act count source)
      (eachPairOf sourceStep step act' count source) := by
  induction count generalizing source with
  | zero => exact pure rfl
  | succ count ih =>
      refine size.bind_eq fun stop => ?_
      split
      · exact pure rfl
      · exact ((h _).focus _ _).bind_eq fun _ => (ih _).focus _ _

theorem eachPair {act act' : Bytes → Edit Unit} (h : ∀ piece, Agree Eq (act piece) (act' piece))
    (sourceStep step count : Nat) (source : Bytes) :
    Agree Eq (eachPair sourceStep step count source act)
      (eachPair sourceStep step count source act') := by
  rw [Edit.eachPair, Edit.eachPair]
  split
  · exact fail _
  · exact eachPairOf h sourceStep step count source

end Agree

/-! ## Edits with one effect -/

/-- The edit always succeeds and does `f` to the bytes in view. -/
def Performs (f : Bytes → Bytes) (act : Edit Unit) : Prop :=
  ∀ (hw : Hardware) (s : Selection) (v : Bytes), v.length < Size.limit →
    ∃ s', exec hw act ⟨s, v⟩ = (.ok (), ⟨s', f v⟩)

theorem Performs.agree {f : Bytes → Bytes} {act act' : Edit Unit} (h : Performs f act)
    (h' : Performs f act') (hf : ∀ v, (f v).length = v.length) : Agree Eq act act' := by
  intro hw hw' s s' v hv
  obtain ⟨u, hrun⟩ := h hw s v hv
  obtain ⟨u', hrun'⟩ := h' hw' s' v hv
  rw [hrun, hrun']
  exact .done rfl (hf v)

/-- What a copy of `source` does to the bytes in view. -/
def copied (source target : Bytes) : Bytes :=
  Bytes.exchangeOver (min source.length target.length - min source.length target.length % 4) source
    target

theorem length_copied (source target : Bytes) : (copied source target).length = target.length :=
  Bytes.length_exchangeOver ((Nat.sub_le _ _).trans (Nat.min_le_left _ _))
    ((Nat.sub_le _ _).trans (Nat.min_le_right _ _))

theorem performs_tierSwap (t : Tier) : Performs Bytes.exchange t.swap :=
  fun hw s _ hv => ⟨s, t.exec_swap hw hv⟩

theorem performs_swap : Performs Bytes.exchange swap :=
  fun hw _ _ hv => ⟨_, exec_swap_eq hw hv⟩

theorem performs_tierSwapFrom (t : Tier) (source : Bytes) :
    Performs (copied source) (t.swapFrom source) :=
  fun hw s _ hv => ⟨s, t.exec_swapFrom hw rfl ((Nat.min_le_right _ _).trans_lt hv)⟩

theorem performs_swapFrom (source : Bytes) : Performs (copied source) (swapFrom source) :=
  fun hw _ _ hv => ⟨_, exec_swapFrom_eq hw rfl ((Nat.min_le_right _ _).trans_lt hv)⟩

/-! ## The operations -/

namespace Agree

theorem tierSwap (t t' : Tier) : Agree Eq t.swap t'.swap :=
  (performs_tierSwap t).agree (performs_tierSwap t') Bytes.length_exchange

theorem tierSwapFrom (t t' : Tier) (source : Bytes) :
    Agree Eq (t.swapFrom source) (t'.swapFrom source) :=
  (performs_tierSwapFrom t source).agree (performs_tierSwapFrom t' source) (length_copied source)

theorem swap : Agree Eq swap swap := performs_swap.agree performs_swap Bytes.length_exchange

theorem swapFrom (source : Bytes) : Agree Eq (swapFrom source) (swapFrom source) :=
  (performs_swapFrom source).agree (performs_swapFrom source) (length_copied source)

theorem swapAcross (start dest n : Nat) :
    Agree Eq (swapAcross start dest n) (swapAcross start dest n) := by
  rw [Edit.swapAcross]
  split
  · exact (sure _).bind_eq fun stop => swap.focus dest stop
  · refine (sure _).bind_eq fun stop => ?_
    split
    · exact focusFrom (fun before =>
        (slice before start stop).bind_eq fun source => (swapFrom source).focus 0 n) dest
    · refine (sure _).bind_eq fun landing => ?_
      split
      · exact focusBefore (fun after =>
          (slice after 0 n).bind_eq fun source => (swapFrom source).focus dest landing) start
      · exact (move start stop dest).bind_eq fun _ => swap.focus dest landing

theorem swapRegion (r : Region) : Agree Eq (swapRegion r) (swapRegion r) := by
  refine size.bind_eq fun len => ?_
  refine (require _ _).bind_eq fun _ => ?_
  refine (sure _).bind_eq fun count => ?_
  refine (expect _ _).bind_eq fun landing => ?_
  refine (require _ _).bind_eq fun _ => ?_
  refine (sure _).bind_eq fun n => ?_
  split
  · exact pure rfl
  · exact swapAcross r.start r.dest n

theorem check (r : Rows) (len : Nat) : Agree Eq (r.check len) (r.check len) := by
  refine (require _ _).bind_eq fun _ => ?_
  refine (expect _ _).bind_eq fun row => ?_
  refine (require _ _).bind_eq fun _ => ?_
  refine (sure _).bind_eq fun above => ?_
  refine (expect _ _).bind_eq fun offset => ?_
  exact (expect _ _).bind_eq fun extent => require _ _

theorem swapRows (r : Rows) : Agree Eq (swapRows r) (swapRows r) := by
  refine size.bind_eq fun len => ?_
  refine (check r len).bind_eq fun _ => ?_
  refine tier.bind fun t t' _ => ?_
  exact (sure _).bind_eq fun row => ((tierSwap t t').focus 0 row).eachPiece r.stride r.height

theorem swapRowsFrom (source : Bytes) (sourceStride : Nat) (r : Rows) :
    Agree Eq (swapRowsFrom source sourceStride r) (swapRowsFrom source sourceStride r) := by
  refine (check _ _).bind_eq fun _ => ?_
  refine size.bind_eq fun len => ?_
  refine (check r len).bind_eq fun _ => ?_
  refine tier.bind fun t t' _ => ?_
  refine (sure _).bind_eq fun row => ?_
  exact eachPair (fun piece => (slice piece 0 row).bind_eq fun part =>
    (tierSwapFrom t t' part).focus 0 row) _ _ _ _

theorem pixels (o : ChannelOrder) : Agree Eq (pixels o) (pixels o) :=
  view.bind_eq fun b => sure (o.pixels b)

theorem convert (o : ChannelOrder) : Agree Eq (convert o) (convert o) :=
  swap.bind_eq fun _ => pixels o.other

theorem convertImage (o : ChannelOrder) (g : Geometry) :
    Agree Eq (convertImage o g) (convertImage o g) := by
  refine tier.bind fun t t' _ => ?_
  refine size.bind_eq fun len => ?_
  refine (layout _).bind_eq fun span => ?_
  refine ((((tierSwap t t').focus _ _).eachPiece _ _).focus _ _).bind_eq fun _ => ?_
  refine (pixels o.other).bind_eq fun converted => ?_
  exact (layout _).bind_eq fun geometry => pure rfl

theorem convertImageFrom (source : Image) (g : Geometry) :
    Agree Eq (convertImageFrom source g) (convertImageFrom source g) := by
  refine (require _ _).bind_eq fun _ => ?_
  refine tier.bind fun t t' _ => ?_
  refine (layout _).bind_eq fun sourceSpan => ?_
  refine size.bind_eq fun len => ?_
  refine (layout _).bind_eq fun span => ?_
  refine (slice _ _ _).bind_eq fun memory => ?_
  exact (eachPair (fun piece => (slice piece 0 _).bind_eq fun part =>
    (tierSwapFrom t t' part).focus 0 _) _ _ _ _).focus _ _

end Agree

end RedBlue.Edit
