import RedBlue.Session.Call

/-! # What single steps have in common

Every operation is put together from a few steps. A property that the steps have and that putting
edits together keeps is one of all operations. The steps that not every operation takes, asking for
the tier and refusing, are asked for by the operations that take them. -/

namespace RedBlue.Edit

/-- A run of two steps ends where the first one fails, or goes on from where it has ended. -/
theorem exec_bind_cases {α β : Type} (hw : Hardware) (act : Edit α) (next : α → Edit β)
    (w : Workspace) :
    (∃ e w', exec hw act w = (.error e, w') ∧ exec hw (act >>= next) w = (.error e, w')) ∨
      ∃ a w', exec hw act w = (.ok a, w') ∧ exec hw (act >>= next) w = exec hw (next a) w' := by
  cases h : exec hw act w with
  | mk result w' =>
      cases result with
      | error e => exact .inl ⟨e, w', rfl, exec_bind_error h⟩
      | ok a => exact .inr ⟨a, w', rfl, exec_bind_ok h⟩

/-- A property of every step that neither asks for the tier nor refuses, kept by putting edits
together. -/
structure Stepwise (P : ∀ ⦃α : Type⦄, Edit α → Prop) : Prop where
  pure : ∀ {α : Type} (a : α), P (pure a : Edit α)
  fault : ∀ {α : Type} (f : Fault), P (fail (.fault f) : Edit α)
  hardware : P hardware
  view : P view
  size : P size
  rewrite : ∀ f : Bytes → Bytes, P (rewrite f)
  bind : ∀ {α β : Type} {act : Edit α} {next : α → Edit β},
    P act → (∀ a, P (next a)) → P (act >>= next)
  focus : ∀ {α : Type} {act : Edit α} (start stop : Nat), P act → P (focus start stop act)

namespace Stepwise

variable {α : Type} {P : ∀ ⦃α : Type⦄, Edit α → Prop} (h : Stepwise P)

include h

/-! ## Steps with a fault -/

theorem sure (x : Except Fault α) : P (sure x) := by
  cases x with
  | ok a => exact h.pure a
  | error f => exact h.fault f

theorem slice (b : Bytes) (start stop : Nat) : P (slice b start stop) := by
  rw [Edit.slice]
  split
  · exact h.pure _
  · exact h.fault _

theorem focusFrom {act : Bytes → Edit α} (hact : ∀ before, P (act before)) (cut : Nat) :
    P (focusFrom cut act) := by
  refine h.bind h.size fun stop => ?_
  refine h.bind h.view fun b => ?_
  refine h.bind (h.slice b 0 cut) fun before => ?_
  exact h.focus cut stop (hact before)

theorem focusBefore {act : Bytes → Edit α} (hact : ∀ after, P (act after)) (cut : Nat) :
    P (focusBefore cut act) := by
  refine h.bind h.view fun b => ?_
  refine h.bind h.size fun stop => ?_
  refine h.bind (h.slice b cut stop) fun after => ?_
  exact h.focus 0 cut (hact after)

theorem move (start stop dest : Nat) : P (move start stop dest) := by
  refine h.bind h.view fun b => ?_
  refine h.bind (h.slice b start stop) fun moved => ?_
  refine h.bind h.size fun len => ?_
  refine h.bind (h.sure _) fun room => ?_
  split
  · exact h.rewrite _
  · exact h.bind h.size fun len => h.fault _

/-! ## Loops -/

theorem eachOf {act : Edit Unit} (hact : P act) (step count : Nat) : P (eachOf step act count) := by
  induction count with
  | zero => exact h.pure ()
  | succ count ih =>
      refine h.bind h.size fun stop => ?_
      split
      · exact h.pure ()
      · exact h.bind (h.focus _ _ hact) fun _ => h.focus _ _ ih

theorem eachPiece {act : Edit Unit} (hact : P act) (step count : Nat) :
    P (eachPiece step count act) := by
  rw [Edit.eachPiece]
  split
  · exact h.fault _
  · exact h.eachOf hact step count

theorem eachPairOf {act : Bytes → Edit Unit} (hact : ∀ piece, P (act piece))
    (sourceStep step count : Nat) (source : Bytes) :
    P (eachPairOf sourceStep step act count source) := by
  induction count generalizing source with
  | zero => exact h.pure ()
  | succ count ih =>
      refine h.bind h.size fun stop => ?_
      split
      · exact h.pure ()
      · exact h.bind (h.focus _ _ (hact _)) fun _ => h.focus _ _ (ih _)

theorem eachPair {act : Bytes → Edit Unit} (hact : ∀ piece, P (act piece))
    (sourceStep step count : Nat) (source : Bytes) :
    P (eachPair sourceStep step count source act) := by
  rw [Edit.eachPair]
  split
  · exact h.fault _
  · exact h.eachPairOf hact sourceStep step count source

/-! ## Passes and chains -/

theorem method (t : Tier) : P t.method.inPlace ∧ ∀ source, P (t.method.copy source) := by
  have hwords : P Pass.words.inPlace ∧ ∀ source, P (Pass.words.copy source) := by
    refine ⟨?_, fun source => ?_⟩
    · refine h.bind h.size fun len => ?_
      refine h.bind (h.sure _) fun done => ?_
      exact h.bind (h.rewrite _) fun _ => h.pure done
    · refine h.bind h.view fun b => ?_
      exact h.bind (h.rewrite _) fun _ => h.sure _
  have hshuffles : ∀ (mask : Bytes) (block : Nat), P (Pass.shuffles mask block).inPlace ∧
      ∀ source, P ((Pass.shuffles mask block).copy source) := by
    refine fun mask block => ⟨?_, fun source => ?_⟩
    · refine h.bind h.size fun len => ?_
      refine h.bind (h.sure _) fun stop => ?_
      exact h.bind (h.focus _ _ (h.rewrite _)) fun _ => h.pure stop
    · refine h.bind h.size fun len => ?_
      refine h.bind (h.sure _) fun stop => ?_
      refine h.bind (h.slice _ _ _) fun part => ?_
      exact h.bind (h.focus _ _ (h.rewrite _)) fun _ => h.pure stop
  cases t with
  | scalar4 => exact hwords
  | vector16 => exact hshuffles _ _
  | vector128 => exact hshuffles _ _
  | vector256 => exact hshuffles _ _

theorem passInPlace (t : Tier) : P t.pass.inPlace := by
  refine h.bind h.hardware fun hw => ?_
  split
  · exact (h.method t).1
  · exact h.pure 0

theorem passCopy (t : Tier) (source : Bytes) : P (t.pass.copy source) := by
  refine h.bind h.hardware fun hw => ?_
  split
  · exact (h.method t).2 source
  · exact h.pure 0

theorem linksAlong (ts : List Tier) (done : Nat) : P (Tier.linksAlong ts done) := by
  induction ts generalizing done with
  | nil => exact h.pure []
  | cons t ts ih =>
      refine h.bind h.size fun len => ?_
      refine h.bind (h.focus _ _ ?_) fun (given, handled) => ?_
      · exact h.bind h.view fun b => h.bind (h.passInPlace t) fun n => h.pure (b, n)
      · refine h.bind (h.sure _) fun stop => ?_
        exact h.bind (ih stop) fun links => h.pure _

theorem copyLinksAlong (source : Bytes) (ts : List Tier) (done : Nat) :
    P (Tier.copyLinksAlong source ts done) := by
  induction ts generalizing done with
  | nil => exact h.pure []
  | cons t ts ih =>
      refine h.bind (h.slice _ _ _) fun part => ?_
      refine h.bind h.size fun len => ?_
      refine h.bind (h.focus _ _ ?_) fun (given, handled) => ?_
      · exact h.bind h.view fun b => h.bind (h.passCopy t part) fun n => h.pure (b, n)
      · refine h.bind (h.sure _) fun stop => ?_
        exact h.bind (ih stop) fun links => h.pure _

theorem tierSwap (t : Tier) : P t.swap :=
  h.bind (h.linksAlong t.chain 0) fun _ => h.pure ()

theorem tierSwapFrom (t : Tier) (source : Bytes) : P (t.swapFrom source) := by
  refine h.bind ?_ fun _ => h.pure ()
  refine h.bind h.size fun len => ?_
  refine h.bind (h.slice _ _ _) fun part => ?_
  exact h.focus _ _ (h.copyLinksAlong part t.chain 0)

theorem pixels (o : ChannelOrder) : P (pixels o) :=
  h.bind h.view fun b => h.sure (o.pixels b)

/-! ## Operations that ask for the tier -/

variable (htier : P tier)

include htier

theorem swap : P swap := by
  refine h.bind h.size fun len => ?_
  split
  · exact h.pure ()
  · exact h.bind htier fun t => h.tierSwap t

theorem swapFrom (source : Bytes) : P (swapFrom source) := by
  refine h.bind h.size fun len => ?_
  split
  · exact h.pure ()
  · exact h.bind htier fun t => h.tierSwapFrom t source

theorem swapAcross (start dest n : Nat) : P (swapAcross start dest n) := by
  rw [Edit.swapAcross]
  split
  · exact h.bind (h.sure _) fun stop => h.focus _ _ (h.swap htier)
  · refine h.bind (h.sure _) fun stop => ?_
    split
    · refine h.focusFrom (fun before => ?_) dest
      exact h.bind (h.slice _ _ _) fun source => h.focus _ _ (h.swapFrom htier source)
    · refine h.bind (h.sure _) fun landing => ?_
      split
      · refine h.focusBefore (fun after => ?_) start
        exact h.bind (h.slice _ _ _) fun source => h.focus _ _ (h.swapFrom htier source)
      · exact h.bind (h.move _ _ _) fun _ => h.focus _ _ (h.swap htier)

theorem convert (o : ChannelOrder) : P (convert o) :=
  h.bind (h.swap htier) fun _ => h.pixels o.other

/-! ## Operations that refuse -/

variable (hrefuse : ∀ ⦃α : Type⦄ (e : Failure), P (fail e : Edit α))

include hrefuse

omit htier in
theorem require (e : GeometryError) (p : Prop) [Decidable p] : P (require e p) := by
  rw [Edit.require]
  split
  · exact h.pure ()
  · exact hrefuse _

omit htier in
theorem expect (e : GeometryError) (n : Option α) : P (expect e n) := by
  cases n with
  | none => exact hrefuse _
  | some n => exact h.pure n

omit htier in
theorem layout (x : Except Refusal α) : P (layout x) := by
  cases x with
  | error r => exact hrefuse _
  | ok a => exact h.pure a

omit htier in
theorem check (r : Rows) (len : Nat) : P (r.check len) := by
  refine h.bind (h.require hrefuse _ _) fun _ => ?_
  refine h.bind (h.expect hrefuse _ _) fun row => ?_
  refine h.bind (h.require hrefuse _ _) fun _ => ?_
  refine h.bind (h.sure _) fun above => ?_
  refine h.bind (h.expect hrefuse _ _) fun offset => ?_
  exact h.bind (h.expect hrefuse _ _) fun extent => h.require hrefuse _ _

theorem swapRegion (r : Region) : P (swapRegion r) := by
  refine h.bind h.size fun len => ?_
  refine h.bind (h.require hrefuse _ _) fun _ => ?_
  refine h.bind (h.sure _) fun count => ?_
  refine h.bind (h.expect hrefuse _ _) fun landing => ?_
  refine h.bind (h.require hrefuse _ _) fun _ => ?_
  refine h.bind (h.sure _) fun n => ?_
  split
  · exact h.pure ()
  · exact h.swapAcross htier r.start r.dest n

theorem swapRows (r : Rows) : P (swapRows r) := by
  refine h.bind h.size fun len => ?_
  refine h.bind (h.check hrefuse r len) fun _ => ?_
  refine h.bind htier fun t => ?_
  refine h.bind (h.sure _) fun row => ?_
  exact h.eachPiece (h.focus _ _ (h.tierSwap t)) r.stride r.height

theorem swapRowsFrom (source : Bytes) (sourceStride : Nat) (r : Rows) :
    P (swapRowsFrom source sourceStride r) := by
  refine h.bind (h.check hrefuse _ _) fun _ => ?_
  refine h.bind h.size fun len => ?_
  refine h.bind (h.check hrefuse r len) fun _ => ?_
  refine h.bind htier fun t => ?_
  refine h.bind (h.sure _) fun row => ?_
  refine h.eachPair (fun piece => ?_) _ _ _ _
  exact h.bind (h.slice _ _ _) fun part => h.focus _ _ (h.tierSwapFrom t part)

theorem convertImage (o : ChannelOrder) (g : Geometry) : P (convertImage o g) := by
  refine h.bind htier fun t => ?_
  refine h.bind h.size fun len => ?_
  refine h.bind (h.layout hrefuse _) fun span => ?_
  refine h.bind (h.focus _ _ (h.eachPiece (h.focus _ _ (h.tierSwap t)) _ _)) fun _ => ?_
  refine h.bind (h.pixels o.other) fun converted => ?_
  exact h.bind (h.layout hrefuse _) fun geometry => h.pure _

theorem convertImageFrom (source : Image) (g : Geometry) : P (convertImageFrom source g) := by
  refine h.bind (h.require hrefuse _ _) fun _ => ?_
  refine h.bind htier fun t => ?_
  refine h.bind (h.layout hrefuse _) fun sourceSpan => ?_
  refine h.bind h.size fun len => ?_
  refine h.bind (h.layout hrefuse _) fun span => ?_
  refine h.bind (h.slice _ _ _) fun memory => ?_
  refine h.focus _ _ (h.eachPair (fun piece => ?_) _ _ _ _)
  exact h.bind (h.slice _ _ _) fun part => h.focus _ _ (h.tierSwapFrom t part)

/-! ## Calls -/

theorem change (c : Change) : P c.edit := by
  cases c with
  | swap t =>
      cases t with
      | none => exact h.bind (h.swap htier) fun _ => h.pure _
      | some t => exact h.bind (h.tierSwap t) fun _ => h.pure _
  | region r => exact h.bind (h.swapRegion htier hrefuse r) fun _ => h.pure _
  | rows r => exact h.bind (h.swapRows htier hrefuse r) fun _ => h.pure _
  | pixels o =>
      refine h.bind (h.pixels o) fun _ => ?_
      exact h.bind (h.convert htier o) fun _ => h.pure _
  | image o f =>
      refine h.bind (h.pixels o) fun _ => ?_
      refine h.bind (h.layout hrefuse _) fun g => ?_
      refine h.bind h.size fun stop => ?_
      exact h.bind (h.focus _ _ (h.convertImage htier hrefuse o g)) fun _ => h.pure _

theorem copy (c : Copy) (source : Bytes) : P (c.edit source) := by
  cases c with
  | swap t =>
      cases t with
      | none => exact h.bind (h.swapFrom htier source) fun _ => h.pure _
      | some t => exact h.bind (h.tierSwapFrom t source) fun _ => h.pure _
  | rows sourceStride r =>
      exact h.bind (h.swapRowsFrom htier hrefuse source sourceStride r) fun _ => h.pure _
  | pixels o =>
      refine h.bind (h.sure _) fun ps => ?_
      refine h.bind (h.pixels o.other) fun _ => ?_
      exact h.bind (h.swapFrom htier _) fun _ => h.pure _
  | image o sourceFrame frame =>
      refine h.bind (h.sure _) fun ps => ?_
      refine h.bind (h.pixels o.other) fun _ => ?_
      refine h.bind (h.layout hrefuse _) fun sourceGeometry => ?_
      refine h.bind (h.layout hrefuse _) fun g => ?_
      refine h.bind h.size fun stop => ?_
      exact h.bind (h.focus _ _ (h.convertImageFrom htier hrefuse _ g)) fun _ => h.pure _

end Stepwise

end RedBlue.Edit
