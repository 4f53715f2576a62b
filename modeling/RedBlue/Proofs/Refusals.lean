import RedBlue.Proofs.Noninterference
import RedBlue.Proofs.Settling

/-! # Refused calls leave no trace

A call that is refused has not written a byte yet. So the calls that are refused can be left out of
a run, and the others do not notice. -/

namespace RedBlue

/-- The failure is an answer for the caller: a geometry that does not fit, or an image's layout. -/
def Failure.isRefusal : Failure → Bool
  | size _ | layout _ => true
  | fault _ => false

/-- The failure is a geometry that does not fit. -/
def Failure.isGeometry : Failure → Bool
  | size _ => true
  | layout _ | fault _ => false

namespace Edit

variable {α β : Type}

/-! ## Looking before writing -/

/-- The edit changes nothing. -/
def Looks (act : Edit α) : Prop := ∀ hw w, (exec hw act w).2 = w

/-- The edit may meet a fault, but it refuses nothing. -/
def NeverRefuses ⦃α : Type⦄ (act : Edit α) : Prop :=
  ∀ hw w e, (exec hw act w).1 = .error e → e.isRefusal = false

/-- The edit refuses nothing but an image's layout, and then the bytes in view are as they were. -/
def RefusesLayout (act : Edit α) : Prop :=
  ∀ hw w e, (exec hw act w).1 = .error e → e.isRefusal = true →
    e.isGeometry = false ∧ (exec hw act w).2.view = w.view

/-- If the edit refuses, the bytes in view are as they were. If it refuses a geometry, then so is
what the process remembers. -/
def RefusesUntouched (act : Edit α) : Prop :=
  ∀ hw w e, (exec hw act w).1 = .error e → e.isRefusal = true →
    (exec hw act w).2.view = w.view ∧
      (e.isGeometry = true → (exec hw act w).2.selection = w.selection)

theorem looks_require (e : GeometryError) (p : Prop) [Decidable p] : Looks (require e p) := by
  intro hw w
  by_cases h : p
  · rw [require_of_true h]
    rfl
  · rw [require_of_false h]
    rfl

theorem looks_expect (e : GeometryError) (n : Option α) : Looks (expect e n) := by
  cases n with
  | none => exact fun _ _ => rfl
  | some n => exact fun _ _ => rfl

theorem looks_layout (x : Except Refusal α) : Looks (layout x) := by
  cases x with
  | error r => exact fun _ _ => rfl
  | ok a => exact fun _ _ => rfl

theorem looks_sure (x : Except Fault α) : Looks (sure x) := by
  cases x with
  | error f => exact fun _ _ => rfl
  | ok a => exact fun _ _ => rfl

theorem looks_slice (b : Bytes) (start stop : Nat) : Looks (slice b start stop) := by
  rw [slice]
  split
  · exact fun _ _ => rfl
  · exact fun _ _ => rfl

theorem looks_size : Looks size := fun _ _ => rfl

theorem looks_view : Looks view := fun _ _ => rfl

/-- What comes after a step that changes nothing starts where that one started. -/
theorem Looks.exec_bind_cases {act : Edit α} (h : Looks act) (hw : Hardware) (next : α → Edit β)
    (w : Workspace) :
    (∃ e, exec hw act w = (.error e, w) ∧ exec hw (act >>= next) w = (.error e, w)) ∨
      ∃ a, exec hw (act >>= next) w = exec hw (next a) w := by
  have hsame := h hw w
  rcases Edit.exec_bind_cases hw act next w with ⟨e, w', hend, hrun⟩ | ⟨a, w', hend, hrun⟩
  · rw [hend] at hsame
    obtain rfl : w' = w := hsame
    exact .inl ⟨e, hend, hrun⟩
  · rw [hend] at hsame
    obtain rfl : w' = w := hsame
    exact .inr ⟨a, hrun⟩

theorem Looks.bind {act : Edit α} {next : α → Edit β} (h : Looks act)
    (hnext : ∀ a, Looks (next a)) : Looks (act >>= next) := by
  intro hw w
  rcases h.exec_bind_cases hw next w with ⟨e, -, hrun⟩ | ⟨a, hrun⟩
  · rw [hrun]
  · rw [hrun, hnext a hw w]

theorem looks_pixels (o : ChannelOrder) : Looks (pixels o) :=
  looks_view.bind fun b => looks_sure (o.pixels b)

theorem looks_check (r : Rows) (len : Nat) : Looks (r.check len) := by
  refine (looks_require _ _).bind fun _ => ?_
  refine (looks_expect _ _).bind fun row => ?_
  refine (looks_require _ _).bind fun _ => ?_
  refine (looks_sure _).bind fun above => ?_
  refine (looks_expect _ _).bind fun offset => ?_
  exact (looks_expect _ _).bind fun extent => looks_require _ _

theorem NeverRefuses.bind {act : Edit α} {next : α → Edit β} (h : NeverRefuses act)
    (hnext : ∀ a, NeverRefuses (next a)) : NeverRefuses (act >>= next) := by
  intro hw w e he
  rcases exec_bind_cases hw act next w with ⟨e', w', hend, hrun⟩ | ⟨a, w', hend, hrun⟩
  · rw [hrun] at he
    cases he
    exact h hw w e (congrArg Prod.fst hend)
  · rw [hrun] at he
    exact hnext a hw w' e he

theorem NeverRefuses.focus {act : Edit α} (start stop : Nat) (h : NeverRefuses act) :
    NeverRefuses (focus start stop act) := by
  intro hw w e he
  rw [Edit.focus, exec_ofExec] at he
  split at he
  · exact h hw _ e he
  · cases he
    rfl

theorem stepwise_neverRefuses : Stepwise NeverRefuses where
  pure _ _ _ _ h := by cases h
  fault _ _ _ _ h := by
    cases h
    rfl
  hardware _ _ _ h := by cases h
  view _ _ _ h := by cases h
  size _ _ _ h := by cases h
  rewrite _ _ _ _ h := by cases h
  bind := .bind
  focus := .focus

theorem neverRefuses_tier : NeverRefuses tier := by
  intro _ _ _ h
  cases h

theorem NeverRefuses.not_refusal {act : Edit α} (h : NeverRefuses act) {hw : Hardware}
    {w : Workspace} {e : Failure} (he : (exec hw act w).1 = .error e) : ¬e.isRefusal = true := by
  rw [h hw w e he]
  decide

theorem RefusesLayout.of_neverRefuses {act : Edit α} (h : NeverRefuses act) :
    RefusesLayout act :=
  fun _ _ _ he hrefusal => absurd hrefusal (h.not_refusal he)

theorem RefusesLayout.bind_layout {next : α → Edit β} (x : Except Refusal α)
    (hnext : ∀ a, RefusesLayout (next a)) : RefusesLayout (layout x >>= next) := by
  cases x with
  | error r =>
      intro hw w e he _
      rw [layout_error, exec_bind_error (exec_fail hw _ w)] at he ⊢
      cases he
      exact ⟨rfl, rfl⟩
  | ok a =>
      rw [layout_ok, pure_bind]
      exact hnext a

theorem RefusesLayout.bind_of_looks {act : Edit α} {next : α → Edit β} (h : Looks act)
    (hnever : NeverRefuses act) (hnext : ∀ a, RefusesLayout (next a)) :
    RefusesLayout (act >>= next) := by
  intro hw w e he hrefusal
  rcases h.exec_bind_cases hw next w with ⟨e', hend, hrun⟩ | ⟨a, hrun⟩
  · rw [hrun] at he
    cases he
    exact absurd hrefusal (hnever.not_refusal (congrArg Prod.fst hend))
  · rw [hrun] at he ⊢
    exact hnext a hw w e he hrefusal

namespace RefusesUntouched

theorem of_neverRefuses {act : Edit α} (h : NeverRefuses act) : RefusesUntouched act :=
  fun _ _ _ he hrefusal => absurd hrefusal (h.not_refusal he)

theorem bind_of_looks {act : Edit α} {next : α → Edit β} (h : Looks act)
    (hnext : ∀ a, RefusesUntouched (next a)) : RefusesUntouched (act >>= next) := by
  intro hw w e he hrefusal
  rcases h.exec_bind_cases hw next w with ⟨e', -, hrun⟩ | ⟨a, hrun⟩
  · rw [hrun]
    exact ⟨rfl, fun _ => rfl⟩
  · rw [hrun] at he ⊢
    exact hnext a hw w e he hrefusal

/-- Once the tier has been asked for, it may be settled, and no geometry is refused any more. -/
theorem bind_tier {next : Tier → Edit α} (hnext : ∀ t, RefusesLayout (next t)) :
    RefusesUntouched (tier >>= next) := by
  intro hw w e he hrefusal
  rw [exec_bind_ok (exec_tier hw w)] at he ⊢
  obtain ⟨hlayout, hview⟩ := hnext _ hw _ e he hrefusal
  refine ⟨hview, fun hgeometry => ?_⟩
  rw [hlayout] at hgeometry
  cases hgeometry

theorem bind_neverRefuses {act : Edit α} {next : α → Edit β} (h : RefusesUntouched act)
    (hnext : ∀ a, NeverRefuses (next a)) : RefusesUntouched (act >>= next) := by
  intro hw w e he hrefusal
  rcases exec_bind_cases hw act next w with ⟨e', w', hend, hrun⟩ | ⟨a, w', hend, hrun⟩
  · have hfirst := h hw w e'
    rw [hend] at hfirst
    rw [hrun] at he ⊢
    cases he
    exact hfirst rfl hrefusal
  · rw [hrun] at he
    exact absurd hrefusal ((hnext a).not_refusal he)

theorem focus {act : Edit α} (h : RefusesUntouched act) (start stop : Nat) :
    RefusesUntouched (focus start stop act) := by
  intro hw w e he hrefusal
  by_cases hrange : start ≤ stop ∧ stop ≤ w.view.length
  · rw [exec_focus_of_le hrange.1 hrange.2] at he ⊢
    obtain ⟨hview, hselection⟩ := h hw _ e he hrefusal
    refine ⟨?_, hselection⟩
    dsimp only
    rw [hview, Bytes.splice_range _ hrange.1]
  · rw [Edit.focus, exec_ofExec, if_neg hrange]
    exact ⟨rfl, fun _ => rfl⟩

/-! ## The operations -/

theorem swapRegion (r : Region) : RefusesUntouched (swapRegion r) := by
  refine bind_of_looks looks_size fun len => ?_
  refine bind_of_looks (looks_require _ _) fun _ => ?_
  refine bind_of_looks (looks_sure _) fun count => ?_
  refine bind_of_looks (looks_expect _ _) fun landing => ?_
  refine bind_of_looks (looks_require _ _) fun _ => ?_
  refine bind_of_looks (looks_sure _) fun n => of_neverRefuses ?_
  split
  · exact stepwise_neverRefuses.pure ()
  · exact stepwise_neverRefuses.swapAcross neverRefuses_tier r.start r.dest n

theorem swapRows (r : Rows) : RefusesUntouched (swapRows r) := by
  have h := stepwise_neverRefuses
  refine bind_of_looks looks_size fun len => ?_
  refine bind_of_looks (looks_check r len) fun _ => of_neverRefuses ?_
  refine h.bind neverRefuses_tier fun t => ?_
  refine h.bind (h.sure _) fun row => ?_
  exact h.eachPiece (h.focus _ _ (h.tierSwap t)) r.stride r.height

/-- Both geometries are checked before the first row is copied. -/
theorem swapRowsFrom (source : Bytes) (sourceStride : Nat) (r : Rows) :
    RefusesUntouched (swapRowsFrom source sourceStride r) := by
  have h := stepwise_neverRefuses
  refine bind_of_looks (looks_check _ _) fun _ => ?_
  refine bind_of_looks looks_size fun len => ?_
  refine bind_of_looks (looks_check r len) fun _ => of_neverRefuses ?_
  refine h.bind neverRefuses_tier fun t => ?_
  refine h.bind (h.sure _) fun row => ?_
  refine h.eachPair (fun piece => ?_) _ _ _ _
  exact h.bind (h.slice _ _ _) fun part => h.focus _ _ (h.tierSwapFrom t part)

/-- The geometry that the result is made of is the one that was given, so nothing is refused once
the rows have been written. -/
theorem convertImage (o : ChannelOrder) (g : Geometry) : RefusesUntouched (convertImage o g) := by
  have h := stepwise_neverRefuses
  refine bind_tier fun t => ?_
  refine .bind_of_looks looks_size h.size fun len => ?_
  refine .bind_layout _ fun span => .of_neverRefuses ?_
  refine h.bind (h.focus _ _ (h.eachPiece (h.focus _ _ (h.tierSwap t)) _ _)) fun _ => ?_
  refine h.bind (h.pixels o.other) fun converted => ?_
  rw [Geometry.make_self, layout_ok]
  exact h.bind (h.pure g) fun geometry => h.pure _

theorem convertImageFrom (source : Image) (g : Geometry) :
    RefusesUntouched (convertImageFrom source g) := by
  have h := stepwise_neverRefuses
  refine bind_of_looks (looks_require _ _) fun _ => ?_
  refine bind_tier fun t => ?_
  refine .bind_layout _ fun sourceSpan => ?_
  refine .bind_of_looks looks_size h.size fun len => ?_
  refine .bind_layout _ fun span => ?_
  refine .bind_of_looks (looks_slice _ _ _) (h.slice _ _ _) fun memory => .of_neverRefuses ?_
  refine h.focus _ _ (h.eachPair (fun piece => ?_) _ _ _ _)
  exact h.bind (h.slice _ _ _) fun part => h.focus _ _ (h.tierSwapFrom t part)

theorem change (c : Change) : RefusesUntouched c.edit := by
  have h := stepwise_neverRefuses
  cases c with
  | swap t =>
      refine of_neverRefuses ?_
      cases t with
      | none => exact h.bind (h.swap neverRefuses_tier) fun _ => h.pure _
      | some t => exact h.bind (h.tierSwap t) fun _ => h.pure _
  | region r => exact (swapRegion r).bind_neverRefuses fun _ => h.pure _
  | rows r => exact (swapRows r).bind_neverRefuses fun _ => h.pure _
  | pixels o =>
      refine bind_of_looks (looks_pixels o) fun _ => of_neverRefuses ?_
      exact h.bind (h.convert neverRefuses_tier o) fun _ => h.pure _
  | image o f =>
      refine bind_of_looks (looks_pixels o) fun _ => ?_
      refine bind_of_looks (looks_layout _) fun g => ?_
      refine bind_of_looks looks_size fun stop => ?_
      exact ((convertImage o g).focus _ _).bind_neverRefuses fun _ => h.pure _

theorem copy (c : Copy) (source : Bytes) : RefusesUntouched (c.edit source) := by
  have h := stepwise_neverRefuses
  cases c with
  | swap t =>
      refine of_neverRefuses ?_
      cases t with
      | none => exact h.bind (h.swapFrom neverRefuses_tier source) fun _ => h.pure _
      | some t => exact h.bind (h.tierSwapFrom t source) fun _ => h.pure _
  | rows sourceStride r =>
      exact (swapRowsFrom source sourceStride r).bind_neverRefuses fun _ => h.pure _
  | pixels o =>
      refine bind_of_looks (looks_sure _) fun ps => ?_
      refine bind_of_looks (looks_pixels o.other) fun _ => of_neverRefuses ?_
      exact h.bind (h.swapFrom neverRefuses_tier _) fun _ => h.pure _
  | image o sourceFrame frame =>
      refine bind_of_looks (looks_sure _) fun ps => ?_
      refine bind_of_looks (looks_pixels o.other) fun _ => ?_
      refine bind_of_looks (looks_layout _) fun sourceGeometry => ?_
      refine bind_of_looks (looks_layout _) fun g => ?_
      refine bind_of_looks looks_size fun stop => ?_
      exact ((convertImageFrom _ g).focus _ _).bind_neverRefuses fun _ => h.pure _

theorem place {act : Edit α} (h : RefusesUntouched act) (p : Place) :
    RefusesUntouched (p.focus act) := by
  obtain ⟨buffer, _ | ⟨start, stop⟩⟩ := p
  · exact h
  · exact h.focus start stop

end RefusesUntouched

end Edit

namespace Session

open Edit

/-! ## One call -/

/-- The call has been refused. -/
def refused (e : Except Failure Reply × Session) : Bool :=
  match e.1 with
  | .ok _ => false
  | .error f => f.isRefusal

variable {hw hw' : Hardware} {s s' : Session}

theorem eq_of_parts (hselection : s.selection = s'.selection) (hbuffers : s.buffers = s'.buffers) :
    s = s' := by
  cases s
  cases hselection
  cases hbuffers
  rfl

theorem edit_of_refusal {act : Edit Reply} (h : RefusesUntouched act) (p : Place) {e : Failure}
    (he : (s.edit hw p act).1 = .error e) (hrefusal : e.isRefusal = true) :
    (s.edit hw p act).2.buffers = s.buffers ∧
      (e.isGeometry = true → (s.edit hw p act).2.selection = s.selection) := by
  rw [edit] at he ⊢
  cases hb : s.buffers[p.buffer]? with
  | none => exact ⟨rfl, fun _ => rfl⟩
  | some b =>
      rw [hb] at he
      obtain ⟨hview, hselection⟩ := h.place p hw ⟨s.selection, b⟩ e he hrefusal
      obtain ⟨hlt, hget⟩ := List.getElem?_eq_some_iff.mp hb
      refine ⟨?_, hselection⟩
      dsimp only
      rw [hview, ← hget]
      exact List.set_getElem_self hlt

/-- A call that refuses leaves all buffers as they were, and the tier and the log too unless it
refuses an image's layout. -/
theorem call_of_refusal (c : Call) {e : Failure} (he : (s.call hw c).1 = .error e)
    (hrefusal : e.isRefusal = true) :
    (s.call hw c).2.buffers = s.buffers ∧
      (e.isGeometry = true → (s.call hw c).2.selection = s.selection) := by
  cases c with
  | change c target => exact edit_of_refusal (.change c) target he hrefusal
  | copy c source target =>
      rw [call] at he ⊢
      cases hread : s.read source with
      | error f => exact ⟨rfl, fun _ => rfl⟩
      | ok b =>
          rw [hread] at he
          exact edit_of_refusal (.copy c b) target he hrefusal
  | offered => exact ⟨rfl, fun _ => rfl⟩
  | chosen => cases he

theorem exists_of_refused {e : Except Failure Reply × Session} (h : refused e = true) :
    ∃ f, e.1 = .error f ∧ f.isRefusal = true := by
  obtain ⟨f | a, s⟩ := e
  · exact ⟨f, rfl, h⟩
  · cases h

theorem buffers_call_of_refused (c : Call) (h : refused (s.call hw c) = true) :
    (s.call hw c).2.buffers = s.buffers := by
  obtain ⟨f, hf, hrefusal⟩ := exists_of_refused h
  exact (call_of_refusal c hf hrefusal).1

/-- From the same buffers, a call looks the same in any process and on any hardware. -/
theorem lookAlike_call_self (c : Call) (hs : s.Addressable) (hbuffers : s.buffers = s'.buffers) :
    LookAlike (s.call hw c) (s'.call hw' c) := by
  have hs' : s'.Addressable := by
    rw [Addressable, ← hbuffers]
    exact hs
  have htask : LookAlike (s.call hw c) (s.call hw c.task) := lookAlike_call c hs rfl
  have htask' : LookAlike (s'.call hw' c) (s.call hw c.task) :=
    lookAlike_call c hs' hbuffers.symm
  exact ⟨htask.observed_eq.trans htask'.observed_eq.symm, htask.addressable⟩

theorem answer_edit_congr {act act' : Edit Reply} (h : Agree Eq act act') (p : Place)
    (hs : s.Addressable) (hbuffers : s.buffers = s'.buffers) :
    (s.edit hw p act).1 = (s'.edit hw' p act).1 := by
  rw [edit, edit, ← hbuffers]
  cases hb : s.buffers[p.buffer]? with
  | none => rfl
  | some b =>
      have hlimit := hs b (List.mem_of_getElem? hb)
      have hend := p.agree_focus h hw hw s.selection s.selection b hlimit
      have hend' := p.agree_focus h hw' hw s'.selection s.selection b hlimit
      dsimp only
      generalize exec hw (p.focus act) ⟨s.selection, b⟩ = e at hend ⊢
      generalize exec hw' (p.focus act) ⟨s'.selection, b⟩ = e' at hend' ⊢
      generalize exec hw (p.focus act') ⟨s.selection, b⟩ = task at hend hend'
      cases hend with
      | done hr _ =>
          cases hend' with
          | done hr' _ => rw [hr, hr']
      | failed _ =>
          cases hend' with
          | failed _ => rfl

/-- Two processes on the same hardware that choose the same tier there also answer the same. -/
theorem answer_call_congr (c : Call) (hs : s.Addressable) (hbuffers : s.buffers = s'.buffers)
    (hchoice : s.selection.choose hw = s'.selection.choose hw) :
    (s.call hw c).1 = (s'.call hw c).1 := by
  cases c with
  | change c target => exact answer_edit_congr c.agree_task target hs hbuffers
  | copy c source target =>
      rw [call, call, ← read_congr hbuffers]
      cases s.read source with
      | error f => rfl
      | ok b => exact answer_edit_congr (c.agree_task b) target hs hbuffers
  | offered => rfl
  | chosen => rw [call, call, hchoice]

/-! ## Runs without their refused calls -/

/-- The calls of a run that are not refused. -/
def unrefused : List (Hardware × Call) → Session → List (Hardware × Call)
  | [], _ => []
  | (hw, c) :: rest, s =>
    if refused (s.call hw c) then unrefused rest (s.call hw c).2
    else (hw, c) :: unrefused rest (s.call hw c).2

/-- Each call of a run has a property in the session that it finds. -/
def Along (Q : Session → Hardware → Call → Prop) : List (Hardware × Call) → Session → Prop
  | [], _ => True
  | (hw, c) :: rest, s => Q s hw c ∧ Along Q rest (s.call hw c).2

theorem along_of_forall {Q : Session → Hardware → Call → Prop} {calls : List (Hardware × Call)}
    (h : ∀ step ∈ calls, ∀ s, Q s step.1 step.2) (s : Session) : Along Q calls s := by
  induction calls generalizing s with
  | nil => trivial
  | cons step rest ih =>
      exact ⟨h step List.mem_cons_self s,
        ih (fun step hstep => h step (List.mem_cons_of_mem _ hstep)) _⟩

/-- `R` relates a session to one that has missed some refused calls: a refused call keeps it on the
one side, and another call keeps it on both sides and looks the same to `f`. -/
structure Skips {γ : Type} (Q : Session → Hardware → Call → Prop) (R : Session → Session → Prop)
    (f : Except Failure Reply × Session → γ) : Prop where
  skip : ∀ {s s' hw c}, R s s' → Q s hw c → refused (s.call hw c) = true → R (s.call hw c).2 s'
  keep : ∀ {s s' hw c}, R s s' → Q s hw c →
    f (s.call hw c) = f (s'.call hw c) ∧ R (s.call hw c).2 (s'.call hw c).2

/-- If refused calls can be skipped one at a time, all of them can be left out of a run. -/
theorem Skips.run {γ : Type} {Q : Session → Hardware → Call → Prop}
    {R : Session → Session → Prop} {f : Except Failure Reply × Session → γ} (h : Skips Q R f)
    {calls : List (Hardware × Call)} (hcalls : Along Q calls s) (hR : R s s') :
    (run (unrefused calls s) s').map f = ((run calls s).filter fun e => !refused e).map f ∧
      R (after calls s) (after (unrefused calls s) s') := by
  induction calls generalizing s s' with
  | nil => exact ⟨rfl, hR⟩
  | cons step rest ih =>
      obtain ⟨hw, c⟩ := step
      obtain ⟨hcall, hrest⟩ := hcalls
      cases hrefused : refused (s.call hw c) with
      | true =>
          obtain ⟨hrun, hend⟩ := ih hrest (h.skip hR hcall hrefused)
          rw [unrefused, if_pos hrefused, Session.run, List.filter_cons_of_neg (by simp [hrefused])]
          exact ⟨hrun, hend⟩
      | false =>
          obtain ⟨hsame, hnext⟩ := h.keep hR hcall
          obtain ⟨hrun, hend⟩ := ih hrest hnext
          rw [unrefused, if_neg (by simp [hrefused]), Session.run, Session.run,
            List.filter_cons_of_pos (by simp [hrefused]), List.map_cons, List.map_cons, hsame, hrun]
          exact ⟨rfl, hend⟩

theorem skips_observed :
    Skips (fun _ _ _ => True) (fun s s' => s.Addressable ∧ s.buffers = s'.buffers) observed where
  skip := by
    rintro s s' hw c ⟨hs, hbuffers⟩ - hrefused
    have hsame := buffers_call_of_refused c hrefused
    refine ⟨?_, hsame.trans hbuffers⟩
    rw [Addressable, hsame]
    exact hs
  keep := by
    rintro s s' hw c ⟨hs, hbuffers⟩ -
    have halike : LookAlike (s.call hw c) (s'.call hw c) := lookAlike_call_self c hs hbuffers
    exact ⟨halike.observed_eq, halike.addressable, halike.buffers_eq⟩

/-- On one machine, a process that has missed refused calls differs at most in not having settled
its tier yet. -/
theorem skips_answers (hw : Hardware) :
    Skips (fun _ hw' _ => hw' = hw)
      (fun s s' => (s.Addressable ∧ s.buffers = s'.buffers) ∧
        s'.selection.Leads hw s.selection) Prod.fst where
  skip := by
    rintro s s' _ c ⟨hbuffers, hleads⟩ rfl hrefused
    exact ⟨skips_observed.skip hbuffers trivial hrefused, hleads.trans (leads_call s _ c)⟩
  keep := by
    rintro s s' _ c ⟨hbuffers, hleads⟩ rfl
    refine ⟨answer_call_congr c hbuffers.1 hbuffers.2 hleads.choose_eq,
      (skips_observed.keep hbuffers trivial).2, ?_⟩
    rcases hleads with hsame | hchosen
    · obtain rfl : s = s' := eq_of_parts hsame hbuffers.2
      exact .inl rfl
    · have hkept := (hchosen ▸ leads_call s _ c).eq_of_chosen
      rw [← (leads_call s' _ c).choose_eq] at hkept
      exact .inr hkept

/-- If the call refuses an image's layout, then it finds a tier settled. -/
def LayoutAfterSettling (s : Session) (hw : Hardware) (c : Call) : Prop :=
  ∀ r, (s.call hw c).1 = .error (.layout r) → s.selection.Settled

theorem call_of_refused (c : Call) (hlayout : LayoutAfterSettling s hw c)
    (h : refused (s.call hw c) = true) : (s.call hw c).2 = s := by
  obtain ⟨f, hf, hrefusal⟩ := exists_of_refused h
  obtain ⟨hbuffers, hgeometry⟩ := call_of_refusal c hf hrefusal
  refine eq_of_parts ?_ hbuffers
  cases f with
  | size e => exact hgeometry rfl
  | layout r => exact selection_call_of_settled (hlayout r hf) hw c
  | fault f => cases hrefusal

/-- An image of four pixels in a buffer with one of them is refused, and settles the tier. -/
example :
    let e := (start [[1, 2, 3, 4]]).call .full (.change (.image .rgba ⟨2, 2, none, 0⟩) ⟨0, none⟩)
    refused e = true ∧ e.2.selection = .settledOn .vector256 := by
  decide +kernel

theorem skips_all : Skips LayoutAfterSettling Eq id where
  skip := by
    rintro s _ hw c rfl hlayout hrefused
    exact call_of_refused c hlayout hrefused
  keep := by
    rintro s _ hw c rfl -
    exact ⟨rfl, rfl⟩

/-- Where a tier is settled already, all calls find it settled. -/
theorem along_layoutAfterSettling (hs : s.selection.Settled) (calls : List (Hardware × Call)) :
    Along LayoutAfterSettling calls s := by
  induction calls generalizing s with
  | nil => trivial
  | cons step rest ih =>
      obtain ⟨hw, c⟩ := step
      exact ⟨fun _ _ => hs, ih (selection_call_of_settled hs hw c ▸ hs)⟩

/-- Leaving its refused calls out of a run changes no answer of the others and no byte of any
buffer after them, whatever the hardware at each call. What can change is when a tier is settled, as
an image whose layout is refused may have settled it. On one machine not even the answers about
tiers show that, and a tier that is settled without the refused calls is settled with them, with the
same record. If those images find a tier settled already, then nothing changes at all. -/
theorem run_unrefused (calls : List (Hardware × Call)) (s : Session) (hs : s.Addressable) :
    (run (unrefused calls s) s).map observed =
        ((run calls s).filter fun e => !refused e).map observed ∧
      (after (unrefused calls s) s).buffers = (after calls s).buffers ∧
      (∀ hw, (∀ step ∈ calls, step.1 = hw) →
        (run (unrefused calls s) s).map Prod.fst =
            ((run calls s).filter fun e => !refused e).map Prod.fst ∧
          ((after (unrefused calls s) s).selection.Settled →
            after (unrefused calls s) s = after calls s)) ∧
      (s.selection.Settled → Along LayoutAfterSettling calls s) ∧
      (Along LayoutAfterSettling calls s →
        run (unrefused calls s) s = (run calls s).filter (fun e => !refused e) ∧
          after (unrefused calls s) s = after calls s) := by
  have hbuffers : s.Addressable ∧ s.buffers = s.buffers := ⟨hs, rfl⟩
  have hall : Along (fun _ _ _ => True) calls s := along_of_forall (fun _ _ _ => trivial) s
  obtain ⟨hobserved, -, hlast⟩ := skips_observed.run hall hbuffers
  refine ⟨hobserved, hlast.symm, ?_, fun h => along_layoutAfterSettling h calls, ?_⟩
  · intro hw hone
    have hsame := along_of_forall (Q := fun _ hw' _ => hw' = hw) (fun step h _ => hone step h) s
    obtain ⟨hrun, -, hleads⟩ := (skips_answers hw).run hsame ⟨hbuffers, .inl rfl⟩
    refine ⟨hrun, fun hsettled => ?_⟩
    exact eq_of_parts (hleads.eq_of_settled hsettled).symm hlast.symm
  · intro hlayout
    obtain ⟨hrun, hend⟩ := skips_all.run hlayout rfl
    rw [List.map_id, List.map_id] at hrun
    exact ⟨hrun, hend.symm⟩

/-- Rows that reach past their buffer, and an image that is copied to a place with two pixels: both
are refused, and the run is the one of the two other calls. -/
theorem run_unrefused_two_refused :
    Addressable ⟨.settledOn .vector16, [List.replicate 8 7, (List.range 24).map UInt8.ofNat]⟩ ∧
      run [(⟨false, true⟩, .chosen), (⟨true, false⟩, .change (.swap none) ⟨1, some (1, 23)⟩)]
          ⟨.settledOn .vector16, [List.replicate 8 7, (List.range 24).map UInt8.ofNat]⟩ =
        (run [(⟨true, true⟩, .change (.rows ⟨2, 4, 8⟩) ⟨1, none⟩), (⟨false, true⟩, .chosen),
            (⟨false, false⟩, .copy (.image .rgba ⟨2, 2, some 3, 1⟩ ⟨2, 2, none, 0⟩) ⟨1, none⟩
              ⟨0, none⟩),
            (⟨true, false⟩, .change (.swap none) ⟨1, some (1, 23)⟩)]
          ⟨.settledOn .vector16, [List.replicate 8 7, (List.range 24).map UInt8.ofNat]⟩).filter
            fun e => !refused e := by
  have hkept : unrefused
      [(⟨true, true⟩, .change (.rows ⟨2, 4, 8⟩) ⟨1, none⟩), (⟨false, true⟩, .chosen),
        (⟨false, false⟩, .copy (.image .rgba ⟨2, 2, some 3, 1⟩ ⟨2, 2, none, 0⟩) ⟨1, none⟩
          ⟨0, none⟩),
        (⟨true, false⟩, .change (.swap none) ⟨1, some (1, 23)⟩)]
      ⟨.settledOn .vector16, [List.replicate 8 7, (List.range 24).map UInt8.ofNat]⟩ =
      [(⟨false, true⟩, .chosen), (⟨true, false⟩, .change (.swap none) ⟨1, some (1, 23)⟩)] := by
    decide +kernel
  have hs : Addressable
      ⟨.settledOn .vector16, [List.replicate 8 7, (List.range 24).map UInt8.ofNat]⟩ := by decide
  refine ⟨hs, ?_⟩
  rw [← hkept]
  obtain ⟨-, -, -, hsettled, hall⟩ := run_unrefused _ _ hs
  exact (hall (hsettled (Selection.settled_settledOn _))).1

end Session

end RedBlue
