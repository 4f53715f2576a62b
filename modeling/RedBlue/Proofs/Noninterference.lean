import RedBlue.Proofs.Agreement
import RedBlue.Session.Run

/-! # What a run does not depend on

Two runs of the same tasks on the same buffers look alike, call for call, whatever the hardware is
at each call, whichever tier a process has settled on and whichever tiers the calls name. -/

namespace RedBlue

/-! ## Tasks -/

/-- The change, with the tier left to the process. -/
def Change.task : Change → Change
  | swap _ => swap none
  | c => c

/-- The copy, with the tier left to the process. -/
def Copy.task : Copy → Copy
  | swap _ => swap none
  | c => c

/-- The task of a call: what it asks for, with the tier left to the process. -/
def Call.task : Call → Call
  | change c target => change c.task target
  | copy c source target => copy c.task source target
  | c => c

/-- What a reply says on every machine. The answers to a question about tiers are left out. -/
def Reply.shared : Reply → Option Reply
  | offered _ | chosen _ => none
  | reply => some reply

open Edit

theorem Change.agree_task (c : Change) : Agree Eq c.edit c.task.edit := by
  cases c with
  | swap t =>
      cases t with
      | none => exact Agree.swap.bind_eq fun _ => .pure rfl
      | some t =>
          exact ((performs_tierSwap t).agree performs_swap Bytes.length_exchange).bind_eq fun _ =>
            .pure rfl
  | region r => exact (Agree.swapRegion r).bind_eq fun _ => .pure rfl
  | rows r => exact (Agree.swapRows r).bind_eq fun _ => .pure rfl
  | pixels o =>
      refine (Agree.pixels o).bind_eq fun _ => ?_
      exact (Agree.convert o).bind_eq fun _ => .pure rfl
  | image o f =>
      refine (Agree.pixels o).bind_eq fun _ => ?_
      refine (Agree.layout _).bind_eq fun g => ?_
      refine Agree.size.bind_eq fun stop => ?_
      exact ((Agree.convertImage o g).focus _ _).bind_eq fun _ => .pure rfl

theorem Copy.agree_task (c : Copy) (source : Bytes) :
    Agree Eq (c.edit source) (c.task.edit source) := by
  cases c with
  | swap t =>
      cases t with
      | none => exact (Agree.swapFrom source).bind_eq fun _ => .pure rfl
      | some t =>
          exact ((performs_tierSwapFrom t source).agree (performs_swapFrom source)
            (length_copied source)).bind_eq fun _ => .pure rfl
  | rows sourceStride r =>
      exact (Agree.swapRowsFrom source sourceStride r).bind_eq fun _ => .pure rfl
  | pixels o =>
      refine (Agree.sure _).bind_eq fun ps => ?_
      refine (Agree.pixels o.other).bind_eq fun _ => ?_
      exact (Agree.swapFrom _).bind_eq fun _ => .pure rfl
  | image o sourceFrame frame =>
      refine (Agree.sure _).bind_eq fun ps => ?_
      refine (Agree.pixels o.other).bind_eq fun _ => ?_
      refine (Agree.layout _).bind_eq fun sourceGeometry => ?_
      refine (Agree.layout _).bind_eq fun g => ?_
      refine Agree.size.bind_eq fun stop => ?_
      exact ((Agree.convertImageFrom _ g).focus _ _).bind_eq fun _ => .pure rfl

theorem Place.agree_focus {act act' : Edit Reply} (h : Agree Eq act act') (p : Place) :
    Agree Eq (p.focus act) (p.focus act') := by
  obtain ⟨buffer, _ | ⟨start, stop⟩⟩ := p
  · exact h
  · exact h.focus start stop

namespace Session

/-! ## One call -/

/-- All buffers are short enough to be addressed. -/
def Addressable (s : Session) : Prop := ∀ b ∈ s.buffers, b.length < Size.limit

instance (s : Session) : Decidable s.Addressable :=
  inferInstanceAs (Decidable (∀ b ∈ s.buffers, b.length < Size.limit))

/-- What can be seen after a call, tiers apart: how it ended, and all buffers. -/
def observed (e : Except Failure Reply × Session) : Except Failure (Option Reply) × List Bytes :=
  (e.1.map Reply.shared, e.2.buffers)

/-- Two calls have ended in the same way, as far as it can be seen, and the next calls find buffers
that can still be addressed. -/
structure LookAlike (e e' : Except Failure Reply × Session) : Prop where
  observed_eq : observed e = observed e'
  addressable : e.2.Addressable

theorem LookAlike.buffers_eq {e e' : Except Failure Reply × Session} (h : LookAlike e e') :
    e.2.buffers = e'.2.buffers := congrArg Prod.snd h.observed_eq

variable {hw hw' : Hardware} {s s' : Session}

theorem lookAlike_edit {act act' : Edit Reply} (h : Agree Eq act act') (p : Place)
    (hs : s.Addressable) (hbuffers : s.buffers = s'.buffers) :
    LookAlike (s.edit hw p act) (s'.edit hw' p act') := by
  rw [edit, edit, ← hbuffers]
  cases hb : s.buffers[p.buffer]? with
  | none => exact ⟨congrArg (Prod.mk _) hbuffers, hs⟩
  | some b =>
      have hlimit := hs b (List.mem_of_getElem? hb)
      have hend := p.agree_focus h hw hw' s.selection s'.selection b hlimit
      have hset : ∀ v : Bytes, v.length = b.length → ∀ c ∈ s.buffers.set p.buffer v,
          c.length < Size.limit := by
        intro v hv c hc
        rcases List.mem_or_eq_of_mem_set hc with hc | rfl
        · exact hs c hc
        · exact hv ▸ hlimit
      dsimp only
      generalize exec hw (p.focus act) ⟨s.selection, b⟩ = e at hend ⊢
      generalize exec hw' (p.focus act') ⟨s'.selection, b⟩ = e' at hend ⊢
      cases hend with
      | done hr hv =>
          subst hr
          exact ⟨rfl, hset _ hv⟩
      | failed hv => exact ⟨rfl, hset _ hv⟩

theorem read_congr (hbuffers : s.buffers = s'.buffers) (p : Place) : s.read p = s'.read p := by
  rw [read, read, hbuffers]

/-- A call looks like its task, on any hardware and in any process with the same buffers. -/
theorem lookAlike_call (c : Call) (hs : s.Addressable) (hbuffers : s.buffers = s'.buffers) :
    LookAlike (s.call hw c) (s'.call hw' c.task) := by
  cases c with
  | change c target => exact lookAlike_edit c.agree_task target hs hbuffers
  | copy c source target =>
      rw [Call.task, call, call, ← read_congr hbuffers]
      cases s.read source with
      | error f => exact ⟨congrArg (Prod.mk _) hbuffers, hs⟩
      | ok b => exact lookAlike_edit (c.agree_task b) target hs hbuffers
  | offered => exact ⟨congrArg (Prod.mk _) hbuffers, hs⟩
  | chosen => exact ⟨congrArg (Prod.mk _) hbuffers, hs⟩

/-! ## Runs -/

/-- A run looks like the run of its tasks in another process on full hardware. -/
theorem observed_run (calls : List (Hardware × Call)) (hs : s.Addressable)
    (hbuffers : s.buffers = s'.buffers) :
    (run calls s).map observed =
      (run ((calls.map (·.2.task)).map (Prod.mk Hardware.full)) s').map observed := by
  induction calls generalizing s s' with
  | nil => rfl
  | cons step rest ih =>
      obtain ⟨hw, c⟩ := step
      have hcall : LookAlike (s.call hw c) (s'.call .full c.task) := lookAlike_call c hs hbuffers
      simp only [List.map_cons, run, hcall.observed_eq, ih hcall.addressable hcall.buffers_eq]

/-- Two runs of the same tasks from the same buffers look alike after every call: neither the
hardware at each call, nor the tiers that the calls name, nor what the two processes have settled
on and logged makes a difference. -/
theorem observed_run_eq_of_tasks_eq (calls calls' : List (Hardware × Call)) (s s' : Session)
    (htasks : calls.map (·.2.task) = calls'.map (·.2.task)) (hbuffers : s.buffers = s'.buffers)
    (hs : s.Addressable) :
    (run calls s).map observed = (run calls' s').map observed := by
  have hs' : s'.Addressable := by
    rw [Addressable, ← hbuffers]
    exact hs
  rw [observed_run calls hs rfl, observed_run calls' hs' hbuffers.symm, htasks]

/-- A swap of a part of a buffer, a copy of it to the other one as an image and rows that do not
fit, with every tier and all hardware exchanged between the two runs. -/
theorem observed_run_eq_of_tasks_eq_three_calls :
    Addressable ⟨.start, [List.replicate 21 7, (List.range 24).map UInt8.ofNat]⟩ ∧
      (run [(⟨true, true⟩, .change (.swap (some .vector256)) ⟨1, some (1, 23)⟩),
          (⟨false, false⟩, .copy (.image .rgba ⟨2, 2, some 3, 1⟩ ⟨2, 2, none, 0⟩) ⟨1, none⟩
            ⟨0, some (5, 21)⟩),
          (⟨false, true⟩, .change (.rows ⟨2, 4, 8⟩) ⟨1, none⟩)]
        ⟨.start, [List.replicate 21 7, (List.range 24).map UInt8.ofNat]⟩).map observed =
      (run [(⟨false, false⟩, .change (.swap (some .scalar4)) ⟨1, some (1, 23)⟩),
          (⟨true, true⟩, .copy (.image .rgba ⟨2, 2, some 3, 1⟩ ⟨2, 2, none, 0⟩) ⟨1, none⟩
            ⟨0, some (5, 21)⟩),
          (⟨true, false⟩, .change (.rows ⟨2, 4, 8⟩) ⟨1, none⟩)]
        ⟨⟨Tier.vector128.code, [⟨.vector128⟩]⟩,
          [List.replicate 21 7, (List.range 24).map UInt8.ofNat]⟩).map observed :=
  ⟨by decide, observed_run_eq_of_tasks_eq _ _ _ _ (by decide) rfl (by decide)⟩

end Session

end RedBlue
