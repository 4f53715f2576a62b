import RedBlue.Proofs.Steps
import RedBlue.Session.Run

/-! # The tier is settled once

A call leaves what the process remembers as it is, or settles the widest tier of the hardware that
it runs on. So over a run the tier is settled at most once, and with it goes one record. -/

namespace RedBlue

namespace Selection

/-! ## One choice -/

/-- A tier is settled. -/
def Settled (s : Selection) : Prop := ∃ t, Tier.ofCode? s.cell = some t

/-- What a process remembers that has settled on `t`: its code and the record of it. -/
def settledOn (t : Tier) : Selection := ⟨t.code, [⟨t⟩]⟩

theorem settled_settledOn (t : Tier) : (settledOn t).Settled := ⟨t, Tier.ofCode?_code t⟩

theorem choose_settledOn (hw : Hardware) (t : Tier) :
    choose hw (settledOn t) = (t, settledOn t) := choose_of_ofCode? (Tier.ofCode?_code t) hw

theorem Settled.choose_eq {s : Selection} (h : s.Settled) (hw : Hardware) :
    (s.choose hw).2 = s := by
  obtain ⟨t, ht⟩ := h
  rw [choose_of_ofCode? ht]

/-- Choosing again on the same hardware chooses the same. -/
theorem choose_choose (hw : Hardware) (s : Selection) :
    (s.choose hw).2.choose hw = s.choose hw := by
  cases ht : Tier.ofCode? s.cell with
  | some t => rw [choose_of_ofCode? ht, choose_of_ofCode? ht]
  | none =>
      by_cases hc : s.cell = unsettled
      · have hchoice : s.choose hw = ((TierSet.ofHardware hw).widest,
            ⟨(TierSet.ofHardware hw).widest.code,
              s.log ++ [⟨(TierSet.ofHardware hw).widest⟩]⟩) := by
          rw [choose, ht]
          exact if_pos hc
        rw [hchoice]
        exact choose_of_ofCode? (Tier.ofCode?_code _) hw
      · have hchoice : s.choose hw = ((TierSet.ofHardware hw).widest, s) := by
          rw [choose, ht]
          dsimp only [settle]
          rw [if_neg hc, ht]
          rfl
        rw [hchoice, hchoice]

/-- What a process may remember after some work on the hardware: what it remembered before, or that
with a tier chosen now. -/
def Leads (hw : Hardware) (s s' : Selection) : Prop := s' = s ∨ s' = (s.choose hw).2

theorem Leads.choose_eq {hw : Hardware} {s s' : Selection} (h : Leads hw s s') :
    s'.choose hw = s.choose hw := by
  rcases h with rfl | rfl
  · rfl
  · exact choose_choose hw s

theorem Leads.trans {hw : Hardware} {s s' s'' : Selection} (h : Leads hw s s')
    (h' : Leads hw s' s'') : Leads hw s s'' := by
  rcases h' with rfl | rfl
  · exact h
  · rw [h.choose_eq]
    exact .inr rfl

/-- A tier chosen on the hardware is not given up for another one there. -/
theorem Leads.eq_of_chosen {hw : Hardware} {s s' : Selection} (h : Leads hw (s.choose hw).2 s') :
    s' = (s.choose hw).2 := by
  rcases h with rfl | rfl
  · rfl
  · rw [choose_choose]

theorem Leads.eq_of_settled {hw : Hardware} {s s' : Selection} (h : Leads hw s s')
    (hs : s.Settled) : s' = s := by
  rcases h with rfl | rfl
  · rfl
  · exact hs.choose_eq hw

/-! ## What is remembered of a choice -/

/-- The code and the log of a process tell the same story: nothing has been settled and logged, or
one tier has, in one record that names it and its block. -/
structure Recorded (s : Selection) : Prop where
  cell_eq : s.cell = unsettled ∨ ∃ t : Tier, s.cell = t.code
  log_eq_nil_iff : s.log = [] ↔ s.cell = unsettled
  log_of_cell : ∀ t : Tier, s.cell = t.code → ∃ r : Record, s.log = [r] ∧ r.level = "DEBUG" ∧
    r.message =
      "chanswap: dispatch resolved to " ++ t.name ++ " (" ++ toString t.block ++ " bytes per step)"

theorem code_ne_unsettled (t : Tier) : t.code ≠ unsettled := by cases t <;> decide

theorem recorded_start : start.Recorded := by
  refine ⟨.inl rfl, ⟨fun _ => rfl, fun _ => rfl⟩, ?_⟩
  intro t ht
  exact absurd ht.symm (code_ne_unsettled t)

theorem recorded_settledOn (t : Tier) : (settledOn t).Recorded := by
  refine ⟨.inr ⟨t, rfl⟩, ⟨?_, ?_⟩, ?_⟩
  · intro h
    cases h
  · intro h
    exact absurd h (code_ne_unsettled t)
  · intro u hu
    have hcode := congrArg Tier.ofCode? hu
    rw [settledOn, Tier.ofCode?_code, Tier.ofCode?_code] at hcode
    obtain rfl : t = u := Option.some.inj hcode
    exact ⟨⟨t⟩, rfl, rfl, rfl⟩

end Selection

/-- The widest tier that the hardware runs. -/
def Hardware.Widest (hw : Hardware) (t : Tier) : Prop :=
  hw.runs t = true ∧ ∀ u, hw.runs u = true → u ≤ t

theorem Hardware.widest_ofHardware (hw : Hardware) :
    hw.Widest (TierSet.ofHardware hw).widest := by
  have hwidest := (TierSet.ofHardware hw).contains_widest
  simpa only [Widest, TierSet.contains_ofHardware] using hwidest

/-! ## One edit -/

namespace Edit

variable {α : Type} {K : Hardware → Selection → Selection → Prop}

/-- What the process remembers before the edit and after it is related by `K`. -/
def Remembers (K : Hardware → Selection → Selection → Prop) ⦃α : Type⦄ (act : Edit α) : Prop :=
  ∀ hw w, K hw w.selection (exec hw act w).2.selection

theorem Remembers.bind {β : Type} {act : Edit α} {next : α → Edit β}
    (htrans : ∀ hw s s' s'', K hw s s' → K hw s' s'' → K hw s s'') (hact : Remembers K act)
    (hnext : ∀ a, Remembers K (next a)) : Remembers K (act >>= next) := by
  intro hw w
  have hfirst := hact hw w
  rcases exec_bind_cases hw act next w with ⟨e, w', hend, hrun⟩ | ⟨a, w', hend, hrun⟩
  · rw [hend] at hfirst
    rw [hrun]
    exact hfirst
  · rw [hend] at hfirst
    rw [hrun]
    exact htrans hw _ _ _ hfirst (hnext a hw w')

theorem Remembers.focus {act : Edit α} (hrefl : ∀ hw s, K hw s s) (start stop : Nat)
    (hact : Remembers K act) : Remembers K (focus start stop act) := by
  intro hw w
  rw [Edit.focus, exec_ofExec]
  split
  · exact hact hw ⟨w.selection, w.view.range start stop⟩
  · exact hrefl hw _

theorem stepwise_remembers (hrefl : ∀ hw s, K hw s s)
    (htrans : ∀ hw s s' s'', K hw s s' → K hw s' s'' → K hw s s'') : Stepwise (Remembers K) where
  pure _ hw _ := hrefl hw _
  fault _ hw _ := hrefl hw _
  hardware hw _ := hrefl hw _
  view hw _ := hrefl hw _
  size hw _ := hrefl hw _
  rewrite _ hw _ := hrefl hw _
  bind := .bind htrans
  focus := .focus hrefl

theorem stepwise_remembers_eq : Stepwise (Remembers fun _ => Eq) :=
  stepwise_remembers (fun _ _ => rfl) fun _ _ _ _ => .trans

theorem stepwise_remembers_leads : Stepwise (Remembers Selection.Leads) :=
  stepwise_remembers (fun _ _ => .inl rfl) fun _ _ _ _ => .trans

end Edit

namespace Session

open Edit

/-! ## One call -/

variable {s : Session}

theorem selection_edit {α : Type} {K : Hardware → Selection → Selection → Prop}
    (hrefl : ∀ hw s, K hw s s) {act : Edit α} (hact : Remembers K act) (s : Session) (hw : Hardware)
    (p : Place) : K hw s.selection (s.edit hw p act).2.selection := by
  rw [edit]
  cases s.buffers[p.buffer]? with
  | none => exact hrefl hw _
  | some b =>
      obtain ⟨buffer, _ | ⟨start, stop⟩⟩ := p
      · exact hact hw ⟨s.selection, b⟩
      · exact (hact.focus hrefl start stop) hw ⟨s.selection, b⟩

/-- A call leaves what the process remembers, or settles the tier on its own hardware. -/
theorem leads_call (s : Session) (hw : Hardware) (c : Call) :
    s.selection.Leads hw (s.call hw c).2.selection := by
  have hrefl : ∀ hw s, Selection.Leads hw s s := fun _ _ => .inl rfl
  have htier : Remembers Selection.Leads tier := fun _ _ => .inr rfl
  have hrefuse : ∀ ⦃α : Type⦄ (e : Failure), Remembers Selection.Leads (fail e : Edit α) :=
    fun _ _ hw _ => hrefl hw _
  cases c with
  | change c target =>
      exact selection_edit hrefl (stepwise_remembers_leads.change htier hrefuse c) s hw target
  | copy c source target =>
      rw [call]
      cases s.read source with
      | error f => exact hrefl hw _
      | ok b =>
          exact selection_edit hrefl (stepwise_remembers_leads.copy htier hrefuse c b) s hw target
  | offered => exact hrefl hw _
  | chosen => exact .inr rfl

/-- A tier that is settled stays the one that is settled. -/
theorem selection_call_of_settled (hs : s.selection.Settled) (hw : Hardware) (c : Call) :
    (s.call hw c).2.selection = s.selection :=
  (leads_call s hw c).eq_of_settled hs

/-- A call that names its tier does not ask for the tier of the process. -/
theorem selection_call_named (s : Session) (hw : Hardware) (t : Tier) (source target : Place) :
    (s.call hw (.change (.swap (some t)) target)).2.selection = s.selection ∧
      (s.call hw (.copy (.swap (some t)) source target)).2.selection = s.selection := by
  have h := stepwise_remembers_eq
  constructor
  · exact (selection_edit (fun _ _ => rfl) (h.bind (h.tierSwap t) fun _ => h.pure Reply.done) s hw
      target).symm
  · rw [call]
    cases s.read source with
    | error f => rfl
    | ok b =>
        exact (selection_edit (fun _ _ => rfl)
          (h.bind (h.tierSwapFrom t b) fun _ => h.pure Reply.done) s hw target).symm

/-! ## Runs -/

theorem selection_after_of_settled (hs : s.selection.Settled) (calls : List (Hardware × Call)) :
    (after calls s).selection = s.selection := by
  induction calls generalizing s with
  | nil => rfl
  | cons step rest ih =>
      obtain ⟨hw, c⟩ := step
      have hcall := selection_call_of_settled hs hw c
      rw [after_cons, ih (hcall ▸ hs), hcall]

/-- Some call of a run, or none, is the one that settles the tier: before it nothing is settled, and
after it always the widest tier of its hardware. -/
theorem exists_settling_call (hs : s.selection = .start) (calls : List (Hardware × Call)) :
    ∃ k, (∀ n ≤ k, (after (calls.take n) s).selection = .start) ∧
      ∀ step, calls[k]? = some step → ∀ n, k < n →
        (after (calls.take n) s).selection = .settledOn (TierSet.ofHardware step.1).widest := by
  induction calls generalizing s with
  | nil => exact ⟨0, fun n _ => by rw [List.take_nil]; exact hs, fun step h => by cases h⟩
  | cons first rest ih =>
      obtain ⟨hw, c⟩ := first
      rcases leads_call s hw c with hsame | hnow
      · obtain ⟨k, hbefore, hafter⟩ := ih (hsame.trans hs)
        refine ⟨k + 1, ?_, ?_⟩
        · intro n hn
          cases n with
          | zero => exact hs
          | succ n => exact hbefore n (Nat.le_of_succ_le_succ hn)
        · intro step hstep n hn
          cases n with
          | zero => exact absurd hn (Nat.not_lt_zero _)
          | succ n => exact hafter step hstep n (Nat.lt_of_succ_lt_succ hn)
      · have hsettled : (s.call hw c).2.selection =
            .settledOn (TierSet.ofHardware hw).widest := by
          rw [hnow, hs]
          rfl
        refine ⟨0, ?_, ?_⟩
        · intro n hn
          rw [Nat.le_zero.mp hn]
          exact hs
        · intro step hstep n hn
          obtain rfl : (hw, c) = step := Option.some.inj hstep
          cases n with
          | zero => exact absurd hn (Nat.lt_irrefl 0)
          | succ n =>
              have hstay : (s.call hw c).2.selection.Settled := by
                rw [hsettled]
                exact Selection.settled_settledOn _
              rw [List.take_succ_cons, after_cons, selection_after_of_settled hstay, hsettled]

theorem selection_after_start (buffers : List Bytes) (calls : List (Hardware × Call)) :
    (after calls (start buffers)).selection = .start ∨
      ∃ t, (after calls (start buffers)).selection = .settledOn t := by
  obtain ⟨k, hbefore, hafter⟩ := exists_settling_call (s := start buffers) rfl calls
  rw [← List.take_length (l := calls)]
  rcases Nat.lt_or_ge k calls.length with hk | hk
  · exact .inr ⟨_, hafter _ (List.getElem?_eq_getElem hk) _ hk⟩
  · exact .inl (hbefore _ hk)

/-- The process of any reachable session settles on a tier or has settled on it, and says so. -/
theorem call_chosen_after_start (buffers : List Bytes) (calls : List (Hardware × Call))
    (hw : Hardware) :
    ∃ t, ((after calls (start buffers)).call hw .chosen).1 = .ok (.chosen t) ∧
      ((after calls (start buffers)).call hw .chosen).2.selection = .settledOn t := by
  have hchoice : ∃ t, (after calls (start buffers)).selection.choose hw =
      (t, .settledOn t) := by
    rcases selection_after_start buffers calls with hstart | ⟨t, ht⟩
    · exact ⟨_, hstart ▸ Selection.choose_start hw⟩
    · exact ⟨t, ht ▸ Selection.choose_settledOn hw t⟩
  obtain ⟨t, ht⟩ := hchoice
  refine ⟨t, ?_, ?_⟩ <;> rw [call, ht]

/-- A process that starts with nothing settled settles its tier at most once, on the widest tier
that the hardware of that call runs, and keeps it whatever the hardware of later calls runs. In
every session on the way the code and the log tell the same story, the process answers with the tier
that it keeps, and neither asking what the hardware offers nor naming a tier changes anything. -/
theorem selection_over_run (buffers : List Bytes) (calls : List (Hardware × Call)) :
    (∃ k, (∀ n ≤ k, (after (calls.take n) (start buffers)).selection = .start) ∧
      ∀ step, calls[k]? = some step → ∃ t, step.1.Widest t ∧
        ∀ n, k < n → (after (calls.take n) (start buffers)).selection = .settledOn t) ∧
    (after calls (start buffers)).selection.Recorded ∧
    ∀ hw,
      (∃ t, ((after calls (start buffers)).call hw .chosen).1 = .ok (.chosen t) ∧
        ((after calls (start buffers)).call hw .chosen).2.selection.cell = t.code) ∧
      ((after calls (start buffers)).call hw .offered).2.selection =
        (after calls (start buffers)).selection ∧
      ∀ t source target,
        ((after calls (start buffers)).call hw (.change (.swap (some t)) target)).2.selection =
            (after calls (start buffers)).selection ∧
          ((after calls (start buffers)).call hw
              (.copy (.swap (some t)) source target)).2.selection =
            (after calls (start buffers)).selection := by
  refine ⟨?_, ?_, fun hw => ⟨?_, rfl, selection_call_named _ hw⟩⟩
  · obtain ⟨k, hbefore, hafter⟩ := exists_settling_call (s := start buffers) rfl calls
    exact ⟨k, hbefore, fun step hstep => ⟨_, step.1.widest_ofHardware, hafter step hstep⟩⟩
  · rcases selection_after_start buffers calls with hstart | ⟨t, ht⟩
    · exact hstart ▸ Selection.recorded_start
    · exact ht ▸ Selection.recorded_settledOn t
  · obtain ⟨t, hanswer, hkept⟩ := call_chosen_after_start buffers calls hw
    exact ⟨t, hanswer, congrArg Selection.cell hkept⟩

/-- Three bytes are no group and settle nothing, so the tier is that of the second call. -/
example :
    (after [(.full, .change (.swap none) ⟨0, some (0, 3)⟩),
        (⟨true, false⟩, .change (.swap none) ⟨0, none⟩), (.full, .chosen)]
      (start [[1, 2, 3, 4]])).selection = .settledOn .vector16 := by
  decide +kernel

end Session

end RedBlue
