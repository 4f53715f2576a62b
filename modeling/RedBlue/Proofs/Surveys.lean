import RedBlue.Proofs.Settling
import RedBlue.Session.Survey

/-! # What a survey says

A survey gives an answer exactly if every machine gives it. So it says of a tier that it is missing
as soon as the restriction rules it out, and it never says of a tier above the scalar one that it is
there. That a process keeps the tier it has settled on, and logs it once, all machines show. -/

namespace RedBlue

/-! ## One machine -/

/-- The restriction shows in what the machine offers. The tier of the process and the log are those
from its start. -/
theorem Sighting.take_eq (off : Restriction) (host : Hardware) :
    take off host =
      { offered := TierSet.ofHardware (off.apply host)
        again := TierSet.ofHardware (off.apply host)
        before := (TierSet.ofHardware host).widest
        after := (TierSet.ofHardware host).widest
        log := [⟨(TierSet.ofHardware host).widest⟩] } := by
  have hfirst : Selection.start.choose host =
      ((TierSet.ofHardware host).widest, .settledOn (TierSet.ofHardware host).widest) :=
    Selection.choose_start host
  rw [take, hfirst]
  dsimp only
  rw [Selection.choose_settledOn]
  rfl

/-! ## All machines -/

namespace Survey

variable {off : Restriction}

/-- An answer of the survey is the answer of every machine under the restriction, and each answer
that all of them give is one of the survey. -/
structure Certain (v : Survey) (off : Restriction) : Prop where
  offered : ∀ t b, v.offered t = some b ↔
    ∀ host, (Sighting.take off host).offered.contains t = b
  widest : ∀ t, v.widest = some t ↔ ∀ host, (Sighting.take off host).offered.widest = t
  widestIsChosen : ∀ b, v.widestIsChosen = some b ↔
    ∀ host, decide ((Sighting.take off host).offered.widest = (Sighting.take off host).after) = b
  repeats : ∀ b, v.repeats = some b ↔
    ∀ host, decide ((Sighting.take off host).offered = (Sighting.take off host).again) = b
  unchanged : ∀ b, v.unchanged = some b ↔
    ∀ host, decide ((Sighting.take off host).before = (Sighting.take off host).after) = b
  log : ∀ l, v.log = some l ↔
    ∀ host, (Sighting.take off host).log.map (fun r => (r.level, r.target, r.openMessage)) = l

theorem certain_take (off : Restriction) : (take off).Certain off := by
  constructor <;> intros <;> simp only [take, List.map_map, agreed_map_all_iff, Function.comp_apply]

/-- That the scalar tier is there is certain, and that a tier is missing if the restriction rules it
out. Whether any other tier is there depends on the machine. -/
theorem offered_take_iff (t : Tier) (b : Bool) :
    (take off).offered t = some b ↔
      t = .scalar4 ∧ b = true ∨ (off.apply .full).runs t = false ∧ b = false := by
  have hanswer : ∀ host, (Sighting.take off host).offered.contains t =
      ((off.apply .full).runs t && host.runs t) := by
    intro host
    rw [Sighting.take_eq, TierSet.contains_ofHardware, off.runs_apply]
  simp only [(certain_take off).offered, hanswer]
  constructor
  · intro h
    by_cases ht : t = .scalar4
    · subst ht
      exact .inl ⟨rfl, (h .full).symm⟩
    · have hbare : Hardware.runs ⟨false, false⟩ t = false := by cases t <;> trivial
      have hfull : Hardware.full.runs t = true := by cases t <;> rfl
      have hb : b = false := by rw [← h ⟨false, false⟩, hbare, Bool.and_false]
      have hoff := h .full
      rw [hfull, Bool.and_true, hb] at hoff
      exact .inr ⟨hoff, hb⟩
  · rintro (⟨rfl, rfl⟩ | ⟨hoff, rfl⟩) host
    · rfl
    · rw [hoff, Bool.false_and]

/-- The widest tier is certain only if nothing wider than the scalar tier is left. -/
theorem widest_take_iff (t : Tier) :
    (take off).widest = some t ↔ off = .all ∧ t = .scalar4 := by
  rw [(certain_take off).widest]
  simp only [Sighting.take_eq]
  constructor
  · intro h
    have hsame := (h .full).trans (h ⟨false, false⟩).symm
    cases off with
    | none => exact absurd hsame (by decide)
    | level3 => exact absurd hsame (by decide)
    | all => exact ⟨rfl, (h .full).symm⟩
  · rintro ⟨rfl, rfl⟩ host
    rfl

/-- The tier of the process is certain to be the widest one only if nothing is forced off. That it
is not the widest one is never certain. -/
theorem widestIsChosen_take_iff (b : Bool) :
    (take off).widestIsChosen = some b ↔ off = .none ∧ b = true := by
  rw [(certain_take off).widestIsChosen]
  simp only [Sighting.take_eq]
  constructor
  · intro h
    have hsame := (h .full).trans (h ⟨false, false⟩).symm
    cases off with
    | none => exact ⟨rfl, (h .full).symm⟩
    | level3 => exact absurd hsame (by decide)
    | all => exact absurd hsame (by decide)
  · rintro ⟨rfl, rfl⟩ host
    exact decide_eq_true rfl

/-- What is forced off for a call makes no difference to the process. It keeps the tier from its
start, and the one record of it. -/
theorem take_of_process (off : Restriction) :
    (take off).repeats = some true ∧ (take off).unchanged = some true ∧
      (take off).log = some [("DEBUG", "chanswap::dispatch", Record.text "<tier>" "<block>")] := by
  have h := certain_take off
  refine ⟨(h.repeats true).mpr fun host => decide_eq_true ?_,
    (h.unchanged true).mpr fun host => decide_eq_true ?_, (h.log _).mpr fun host => ?_⟩
  · rw [Sighting.take_eq]
  · rw [Sighting.take_eq]
  · rw [Sighting.take_eq]
    rfl

end Survey

end RedBlue
