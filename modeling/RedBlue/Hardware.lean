import RedBlue.Tier.Basic

/-! # Hardware

What a machine can run, and what may be forced off for a call. -/

namespace RedBlue

/-- The two instruction-set levels that decide which tiers run. They are independent here: no
law of the library needs the higher level to include the lower one. -/
structure Hardware where
  /-- Shuffles of sixteen-byte registers. -/
  level2 : Bool
  /-- Shuffles of thirty-two-byte registers. -/
  level3 : Bool
deriving DecidableEq

namespace Hardware

/-- Whether a tier runs. The scalar tier always does. -/
def runs (hw : Hardware) : Tier → Bool
  | .scalar4 => true
  | .vector16 => hw.level2
  | .vector128 | .vector256 => hw.level3

def full : Hardware := ⟨true, true⟩

def all : List Hardware := [⟨true, true⟩, ⟨true, false⟩, ⟨false, true⟩, ⟨false, false⟩]

theorem mem_all (hw : Hardware) : hw ∈ all := by
  obtain ⟨_ | _, _ | _⟩ := hw <;> decide

end Hardware

/-- What is forced off for a call. -/
inductive Restriction where
  | none
  | level3
  | all
deriving DecidableEq

def Restriction.apply : Restriction → Hardware → Hardware
  | none, hw => hw
  | level3, hw => { hw with level3 := false }
  | all, _ => ⟨false, false⟩

/-- A tier runs under a restriction if the restriction leaves it and the machine has it. -/
theorem Restriction.runs_apply (off : Restriction) (hw : Hardware) (t : Tier) :
    (off.apply hw).runs t = ((off.apply .full).runs t && hw.runs t) := by
  cases off <;> cases t <;> simp [apply, Hardware.runs, Hardware.full]

end RedBlue
