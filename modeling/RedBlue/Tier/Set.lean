import RedBlue.Hardware

/-! # Sets of tiers

Which tiers a machine offers. The scalar tier is in every set, so a set always has a widest
member. -/

namespace RedBlue

/-- A set of tiers with the scalar tier in it. -/
structure TierSet where
  vector256 : Bool
  vector128 : Bool
  vector16 : Bool
deriving DecidableEq

namespace TierSet

def scalar : TierSet := ⟨false, false, false⟩

def all : TierSet := ⟨true, true, true⟩

def ofHardware (hw : Hardware) : TierSet :=
  ⟨hw.runs .vector256, hw.runs .vector128, hw.runs .vector16⟩

def contains (s : TierSet) : Tier → Bool
  | .scalar4 => true
  | .vector16 => s.vector16
  | .vector128 => s.vector128
  | .vector256 => s.vector256

/-- The set without a tier. The scalar tier cannot be taken out. -/
def erase (s : TierSet) : Tier → TierSet
  | .scalar4 => s
  | .vector16 => { s with vector16 := false }
  | .vector128 => { s with vector128 := false }
  | .vector256 => { s with vector256 := false }

def widest (s : TierSet) : Tier := (Tier.widestFirst.find? s.contains).getD .scalar4

def describe (s : TierSet) : String :=
  "Capabilities \x7b vector256: " ++ toString s.vector256 ++ ", vector128: " ++
    toString s.vector128 ++ ", vector16: " ++ toString s.vector16 ++ " \x7d"

@[simp] theorem contains_ofHardware (hw : Hardware) (t : Tier) :
    (ofHardware hw).contains t = hw.runs t := by cases t <;> rfl

theorem contains_erase (s : TierSet) (t u : Tier) :
    (s.erase t).contains u = (s.contains u && (u == t && u != .scalar4).not) := by
  cases t <;> cases u <;> simp [contains, erase]

/-- The widest tier is in the set and no wider one is. -/
theorem contains_widest (s : TierSet) :
    s.contains s.widest = true ∧ ∀ t, s.contains t = true → t ≤ s.widest := by
  obtain ⟨a, b, c⟩ := s
  refine ⟨?_, fun t => ?_⟩
  · cases a <;> cases b <;> cases c <;> rfl
  · cases a <;> cases b <;> cases c <;> cases t <;> decide

end TierSet

end RedBlue
