/-! # Tiers

A tier is one way to do the exchange, named for the bytes that it takes in one step. Tiers are
ordered by that width. What a tier leaves over, because it is no whole step, goes to the next
narrower tier; `chain` lists the tiers that a buffer passes through. -/

namespace RedBlue

/-- The ways to exchange channels, narrowest first. -/
inductive Tier where
  /-- One group of four bytes in a step. -/
  | scalar4
  /-- One register of sixteen bytes in a step. -/
  | vector16
  /-- Four registers of thirty-two bytes in a step. -/
  | vector128
  /-- Eight registers of thirty-two bytes in a step. -/
  | vector256
deriving DecidableEq

namespace Tier

/-! ## Names and numbers -/

/-- The name that records and users see. -/
def name : Tier → String
  | scalar4 => "scalar4"
  | vector16 => "vector16"
  | vector128 => "vector128"
  | vector256 => "vector256"

def title : Tier → String
  | scalar4 => "Scalar4"
  | vector16 => "Vector16"
  | vector128 => "Vector128"
  | vector256 => "Vector256"

def number : Tier → Nat
  | scalar4 => 0
  | vector16 => 1
  | vector128 => 2
  | vector256 => 3

def code (t : Tier) : UInt8 := UInt8.ofNat t.number

def ofCode? (c : UInt8) : Option Tier :=
  if c = 0 then some scalar4
  else if c = 1 then some vector16
  else if c = 2 then some vector128
  else if c = 3 then some vector256
  else none

@[simp] theorem ofCode?_code (t : Tier) : ofCode? t.code = some t := by cases t <;> rfl

/-! ## Order -/

instance : Ord Tier := ⟨fun s t => compare s.number t.number⟩

instance : LT Tier := ⟨fun s t => s.number < t.number⟩

instance : LE Tier := ⟨fun s t => s.number ≤ t.number⟩

instance (s t : Tier) : Decidable (s < t) := inferInstanceAs (Decidable (s.number < t.number))

instance (s t : Tier) : Decidable (s ≤ t) := inferInstanceAs (Decidable (s.number ≤ t.number))

instance : Max Tier := ⟨fun s t => if s ≤ t then t else s⟩

instance : Min Tier := ⟨fun s t => if s ≤ t then s else t⟩

def widestFirst : List Tier := [vector256, vector128, vector16, scalar4]

/-- The given tiers, narrowest first, each as often as it is given. -/
def sort (ts : List Tier) : List Tier := ts.mergeSort fun s t => decide (s ≤ t)

/-- The given tiers, widest first, each once. -/
def ranked (ts : List Tier) : List Tier := widestFirst.filter (· ∈ ts)

/-! ## Blocks and the chain -/

def block : Tier → Nat
  | scalar4 => 4
  | vector16 => 16
  | vector128 => 128
  | vector256 => 256

def below? : Tier → Option Tier
  | scalar4 => none
  | vector16 => some scalar4
  | vector128 => some vector16
  | vector256 => some vector128

/-- The tier and at most `steps` tiers below it. -/
def descend : Nat → Tier → List Tier
  | 0, t => [t]
  | steps + 1, t =>
    match t.below? with
    | none => [t]
    | some s => t :: descend steps s

/-- The tier and all tiers below it, widest first. -/
def chain (t : Tier) : List Tier := descend t.number t

/-- Each block holds a whole number of the blocks of every tier further down its chain. -/
theorem pairwise_block_dvd_chain (t : Tier) :
    t.chain.Pairwise fun wide narrow => narrow.block ∣ wide.block := by
  cases t <;> decide

theorem four_dvd_block (t : Tier) : 4 ∣ t.block := by cases t <;> decide

end Tier

end RedBlue
