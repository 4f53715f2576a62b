import RedBlue.Selection

/-! # What holds on every machine

Which tiers there are depends on the machine. A survey asks the same questions on every machine
and keeps the answers that all of them give. -/

namespace RedBlue

/-- The value that all members of a list have. -/
def agreed {α : Type} [DecidableEq α] : List α → Option α
  | [] => none
  | a :: rest => if rest.all (· = a) then some a else none

/-- A list agrees on a value if there is something in it, and that is the value every time. -/
theorem agreed_eq_some_iff {α : Type} [DecidableEq α] {l : List α} {a : α} :
    agreed l = some a ↔ l ≠ [] ∧ ∀ b ∈ l, b = a := by
  cases l with
  | nil => simp [agreed]
  | cons c rest =>
    rw [agreed, List.forall_mem_cons]
    constructor
    · intro h
      split at h
      · rename_i hall
        cases h
        exact ⟨List.cons_ne_nil a rest, rfl, by simpa using hall⟩
      · cases h
    · rintro ⟨-, rfl, hall⟩
      exact if_pos (by simpa using hall)

/-- All machines agree on a value if each of them has it. -/
theorem agreed_map_all_iff {α : Type} [DecidableEq α] {f : Hardware → α} {a : α} :
    agreed (Hardware.all.map f) = some a ↔ ∀ host, f host = a := by
  rw [agreed_eq_some_iff, List.forall_mem_map]
  constructor
  · rintro ⟨-, h⟩ host
    exact h host host.mem_all
  · intro h
    exact ⟨List.cons_ne_nil _ _, fun host _ => h host⟩

structure Sighting where
  offered : TierSet
  again : TierSet
  /-- The tier settled at the start of the process. -/
  before : Tier
  /-- The tier of the process under the restriction. -/
  after : Tier
  log : List Record
deriving DecidableEq

/-- Starts a process on a machine, settles its tier, and then looks at it under a restriction. -/
def Sighting.take (off : Restriction) (host : Hardware) : Sighting :=
  let (before, settled) := Selection.start.choose host
  let hw := off.apply host
  let (after, final) := settled.choose hw
  { offered := TierSet.ofHardware hw
    again := TierSet.ofHardware hw
    before := before
    after := after
    log := final.log }

/-- What can be said of a restriction without knowing the machine. -/
structure Survey where
  offered : Tier → Option Bool
  widest : Option Tier
  /-- Whether that is the tier of the process. -/
  widestIsChosen : Option Bool
  repeats : Option Bool
  /-- Whether the tier of the process is still the one from its start. -/
  unchanged : Option Bool
  /-- Level, target and open message of each record. -/
  log : Option (List (String × String × String))

def Survey.take (off : Restriction) : Survey :=
  let seen := Hardware.all.map (Sighting.take off)
  { offered := fun t => agreed (seen.map fun s => s.offered.contains t)
    widest := agreed (seen.map fun s => s.offered.widest)
    widestIsChosen := agreed (seen.map fun s => decide (s.offered.widest = s.after))
    repeats := agreed (seen.map fun s => decide (s.offered = s.again))
    unchanged := agreed (seen.map fun s => decide (s.before = s.after))
    log := agreed (seen.map fun s => s.log.map fun r => (r.level, r.target, r.openMessage)) }

end RedBlue
