import RedBlue.Bytes.Basic

/-! # Whole chunks

A list of bytes is worked on in chunks of a fixed size from its start; what is left after the
last whole chunk is never touched. -/

namespace RedBlue.Bytes

/-- Applies `f` to each of the first `count` chunks of `n` bytes. -/
def mapFirst (n : Nat) (f : Bytes → Bytes) : Nat → Bytes → Bytes
  | 0, b => b
  | count + 1, b => f (b.take n) ++ mapFirst n f count (b.drop n)

/-- Applies `f` to every whole chunk of `n` bytes. -/
def mapChunks (n : Nat) (f : Bytes → Bytes) (b : Bytes) : Bytes :=
  mapFirst n f (b.length / n) b

/-- Writes `f` of each of the first `count` chunks of `source` over the chunk of `target` at the
same place. -/
def copyFirst (n : Nat) (f : Bytes → Bytes) : Nat → Bytes → Bytes → Bytes
  | 0, _, target => target
  | count + 1, source, target =>
    f (source.take n) ++ copyFirst n f count (source.drop n) (target.drop n)

/-- The number of whole chunks that both lists have. -/
def commonChunks (n : Nat) (source target : Bytes) : Nat :=
  min (source.length / n) (target.length / n)

/-- Writes `f` of every whole chunk of `source` over the chunk of `target` at the same place, as
long as both lists have one. -/
def copyChunks (n : Nat) (f : Bytes → Bytes) (source target : Bytes) : Bytes :=
  copyFirst n f (commonChunks n source target) source target

@[simp] theorem mapFirst_zero (n : Nat) (f : Bytes → Bytes) (b : Bytes) : mapFirst n f 0 b = b :=
  rfl

theorem mapFirst_succ (n : Nat) (f : Bytes → Bytes) (count : Nat) (b : Bytes) :
    mapFirst n f (count + 1) b = f (b.take n) ++ mapFirst n f count (b.drop n) := rfl

@[simp] theorem copyFirst_zero (n : Nat) (f : Bytes → Bytes) (source target : Bytes) :
    copyFirst n f 0 source target = target := rfl

theorem copyFirst_succ (n : Nat) (f : Bytes → Bytes) (count : Nat) (source target : Bytes) :
    copyFirst n f (count + 1) source target =
      f (source.take n) ++ copyFirst n f count (source.drop n) (target.drop n) := rfl

/-- Copying a list over itself is mapping it. -/
theorem copyChunks_self (n : Nat) (f : Bytes → Bytes) (b : Bytes) :
    copyChunks n f b b = mapChunks n f b := by
  have h : ∀ (count : Nat) (b : Bytes), copyFirst n f count b b = mapFirst n f count b := by
    intro count
    induction count with
    | zero => intro b; rfl
    | succ count ih => intro b; rw [copyFirst_succ, mapFirst_succ, ih]
  rw [copyChunks, commonChunks, Nat.min_self, h, mapChunks]

end RedBlue.Bytes
