/-! # Consecutive spans

Things that each take a span of a buffer may follow one another without a gap and without an
overlap. Then every offset is in the span of just one of them. -/

namespace RedBlue

/-- The offsets from `start` up to `stop`. -/
structure Span where
  start : Nat
  stop : Nat

namespace Span

def Holds (p : Span) (k : Nat) : Prop := p.start ≤ k ∧ k < p.stop

def Apart (p q : Span) : Prop := p.stop ≤ q.start ∨ q.stop ≤ p.start

theorem Apart.symm {p q : Span} (h : Apart p q) : Apart q p := Or.symm h

theorem Apart.not_holds {p q : Span} (h : Apart p q) {k : Nat} (hp : p.Holds k) : ¬q.Holds k := by
  rintro ⟨hstart, hstop⟩
  rcases h with h | h
  · exact Nat.lt_irrefl k (Nat.lt_of_lt_of_le hp.2 (Nat.le_trans h hstart))
  · exact Nat.lt_irrefl k (Nat.lt_of_lt_of_le hstop (Nat.le_trans h hp.1))

variable {α : Type}

/-- The first span begins at an offset, each of the others begins where the one before it ends, and
the last one ends at another offset. -/
def Consecutive (span : α → Span) : Nat → Nat → List α → Prop
  | start, stop, [] => start = stop
  | start, stop, x :: rest =>
    (span x).start = start ∧ (span x).start ≤ (span x).stop ∧
      Consecutive span (span x).stop stop rest

namespace Consecutive

variable {span : α → Span} {start stop : Nat} {xs : List α} {x : α}

theorem le (h : Consecutive span start stop xs) : start ≤ stop := by
  induction xs generalizing start with
  | nil => exact Nat.le_of_eq h
  | cons x rest ih =>
      obtain ⟨rfl, hle, hrest⟩ := h
      exact Nat.le_trans hle (ih hrest)

theorem bounds (h : Consecutive span start stop xs) (hx : x ∈ xs) :
    start ≤ (span x).start ∧ (span x).start ≤ (span x).stop ∧ (span x).stop ≤ stop := by
  induction xs generalizing start with
  | nil => cases hx
  | cons y rest ih =>
      obtain ⟨rfl, hle, hrest⟩ := h
      rcases List.mem_cons.mp hx with rfl | hx
      · exact ⟨Nat.le_refl _, hle, hrest.le⟩
      · obtain ⟨hstart, hbounds⟩ := ih hrest hx
        exact ⟨Nat.le_trans hle hstart, hbounds⟩

theorem pairwise_apart (h : Consecutive span start stop xs) :
    xs.Pairwise fun x y => (span x).Apart (span y) := by
  induction xs generalizing start with
  | nil => exact .nil
  | cons x rest ih =>
      obtain ⟨-, -, hrest⟩ := h
      exact .cons (fun y hy => .inl (hrest.bounds hy).1) (ih hrest)

theorem exists_holds (h : Consecutive span start stop xs) {k : Nat} (hstart : start ≤ k)
    (hstop : k < stop) : ∃ x ∈ xs, (span x).Holds k := by
  induction xs generalizing start with
  | nil =>
      obtain rfl : start = stop := h
      omega
  | cons x rest ih =>
      obtain ⟨rfl, -, hrest⟩ := h
      by_cases hk : k < (span x).stop
      · exact ⟨x, List.mem_cons_self, hstart, hk⟩
      · obtain ⟨y, hy, hholds⟩ := ih hrest (Nat.not_lt.mp hk)
        exact ⟨y, List.mem_cons_of_mem x hy, hholds⟩

/-- A span ends where another one begins, or with the last one. -/
theorem stop_eq (h : Consecutive span start stop xs) (hx : x ∈ xs) :
    (span x).stop = stop ∨ ∃ y ∈ xs, (span y).start = (span x).stop := by
  induction xs generalizing start with
  | nil => cases hx
  | cons y rest ih =>
      obtain ⟨-, -, hrest⟩ := h
      rcases List.mem_cons.mp hx with rfl | hx
      · cases rest with
        | nil => exact .inl hrest
        | cons y rest => exact .inr ⟨y, List.mem_cons_of_mem x List.mem_cons_self, hrest.1⟩
      · rcases ih hrest hx with hend | ⟨y', hy', hnext⟩
        · exact .inl hend
        · exact .inr ⟨y', List.mem_cons_of_mem y hy', hnext⟩

/-- Two of the things whose spans hold the same offset are one. -/
theorem eq_of_holds (h : Consecutive span start stop xs) {y : α} (hx : x ∈ xs) (hy : y ∈ xs)
    {k : Nat} (hxk : (span x).Holds k) (hyk : (span y).Holds k) : x = y := by
  induction xs generalizing start with
  | nil => cases hx
  | cons z rest ih =>
      obtain ⟨-, -, hrest⟩ := h
      -- What the first span holds lies before all the others.
      have hbehind : ∀ w ∈ rest, (span z).Holds k → ¬(span w).Holds k := fun w hw =>
        Apart.not_holds (.inl (hrest.bounds hw).1)
      cases hx with
      | head =>
          cases hy with
          | head => rfl
          | tail _ hy => exact absurd hyk (hbehind y hy hxk)
      | tail _ hx =>
          cases hy with
          | head => exact absurd hxk (hbehind x hx hyk)
          | tail _ hy => exact ih hrest hx hy

end Consecutive

end Span

end RedBlue
