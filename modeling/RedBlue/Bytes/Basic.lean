/-! # Byte lists

`exchange` states, without blocks, tiers or registers, what every operation of the library
does to the groups it covers: the first and the third byte of each complete group of four
change places. -/

namespace RedBlue

/-- The contents of a buffer, lowest address first. -/
abbrev Bytes := List UInt8

namespace Bytes

/-! ## Exchanging two channels -/

/-- Exchanges the first and the third byte of every complete group of four. The at most three
bytes after the last complete group stay. -/
def exchange : Bytes → Bytes
  | b₀ :: b₁ :: b₂ :: b₃ :: rest => b₂ :: b₁ :: b₀ :: b₃ :: exchange rest
  | rest => rest

@[simp] theorem exchange_group (b₀ b₁ b₂ b₃ : UInt8) (rest : Bytes) :
    exchange (b₀ :: b₁ :: b₂ :: b₃ :: rest) = b₂ :: b₁ :: b₀ :: b₃ :: exchange rest := by
  simp only [exchange]

theorem exchange_of_length_lt {b : Bytes} (h : b.length < 4) : exchange b = b := by
  match b with
  | [] | [_] | [_, _] | [_, _, _] => simp only [exchange]
  | _ :: _ :: _ :: _ :: rest => simp only [List.length_cons] at h; omega

/-- A list that does not begin with a group is shorter than one. -/
theorem length_lt_of_no_group {b : Bytes}
    (h : ∀ (b₀ b₁ b₂ b₃ : UInt8) (rest : Bytes), b = b₀ :: b₁ :: b₂ :: b₃ :: rest → False) :
    b.length < 4 := by
  rcases b with _ | ⟨b₀, _ | ⟨b₁, _ | ⟨b₂, _ | ⟨b₃, rest⟩⟩⟩⟩
  · exact Nat.zero_lt_succ 3
  · exact Nat.succ_lt_succ (Nat.zero_lt_succ 2)
  · exact Nat.lt_add_of_pos_right (Nat.zero_lt_succ 1)
  · exact Nat.lt_succ_self 3
  · exact (h b₀ b₁ b₂ b₃ rest rfl).elim

@[simp] theorem length_exchange (b : Bytes) : (exchange b).length = b.length := by
  fun_induction exchange b with
  | case1 b₀ b₁ b₂ b₃ rest ih => simp only [List.length_cons, ih]
  | case2 => rfl

/-- Exchanging twice restores the bytes. -/
@[simp] theorem exchange_exchange (b : Bytes) : exchange (exchange b) = b := by
  fun_induction exchange b with
  | case1 b₀ b₁ b₂ b₃ rest ih => simp only [exchange_group, ih]
  | case2 b h =>
    match b with
    | [] | [_] | [_, _] | [_, _, _] => simp only [exchange]
    | b₀ :: b₁ :: b₂ :: b₃ :: rest => exact (h b₀ b₁ b₂ b₃ rest rfl).elim

/-- A statement about lists that are shorter than a group, and that a group in front keeps, is one
about all lists. -/
theorem group_induction {motive : Bytes → Prop} (short : ∀ b : Bytes, b.length < 4 → motive b)
    (group : ∀ (b₀ b₁ b₂ b₃ : UInt8) (rest : Bytes), motive rest →
      motive (b₀ :: b₁ :: b₂ :: b₃ :: rest)) (b : Bytes) : motive b := by
  fun_induction exchange b with
  | case1 b₀ b₁ b₂ b₃ rest ih => exact group b₀ b₁ b₂ b₃ rest ih
  | case2 b hno => exact short b (length_lt_of_no_group hno)

/-! ## Ranges -/

def range (b : Bytes) (start stop : Nat) : Bytes := (b.drop start).take (stop - start)

/-- `b` with the bytes from `start` up to `stop` replaced by `new`. -/
def splice (b : Bytes) (start stop : Nat) (new : Bytes) : Bytes :=
  b.take start ++ new ++ b.drop stop

theorem length_range {b : Bytes} {start stop : Nat} (h : stop ≤ b.length) :
    (b.range start stop).length = stop - start := by
  rw [range, List.length_take, List.length_drop]; omega

theorem length_splice {b new : Bytes} {start stop : Nat} (h : start ≤ stop)
    (hs : stop ≤ b.length) (hn : new.length = stop - start) :
    (b.splice start stop new).length = b.length := by
  simp only [splice, List.length_append, List.length_take, List.length_drop, hn]; omega

/-- Putting back what was there changes nothing. -/
@[simp] theorem splice_range (b : Bytes) {start stop : Nat} (h : start ≤ stop) :
    b.splice start stop (b.range start stop) = b := by
  obtain ⟨n, rfl⟩ := Nat.exists_eq_add_of_le h
  rw [splice, range, Nat.add_sub_cancel_left, List.append_assoc, ← List.drop_drop,
    List.take_append_drop, List.take_append_drop]

end Bytes

end RedBlue
