import RedBlue.Edit.Basic

/-! # Ranges within ranges

Taking a range of a range, and writing one back, is the same as working on the outer list at
shifted offsets. So a focus within a focus is one focus. -/

namespace RedBlue

namespace Bytes

/-! ## Bytes by index -/

theorem getElem?_range (b : Bytes) (start stop i : Nat) :
    (b.range start stop)[i]? = if start + i < stop then b[start + i]? else none := by
  rw [range, List.getElem?_take, List.getElem?_drop]
  grind

theorem getElem?_splice {b new : Bytes} {start stop : Nat} (h : start ≤ stop)
    (hs : stop ≤ b.length) (hn : new.length = stop - start) (i : Nat) :
    (b.splice start stop new)[i]? =
      if start ≤ i ∧ i < stop then new[i - start]? else b[i]? := by
  simp only [splice, List.getElem?_append, List.length_append, List.length_take,
    List.getElem?_take, List.getElem?_drop]
  grind

theorem range_self (b : Bytes) (i : Nat) : b.range i i = [] := by
  rw [range, Nat.sub_self, List.take_zero]

theorem range_zero (b : Bytes) (stop : Nat) : b.range 0 stop = b.take stop := by
  rw [range, List.drop_zero, Nat.sub_zero]

theorem splice_zero (b new : Bytes) (stop : Nat) : b.splice 0 stop new = new ++ b.drop stop := by
  rw [splice, List.take_zero, List.nil_append]

theorem range_to_length (b : Bytes) (start : Nat) : b.range start b.length = b.drop start := by
  rw [range, ← List.length_drop, List.take_length]

theorem splice_to_length (b new : Bytes) (start : Nat) :
    b.splice start b.length new = b.take start ++ new := by
  rw [splice, List.drop_length, List.append_nil]

/-! ## A range of a range -/

theorem range_range (b : Bytes) {start stop i j : Nat} (h : start + j ≤ stop) :
    (b.range start stop).range i j = b.range (start + i) (start + j) := by
  apply List.ext_getElem?
  intro k
  simp only [getElem?_range]
  grind

theorem splice_range_splice {b new : Bytes} {start stop i j : Nat} (hij : i ≤ j)
    (h : start + j ≤ stop) (hs : stop ≤ b.length) (hn : new.length = j - i) :
    b.splice start stop ((b.range start stop).splice i j new) =
      b.splice (start + i) (start + j) new := by
  have hrange : (b.range start stop).length = stop - start := length_range hs
  have hinner : ((b.range start stop).splice i j new).length = stop - start := by
    rw [length_splice hij (by omega) hn, hrange]
  apply List.ext_getElem?
  intro k
  rw [getElem?_splice (by omega) hs hinner, getElem?_splice hij (by omega) hn, getElem?_range,
    getElem?_splice (by omega) (by omega) (by omega), Nat.sub_sub]
  grind

theorem range_splice {b new : Bytes} {start stop : Nat} (h : start ≤ stop)
    (hs : stop ≤ b.length) (hn : new.length = stop - start) :
    (b.splice start stop new).range start stop = new := by
  apply List.ext_getElem?
  intro k
  rw [getElem?_range, getElem?_splice h hs hn]
  grind

theorem splice_splice {b new new' : Bytes} {start stop : Nat} (h : start ≤ stop)
    (hs : stop ≤ b.length) (hn : new.length = stop - start) (hn' : new'.length = stop - start) :
    (b.splice start stop new).splice start stop new' = b.splice start stop new' := by
  have hlen := length_splice h hs hn
  apply List.ext_getElem?
  intro k
  rw [getElem?_splice h (hlen ▸ hs) hn', getElem?_splice h hs hn, getElem?_splice h hs hn']
  grind

end Bytes

namespace Edit

variable {α : Type}

/-- A focus within a focus is one focus, if the edit keeps the length of what it works on. -/
theorem exec_focus_focus {hw : Hardware} {start stop i j : Nat} {act : Edit α} {w : Workspace}
    (hij : i ≤ j) (h : start + j ≤ stop) (hs : stop ≤ w.view.length)
    (hlen : (exec hw act { w with view := w.view.range (start + i) (start + j) }).2.view.length =
      j - i) :
    exec hw (focus start stop (focus i j act)) w =
      exec hw (focus (start + i) (start + j) act) w := by
  have hinner : j ≤ (w.view.range start stop).length := by
    rw [Bytes.length_range hs]
    omega
  rw [exec_focus_of_le (by omega) hs, exec_focus_of_le hij hinner, Bytes.range_range _ h,
    exec_focus_of_le (by omega) (by omega)]
  simp only [Bytes.splice_range_splice hij h hs hlen]

/-- Two focuses that meet at `cut` work on the two parts of the view. -/
theorem exec_focus_beside {hw : Hardware} {first rest : Edit Unit} {w : Workspace} {cut : Nat}
    {s u : Selection} {a b : Bytes} (hcut : cut ≤ w.view.length)
    (hfirst : exec hw first ⟨w.selection, w.view.take cut⟩ = (.ok (), ⟨s, a⟩))
    (ha : a.length = cut)
    (hrest : exec hw rest ⟨s, w.view.drop cut⟩ = (.ok (), ⟨u, b⟩)) :
    exec hw (do
        focus 0 cut first
        focus cut w.view.length rest) w =
      (.ok (), ⟨u, a ++ b⟩) := by
  have hlen : (a ++ w.view.drop cut).length = w.view.length := by
    rw [List.length_append, List.length_drop, ha]
    omega
  have hrange : Bytes.range (a ++ w.view.drop cut) cut w.view.length = w.view.drop cut := by
    rw [← hlen, Bytes.range_to_length, ← ha, List.drop_left]
  have hsplice : Bytes.splice (a ++ w.view.drop cut) cut w.view.length b = a ++ b := by
    rw [← hlen, Bytes.splice_to_length, ← ha, List.take_left]
  rw [exec_bind, exec_focus_of_le (Nat.zero_le cut) hcut, Bytes.range_zero, hfirst,
    Bytes.splice_zero]
  dsimp only
  rw [exec_focus_of_le hcut (Nat.le_of_eq hlen.symm), hrange, hrest, hsplice]

end Edit

end RedBlue
