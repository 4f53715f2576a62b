import RedBlue.Pixel.Basic
import RedBlue.Proofs.Groups

/-! # Pixels by their bytes

A pixel of a list stands at an index exactly if its four bytes stand at the matching place in
memory. So what is known of every byte is known of every pixel, in either order. -/

namespace RedBlue.ChannelOrder

theorem pixel_eq_iff (o : ChannelOrder) (b₀ b₁ b₂ b₃ : UInt8) (p : Pixel) :
    o.pixel b₀ b₁ b₂ b₃ = p ↔ ∀ k < 4, [b₀, b₁, b₂, b₃][k]? = (o.bytes p)[k]? := by
  simp only [Nat.forall_lt_succ_right]
  obtain ⟨r, g, b, a⟩ := p
  cases o <;> simp [pixel, bytes] <;> tauto

/-- The fourth byte of a pixel is in memory, so a pixel takes all of its four bytes. -/
theorem getElem?_bytes_three (o : ChannelOrder) (p : Pixel) : (o.bytes p)[3]? = some p.a := by
  cases o <;> rfl

/-- The pixel at an index is the one whose bytes stand there. -/
theorem getElem?_decode_eq_some_iff (o : ChannelOrder) (b : Bytes) (i : Nat) (p : Pixel) :
    (o.decode b)[i]? = some p ↔ ∀ k < 4, b[4 * i + k]? = (o.bytes p)[k]? := by
  induction b using Bytes.group_induction generalizing i with
  | short b hlen =>
      -- There is no pixel, and a last byte of one would lie past the end.
      have hpast : b[4 * i + 3]? = none := List.getElem?_eq_none (by omega)
      rw [o.decode_of_length_lt hlen, List.getElem?_nil]
      constructor
      · intro h
        cases h
      · intro h
        have hlast := h 3 (by decide)
        rw [hpast, getElem?_bytes_three] at hlast
        cases hlast
  | group b₀ b₁ b₂ b₃ rest ih =>
      cases i with
      | zero =>
          rw [decode_group, List.getElem?_cons_zero, Option.some.injEq, pixel_eq_iff]
          refine forall₂_congr fun k hk => ?_
          interval_cases k <;> rfl
      | succ i =>
          have hshift : ∀ k, 4 * (i + 1) + k = 4 * i + k + 4 := by omega
          simp only [decode_group, hshift, List.getElem?_cons_succ]
          exact ih i

theorem getElem?_encode_of_getElem? (o : ChannelOrder) {ps : List Pixel} {i : Nat} {p : Pixel}
    (h : ps[i]? = some p) : ∀ k < 4, (o.encode ps)[4 * i + k]? = (o.bytes p)[k]? := by
  rwa [← getElem?_decode_eq_some_iff, decode_encode]

open Bytes in
/-- The other order has each byte of a pixel at the place of its partner. -/
theorem getElem?_bytes_partner (o : ChannelOrder) (p : Pixel) {k : Nat} (hk : k < 4) :
    (o.bytes p)[partner k]? = (o.other.bytes p)[k]? := by
  cases o <;> interval_cases k <;> rfl

/-- Bytes that arrive exchanged are the same pixel in the other order. -/
theorem getElem?_decode_of_exchanged (o : ChannelOrder) {ps : List Pixel} {new : Bytes} {i j : Nat}
    {p : Pixel} (h : ps[j]? = some p)
    (hbytes : ∀ k < 4, new[4 * i + k]? = (o.encode ps)[4 * j + Bytes.partner k]?) :
    (o.other.decode new)[i]? = some p := by
  rw [getElem?_decode_eq_some_iff]
  intro k hk
  rw [hbytes k hk, o.getElem?_encode_of_getElem? h _ (Bytes.partner_lt hk),
    getElem?_bytes_partner o p hk]

/-- Bytes that stay are the same pixel in the same order. -/
theorem getElem?_decode_congr (o : ChannelOrder) {old new : Bytes} {i : Nat}
    (h : ∀ k < 4, new[4 * i + k]? = old[4 * i + k]?) : (o.decode new)[i]? = (o.decode old)[i]? := by
  apply Option.ext
  intro p
  rw [getElem?_decode_eq_some_iff, getElem?_decode_eq_some_iff]
  exact forall₂_congr fun k hk => by rw [h k hk]

end RedBlue.ChannelOrder
