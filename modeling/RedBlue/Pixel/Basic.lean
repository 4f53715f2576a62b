import RedBlue.Bytes.Basic
import RedBlue.Failure

/-! # Pixels

A pixel has four named channels. In memory it is four bytes, in one of two orders. -/

namespace RedBlue

structure Pixel where
  r : UInt8
  g : UInt8
  b : UInt8
  a : UInt8
deriving DecidableEq

/-- The order of the channels in memory. -/
inductive ChannelOrder where
  | rgba
  | bgra
deriving DecidableEq

namespace ChannelOrder

/-- The order with red and blue in each other's place. -/
def other : ChannelOrder → ChannelOrder
  | rgba => bgra
  | bgra => rgba

def bytes : ChannelOrder → Pixel → Bytes
  | rgba, p => [p.r, p.g, p.b, p.a]
  | bgra, p => [p.b, p.g, p.r, p.a]

def pixel : ChannelOrder → UInt8 → UInt8 → UInt8 → UInt8 → Pixel
  | rgba, b₀, b₁, b₂, b₃ => ⟨b₀, b₁, b₂, b₃⟩
  | bgra, b₀, b₁, b₂, b₃ => ⟨b₂, b₁, b₀, b₃⟩

def encode (o : ChannelOrder) : List Pixel → Bytes
  | [] => []
  | p :: ps => o.bytes p ++ o.encode ps

/-- The pixels that lie in memory; an incomplete last one is not read. -/
def decode (o : ChannelOrder) : Bytes → List Pixel
  | b₀ :: b₁ :: b₂ :: b₃ :: rest => o.pixel b₀ b₁ b₂ b₃ :: o.decode rest
  | _ => []

/-- Takes bytes for pixels, of which they have to be a whole number. -/
def pixels (o : ChannelOrder) (b : Bytes) : Except Fault (List Pixel) :=
  if b.length % 4 = 0 then .ok (o.decode b) else .error (.cutPixel b.length)

@[simp] theorem other_other (o : ChannelOrder) : o.other.other = o := by cases o <;> rfl

@[simp] theorem length_encode (o : ChannelOrder) (ps : List Pixel) :
    (o.encode ps).length = 4 * ps.length := by
  induction ps with
  | nil => rfl
  | cons p ps ih =>
    rw [encode, List.length_append, ih, List.length_cons]
    cases o <;> simp only [bytes, List.length_cons, List.length_nil] <;> omega

theorem four_dvd_length_encode (o : ChannelOrder) (ps : List Pixel) :
    4 ∣ (o.encode ps).length := by
  rw [length_encode]
  exact Nat.dvd_mul_right 4 _

theorem length_encode_div_four (o : ChannelOrder) (ps : List Pixel) :
    (o.encode ps).length / 4 = ps.length := by
  rw [length_encode]
  exact Nat.mul_div_cancel_left _ (by decide)

@[simp] theorem decode_group (o : ChannelOrder) (b₀ b₁ b₂ b₃ : UInt8) (rest : Bytes) :
    o.decode (b₀ :: b₁ :: b₂ :: b₃ :: rest) = o.pixel b₀ b₁ b₂ b₃ :: o.decode rest := rfl

theorem decode_of_length_lt (o : ChannelOrder) {b : Bytes} (h : b.length < 4) :
    o.decode b = [] := by
  rcases b with _ | ⟨b₀, _ | ⟨b₁, _ | ⟨b₂, _ | ⟨b₃, rest⟩⟩⟩⟩
  · rfl
  · rfl
  · rfl
  · rfl
  · simp only [List.length_cons] at h
    omega

theorem length_decode (o : ChannelOrder) (b : Bytes) : (o.decode b).length = b.length / 4 := by
  induction b using Bytes.group_induction with
  | short b h =>
    rw [o.decode_of_length_lt h, List.length_nil]
    omega
  | group b₀ b₁ b₂ b₃ rest ih =>
    simp only [decode_group, List.length_cons, ih]
    omega

@[simp] theorem decode_encode (o : ChannelOrder) (ps : List Pixel) :
    o.decode (o.encode ps) = ps := by
  induction ps with
  | nil => cases o <;> rfl
  | cons p ps ih =>
    cases o <;> simp only [encode, bytes, List.cons_append, List.nil_append, decode, pixel, ih]

theorem pixels_of_dvd (o : ChannelOrder) {b : Bytes} (h : 4 ∣ b.length) :
    o.pixels b = .ok (o.decode b) := if_pos (Nat.mod_eq_zero_of_dvd h)

theorem pixels_of_not_dvd (o : ChannelOrder) {b : Bytes} (h : ¬4 ∣ b.length) :
    o.pixels b = .error (.cutPixel b.length) := if_neg (mt Nat.dvd_of_mod_eq_zero h)

@[simp] theorem pixels_encode (o : ChannelOrder) (ps : List Pixel) :
    o.pixels (o.encode ps) = .ok ps := by
  rw [o.pixels_of_dvd (o.four_dvd_length_encode ps), decode_encode]

theorem bytes_pixel (o : ChannelOrder) (b₀ b₁ b₂ b₃ : UInt8) :
    o.bytes (o.pixel b₀ b₁ b₂ b₃) = [b₀, b₁, b₂, b₃] := by
  cases o <;> rfl

/-- Whole pixels that are read and written again are the same bytes. -/
theorem encode_decode (o : ChannelOrder) {b : Bytes} (h : 4 ∣ b.length) :
    o.encode (o.decode b) = b := by
  induction b using Bytes.group_induction with
  | short b hlt =>
    rw [List.eq_nil_of_length_eq_zero (Nat.eq_zero_of_dvd_of_lt h hlt)]
    rfl
  | group b₀ b₁ b₂ b₃ rest ih =>
    have hrest : 4 ∣ rest.length := by
      simp only [List.length_cons] at h
      omega
    rw [decode_group, encode, bytes_pixel, ih hrest]
    rfl

/-- Exchanging the bytes of pixels is writing the same pixels in the other order. -/
@[simp] theorem exchange_encode (o : ChannelOrder) (ps : List Pixel) :
    (o.encode ps).exchange = o.other.encode ps := by
  induction ps with
  | nil => cases o <;> rfl
  | cons p ps ih =>
    cases o <;>
      simp only [encode, bytes, other, List.cons_append, List.nil_append, Bytes.exchange_group,
        ih]

end ChannelOrder

end RedBlue
