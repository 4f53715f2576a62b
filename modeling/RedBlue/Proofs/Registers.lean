import Mathlib.Data.List.GetD
import RedBlue.Proofs.Groups
import RedBlue.Register.Shuffle
import RedBlue.Register.Word

/-! # Registers exchange groups

A shuffle of one lane, a shuffle of two lanes and the masks of a word do the same to every group:
they are `Bytes.exchange` on a list of their own length. -/

namespace RedBlue

namespace Register

theorem toNat_low_bits_lt (m : UInt8) : (m &&& 15).toNat < lane := by
  rw [UInt8.toNat_and]
  exact Nat.lt_succ_of_le Nat.and_le_right

/-- A shuffle does not mix lanes: a lane and what follows it are shuffled apart. -/
theorem shuffle_append {mask register : Bytes} (hm : mask.length = lane)
    (hr : register.length = lane) (mask' register' : Bytes) :
    shuffle (mask ++ mask') (register ++ register') =
      shuffle mask register ++ shuffle mask' register' := by
  simp only [shuffle, List.mapIdx_append, hm]
  congr 1
  -- A byte of the first lane chooses from that lane only.
  · apply List.ext_getElem
    · simp only [List.length_mapIdx]
    · intro i hi _
      rw [List.length_mapIdx, hm] at hi
      have hlow := toNat_low_bits_lt mask[i]
      simp only [List.getElem_mapIdx, Nat.div_eq_of_lt hi, Nat.mul_zero, Nat.zero_add]
      rw [List.getD_append _ _ _ _ (hlow.trans_eq hr.symm)]
  -- Past it, every choice is the one at the same place of the rest.
  · apply congrFun (congrArg List.mapIdx _)
    funext i m
    have hnext : (i + lane) / lane = i / lane + 1 := Nat.add_div_right i (by decide)
    rw [hnext, Nat.mul_succ, Nat.add_right_comm, List.getD_append_right _ _ _ _ (by omega), hr,
      Nat.add_sub_cancel]

theorem shuffle_laneMask {register : Bytes} (h : register.length = 16) :
    shuffle laneMask register = register.exchange := by
  match register, h with
  | [b₀, b₁, b₂, b₃, b₄, b₅, b₆, b₇, b₈, b₉, b₁₀, b₁₁, b₁₂, b₁₃, b₁₄, b₁₅], _ =>
      simp [shuffle, laneMask, lane, Bytes.exchange, List.mapIdx_cons]

theorem shuffle_twoLaneMask {register : Bytes} (h : register.length = 32) :
    shuffle twoLaneMask register = register.exchange := by
  have hlow : (register.take 16).length = 16 := List.length_take_of_le (by omega)
  have hhigh : (register.drop 16).length = 16 := by rw [List.length_drop, h]
  calc
    shuffle twoLaneMask register
        = shuffle (laneMask ++ laneMask) (register.take 16 ++ register.drop 16) := by
          rw [List.take_append_drop, twoLaneMask]
    _ = Bytes.exchange (register.take 16) ++ Bytes.exchange (register.drop 16) := by
          rw [shuffle_append length_laneMask hlow, shuffle_laneMask hlow, shuffle_laneMask hhigh]
    _ = register.exchange := by
          rw [← Bytes.exchange_append (by rw [hlow]; decide), List.take_append_drop]

end Register

namespace Word

/-- Bit by bit: each bit of the result is the bit at the same place of one of the four bytes. -/
theorem store_exchange_load (b₀ b₁ b₂ b₃ : UInt8) :
    store (exchange (load [b₀, b₁, b₂, b₃])) = [b₂, b₁, b₀, b₃] := by
  simp only [store, exchange, rotateHalf, load, List.cons.injEq, and_true]
  refine ⟨?_, ?_, ?_, ?_⟩ <;> apply UInt8.eq_of_toBitVec_eq <;> apply BitVec.eq_of_getLsbD_eq <;>
    intro i hi <;> interval_cases i <;> simp

theorem exchangeGroup_eq_exchange {group : Bytes} (h : group.length = 4) :
    exchangeGroup group = group.exchange := by
  match group, h with
  | [b₀, b₁, b₂, b₃], _ => exact store_exchange_load b₀ b₁ b₂ b₃

end Word

end RedBlue
