import RedBlue.Proofs.Registers
import RedBlue.Tier.Pass

/-! # What one pass does

However a tier works, its pass exchanges the groups of a prefix of the view, answers how long that
prefix is and touches nothing else. -/

namespace RedBlue

open Edit

namespace Pass

/-- The pass exchanges exactly the first `handled` bytes, a number that depends only on the
hardware and on the length that all its buffers have, and answers that number. -/
structure Handles (p : Pass) (handled : Hardware → Nat → Nat) : Prop where
  inPlace : ∀ (hw : Hardware) (w : Workspace), w.view.length < Size.limit →
    exec hw p.inPlace w =
      (.ok (handled hw w.view.length),
        { w with view := Bytes.exchangeOver (handled hw w.view.length) w.view w.view })
  copy : ∀ (hw : Hardware) (source : Bytes) (w : Workspace),
    min source.length w.view.length < Size.limit →
    exec hw (p.copy source) w =
      (.ok (handled hw (min source.length w.view.length)),
        { w with view :=
            Bytes.exchangeOver (handled hw (min source.length w.view.length)) source w.view })

theorem handles_words : words.Handles fun _ size => size - size % 4 := by
  have hgroup : ∀ c : Bytes, c.length = 4 → Word.exchangeGroup c = c.exchange :=
    fun _ => Word.exchangeGroup_eq_exchange
  refine ⟨?_, ?_⟩
  · intro hw w hlen
    have hmul : w.view.length / 4 * 4 < Size.limit := by omega
    simp only [words, exec_bind, exec_size, Size.mul_of_lt hmul, sure_ok, exec_pure, exec_rewrite,
      Bytes.mapChunks_eq_exchangeOver (Nat.dvd_refl 4) hgroup, Nat.mul_comm 4,
      Nat.div_mul_self_eq_mod_sub_self]
  · intro hw source w hlen
    have hmul : min source.length w.view.length / 4 * 4 < Size.limit := by omega
    simp only [words, exec_bind, exec_view, exec_rewrite, Bytes.commonChunks_eq,
      Size.mul_of_lt hmul, sure_ok, exec_pure,
      Bytes.copyChunks_eq_exchangeOver (Nat.dvd_refl 4) hgroup, Nat.mul_comm 4,
      Nat.div_mul_self_eq_mod_sub_self]

/-- A register may be any part of the block that is itself made of groups. -/
theorem handles_shuffles {mask : Bytes} {block : Nat} (hmask : 4 ∣ mask.length)
    (hblock : mask.length ∣ block)
    (hshuffle : ∀ r : Bytes, r.length = mask.length → Register.shuffle mask r = r.exchange) :
    (shuffles mask block).Handles fun _ size => size - size % block := by
  have hpart : ∀ {b : Bytes} {size : Nat}, size - size % block ≤ b.length →
      (b.range 0 (size - size % block)).length = size - size % block := Bytes.length_range
  have hdvd : ∀ {b : Bytes} {size : Nat}, size - size % block ≤ b.length →
      mask.length ∣ (b.range 0 (size - size % block)).length := by
    intro b size hstop
    rw [hpart hstop]
    exact hblock.trans (Nat.dvd_sub_mod size)
  refine ⟨?_, ?_⟩
  · intro hw w _
    have hstop : w.view.length - w.view.length % block ≤ w.view.length := Nat.sub_le _ _
    simp only [shuffles, exec_bind, exec_size, Size.whole_eq, sure_ok, exec_pure,
      exec_focus_of_le (Nat.zero_le _) hstop, exec_rewrite]
    rw [← Bytes.copyChunks_self, Bytes.copyChunks_eq_exchange hmask hshuffle (hdvd hstop) rfl,
      Bytes.exchangeOver_eq_splice]
  · intro hw source w _
    have hstop := Nat.sub_le (min source.length w.view.length)
      (min source.length w.view.length % block)
    have hsource := hstop.trans (Nat.min_le_left _ _)
    have hview := hstop.trans (Nat.min_le_right _ _)
    have hlen := (hpart hview).trans (hpart hsource).symm
    simp only [shuffles, exec_bind, exec_size, Size.whole_eq, sure_ok, exec_pure,
      slice_of_le (Nat.zero_le _) hsource, exec_focus_of_le (Nat.zero_le _) hview, exec_rewrite]
    rw [Bytes.copyChunks_eq_exchange hmask hshuffle (hdvd hsource) hlen,
      Bytes.exchangeOver_eq_splice]

theorem Handles.onlyIf {p : Pass} {handled : Hardware → Nat → Nat} (h : p.Handles handled)
    (present : Hardware → Bool) :
    (p.onlyIf present).Handles fun hw size => if present hw then handled hw size else 0 := by
  refine ⟨?_, ?_⟩
  · intro hw w hlen
    rw [exec_onlyIf_inPlace]
    split
    · exact h.inPlace hw w hlen
    · rw [Bytes.exchangeOver_zero]
  · intro hw source w hlen
    rw [exec_onlyIf_copy]
    split
    · exact h.copy hw source w hlen
    · rw [Bytes.exchangeOver_zero]

end Pass

namespace Tier

/-- The bytes at the start of `size` bytes that the pass of a tier exchanges. -/
def handled (t : Tier) (hw : Hardware) (size : Nat) : Nat :=
  if hw.runs t then size - size % t.block else 0

theorem handled_of_runs {t : Tier} {hw : Hardware} (h : hw.runs t = true) (size : Nat) :
    t.handled hw size = size - size % t.block := if_pos h

theorem handled_le (t : Tier) (hw : Hardware) (size : Nat) : t.handled hw size ≤ size := by
  rw [handled]
  split
  · exact Nat.sub_le _ _
  · exact Nat.zero_le _

theorem block_dvd_handled (t : Tier) (hw : Hardware) (size : Nat) :
    t.block ∣ t.handled hw size := by
  rw [handled]
  split
  · exact Nat.dvd_sub_mod size
  · exact Nat.dvd_zero _

theorem four_dvd_handled (t : Tier) (hw : Hardware) (size : Nat) : 4 ∣ t.handled hw size :=
  t.four_dvd_block.trans (t.block_dvd_handled hw size)

theorem handles_method (t : Tier) : t.method.Handles fun _ size => size - size % t.block := by
  cases t with
  | scalar4 => exact Pass.handles_words
  | vector16 =>
      exact Pass.handles_shuffles (by decide) (by decide) fun _ => Register.shuffle_laneMask
  | vector128 =>
      exact Pass.handles_shuffles (by decide) (by decide) fun _ => Register.shuffle_twoLaneMask
  | vector256 =>
      exact Pass.handles_shuffles (by decide) (by decide) fun _ => Register.shuffle_twoLaneMask

theorem handles_pass (t : Tier) : t.pass.Handles t.handled :=
  t.handles_method.onlyIf _

theorem exec_pass_of_absent (t : Tier) {hw : Hardware} {source : Bytes} {w : Workspace}
    (h : hw.runs t = false) :
    exec hw t.pass.inPlace w = (.ok 0, w) ∧ exec hw (t.pass.copy source) w = (.ok 0, w) := by
  have habsent : ¬hw.runs t := Bool.eq_false_iff.mp h
  rw [pass, Pass.exec_onlyIf_inPlace, Pass.exec_onlyIf_copy, if_neg habsent, if_neg habsent]
  exact ⟨rfl, rfl⟩

/-! ## Byte by byte -/

/-- Without its hardware a pass does nothing and answers 0. With it, a pass answers the length of
the whole blocks that all its buffers have, exchanges every group in them and keeps every byte
after them. A shuffle of two lanes and a shuffle of one make of each group what the masks of a word
make of it. -/
theorem pass_exchangedInto (t : Tier) (hw : Hardware) (source : Bytes) (w : Workspace) :
    (hw.runs t = false →
      exec hw t.pass.inPlace w = (.ok 0, w) ∧ exec hw (t.pass.copy source) w = (.ok 0, w)) ∧
    (hw.runs t = true →
      (∀ n, w.view.length = n → n < Size.limit →
        ∃ new,
          exec hw t.pass.inPlace w = (.ok (n - n % t.block), { w with view := new }) ∧
          Bytes.ExchangedInto w.view 0 (n - n % t.block) w.view 0 new) ∧
      ∀ n, min source.length w.view.length = n → n < Size.limit →
        ∃ new,
          exec hw (t.pass.copy source) w = (.ok (n - n % t.block), { w with view := new }) ∧
          Bytes.ExchangedInto source 0 (n - n % t.block) w.view 0 new) ∧
    Bytes.GroupByGroup 32 (Register.shuffle Register.twoLaneMask) Word.exchangeGroup ∧
    Bytes.GroupByGroup 16 (Register.shuffle Register.laneMask) Word.exchangeGroup ∧
    ∀ b₀ b₁ b₂ b₃ : UInt8, Word.exchangeGroup [b₀, b₁, b₂, b₃] = [b₂, b₁, b₀, b₃] := by
  have hword : ∀ b : Bytes, b.length = 4 → Word.exchangeGroup b = b.exchange :=
    fun _ => Word.exchangeGroup_eq_exchange
  refine ⟨t.exec_pass_of_absent, fun hpresent => ⟨?_, ?_⟩,
    Bytes.groupByGroup_of_exchange (fun _ => Register.shuffle_twoLaneMask) hword,
    Bytes.groupByGroup_of_exchange (fun _ => Register.shuffle_laneMask) hword,
    Word.store_exchange_load⟩
  · rintro n rfl hn
    have hrun := t.handles_pass.inPlace hw w hn
    rw [handled_of_runs hpresent] at hrun
    have hle := Nat.sub_le w.view.length (w.view.length % t.block)
    exact ⟨_, hrun, Bytes.exchangedInto_exchangeOver hle hle⟩
  · rintro n rfl hn
    have hrun := t.handles_pass.copy hw source w hn
    rw [handled_of_runs hpresent] at hrun
    have hle := Nat.sub_le (min source.length w.view.length)
      (min source.length w.view.length % t.block)
    obtain ⟨hs, ht⟩ := Nat.le_min.mp hle
    exact ⟨_, hrun, Bytes.exchangedInto_exchangeOver hs ht⟩

theorem pass_exchangedInto_level3_only :
    (Hardware.runs ⟨true, false⟩ vector128 = false ∧
      exec ⟨true, false⟩ vector128.pass.inPlace ⟨.start, (List.range 290).map UInt8.ofNat⟩ =
        (.ok 0, ⟨.start, (List.range 290).map UInt8.ofNat⟩)) ∧
    (Hardware.runs ⟨false, true⟩ vector128 = true ∧
      ((List.range 290).map UInt8.ofNat).length = 290 ∧ 290 < Size.limit ∧
      ∃ new,
        exec ⟨false, true⟩ vector128.pass.inPlace ⟨.start, (List.range 290).map UInt8.ofNat⟩ =
          (.ok 256, ⟨.start, new⟩) ∧
        Bytes.ExchangedInto ((List.range 290).map UInt8.ofNat) 0 256
          ((List.range 290).map UInt8.ofNat) 0 new) ∧
    (min (List.replicate 150 (7 : UInt8)).length ((List.range 290).map UInt8.ofNat).length = 150 ∧
      150 < Size.limit ∧
      ∃ new,
        exec ⟨false, true⟩ (vector128.pass.copy (List.replicate 150 7))
            ⟨.start, (List.range 290).map UInt8.ofNat⟩ =
          (.ok 128, ⟨.start, new⟩) ∧
        Bytes.ExchangedInto (List.replicate 150 7) 0 128 ((List.range 290).map UInt8.ofNat) 0
          new) ∧
    (Register.shuffle Register.twoLaneMask ((List.range 32).map UInt8.ofNat)).range 20 24 =
      Word.exchangeGroup [20, 21, 22, 23] := by
  have hlen : ((List.range 290).map UInt8.ofNat).length = 290 := by
    rw [List.length_map, List.length_range]
  have hmin : min (List.replicate 150 (7 : UInt8)).length
      ((List.range 290).map UInt8.ofNat).length = 150 := by
    rw [hlen, List.length_replicate]
    rfl
  obtain ⟨habsent, -⟩ := pass_exchangedInto vector128 ⟨true, false⟩ []
    ⟨.start, (List.range 290).map UInt8.ofNat⟩
  obtain ⟨-, hpresent, hlanes, -⟩ := pass_exchangedInto vector128 ⟨false, true⟩
    (List.replicate 150 7) ⟨.start, (List.range 290).map UInt8.ofNat⟩
  obtain ⟨hinPlace, hcopy⟩ := hpresent rfl
  exact ⟨⟨rfl, (habsent rfl).1⟩, ⟨rfl, hlen, by decide, hinPlace 290 hlen (by decide)⟩,
    ⟨hmin, by decide, hcopy 150 hmin (by decide)⟩, hlanes.group_eq _ rfl 5 (by decide)⟩

end Tier

end RedBlue
