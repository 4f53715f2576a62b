import RedBlue.Proofs.Images
import RedBlue.Session.Run

/-! # Places that are whole pixels

A call that takes a place for pixels looks first whether it is some. If it is not, because it is no
place or because it cuts a pixel, that is all the call does. -/

namespace RedBlue.Session

open Edit

variable {hw : Hardware} {s : Session} {p : Place} {act : Edit Reply} {f : Fault}

/-! ## Edits that end where they start -/

theorem edit_of_unchanged {b : Bytes} {r : Except Failure Reply}
    (hb : s.buffers[p.buffer]? = some b)
    (hrun : exec hw (p.focus act) ⟨s.selection, b⟩ = (r, ⟨s.selection, b⟩)) :
    s.edit hw p act = (r, s) := by
  obtain ⟨hlt, hget⟩ := List.getElem?_eq_some_iff.mp hb
  have hset : s.buffers.set p.buffer b = s.buffers := by
    rw [← hget]
    exact List.set_getElem_self hlt
  rw [edit, hb]
  dsimp only
  rw [hrun]
  dsimp only
  rw [hset]

/-- What cannot be read cannot be edited. -/
theorem edit_of_read_error (h : s.read p = .error f) :
    s.edit hw p act = (.error (.fault f), s) := by
  obtain ⟨buffer, range⟩ := p
  rw [read] at h
  cases hb : s.buffers[buffer]? with
  | none =>
      rw [hb] at h
      cases h
      rw [edit, hb]
  | some b =>
      refine edit_of_unchanged hb ?_
      rw [hb] at h
      rcases range with _ | ⟨start, stop⟩
      · cases h
      · dsimp only at h
        split at h
        · cases h
        · rename_i hrange
          cases h
          exact if_neg hrange

/-- An edit works on the bytes that are read at its place. -/
theorem edit_of_read_ok {b : Bytes} {r : Except Failure Reply} (h : s.read p = .ok b)
    (hrun : exec hw act ⟨s.selection, b⟩ = (r, ⟨s.selection, b⟩)) :
    s.edit hw p act = (r, s) := by
  obtain ⟨buffer, range⟩ := p
  rw [read] at h
  cases hb : s.buffers[buffer]? with
  | none =>
      rw [hb] at h
      cases h
  | some whole =>
      refine edit_of_unchanged hb ?_
      rw [hb] at h
      rcases range with _ | ⟨start, stop⟩
      · cases h
        exact hrun
      · dsimp only at h
        split at h
        · rename_i hrange
          cases h
          rw [Place.focus, exec_focus_of_le hrange.1 hrange.2, hrun]
          dsimp only
          rw [Bytes.splice_range _ hrange.1]
        · cases h

/-! ## Reading a place as pixels -/

theorem pixels_of_read_error (o : ChannelOrder) (h : s.read p = .error f) :
    s.pixels o p = .error f := by
  rw [pixels, h]
  rfl

theorem pixels_of_read_ok (o : ChannelOrder) {b : Bytes} (h : s.read p = .ok b) :
    s.pixels o p = o.pixels b := by
  rw [pixels, h]
  rfl

theorem exists_pixels_error (o : ChannelOrder) (h : ¬∃ b, s.read p = .ok b ∧ 4 ∣ b.length) :
    ∃ f, s.pixels o p = .error f := by
  cases hread : s.read p with
  | error f => exact ⟨f, pixels_of_read_error o hread⟩
  | ok b =>
      refine ⟨.cutPixel b.length, ?_⟩
      rw [pixels_of_read_ok o hread, o.pixels_of_not_dvd fun hdvd => h ⟨b, hread, hdvd⟩]

/-! ## Calls on pixels -/

theorem edit_of_pixels_error {o : ChannelOrder} {next : List Pixel → Edit Reply}
    (h : s.pixels o p = .error f) :
    s.edit hw p (Edit.pixels o >>= next) = (.error (.fault f), s) := by
  cases hread : s.read p with
  | error f' =>
      rw [pixels_of_read_error o hread] at h
      cases h
      exact edit_of_read_error hread
  | ok b =>
      rw [pixels_of_read_ok o hread] at h
      exact edit_of_read_ok hread (exec_bind_error (exec_pixels_of_error hw h))

theorem call_change_of_pixels_error {c : Change} {o : ChannelOrder} {target : Place}
    {next : List Pixel → Edit Reply} (hedit : c.edit = Edit.pixels o >>= next)
    (h : ∃ q ∈ [(o, target)], ∃ f, s.pixels q.1 q.2 = .error f) :
    ∃ q ∈ [(o, target)], ∃ f, s.pixels q.1 q.2 = .error f ∧
      s.call hw (.change c target) = (.error (.fault f), s) := by
  obtain ⟨q, hq, f, hf⟩ := h
  obtain rfl := List.mem_singleton.mp hq
  refine ⟨_, hq, f, hf, ?_⟩
  rw [call, hedit]
  exact edit_of_pixels_error hf

theorem call_copy_of_pixels_error {c : Copy} {o : ChannelOrder} {source target : Place}
    {next : List Pixel → List Pixel → Edit Reply}
    (hedit : ∀ b, c.edit b = sure (o.pixels b) >>= fun ps => Edit.pixels o.other >>= next ps)
    (h : ∃ q ∈ [(o, source), (o.other, target)], ∃ f, s.pixels q.1 q.2 = .error f) :
    ∃ q ∈ [(o, source), (o.other, target)], ∃ f, s.pixels q.1 q.2 = .error f ∧
      s.call hw (.copy c source target) = (.error (.fault f), s) := by
  simp only [List.mem_cons, List.not_mem_nil, or_false, exists_eq_or_imp, exists_eq_left] at h ⊢
  rw [call]
  cases hsource : s.read source with
  | error f => exact .inl ⟨f, pixels_of_read_error o hsource, rfl⟩
  | ok b =>
      have hpixels := pixels_of_read_ok o hsource
      dsimp only
      rw [hedit]
      -- Both places are read before the source is looked at, and only then the target.
      cases htarget : s.read target with
      | error f =>
          exact .inr ⟨f, pixels_of_read_error o.other htarget, edit_of_read_error htarget⟩
      | ok old =>
          cases hps : o.pixels b with
          | error f =>
              refine .inl ⟨f, hpixels.trans hps, edit_of_read_ok htarget ?_⟩
              rw [sure_error]
              exact exec_bind_error rfl
          | ok ps =>
              rw [hpixels, hps] at h
              rcases h with ⟨f, hf⟩ | ⟨f, hf⟩
              · cases hf
              · exact .inr ⟨f, hf, edit_of_pixels_error hf⟩

/-- A call that takes for pixels what is none ends in the fault of one of its places. Nothing has
been written then, and no tier has been settled. -/
theorem call_of_pixels_error (hw : Hardware) (c : Call)
    (h : ∃ q ∈ c.pixelPlaces, ∃ f, s.pixels q.1 q.2 = .error f) :
    ∃ q ∈ c.pixelPlaces, ∃ f, s.pixels q.1 q.2 = .error f ∧
      s.call hw c = (.error (.fault f), s) := by
  have hnone : ¬∃ q ∈ ([] : List (ChannelOrder × Place)), ∃ f, s.pixels q.1 q.2 = .error f := by
    simp
  cases c with
  | change c target =>
      cases c with
      | swap t => exact absurd h hnone
      | region r => exact absurd h hnone
      | rows r => exact absurd h hnone
      | pixels o => exact call_change_of_pixels_error rfl h
      | image o frame => exact call_change_of_pixels_error rfl h
  | copy c source target =>
      cases c with
      | swap t => exact absurd h hnone
      | rows sourceStride r => exact absurd h hnone
      | pixels o => exact call_copy_of_pixels_error (fun _ => rfl) h
      | image o sourceFrame frame => exact call_copy_of_pixels_error (fun _ => rfl) h
  | offered => exact absurd h hnone
  | chosen => exact absurd h hnone

/-- Six bytes are no pixels. They are not swapped, and no tier is settled. -/
example : (start [[1, 2, 3, 4, 5, 6]]).call .full (.change (.pixels .rgba) ⟨0, none⟩) =
    (.error (.fault (.cutPixel 6)), start [[1, 2, 3, 4, 5, 6]]) := by
  decide +kernel

/-- A call that ends without a fault has found whole pixels at all places that it takes for some. -/
theorem wholePixels_of_call (hw : Hardware) (c : Call)
    (hend : ∀ f, (s.call hw c).1 ≠ .error (.fault f)) :
    ∀ q ∈ c.pixelPlaces, ∃ b, s.read q.2 = .ok b ∧ 4 ∣ b.length := by
  intro q hq
  by_contra hnot
  have hcut := exists_pixels_error q.1 hnot
  obtain ⟨-, -, f, -, hrun⟩ := call_of_pixels_error hw c ⟨q, hq, hcut⟩
  exact hend f (congrArg Prod.fst hrun)

end RedBlue.Session
