import RedBlue.Bytes.Basic
import RedBlue.Selection
import RedBlue.Size

/-! # Edits

An edit works on the bytes in view. It may read what the hardware runs, use the tier of the
process and fail. A failing edit keeps what it has written: that a failed call leaves its buffer
alone is a fact about the call and no gift of the setting. `focus` narrows the view to a range;
what lies outside the range is out of reach until the focus ends.

The equations for `exec` say what each step does; nothing else unfolds an edit. -/

namespace RedBlue

/-- What an edit may change: what the process remembers, and the bytes in view. -/
structure Workspace where
  selection : Selection
  view : Bytes

/-- A step that works on the bytes in view. -/
def Edit : Type → Type := ReaderT Hardware (ExceptT Failure (StateM Workspace))

namespace Edit

variable {α β : Type}

instance : Monad Edit :=
  inferInstanceAs (Monad (ReaderT Hardware (ExceptT Failure (StateM Workspace))))

instance : LawfulMonad Edit :=
  inferInstanceAs (LawfulMonad (ReaderT Hardware (ExceptT Failure (StateM Workspace))))

/-- Runs an edit on given hardware from a given workspace. -/
def exec (hw : Hardware) (act : Edit α) (w : Workspace) : Except Failure α × Workspace :=
  act hw w

/-- The edit with a given behaviour. -/
def ofExec (f : Hardware → Workspace → Except Failure α × Workspace) : Edit α := f

@[simp] theorem exec_ofExec (f : Hardware → Workspace → Except Failure α × Workspace)
    (hw : Hardware) (w : Workspace) : exec hw (ofExec f) w = f hw w := rfl

@[simp] theorem exec_pure (hw : Hardware) (a : α) (w : Workspace) :
    exec hw (pure a) w = (.ok a, w) := rfl

/-- The second step runs only if the first one succeeds, and from where that one ended. -/
theorem exec_bind (hw : Hardware) (act : Edit α) (next : α → Edit β) (w : Workspace) :
    exec hw (act >>= next) w =
      match exec hw act w with
      | (.ok a, w') => exec hw (next a) w'
      | (.error e, w') => (.error e, w') := by
  change (match exec hw act w with | (r, w') => ExceptT.bindCont (fun a => next a hw) r w') = _
  obtain ⟨_ | _, _⟩ := exec hw act w <;> rfl

theorem exec_bind_ok {hw : Hardware} {act : Edit α} {next : α → Edit β} {w w' : Workspace} {a : α}
    (h : exec hw act w = (.ok a, w')) : exec hw (act >>= next) w = exec hw (next a) w' := by
  rw [exec_bind, h]

theorem exec_bind_error {hw : Hardware} {act : Edit α} {next : α → Edit β} {w w' : Workspace}
    {e : Failure} (h : exec hw act w = (.error e, w')) :
    exec hw (act >>= next) w = (.error e, w') := by
  rw [exec_bind, h]

/-! ## Failing -/

def fail (e : Failure) : Edit α := ofExec fun _ w => (.error e, w)

/-- Ends the edit with a geometry error unless a condition holds. -/
def require (e : GeometryError) (p : Prop) [Decidable p] : Edit Unit :=
  if p then pure () else fail (.size e)

/-- Takes a size that exists, or ends the edit with a geometry error. -/
def expect (e : GeometryError) : Option α → Edit α
  | some a => pure a
  | none => fail (.size e)

def layout : Except Refusal α → Edit α
  | .ok a => pure a
  | .error r => fail (.layout r)

def sure : Except Fault α → Edit α
  | .ok a => pure a
  | .error f => fail (.fault f)

@[simp] theorem exec_fail (hw : Hardware) (e : Failure) (w : Workspace) :
    exec hw (fail e : Edit α) w = (.error e, w) := rfl

theorem require_of_true {e : GeometryError} {p : Prop} [Decidable p] (h : p) :
    require e p = pure () := if_pos h

theorem require_of_false {e : GeometryError} {p : Prop} [Decidable p] (h : ¬p) :
    require e p = fail (.size e) := if_neg h

@[simp] theorem expect_some (e : GeometryError) (a : α) : expect e (some a) = pure a := rfl

@[simp] theorem expect_none (e : GeometryError) : expect e (none : Option α) = fail (.size e) := rfl

theorem expect_add?_of_lt {e : GeometryError} {m n : Nat} (h : m + n < Size.limit) :
    expect e (Size.add? m n) = pure (m + n) := by
  rw [Size.add?, if_pos h, expect_some]

theorem expect_add?_of_not_lt {e : GeometryError} {m n : Nat} (h : ¬m + n < Size.limit) :
    expect e (Size.add? m n) = fail (.size e) := by
  rw [Size.add?, if_neg h, expect_none]

theorem expect_mul?_of_lt {e : GeometryError} {m n : Nat} (h : m * n < Size.limit) :
    expect e (Size.mul? m n) = pure (m * n) := by
  rw [Size.mul?, if_pos h, expect_some]

theorem expect_mul?_of_not_lt {e : GeometryError} {m n : Nat} (h : ¬m * n < Size.limit) :
    expect e (Size.mul? m n) = fail (.size e) := by
  rw [Size.mul?, if_neg h, expect_none]

@[simp] theorem layout_ok (a : α) : layout (.ok a) = pure a := rfl

@[simp] theorem layout_error (r : Refusal) : layout (.error r : Except _ α) = fail (.layout r) :=
  rfl

@[simp] theorem sure_ok (a : α) : sure (.ok a) = pure a := rfl

@[simp] theorem sure_error (f : Fault) : sure (.error f : Except _ α) = fail (.fault f) := rfl

/-! ## Reading and writing -/

def hardware : Edit Hardware := ofExec fun hw w => (.ok hw, w)

def view : Edit Bytes := ofExec fun _ w => (.ok w.view, w)

def size : Edit Nat := ofExec fun _ w => (.ok w.view.length, w)

def rewrite (f : Bytes → Bytes) : Edit Unit :=
  ofExec fun _ w => (.ok (), { w with view := f w.view })

/-- The tier of the process, settled now if it is not settled yet. -/
def tier : Edit Tier := ofExec fun hw w =>
  (.ok (w.selection.choose hw).1, { w with selection := (w.selection.choose hw).2 })

@[simp] theorem exec_hardware (hw : Hardware) (w : Workspace) :
    exec hw hardware w = (.ok hw, w) := rfl

@[simp] theorem exec_view (hw : Hardware) (w : Workspace) :
    exec hw view w = (.ok w.view, w) := rfl

@[simp] theorem exec_size (hw : Hardware) (w : Workspace) :
    exec hw size w = (.ok w.view.length, w) := rfl

@[simp] theorem exec_rewrite (hw : Hardware) (f : Bytes → Bytes) (w : Workspace) :
    exec hw (rewrite f) w = (.ok (), { w with view := f w.view }) := rfl

@[simp] theorem exec_tier (hw : Hardware) (w : Workspace) :
    exec hw tier w =
      (.ok (w.selection.choose hw).1, { w with selection := (w.selection.choose hw).2 }) := rfl

/-! ## Ranges of the view -/

/-- The part of other bytes from `start` up to `stop`, which has to be a range of them. -/
def slice (b : Bytes) (start stop : Nat) : Edit Bytes :=
  if start ≤ stop ∧ stop ≤ b.length then pure (b.range start stop)
  else fail (.fault (.slice start stop b.length))

/-- Runs an edit on the part of the view from `start` up to `stop`, which has to be a range of
it. -/
def focus (start stop : Nat) (act : Edit α) : Edit α := ofExec fun hw w =>
  if start ≤ stop ∧ stop ≤ w.view.length then
    let (r, inner) := exec hw act { w with view := w.view.range start stop }
    (r, { inner with view := w.view.splice start stop inner.view })
  else (.error (.fault (.slice start stop w.view.length)), w)

/-- Cuts the view at `cut` and runs an edit on the part from there on, which may read the part
before. -/
def focusFrom (cut : Nat) (act : Bytes → Edit α) : Edit α := do
  let stop ← size
  let before ← slice (← view) 0 cut
  focus cut stop (act before)

/-- Cuts the view at `cut` and runs an edit on the part before it, which may read the part from
there on. -/
def focusBefore (cut : Nat) (act : Bytes → Edit α) : Edit α := do
  let after ← slice (← view) cut (← size)
  focus 0 cut (act after)

/-- Moves the bytes from `start` up to `stop` to `dest`. They are all read before one is
written. -/
def move (start stop dest : Nat) : Edit Unit := do
  let moved ← slice (← view) start stop
  let room ← sure (Size.sub (← size) (stop - start))
  if dest ≤ room then rewrite fun b => b.splice dest (dest + (stop - start)) moved
  else fail (.fault (.slice dest (dest + (stop - start)) (← size)))

theorem slice_of_le {b : Bytes} {start stop : Nat} (h : start ≤ stop) (hs : stop ≤ b.length) :
    slice b start stop = pure (b.range start stop) := if_pos ⟨h, hs⟩

theorem exec_focus_of_le {hw : Hardware} {start stop : Nat} {act : Edit α} {w : Workspace}
    (h : start ≤ stop) (hs : stop ≤ w.view.length) :
    exec hw (focus start stop act) w =
      ((exec hw act { w with view := w.view.range start stop }).1,
        { (exec hw act { w with view := w.view.range start stop }).2 with
          view := w.view.splice start stop
            (exec hw act { w with view := w.view.range start stop }).2.view }) := by
  rw [focus, exec_ofExec, if_pos ⟨h, hs⟩]

end Edit

end RedBlue
