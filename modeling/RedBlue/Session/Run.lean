import RedBlue.Session.Call

/-! # Sessions

A session is a process and the buffers it works on. Each call runs on hardware of its own, works
on what the calls before it left, and changes at most one buffer. A call that fails answers so,
and the session goes on. -/

namespace RedBlue

/-- What lasts from one call to the next. -/
structure Session where
  selection : Selection
  buffers : List Bytes
deriving DecidableEq

namespace Session

def start (buffers : List Bytes) : Session := ⟨Selection.start, buffers⟩

/-- The bytes at a place, which has to lie in a buffer. -/
def read (p : Place) (s : Session) : Except Fault Bytes :=
  match s.buffers[p.buffer]?, p.range with
  | none, _ => .error (.noBuffer p.buffer)
  | some b, none => .ok b
  | some b, some (start, stop) =>
    if start ≤ stop ∧ stop ≤ b.length then .ok (b.range start stop)
    else .error (.slice start stop b.length)

def pixels (o : ChannelOrder) (p : Place) (s : Session) : Except Fault (List Pixel) := do
  o.pixels (← s.read p)

/-- Runs an edit on the bytes at a place, which has to lie in a buffer. -/
def edit {α : Type} (hw : Hardware) (p : Place) (act : Edit α) (s : Session) :
    Except Failure α × Session :=
  match s.buffers[p.buffer]? with
  | none => (.error (.fault (.noBuffer p.buffer)), s)
  | some b =>
    let (r, w) := Edit.exec hw (p.focus act) ⟨s.selection, b⟩
    (r, ⟨w.selection, s.buffers.set p.buffer w.view⟩)

def call (hw : Hardware) : Call → Session → Except Failure Reply × Session
  | .change c target, s => s.edit hw target c.edit
  | .copy c source target, s =>
    match s.read source with
    | .error f => (.error (.fault f), s)
    | .ok b => s.edit hw target (c.edit b)
  | .offered, s => (.ok (.offered (TierSet.ofHardware hw)), s)
  | .chosen, s =>
    let (t, selection) := s.selection.choose hw
    (.ok (.chosen t), { s with selection := selection })

/-- Runs some calls, each on its hardware, and gives their answers and the session after each. -/
def run : List (Hardware × Call) → Session → List (Except Failure Reply × Session)
  | [], _ => []
  | (hw, c) :: rest, s => s.call hw c :: run rest (s.call hw c).2

def after : List (Hardware × Call) → Session → Session
  | [], s => s
  | (hw, c) :: rest, s => after rest (s.call hw c).2

theorem after_cons (hw : Hardware) (c : Call) (rest : List (Hardware × Call)) (s : Session) :
    after ((hw, c) :: rest) s = after rest (s.call hw c).2 := rfl

end Session

end RedBlue
