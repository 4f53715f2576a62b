import RedBlue.Tier.Set

/-! # The tier of a process

The first use settles, once for the life of a process, which tier the plain operations run on:
the widest one that the hardware offers at that moment. The choice is kept in one byte, which
stands for a tier or for "not settled", and settling writes one record to the log. -/

namespace RedBlue

/-- A record of the log: the tier that a first use settled on. -/
structure Record where
  tier : Tier
deriving DecidableEq

namespace Record

def level (_ : Record) : String := "DEBUG"

def target (_ : Record) : String := "chanswap::dispatch"

/-- The words of a record around the name of the tier and its block. -/
def text (name block : String) : String :=
  "chanswap: dispatch resolved to " ++ name ++ " (" ++ block ++ " bytes per step)"

def message (r : Record) : String := text r.tier.name (toString r.tier.block)

/-- The message of a record with everything that depends on the machine left open. -/
def openMessage (_ : Record) : String := text "<tier>" "<block>"

end Record

/-- What a process remembers between calls, its buffers apart. -/
structure Selection where
  /-- The byte that stands for the settled tier. -/
  cell : UInt8
  /-- The records written so far, oldest first. -/
  log : List Record
deriving DecidableEq

namespace Selection

def unsettled : UInt8 := 255

def start : Selection := ⟨unsettled, []⟩

/-- Publishes a tier if none is published yet, and gives the published one. -/
def settle (s : Selection) (t : Tier) : Tier × Selection :=
  if s.cell = unsettled then (t, ⟨t.code, s.log ++ [⟨t⟩]⟩)
  else ((Tier.ofCode? s.cell).getD t, s)

/-- The tier of the process, settled now if it is not settled yet. -/
def choose (hw : Hardware) (s : Selection) : Tier × Selection :=
  match Tier.ofCode? s.cell with
  | some t => (t, s)
  | none => s.settle (TierSet.ofHardware hw).widest

/-- A first use settles on the widest tier that the hardware runs. -/
theorem choose_start (hw : Hardware) :
    choose hw start =
      ((TierSet.ofHardware hw).widest,
        ⟨(TierSet.ofHardware hw).widest.code, [⟨(TierSet.ofHardware hw).widest⟩]⟩) := rfl

theorem choose_of_ofCode? {s : Selection} {t : Tier} (h : Tier.ofCode? s.cell = some t)
    (hw : Hardware) : choose hw s = (t, s) := by
  rw [choose, h]

end Selection

end RedBlue
