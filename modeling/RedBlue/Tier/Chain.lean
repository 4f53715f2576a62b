import RedBlue.Tier.Pass

/-! # The chain of passes

A buffer goes through the passes of a tier and of all tiers below it. Each one gets what the
ones before have left over, from a running offset on. A `Link` keeps what one pass got and how
far the offset went. -/

namespace RedBlue

open Edit

structure Link (γ : Type) where
  tier : Tier
  start : Nat
  stop : Nat
  given : γ

namespace Tier

/-- Sends the view, from the offset `done` on, through the passes of some tiers. -/
def linksAlong : List Tier → Nat → Edit (List (Link Bytes))
  | [], _ => return []
  | t :: rest, done => do
    let (given, handled) ← focus done (← size) (do return (← view, ← t.pass.inPlace))
    let stop ← sure (Size.add done handled)
    let links ← linksAlong rest stop
    return ⟨t, done, stop, given⟩ :: links

/-- Sends `source` and the view, both from the offset `done` on, through the copying passes of
some tiers. -/
def copyLinksAlong (source : Bytes) : List Tier → Nat → Edit (List (Link (Bytes × Bytes)))
  | [], _ => return []
  | t :: rest, done => do
    let part ← slice source done source.length
    let (given, handled) ← focus done (← size) (do return (← view, ← t.pass.copy part))
    let stop ← sure (Size.add done handled)
    let links ← copyLinksAlong source rest stop
    return ⟨t, done, stop, (part, given)⟩ :: links

def links (t : Tier) : Edit (List (Link Bytes)) := linksAlong t.chain 0

/-- The links of a copy that starts with this tier. Only the length that both buffers have is
handed on. -/
def copyLinks (t : Tier) (source : Bytes) : Edit (List (Link (Bytes × Bytes))) := do
  let common := min source.length (← size)
  let part ← slice source 0 common
  focus 0 common (copyLinksAlong part t.chain 0)

/-- Exchanges channels in every complete group of the view, starting with this tier. -/
def swap (t : Tier) : Edit Unit := do
  let _ ← t.links
  return ()

/-- Writes the exchanged groups of `source` over the view, starting with this tier. The shorter
of the two bounds the work. -/
def swapFrom (t : Tier) (source : Bytes) : Edit Unit := do
  let _ ← t.copyLinks source
  return ()

end Tier

end RedBlue
