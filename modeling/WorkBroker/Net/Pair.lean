import WorkBroker.Net.Progress
/-!
Two plans played against each other over one link, on a clock that jumps to the next deadline when
neither can go on.
-/

set_option autoImplicit false
set_option relaxedAutoImplicit false

namespace WorkBroker.Net

structure Pair where
  link : Link
  now : Instant
  deriving Repr, Inhabited

namespace Pair

def ofCapacity (capacity : Nat) : Pair := ⟨Link.ofCapacity capacity, Instant.start⟩

/-- Plays both plans, the first end's first, until both are done or nothing can happen any more. -/
def play {α β : Type} : Nat → Plan α → Plan β → Pair → Plan α × Plan β × Pair
  | 0, a, b, w => (a, b, w)
  | fuel + 1, a, b, w =>
    let (movedA, a, link) := a.advance w.now false w.link
    let (movedB, b, link) := b.advance w.now false link.flip
    let w := { w with link := link.flip }
    if movedA || movedB then play fuel a b w
    else
      match Instant.earliest a.dueAt? b.dueAt? with
      | none => (a, b, w)
      | some moment => play fuel a b { w with now := moment }

end Pair
end WorkBroker.Net
