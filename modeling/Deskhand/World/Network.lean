import Deskhand.World.Duration

/-!
# The network

What pings are answered with: a queue of answers, then one answer for ever. An answer is the time it
took, or nothing if the site was not reached.
-/

namespace Deskhand

/-- The answers to pings, and how many pings were made. -/
structure Network where
  answers : List (Option Duration)
  otherwise : Option Duration
  pings : Nat

namespace Network

/-- A network that is always up. -/
def up : Network := ⟨[], some (.ofMillis 20), 0⟩

/-- One ping: whether the site was reached, and the network afterwards. -/
def ping (n : Network) : Bool × Network :=
  match n.answers with
  | [] => (n.otherwise.isSome, { n with pings := n.pings + 1 })
  | a :: rest => (a.isSome, { n with answers := rest, pings := n.pings + 1 })

end Network

end Deskhand
