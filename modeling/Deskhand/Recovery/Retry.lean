import Deskhand.Recovery.Config
import Deskhand.World.Basic

/-!
# Trying again

Wait, ping, and repeat until the site answers or the attempts are used up. Every wait lies between
the two bounds of the policy; if they are the wrong way round the first one is taken.
-/

namespace Deskhand

/-- How trying again came out. -/
inductive RetryOutcome where
  | reconnected (attempts : Nat)
  | exhausted (attempts : Nat)
  deriving DecidableEq

/-- The time to wait before the next attempt. The bounds are drawn between in whole milliseconds,
of which 64 bits count. -/
def RetryPolicy.backOff (p : RetryPolicy) (w : World) : Duration × World :=
  let lo := p.minBackOff.wholeMillis % Word.count64
  let hi := p.maxBackOff.wholeMillis % Word.count64
  if hi ≤ lo then (p.minBackOff, w)
  else
    let (millis, w) := w.drawNat lo hi
    (.ofMillis millis, w)

/-- Try up to `left` more times after the attempts made so far. -/
def RetryPolicy.attempt (p : RetryPolicy) (made : Nat) : Nat → World → RetryOutcome × World
  | 0, w => (.exhausted made, w)
  | left + 1, w =>
    let (wait, w) := p.backOff w
    let (reached, w) := (w.sleep wait).ping
    if reached then (.reconnected (made + 1), w) else p.attempt (made + 1) left w

/-- Try to reach the site of a policy. -/
def World.retry (p : RetryPolicy) (w : World) : RetryOutcome × World :=
  p.attempt 0 p.maxRetries w

end Deskhand
