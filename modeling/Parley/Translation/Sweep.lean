import Parley.Config
import Parley.Translation.Store

/-!
# Sweeping

Locks whose owner is gone are released after a while, so that their texts can
be translated after all. A sweep happens at the start and then at intervals.
-/

namespace Parley
namespace Translation

def restampSecs : Nat := 30

def signed64 (n : Int) : Int :=
  (n + 9223372036854775808) % 18446744073709551616 - 9223372036854775808

/-- Locks stamped before this instant are stale; a time to live is taken as 64 bits with a sign. -/
def staleBefore (now : Int) (ttl : Nat) : Int :=
  signed64 (now - signed64 ttl)

def Store.sweepStale (s : Store) (now : Int) (ttl : Nat) : Except StoreError Nat × Store :=
  s.sweep (staleBefore now ttl)

def sweepInterval (c : Config.Cleanup) : Nat :=
  max c.intervalSecs 1

def sweepTimes (c : Config.Cleanup) (millis : Nat) : Option (List Nat) :=
  if c.enabled then
    let step := 1000 * sweepInterval c
    some ((List.range (millis / step + 1)).map (· * step))
  else none

/-- What the log says of a time to live that running jobs cannot keep up with. -/
def ttlWarning? (c : Config.Cleanup) : Option String :=
  if c.enabled && c.lockTtlSecs ≤ restampSecs then
    some ("Lock ttl " ++ toString c.lockTtlSecs ++ "s does not exceed the " ++
      toString restampSecs ++ "s refresh interval; running jobs may lose their locks")
  else none

end Translation
end Parley
