import SymbolicScript.Limits

/-!
# Watchdogs

A watchdog is consulted every so many instructions and may ask the machine to stop. What matters
about it is how often it wants to be consulted and how it answers each consultation in turn; one
that reads a clock or a flag is a sequence of answers like any other.
-/

namespace SymbolicScript

/-- A watchdog and the number of times it has been consulted. -/
structure Watchdog where
  /-- The number of instructions between two consultations. -/
  pollEvery : Nat
  /-- Whether the answer to the consultation with that number is to stop. -/
  verdict : Nat → Bool
  /-- The number of consultations so far. -/
  calls : Nat

namespace Watchdog

/-- The number of instructions between two consultations of a watchdog that does not say. -/
def defaultPeriod : Nat := 100

/-- The watchdog that never stops and wants to be consulted as rarely as possible. -/
def lazy : Watchdog := ⟨Limits.word, fun _ => false, 0⟩

/-- The watchdog that always gives the same answer. -/
def steady (stop : Bool) : Watchdog := ⟨defaultPeriod, fun _ => stop, 0⟩

/-- The same watchdog with another period, of at least one instruction. -/
def pollingEvery (w : Watchdog) (period : Nat) : Watchdog :=
  { w with pollEvery := max period 1 }

/-- The watchdog that stops from the consultation with number `first` on. -/
def stoppingFrom (first period : Nat) : Watchdog := ⟨period, fun n => first ≤ n, 0⟩

/-- Consults the watchdog. -/
def consult (w : Watchdog) : Bool × Watchdog :=
  (w.verdict w.calls, { w with calls := w.calls + 1 })

/-- Consults the watchdog if it is due after `executed` instructions. -/
def poll (w : Watchdog) (executed : Nat) : Bool × Watchdog :=
  if executed % max w.pollEvery 1 = 0 then w.consult else (false, w)

end Watchdog

end SymbolicScript
