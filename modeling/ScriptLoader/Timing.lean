import ScriptLoader.Decimal.Fixed
import ScriptLoader.Pipeline.Progress

/-! Times of stages and their report. -/

set_option autoImplicit false
namespace ScriptLoader

/-- A measured phase; durations are nanoseconds in 64 bits. -/
structure Phase where
  name : String
  nanos : Int
  note : String := ""
  deriving DecidableEq, Repr

structure Timer where
  phases : List Phase := []
  deriving DecidableEq, Repr

namespace Timer

def record (timer : Timer) (phase : Phase) : Timer := ⟨timer.phases ++ [phase]⟩

def start (timer : Timer) (name : String) : Timer := timer.record ⟨name, 0, ""⟩

def finish (timer : Timer) (number : Int) (nanos : Int) (note : String) : Timer :=
  if 0 ≤ number then
    ⟨timer.phases.modify number.toNat fun phase => { phase with nanos := nanos, note := note }⟩
  else timer

/-- Takes down a stage that ended; one that begins is not taken down. -/
def observe (timer : Timer) (stage : String) (status : Status) (nanos : Int) : Timer :=
  match status with
  | .working => timer
  | .done => timer.record ⟨stage, nanos, ""⟩
  | .error => timer.record ⟨stage, nanos, "failed"⟩

/-- The sum of all durations, which wraps around. -/
def total (timer : Timer) : Int := Int.bmod ((timer.phases.map (·.nanos)).foldr (· + ·) 0) 0x10000000000000000

/-- Nanoseconds as milliseconds with the given places. Both the number and the quotient are rounded to binary64. -/
def millis (places : Nat) (nanos : Int) : String :=
  let magnitude := ((Binary64.ofQuotient? nanos.natAbs 1).getD ⟨0, Binary64.minPower⟩).divNat 1000000
  (if nanos < 0 then "-" else "") ++ magnitude.fixed places

def summaryLine (name : String) (nanos : Int) : String :=
  "  " ++ Text.padRight 20 name ++ " " ++ Text.padLeft 7 (millis 2 nanos) ++ " ms"

def summary (timer : Timer) : String :=
  "timings:\n" ++
    String.join (timer.phases.map fun phase =>
      summaryLine phase.name phase.nanos ++ (if phase.note = "" then "" else "  // " ++ phase.note) ++ "\n") ++
    summaryLine "total" timer.total ++ "\n"

end Timer
end ScriptLoader
