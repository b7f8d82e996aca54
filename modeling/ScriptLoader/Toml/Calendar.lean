import ScriptLoader.Text.Basic

/-! Dates and times of day, as far as it takes to tell right from wrong ones. -/

set_option autoImplicit false
namespace ScriptLoader.Toml

def fixedNumber? (width : Nat) (s : List Char) : Option (Nat × List Char) :=
  let digits := s.take width
  if digits.length = width ∧ digits.all Char.isDigit then
    some (digits.foldl (fun n c => n * 10 + (c.toNat - '0'.toNat)) 0, s.drop width)
  else none

def shortNumber? (s : List Char) : Option (Nat × List Char) := (fixedNumber? 2 s).or (fixedNumber? 1 s)

def expect? (c : Char) : List Char → Option (List Char)
  | d :: rest => if c = d then some rest else none
  | [] => none

def isLeap (year : Nat) : Bool := year % 4 = 0 && (year % 100 ≠ 0 || year % 400 = 0)

def daysIn (year month : Nat) : Nat :=
  if month = 2 then (if isLeap year then 29 else 28)
  else if [4, 6, 9, 11].contains month then 30
  else 31

def date? (s : List Char) : Option (List Char) := do
  let (year, s) ← fixedNumber? 4 s
  let (month, s) ← fixedNumber? 2 (← expect? '-' s)
  let (day, s) ← fixedNumber? 2 (← expect? '-' s)
  if 1 ≤ month ∧ month ≤ 12 ∧ 1 ≤ day ∧ day ≤ daysIn year month then some s else none

def dropFraction : List Char → List Char
  | '.' :: d :: rest => if d.isDigit then rest.dropWhile Char.isDigit else '.' :: d :: rest
  | s => s

def time? (s : List Char) : Option (List Char) := do
  let (hour, s) ← shortNumber? s
  let (minute, s) ← fixedNumber? 2 (← expect? ':' s)
  let (second, s) ← fixedNumber? 2 (← expect? ':' s)
  if hour < 24 ∧ minute < 60 ∧ second < 60 then some (dropFraction s) else none

def offset? : List Char → Option (List Char)
  | [] => some []
  | 'Z' :: rest => some rest
  | c :: s =>
    if c = '+' ∨ c = '-' then do
      let (hour, s) ← fixedNumber? 2 s
      let (minute, s) ← fixedNumber? 2 (← expect? ':' s)
      if hour ≤ 24 ∧ minute ≤ 60 then some s else none
    else none

/-- A date, a time, or both with or without an offset; a blank or `t` may divide them. -/
def isDatetime (text : List Char) : Bool :=
  let text := text.map fun c => if c = 't' ∨ c = ' ' then 'T' else if c = 'z' then 'Z' else c
  let whole : Option (List Char) := do
    match ← date? text with
    | [] => some []
    | rest => offset? (← time? (← expect? 'T' rest))
  whole == some [] || time? text == some []

end ScriptLoader.Toml
