/-! Sets of characters given as inclusive ranges of code points. -/

set_option autoImplicit false
namespace ScriptLoader.Text

def covers (ranges : Array (Nat × Nat)) (c : Char) : Bool :=
  ranges.any fun (low, high) => low ≤ c.toNat && c.toNat ≤ high

end ScriptLoader.Text
