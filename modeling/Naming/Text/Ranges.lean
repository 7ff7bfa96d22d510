namespace Naming.Text

/-- Characters told by the first and last number of each of their runs. -/
abbrev Ranges := List (Nat × Nat)

def Ranges.holds (r : Ranges) (c : Char) : Bool :=
  r.any fun (low, high) => low ≤ c.toNat && c.toNat ≤ high

end Naming.Text
