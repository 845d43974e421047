import WorkloadSynth.Number.Decimal

/-!
# The fewest digits that read back

`Decimal.shortest` gives, for a finite double, the decimal with the fewest digits whose nearest
double is the given one, and among those the closest to it.  Seventeen digits are always enough;
the exact expansion stands behind them as the last candidate.
-/

namespace WorkloadSynth.Decimal

/-- Does this decimal read back as the magnitude of `x`? -/
def readsBack (x : Float) (d : Decimal) : Bool := d.toFloat.toBits == x.abs.toBits

/-- The candidates with `n` digits for a value with exact expansion `d`: the nearer neighbour
first. -/
def candidates (tie : Tie) (d : Decimal) (n : Nat) : List Decimal :=
  let place := d.top - n
  let near := d.roundTo tie place
  [⟨near, place⟩, ⟨d.otherNeighbour place near, place⟩]

/-- The fewest digits that read back as the magnitude of the finite double `x`; of two such
decimals the nearer one, and of two equally near the one that `tie` prefers. -/
def shortest (tie : Tie) (x : Float) : Decimal :=
  let exact := ofFloat x
  let found := (List.range 17).findSome? fun n => (candidates tie exact (n + 1)).find? (readsBack x)
  (found.getD exact).normalize

end WorkloadSynth.Decimal
