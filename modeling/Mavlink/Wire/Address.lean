import Mavlink.Bytes

/-!
# Addresses

A device is a component of a system.  Addresses are ordered by system, then by
component.
-/

namespace Mavlink

/-- A device on the link. -/
structure Address where
  system : UInt8
  component : UInt8
  deriving DecidableEq, Inhabited, Repr

namespace Address

/-- The text of an address. -/
def text (a : Address) : String :=
  toString a.system.toNat ++ ":" ++ toString a.component.toNat

instance : Ord Address := ⟨compareLex (compareOn system) (compareOn component)⟩

instance : Std.TransOrd Address :=
  inferInstanceAs (Std.TransCmp (compareLex (compareOn system) (compareOn component)))

instance : Std.LawfulEqOrd Address where
  eq_of_compare {a b} h := by
    obtain ⟨h1, h2⟩ : compare a.system b.system = .eq ∧ compare a.component b.component = .eq :=
      compareLex_eq_eq.1 h
    have h1 := Std.LawfulEqCmp.compare_eq_iff_eq.1 h1
    have h2 := Std.LawfulEqCmp.compare_eq_iff_eq.1 h2
    cases a; cases b; simp_all

end Address
end Mavlink
