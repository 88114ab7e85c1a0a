/-!
# Compilation target
-/

namespace Pascal

/-- The widths, in bytes, that differ between compilation targets. -/
structure Target where
  pointerSize : Nat := 4
  extendedSize : Nat := 10
  deriving Repr, DecidableEq, Inhabited

end Pascal
