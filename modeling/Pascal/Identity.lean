/-!
# Identities

Syntax nodes, scopes, declarations, structured types and enumerations are each known by the
position at which they were created. Identities count up and are never given out twice.
-/

namespace Pascal

/-- Identity of a syntax node within its tree. -/
structure NodeId where
  index : Nat
  deriving Repr, DecidableEq, Hashable, Inhabited

/-- Identity of a scope. -/
structure ScopeId where
  index : Nat
  deriving Repr, DecidableEq, Hashable, Inhabited

/-- Identity of a declaration. -/
structure DeclId where
  index : Nat
  deriving Repr, DecidableEq, Hashable, Inhabited

/-- Identity of a structured type. -/
structure StructId where
  index : Nat
  deriving Repr, DecidableEq, Hashable, Inhabited

/-- Identity of an enumeration. -/
structure EnumId where
  index : Nat
  deriving Repr, DecidableEq, Hashable, Inhabited

instance : LT NodeId := ⟨fun a b => a.index < b.index⟩

instance (a b : NodeId) : Decidable (a < b) := inferInstanceAs (Decidable (a.index < b.index))

end Pascal
