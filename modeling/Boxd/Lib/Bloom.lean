import Mathlib.Data.List.Basic

/-! Bloom filters. An element sets the bits at its positions; an element whose bits are
all set may have been added. -/

namespace Boxd.Lib

structure Bloom (α : Type*) where
  positions : α → List Nat
  bits : List Nat

namespace Bloom

variable {α : Type*}

def hasMatch (filter : Bloom α) (element : α) : Bool := (filter.positions element).all (· ∈ filter.bits)

def add (filter : Bloom α) (element : α) : Bloom α :=
  { filter with bits := filter.positions element ++ filter.bits }

end Bloom
end Boxd.Lib
