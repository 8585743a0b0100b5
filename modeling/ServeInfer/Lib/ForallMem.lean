import Mathlib.Data.List.Basic

/-!
# Deciding what holds of the elements of a list

A statement about the elements of a list is decided by going over the list, also where
the type has finitely many elements to go over instead.
-/

namespace List

instance (priority := high) decidableForallMem {α : Type*} (p : α → Prop) [DecidablePred p]
    (l : List α) : Decidable (∀ a ∈ l, p a) :=
  List.decidableBAll p l

end List
