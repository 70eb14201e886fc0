import Mathlib.Data.List.Perm.Basic
import Mathlib.Data.List.Nodup
import Mathlib.Logic.Equiv.Basic
import Mathlib.Logic.Function.Basic

/-!
# Who holds what

Resources that are opened, held in slots and closed.  A ledger balances when
every opened resource is either closed, once, or held in exactly one slot.
Opening a new resource into a free slot, exchanging slots and closing what a
slot holds keep the balance; once no slot holds anything, what was closed is
what was opened.
-/

variable {Slot Resource : Type}

/-- What the slots hold, and what has been opened and closed. -/
structure Ledger (Slot Resource : Type) where
  holder : Slot → Option Resource
  opened : List Resource
  closed : List Resource

namespace Ledger

/-- Nothing is held and nothing has been opened. -/
def empty : Ledger Slot Resource where
  holder := fun _ => none
  opened := []
  closed := []

/-- Every opened resource is closed once or held in one slot. -/
structure Balanced (ledger : Ledger Slot Resource) : Prop where
  openedOnce : ledger.opened.Nodup
  closedOnce : ledger.closed.Nodup
  wasOpened : ledger.closed ⊆ ledger.opened
  held : ∀ slot resource, ledger.holder slot = some resource →
    resource ∈ ledger.opened ∧ resource ∉ ledger.closed
  single : ∀ slot slot' resource, ledger.holder slot = some resource →
    ledger.holder slot' = some resource → slot = slot'
  settled : ∀ resource ∈ ledger.opened, resource ∉ ledger.closed →
    ∃ slot, ledger.holder slot = some resource

theorem balanced_empty : (empty : Ledger Slot Resource).Balanced where
  openedOnce := List.nodup_nil
  closedOnce := List.nodup_nil
  wasOpened := List.Subset.refl _
  held := by simp [empty]
  single := by simp [empty]
  settled := by simp [empty]

/-- Once no slot holds anything, what was closed is what was opened. -/
theorem Balanced.closed_perm
    {ledger : Ledger Slot Resource}
    (balanced : ledger.Balanced)
    (none : ∀ slot, ledger.holder slot = none) :
    ledger.closed.Perm ledger.opened := by
  refine (List.perm_ext_iff_of_nodup balanced.closedOnce balanced.openedOnce).mpr
    fun resource => ⟨fun closed => balanced.wasOpened closed, fun opened => ?_⟩
  by_contra notClosed
  obtain ⟨slot, holds⟩ := balanced.settled resource opened notClosed
  rw [none slot] at holds
  cases holds

/-! ## Exchanging slots -/

/-- The slots exchange what they hold. -/
def exchange (ledger : Ledger Slot Resource) (places : Equiv.Perm Slot) :
    Ledger Slot Resource :=
  { ledger with holder := ledger.holder ∘ places }

theorem Balanced.exchange
    {ledger : Ledger Slot Resource}
    (balanced : ledger.Balanced)
    (places : Equiv.Perm Slot) :
    (ledger.exchange places).Balanced where
  openedOnce := balanced.openedOnce
  closedOnce := balanced.closedOnce
  wasOpened := balanced.wasOpened
  held slot resource holds := balanced.held (places slot) resource holds
  single slot slot' resource holds holds' :=
    places.injective (balanced.single _ _ resource holds holds')
  settled resource opened notClosed := by
    obtain ⟨slot, holds⟩ := balanced.settled resource opened notClosed
    exact ⟨places.symm slot, by simpa [Ledger.exchange] using holds⟩

variable [DecidableEq Slot]

/-! ## Opening -/

/-- A new resource in a slot. -/
def put (ledger : Ledger Slot Resource) (slot : Slot) (resource : Resource) :
    Ledger Slot Resource where
  holder := Function.update ledger.holder slot (some resource)
  opened := resource :: ledger.opened
  closed := ledger.closed

theorem Balanced.put
    {ledger : Ledger Slot Resource} {slot : Slot} {resource : Resource}
    (balanced : ledger.Balanced)
    (free : ledger.holder slot = none)
    (new : resource ∉ ledger.opened) :
    (ledger.put slot resource).Balanced where
  openedOnce := List.nodup_cons.mpr ⟨new, balanced.openedOnce⟩
  closedOnce := balanced.closedOnce
  wasOpened := List.subset_cons_of_subset _ balanced.wasOpened
  held slot' resource' holds := by
    simp only [Ledger.put, Function.update_apply] at holds
    split_ifs at holds
    · obtain rfl := Option.some.inj holds
      exact ⟨List.mem_cons_self, fun closed => new (balanced.wasOpened closed)⟩
    · obtain ⟨opened, notClosed⟩ := balanced.held slot' resource' holds
      exact ⟨List.mem_cons_of_mem _ opened, notClosed⟩
  single first second resource' holds holds' := by
    simp only [Ledger.put, Function.update_apply] at holds holds'
    split_ifs at holds holds' with isFirst isSecond isSecond
    · exact isFirst.trans isSecond.symm
    · obtain rfl := Option.some.inj holds
      exact absurd (balanced.held second _ holds').1 new
    · obtain rfl := Option.some.inj holds'
      exact absurd (balanced.held first _ holds).1 new
    · exact balanced.single first second resource' holds holds'
  settled resource' opened notClosed := by
    rcases List.mem_cons.mp opened with rfl | old
    · exact ⟨slot, Function.update_self _ _ _⟩
    · obtain ⟨slot', holds⟩ := balanced.settled resource' old notClosed
      have different : slot' ≠ slot := by
        rintro rfl
        rw [free] at holds
        cases holds
      exact ⟨slot', (Function.update_of_ne different _ _).trans holds⟩

/-! ## Closing -/

/-- What a slot holds is closed. -/
def close (ledger : Ledger Slot Resource) (slot : Slot) : Ledger Slot Resource where
  holder := Function.update ledger.holder slot none
  opened := ledger.opened
  closed := (ledger.holder slot).toList ++ ledger.closed

theorem Balanced.close
    {ledger : Ledger Slot Resource}
    (balanced : ledger.Balanced)
    (slot : Slot) :
    (ledger.close slot).Balanced where
  openedOnce := balanced.openedOnce
  closedOnce := by
    cases holds : ledger.holder slot with
    | none => simpa [Ledger.close, holds] using balanced.closedOnce
    | some resource =>
        have notClosed := (balanced.held slot resource holds).2
        simpa [Ledger.close, holds] using ⟨notClosed, balanced.closedOnce⟩
  wasOpened := by
    intro resource closed
    simp only [Ledger.close, List.mem_append, Option.mem_toList] at closed
    rcases closed with now | before
    · exact (balanced.held slot resource now).1
    · exact balanced.wasOpened before
  held slot' resource holds := by
    simp only [Ledger.close, Function.update_apply] at holds
    split_ifs at holds with different
    obtain ⟨opened, notClosed⟩ := balanced.held slot' resource holds
    refine ⟨opened, fun closed => ?_⟩
    simp only [Ledger.close, List.mem_append, Option.mem_toList] at closed
    rcases closed with now | before
    · exact different (balanced.single slot' slot resource holds now)
    · exact notClosed before
  single first second resource holds holds' := by
    simp only [Ledger.close, Function.update_apply] at holds holds'
    split_ifs at holds holds'
    exact balanced.single first second resource holds holds'
  settled resource opened notClosed := by
    simp only [Ledger.close, List.mem_append, Option.mem_toList, not_or] at notClosed
    obtain ⟨slot', holds⟩ := balanced.settled resource opened notClosed.2
    have different : slot' ≠ slot := by
      rintro rfl
      exact notClosed.1 holds
    exact ⟨slot', (Function.update_of_ne different _ _).trans holds⟩

end Ledger
