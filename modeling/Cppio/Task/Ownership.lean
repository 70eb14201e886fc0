import Cppio.Task.Coroutine
import Mathlib.Order.Nat
import Mathlib.Tactic.SplitIfs

/-!
# Who owns a coroutine frame

The `task` of an awaited coroutine is a temporary in the frame of the coroutine that
awaits it, and destroys the frame of the awaited one with it.  Between two steps the frames
of a task are a chain of such owners, from the task's own coroutine inwards, and none besides.
-/

namespace Cppio

variable {Code Effect Value World : Type} {Reply : Effect → Type}

namespace Frames

/-- The frame has been made and not been destroyed. -/
def Live (frames : Frames Code Value) (handle : Handle) : Prop :=
  ∃ frame, frames.frame handle = some frame

/-- The `task` of `inner` is in the frame of `outer`. -/
def Owns (frames : Frames Code Value) (outer inner : Handle) : Prop :=
  ∃ frame next, frames.frame outer = some frame ∧ frame.point = .resumption inner next

/-- The owner of `inner`, its owner and so on; `m_outer_handle` of `inner` is `outerHandle`. -/
inductive Owners (frames : Frames Code Value) : Handle → Option Handle → List Handle → Prop
  | root : Owners frames rootHandle none []
  | owned {inner outer : Handle} {frame : Frame Code Value} {next : Value → Code}
      {owners : List Handle}
      (below : outer < inner)
      (found : frames.frame outer = some frame)
      (linked : frame.innerHandle = some inner)
      (awaits : frame.point = .resumption inner next)
      (rest : Owners frames outer frame.outerHandle owners) :
      Owners frames inner (some outer) (outer :: owners)

variable {frames frames' : Frames Code Value} {handle inner outer curr child : Handle}
variable {frame : Frame Code Value} {outerHandle : Option Handle} {owners : List Handle}

theorem Owners.lt (chain : Owners frames handle outerHandle owners) :
    ∀ other ∈ owners, other < handle := by
  induction chain with
  | root => simp
  | owned below _ _ _ _ inductionHypothesis =>
      refine List.forall_mem_cons.mpr ⟨below, fun other present => ?_⟩
      exact (inductionHypothesis other present).trans below

theorem Owners.congr
    (chain : Owners frames handle outerHandle owners)
    (same : ∀ other < handle, frames'.frame other = frames.frame other) :
    Owners frames' handle outerHandle owners := by
  induction chain with
  | root => exact .root
  | owned below found linked awaits _ inductionHypothesis =>
      refine .owned below ((same _ below).trans found) linked awaits ?_
      exact inductionHypothesis fun other less => same other (less.trans below)

/-- The coroutine, those that own it, and those that `frames` has besides. -/
structure Tops
    (frames : Frames Code Value) (curr : Handle) (frame : Frame Code Value)
    (owners besides : List Handle) : Prop where
  chain : Owners frames curr frame.outerHandle owners
  live : ∀ handle, frames.Live handle ↔ handle = curr ∨ handle ∈ owners ∨ handle ∈ besides
  bound : ∀ handle, frames.Live handle → handle < frames.next

/-- Where `one_step` leaves the frames of a task: at a coroutine that awaits none, or at one
whose awaited coroutine has returned. -/
inductive Rests
    (frames : Frames Code Value) (curr : Handle) (frame : Frame Code Value)
    (owners : List Handle) : Prop
  | free (found : frames.frame curr = some frame) (innermost : frame.innerHandle = none)
      (tops : Tops frames curr frame owners [])
      (leaf : ∀ child next, frame.point ≠ .resumption child next)
  | delivered {child : Handle} {next : Value → Code} {returned : Frame Code Value}
      (found : frames.frame curr = some frame) (innermost : frame.innerHandle = none)
      (tops : Tops frames curr frame owners [child])
      (awaits : frame.point = .resumption child next) (below : curr < child)
      (foundChild : frames.frame child = some returned) (final : returned.point = .final)
      (linked : returned.outerHandle = some curr) (last : returned.innerHandle = none)

theorem Rests.innermost (rests : Rests frames curr frame owners) :
    frames.frame curr = some frame ∧ frame.innerHandle = none := by
  cases rests with
  | free found innermost => exact ⟨found, innermost⟩
  | delivered found innermost => exact ⟨found, innermost⟩

theorem Rests.chain (rests : Rests frames curr frame owners) :
    Owners frames curr frame.outerHandle owners := by
  cases rests with
  | free _ _ tops => exact tops.chain
  | delivered _ _ tops => exact tops.chain

/-- An owner's `m_inner_handle` leads to what it owns. -/
theorem Owners.linked
    (chain : Owners frames curr outerHandle owners) (present : handle ∈ owners) :
    ∃ frame inner, frames.frame handle = some frame ∧ frame.innerHandle = some inner ∧
      (inner = curr ∨ inner ∈ owners) := by
  induction chain with
  | root => cases present
  | owned _ found linked _ _ inductionHypothesis =>
      rcases List.mem_cons.mp present with rfl | present
      · exact ⟨_, _, found, linked, Or.inl rfl⟩
      · obtain ⟨frame, inner, foundHere, linkedHere, within⟩ := inductionHypothesis present
        refine ⟨frame, inner, foundHere, linkedHere, Or.inr ?_⟩
        exact within.elim (fun same => same ▸ List.mem_cons_self) (List.mem_cons_of_mem _)

/-- The owners begin with the task's own coroutine. -/
theorem Owners.root_mem (chain : Owners frames curr outerHandle owners) :
    rootHandle = curr ∨ rootHandle ∈ owners := by
  induction chain with
  | root => exact Or.inl rfl
  | owned _ _ _ _ _ inductionHypothesis =>
      exact Or.inr (List.mem_cons.mpr inductionHypothesis)

/-- The frames are a chain of owners. -/
def Owned (frames : Frames Code Value) : Prop :=
  ∃ curr frame owners, Rests frames curr frame owners

theorem live_put {new : Frame Code Value} :
    (frames.put handle (some new)).Live inner ↔ inner = handle ∨ frames.Live inner := by
  by_cases same : inner = handle
  · subst same
    simp [Live]
  · simp [Live, frames.put_frame_of_ne _ same, same]

theorem live_put_none :
    (frames.put handle none).Live inner ↔ inner ≠ handle ∧ frames.Live inner := by
  by_cases same : inner = handle
  · subst same
    simp [Live]
  · simp [Live, frames.put_frame_of_ne _ same, same]

/-- The coroutine changes its own frame. -/
theorem Tops.change
    (tops : Tops frames curr frame owners []) {frame' : Frame Code Value}
    (outer : frame'.outerHandle = frame.outerHandle) :
    Tops (frames.put curr (some frame')) curr frame' owners [] where
  chain := by
    rw [outer]
    exact tops.chain.congr fun other less => frames.put_frame_of_ne _ less.ne
  live handle := by
    rw [live_put, tops.live handle]
    tauto
  bound handle live := by
    refine tops.bound handle ?_
    rw [live_put] at live
    rw [tops.live handle]
    rw [tops.live handle] at live
    tauto

/-- The coroutine makes a frame, and waits for it. -/
theorem Tops.await
    (tops : Tops frames curr frame owners []) (code : Code) (next : Value → Code) :
    Tops (frames.await curr frame code next) frames.next (start (some curr) code) (curr :: owners)
      [] := by
  have bound : curr < frames.next := tops.bound curr ((tops.live curr).mpr (Or.inl rfl))
  have live : ∀ handle, (frames.await curr frame code next).Live handle ↔
      handle = curr ∨ handle = frames.next ∨ frames.Live handle := fun handle => by
    change Live (put _ _ _) handle ↔ _
    rw [live_put, live_put]
  refine ⟨?_, fun handle => ?_, fun handle here => ?_⟩
  · refine .owned bound (put_frame_self _ _ _) rfl rfl ?_
    apply tops.chain.congr
    intro other less
    change (put _ curr _).frame other = _
    rw [put_frame_of_ne _ _ less.ne, put_frame_of_ne _ _ (less.trans bound).ne]
  · rw [live, tops.live, List.mem_cons]
    tauto
  · change handle < frames.next + 1
    rcases (live handle).mp here with rfl | rfl | before
    · exact Nat.lt_succ_of_lt bound
    · exact Nat.lt_succ_self _
    · exact Nat.lt_succ_of_lt (tops.bound handle before)

/-- The coroutine has returned, and the loop of `one_step` comes to its owner. -/
theorem Tops.unlink
    {own frame' : Frame Code Value} (tops : Tops frames curr frame (outer :: owners) [])
    (rest : Owners frames outer own.outerHandle owners) (below : outer < curr) :
    Tops ((frames.put curr (some frame')).put outer (some own.resumable)) outer own.resumable
      owners [curr] where
  chain := rest.congr fun other less => by
    rw [put_frame_of_ne _ _ less.ne, put_frame_of_ne _ _ (less.trans below).ne]
  live handle := by
    rw [live_put, live_put, tops.live handle, List.mem_cons, List.mem_singleton]
    tauto
  bound handle live := by
    refine tops.bound handle ?_
    rw [live_put, live_put] at live
    rw [tops.live handle, List.mem_cons]
    rw [tops.live handle, List.mem_cons] at live
    tauto

/-- The value is taken, and the frame of the awaited coroutine destroyed. -/
theorem Tops.destroy
    (tops : Tops frames curr frame owners [child]) (below : curr < child) :
    Tops (frames.put child none) curr frame owners [] where
  chain := tops.chain.congr fun other less => frames.put_frame_of_ne _ (less.trans below).ne
  live handle := by
    have older : ∀ other ∈ owners, other ≠ child :=
      fun other present => ((tops.chain.lt other present).trans below).ne
    rw [live_put_none, tops.live handle, List.mem_singleton]
    constructor
    · tauto
    · rintro (rfl | present | none)
      · exact ⟨below.ne, Or.inl rfl⟩
      · exact ⟨older handle present, Or.inr (Or.inl present)⟩
      · cases none
  bound handle live := tops.bound handle (live_put_none.mp live).2

/-- Where a coroutine is when it suspends or finishes. -/
inductive Left (frames : Frames Code Value) (curr : Handle) (frame : Frame Code Value) :
    Frames Code Value → Prop
  | suspends (next : Code) :
      Left frames curr frame (frames.put curr (some { frame with point := .code next }))
  | awaits (code : Code) (next : Value → Code) :
      Left frames curr frame (frames.await curr frame code next)
  | returns (value : Value) :
      Left frames curr frame
        (frames.put curr (some { frame with value := some value, point := .final }))

end Frames

namespace System

open Frames

variable {system : System Code Effect Value World Reply}
variable {frames frames' : Frames Code Value} {handle curr : Handle} {frame : Frame Code Value}
variable {owners : List Handle} {world world' : World} {fuel : Nat} {result : ScheduleType}

theorem left_of_run
    {code : Code} (ran : system.run curr frame frames fuel code world = .ok (frames', world')) :
    Left frames curr frame frames' := by
  induction fuel generalizing code world with
  | zero => cases ran
  | succ fuel inductionHypothesis =>
      rw [run] at ran
      split at ran
      · exact inductionHypothesis ran
      · exact inductionHypothesis ran
      · next next _ =>
          obtain ⟨rfl, -⟩ := Prod.mk.inj (Except.ok.inj ran)
          exact .suspends next
      · next child next _ =>
          obtain ⟨rfl, -⟩ := Prod.mk.inj (Except.ok.inj ran)
          exact .awaits child next
      · next value _ =>
          obtain ⟨rfl, -⟩ := Prod.mk.inj (Except.ok.inj ran)
          exact .returns value

/-- `resume` runs the coroutine as the only one that its owners own. -/
theorem left_of_resume
    (rests : Rests frames curr frame owners)
    (resumed : system.resume fuel curr frame frames world = .ok (frames', world')) :
    ∃ base, Tops base curr frame owners [] ∧ Left base curr frame frames' := by
  unfold resume at resumed
  split at resumed
  · cases resumed
  · next code point =>
      cases rests with
      | free _ _ tops => exact ⟨frames, tops, left_of_run resumed⟩
      | delivered _ _ _ awaits => cases point.symm.trans awaits
  · next child next point =>
      cases rests with
      | free _ _ _ leaf => exact absurd point (leaf child next)
      | delivered _ _ tops awaits below =>
          cases point.symm.trans awaits
          split at resumed
          · cases resumed
          · exact ⟨_, tops.destroy below, left_of_run resumed⟩

/-- After `resume` the loop of `one_step` leaves the frames, or comes to the owner. -/
theorem owned_of_afterResume
    {again : Handle → Frames Code Value → World →
      Except Stuck (ScheduleType × Frames Code Value × World)}
    {base left : Frames Code Value} {last : World}
    (innermost : frame.innerHandle = none)
    (tops : Tops base curr frame owners []) (here : Left base curr frame left)
    (goesOn : ∀ {outer : Handle} {frame : Frame Code Value} {owners : List Handle}
      {frames : Frames Code Value}, Rests frames outer frame owners →
      again outer frames world = .ok (result, frames', last) → frames'.Owned)
    (returned : system.afterResume again curr left world = .ok (result, frames', last)) :
    frames'.Owned := by
  unfold afterResume at returned
  cases here with
  | suspends next =>
      rw [put_frame_self] at returned
      obtain ⟨-, same⟩ := Prod.mk.inj (Except.ok.inj returned)
      obtain ⟨rfl, -⟩ := Prod.mk.inj same
      exact ⟨curr, _, owners, .free (put_frame_self _ _ _) innermost (tops.change rfl) (by simp)⟩
  | awaits code next =>
      have found : (base.await curr frame code next).frame curr = _ := put_frame_self _ _ _
      rw [found] at returned
      obtain ⟨-, same⟩ := Prod.mk.inj (Except.ok.inj returned)
      obtain ⟨rfl, -⟩ := Prod.mk.inj same
      have bound : curr < base.next := tops.bound curr ((tops.live curr).mpr (Or.inl rfl))
      have foundChild : (base.await curr frame code next).frame base.next =
          some (start (some curr) code) := by
        change (put _ curr _).frame base.next = _
        rw [put_frame_of_ne _ _ bound.ne', put_frame_self]
      exact ⟨base.next, _, curr :: owners,
        .free foundChild rfl (tops.await code next) (by simp [start])⟩
  | returns value =>
      obtain ⟨final, finalIs⟩ : ∃ final : Frame Code Value,
        { frame with value := some value, point := .final } = final := ⟨_, rfl⟩
      have atEnd : final.point = .final := by rw [← finalIs]
      have done : final.done = true := by rw [← finalIs]; rfl
      have last : final.innerHandle = none := by rw [← finalIs]; exact innermost
      have outer : final.outerHandle = frame.outerHandle := by rw [← finalIs]
      rw [finalIs, put_frame_self] at returned
      dsimp only at returned
      rw [if_neg (not_not_intro done), outer] at returned
      have chain := tops.chain
      cases outerHandle : frame.outerHandle with
      | none =>
          rw [outerHandle] at returned
          obtain ⟨-, same⟩ := Prod.mk.inj (Except.ok.inj returned)
          obtain ⟨rfl, -⟩ := Prod.mk.inj same
          exact ⟨curr, final, owners,
            .free (put_frame_self _ _ _) last (tops.change outer) (by simp [atEnd])⟩
      | some outerCurr =>
          rw [outerHandle] at chain returned
          cases chain with
          | owned below found linked awaits rest =>
              dsimp only at returned
              rw [put_frame_of_ne _ _ below.ne, found] at returned
              refine goesOn (.delivered (put_frame_self _ _ _) rfl (tops.unlink rest below) awaits
                below ?_ atEnd (outer.trans outerHandle) last) returned
              rw [put_frame_of_ne _ _ below.ne', put_frame_self]

theorem owned_of_unwind
    (rests : Rests frames curr frame owners)
    (unwound : system.unwind fuel curr frames world = .ok (result, frames', world')) :
    frames'.Owned := by
  induction fuel generalizing curr frame owners frames world with
  | zero => cases unwound
  | succ fuel inductionHypothesis =>
      obtain ⟨found, innermost⟩ := rests.innermost
      rw [unwind, found] at unwound
      dsimp only at unwound
      split_ifs at unwound
      · obtain ⟨-, same⟩ := Prod.mk.inj (Except.ok.inj unwound)
        obtain ⟨rfl, -⟩ := Prod.mk.inj same
        exact ⟨curr, frame, owners, rests⟩
      · obtain ⟨-, same⟩ := Prod.mk.inj (Except.ok.inj unwound)
        obtain ⟨rfl, -⟩ := Prod.mk.inj same
        exact ⟨curr, frame, owners, rests⟩
      · cases resumed : system.resume fuel curr frame frames world with
        | error stuck =>
            rw [resumed] at unwound
            cases unwound
        | ok left =>
            rw [resumed] at unwound
            obtain ⟨base, tops, here⟩ := left_of_resume rests resumed
            exact owned_of_afterResume innermost tops here inductionHypothesis unwound

/-- The handles in the promises lead the outer loop of `one_step` to where the frames rest. -/
theorem owned_of_descend
    (rests : Rests frames curr frame owners) (inside : handle = curr ∨ handle ∈ owners)
    (descended : system.descend fuel handle frames world = .ok (result, frames', world')) :
    frames'.Owned := by
  induction fuel generalizing handle with
  | zero => cases descended
  | succ fuel inductionHypothesis =>
      obtain ⟨found, innermost⟩ := rests.innermost
      rw [descend] at descended
      rcases inside with rfl | present
      · rw [found] at descended
        dsimp only at descended
        rw [innermost] at descended
        exact owned_of_unwind rests descended
      · obtain ⟨own, inner, foundOwn, linked, within⟩ := rests.chain.linked present
        rw [foundOwn] at descended
        dsimp only at descended
        rw [linked] at descended
        exact inductionHypothesis within descended

/-- `one_step` leaves the frames of the task a chain of owners. -/
theorem owned_of_oneStep
    (owned : frames.Owned)
    (returned : system.oneStep fuel frames world = .ok (result, frames', world')) :
    frames'.Owned := by
  obtain ⟨curr, frame, owners, rests⟩ := owned
  unfold oneStep at returned
  split_ifs at returned
  exact owned_of_descend rests rests.chain.root_mem returned

end System

namespace Frames

variable {frames : Frames Code Value} {handle inner outer other curr : Handle}
variable {frame : Frame Code Value} {outerHandle : Option Handle} {owners : List Handle}

theorem owned_ofCode (code : Code) : (ofCode code : Frames Code Value).Owned := by
  have found : (ofCode code : Frames Code Value).frame rootHandle = some (start none code) := by
    simp [ofCode]
  have live : ∀ handle, (ofCode code : Frames Code Value).Live handle ↔ handle = rootHandle := by
    intro handle
    by_cases same : handle = rootHandle
    · subst same
      simp [Live, found]
    · simp [Live, ofCode, same]
  refine ⟨rootHandle, _, [], .free found rfl ⟨.root, fun handle => ?_, fun handle here => ?_⟩ ?_⟩
  · simp [live]
  · rw [(live handle).mp here]
    exact Nat.zero_lt_one
  · simp [start]

/-- What a coroutine of the chain owns links back to it. -/
theorem Owners.linked_back
    (chain : Owners frames curr outerHandle owners) (found : frames.frame curr = some frame)
    (here : frame.outerHandle = outerHandle) (present : handle ∈ owners)
    (owns : frames.Owns handle inner) :
    ∃ frame, frames.frame inner = some frame ∧ frame.outerHandle = some handle := by
  induction chain generalizing frame with
  | root => cases present
  | owned _ foundOuter _ awaits _ inductionHypothesis =>
      rcases List.mem_cons.mp present with rfl | present
      · obtain ⟨own, next, foundOwn, point⟩ := owns
        obtain rfl := Option.some.inj (foundOuter.symm.trans foundOwn)
        cases awaits.symm.trans point
        exact ⟨frame, found, here⟩
      · exact inductionHypothesis foundOuter rfl present

/-- A coroutine of the chain is owned by the one that its `m_outer_handle` names. -/
theorem Owners.owns
    (chain : Owners frames curr outerHandle owners) (found : frames.frame curr = some frame)
    (here : frame.outerHandle = outerHandle) {own : Frame Code Value}
    (present : handle = curr ∨ handle ∈ owners) (foundOwn : frames.frame handle = some own)
    (linked : own.outerHandle = some outer) : frames.Owns outer handle := by
  induction chain generalizing frame with
  | root =>
      rcases present with rfl | present
      · obtain rfl := Option.some.inj (found.symm.trans foundOwn)
        cases here.symm.trans linked
      · cases present
  | owned _ foundOuter _ awaits _ inductionHypothesis =>
      rcases present with rfl | present
      · obtain rfl := Option.some.inj (found.symm.trans foundOwn)
        obtain rfl := Option.some.inj (here.symm.trans linked)
        exact ⟨_, _, foundOuter, awaits⟩
      · exact inductionHypothesis foundOuter rfl (List.mem_cons.mp present)

/-- The task's own coroutine comes to every other one. -/
theorem Owners.reaches
    (chain : Owners frames curr outerHandle owners) (present : handle = curr ∨ handle ∈ owners) :
    Relation.ReflTransGen frames.Owns rootHandle handle := by
  induction chain generalizing handle with
  | root =>
      rcases present with rfl | present
      · exact .refl
      · cases present
  | owned _ foundOuter _ awaits _ inductionHypothesis =>
      rcases present with rfl | present
      · exact (inductionHypothesis (Or.inl rfl)).tail ⟨_, _, foundOuter, awaits⟩
      · exact inductionHypothesis (List.mem_cons.mp present)

/-- An owner's `m_inner_handle` names what it owns. -/
theorem Owners.owns_inner
    (chain : Owners frames curr outerHandle owners) {own : Frame Code Value}
    (present : handle ∈ owners) (foundOwn : frames.frame handle = some own)
    (linked : own.innerHandle = some inner) : frames.Owns handle inner := by
  induction chain with
  | root => cases present
  | owned _ found linkedHere awaits _ inductionHypothesis =>
      rcases List.mem_cons.mp present with rfl | present
      · obtain rfl := Option.some.inj (found.symm.trans foundOwn)
        obtain rfl := Option.some.inj (linkedHere.symm.trans linked)
        exact ⟨_, _, found, awaits⟩
      · exact inductionHypothesis present

theorem Rests.linked_back
    (rests : Rests frames curr frame owners) (owns : frames.Owns outer inner) :
    ∃ frame, frames.frame inner = some frame ∧ frame.outerHandle = some outer := by
  obtain ⟨own, next, foundOwn, point⟩ := owns
  cases rests with
  | free found _ tops leaf =>
      rcases (tops.live outer).mp ⟨own, foundOwn⟩ with rfl | present | ⟨⟨⟩⟩
      · obtain rfl := Option.some.inj (found.symm.trans foundOwn)
        exact absurd point (leaf inner next)
      · exact tops.chain.linked_back found rfl present ⟨own, next, foundOwn, point⟩
  | delivered found _ tops awaits _ foundChild final linked =>
      rcases (tops.live outer).mp ⟨own, foundOwn⟩ with rfl | present | besides
      · obtain rfl := Option.some.inj (found.symm.trans foundOwn)
        cases awaits.symm.trans point
        exact ⟨_, foundChild, linked⟩
      · exact tops.chain.linked_back found rfl present ⟨own, next, foundOwn, point⟩
      · obtain rfl := List.mem_singleton.mp besides
        obtain rfl := Option.some.inj (foundChild.symm.trans foundOwn)
        cases final.symm.trans point

/-- No frame is left behind, and no handle leads to a frame that is gone. -/
structure Accounted (frames : Frames Code Value) : Prop where
  live : ∀ handle, frames.Live handle ↔ Relation.ReflTransGen frames.Owns rootHandle handle
  once : ∀ {outer other inner}, frames.Owns outer inner → frames.Owns other inner → outer = other
  innerHandle : ∀ {handle inner frame}, frames.frame handle = some frame →
    frame.innerHandle = some inner → frames.Owns handle inner
  outerHandle : ∀ {handle outer frame}, frames.frame handle = some frame →
    frame.outerHandle = some outer → frames.Owns outer handle

theorem Rests.accounted (rests : Rests frames curr frame owners) : frames.Accounted := by
  refine ⟨fun handle => ⟨?_, ?_⟩, ?_, ?_, ?_⟩
  · intro live
    cases rests with
    | free _ _ tops =>
        rcases (tops.live handle).mp live with same | present | ⟨⟨⟩⟩
        · exact tops.chain.reaches (Or.inl same)
        · exact tops.chain.reaches (Or.inr present)
    | delivered found _ tops awaits =>
        rcases (tops.live handle).mp live with same | present | besides
        · exact tops.chain.reaches (Or.inl same)
        · exact tops.chain.reaches (Or.inr present)
        · obtain rfl := List.mem_singleton.mp besides
          exact (tops.chain.reaches (Or.inl rfl)).tail ⟨_, _, found, awaits⟩
  · intro reached
    cases reached with
    | refl =>
        cases rests with
        | free _ _ tops => exact (tops.live _).mpr (tops.chain.root_mem.imp id Or.inl)
        | delivered _ _ tops => exact (tops.live _).mpr (tops.chain.root_mem.imp id Or.inl)
    | tail _ owns =>
        obtain ⟨frame, found, -⟩ := rests.linked_back owns
        exact ⟨frame, found⟩
  · intro outer other inner owns owns'
    obtain ⟨frame, found, linked⟩ := rests.linked_back owns
    obtain ⟨frame', found', linked'⟩ := rests.linked_back owns'
    obtain rfl := Option.some.inj (found.symm.trans found')
    exact Option.some.inj (linked.symm.trans linked')
  · intro handle inner own foundOwn linked
    cases rests with
    | free found innermost tops =>
        rcases (tops.live handle).mp ⟨own, foundOwn⟩ with rfl | present | ⟨⟨⟩⟩
        · obtain rfl := Option.some.inj (found.symm.trans foundOwn)
          cases innermost.symm.trans linked
        · exact tops.chain.owns_inner present foundOwn linked
    | delivered found innermost tops _ _ foundChild _ _ last =>
        rcases (tops.live handle).mp ⟨own, foundOwn⟩ with rfl | present | besides
        · obtain rfl := Option.some.inj (found.symm.trans foundOwn)
          cases innermost.symm.trans linked
        · exact tops.chain.owns_inner present foundOwn linked
        · obtain rfl := List.mem_singleton.mp besides
          obtain rfl := Option.some.inj (foundChild.symm.trans foundOwn)
          cases last.symm.trans linked
  · intro handle outer own foundOwn linked
    cases rests with
    | free found _ tops =>
        rcases (tops.live handle).mp ⟨own, foundOwn⟩ with same | present | ⟨⟨⟩⟩
        · exact tops.chain.owns found rfl (Or.inl same) foundOwn linked
        · exact tops.chain.owns found rfl (Or.inr present) foundOwn linked
    | delivered found _ tops awaits _ foundChild _ linkedChild =>
        rcases (tops.live handle).mp ⟨own, foundOwn⟩ with same | present | besides
        · exact tops.chain.owns found rfl (Or.inl same) foundOwn linked
        · exact tops.chain.owns found rfl (Or.inr present) foundOwn linked
        · obtain rfl := List.mem_singleton.mp besides
          obtain rfl := Option.some.inj (foundChild.symm.trans foundOwn)
          obtain rfl := Option.some.inj (linkedChild.symm.trans linked)
          exact ⟨_, _, found, awaits⟩

/-- Of a task that is done the frame of its own coroutine is left. -/
theorem Accounted.live_of_finishedWith
    (accounted : frames.Accounted) {value : Value} (finished : frames.FinishedWith value) :
    frames.Live handle ↔ handle = rootHandle := by
  rw [accounted.live]
  constructor
  · intro reached
    induction reached with
    | refl => rfl
    | tail _ owns inductionHypothesis =>
        subst inductionHypothesis
        obtain ⟨frame, next, found, point⟩ := owns
        obtain ⟨own, foundOwn, final, -⟩ := finished
        obtain rfl := Option.some.inj (found.symm.trans foundOwn)
        cases final.symm.trans point
  · rintro rfl
    exact .refl

end Frames
end Cppio
