import Cppio.Network.Http.RequestStability
import Mathlib.Data.List.TakeWhile

/-!
# Which request lines are accepted

`request::create` does not look at the parts that it takes from the first line: a
missing space makes the parts overlap, and a name that is no method becomes `GET`.
A malformed line is rejected only where the text is refused for another reason.
-/

namespace Cppio
namespace Http
namespace Request

/-! ## Texts that are refused -/

/-- The first line of a text. -/
def firstLine (text : Bytes) : Bytes :=
  match Search.cut lineEnd text with
  | none => text
  | some (line, _) => line

/-- The line that `create` takes from the head is the first of the text. -/
theorem firstLine_of_cut
    {text line block : Bytes}
    (split : Search.cut lineEnd (headOf text) = some (line, block)) :
    firstLine text = line := by
  unfold headOf at split
  cases found : Search.cut blockEnd text with
  | none =>
      rw [found] at split
      rw [firstLine, split]
  | some parts =>
      obtain ⟨head, after⟩ := parts
      rw [found] at split
      obtain ⟨rfl, single⟩ := Search.cut_pair_eq_some split
      obtain ⟨rfl, -⟩ := Search.cut_eq_some found
      have first : Search.cut lineEnd (line ++ 13 :: 10 :: block ++ blockEnd ++ after) =
          some (line, block ++ blockEnd ++ after) := by
        rw [List.append_assoc, List.append_assoc, List.cons_append, List.cons_append,
          ← List.append_assoc]
        exact Search.cut_pair_append (by decide) single _
      rw [firstLine, first]

/-- The header loop gets to a line without a colon. -/
def BlockRefused (lines : List Bytes) : Prop :=
  (∀ line ∈ lines.takeWhile (fun line => decide (colon ∈ line)), ¬EndsAtColon line) ∧
    ∃ line ∈ lines, colon ∉ line

theorem addLines_error_iff (map : HeaderMap) (lines : List Bytes) :
    (∃ code, HeaderMap.addLines map lines = .ok (.error code)) ↔ BlockRefused lines := by
  induction lines generalizing map with
  | nil => simp [HeaderMap.addLines, BlockRefused]
  | cons line rest inductionHypothesis =>
      by_cases present : colon ∈ line
      · rw [BlockRefused, List.takeWhile_cons_of_pos (by simpa using present),
          List.forall_mem_cons]
        by_cases ends : EndsAtColon line
        · simp [HeaderMap.addLines, parseLine_of_endsAtColon ends, ends]
        · obtain ⟨header, parsed⟩ := exists_parseLine present ends
          rw [HeaderMap.addLines, parsed]
          simpa [ends, present, BlockRefused] using inductionHypothesis _
      · rw [BlockRefused, List.takeWhile_cons_of_neg (by simpa using present), HeaderMap.addLines,
          parseLine_of_not_mem present]
        exact iff_of_true ⟨.invalidArgument, rfl⟩ ⟨by simp, line, List.mem_cons_self, present⟩

/-- Without a line end in its head, or for its header lines, a text is refused. -/
def Refused (text : Bytes) : Prop :=
  match Search.cut lineEnd (headOf text) with
  | none => True
  | some (_, block) => BlockRefused (HeaderMap.lines block)

theorem create_error_iff (text : StringView) :
    (∃ code, create text = .ok (.error code)) ↔ Refused text.bytes := by
  rw [create_eq, parse, Refused]
  cases Search.cut lineEnd (headOf text.bytes) with
  | none => exact iff_of_true ⟨.invalidArgument, rfl⟩ trivial
  | some parts =>
      obtain ⟨line, block⟩ := parts
      dsimp only
      rw [← addLines_error_iff .empty]
      cases HeaderMap.addLines .empty (HeaderMap.lines block) with
      | error thrown => simp
      | ok outcome =>
          cases outcome with
          | error code => simp
          | ok headers => simp

/-! ## Lines that are well formed -/

/-- The line is the method, a space, the target, a space and the version. -/
structure IsRequestLine (line : Bytes) (method : Method) (target version : Bytes) : Prop where
  parts : line = method.toString ++ space :: (target ++ space :: version)
  targetNonempty : target ≠ []
  targetSpace : space ∉ target
  versionNonempty : version ≠ []

/-- The target up to the first `?`. -/
def pathOf (target : Bytes) : Bytes :=
  target.takeWhile fun byte => byte ≠ questionMark

theorem pathOf_of_not_mem {target : Bytes} (absent : questionMark ∉ target) :
    pathOf target = target := by
  apply List.takeWhile_eq_self_iff.mpr
  intro byte present
  exact decide_eq_true fun same => absent (same ▸ present)

theorem pathOf_append {path : Bytes} (absent : questionMark ∉ path) (args : Bytes) :
    pathOf (path ++ questionMark :: args) = path := by
  rw [pathOf, List.takeWhile_append_of_pos, List.takeWhile_cons_of_neg (by simp),
    List.append_nil]
  intro byte present
  exact decide_eq_true fun same => absent (same ▸ present)

theorem splitRequestLine_of_isRequestLine
    {line target version : Bytes} {method : Method}
    (wellFormed : IsRequestLine line method target version) :
    splitRequestLine line = (method.toString, target, version) := by
  have methodNoSpace : space ∉ method.toString := fun present =>
    absurd (Method.upper_of_mem_toString present) (by decide)
  rw [splitRequestLine, wellFormed.parts, Search.cut_singleton_append methodNoSpace]
  dsimp only
  rw [Search.cut_singleton_append wellFormed.targetSpace]

theorem assemble_of_isRequestLine
    {line target version : Bytes} {method : Method}
    (wellFormed : IsRequestLine line method target version)
    (headers : HeaderMap) :
    (assemble line headers).method = method ∧ (assemble line headers).version = version ∧
      (assemble line headers).path = pathOf target := by
  rw [assemble, splitRequestLine_of_isRequestLine wellFormed]
  dsimp only
  cases query : Search.cut [questionMark] target with
  | none =>
      have absent := Search.cut_singleton_eq_none.mp query
      exact ⟨Method.create_toString method, rfl, (pathOf_of_not_mem absent).symm⟩
  | some cuts =>
      obtain ⟨path, args⟩ := cuts
      obtain ⟨rfl, absent⟩ := Search.cut_singleton_eq_some query
      exact ⟨Method.create_toString method, rfl, (pathOf_append absent args).symm⟩

/-- A request is made only of a well-formed first line, and any other is an error. -/
structure RejectsMalformed (text : StringView) : Prop where
  accepts : ∀ request, create text = .ok (.ok request) →
    ∃ target, IsRequestLine (firstLine text.bytes) request.method target request.version ∧
      request.path = pathOf target
  rejects : (¬∃ method target version,
      IsRequestLine (firstLine text.bytes) method target version) →
    ∃ code, create text = .ok (.error code)

/-- Only a text that is refused for another reason may have a malformed first line. -/
theorem rejectsMalformed_iff (text : StringView) :
    RejectsMalformed text ↔
      (∃ method target version, IsRequestLine (firstLine text.bytes) method target version) ∨
        Refused text.bytes := by
  constructor
  · intro rejects
    by_cases wellFormed : ∃ method target version,
        IsRequestLine (firstLine text.bytes) method target version
    · exact Or.inl wellFormed
    · exact Or.inr ((create_error_iff text).mp (rejects.rejects wellFormed))
  · rintro (⟨method, target, version, wellFormed⟩ | refused)
    · refine ⟨fun request created => ?_, fun malformed => ?_⟩
      · obtain ⟨line, block, headers, split, -, rfl⟩ := exists_parts_of_create created
        rw [firstLine_of_cut split] at wellFormed ⊢
        obtain ⟨sameMethod, sameVersion, samePath⟩ := assemble_of_isRequestLine wellFormed headers
        rw [sameMethod, sameVersion]
        exact ⟨target, wellFormed, samePath⟩
      · exact absurd ⟨method, target, version, wellFormed⟩ malformed
    · have error := (create_error_iff text).mpr refused
      refine ⟨fun request created => ?_, fun _ => error⟩
      obtain ⟨code, failed⟩ := error
      cases failed.symm.trans created

/-- A request with a method that there is not. -/
def unknownMethodText : StringView where
  bytes := ascii "BREW / HTTP/1.1\r\nA: b\r\n\r\n"
  bounded := by decide

/-- It is taken for a `GET`. -/
theorem not_rejectsMalformed_unknownMethod : ¬RejectsMalformed unknownMethodText := by
  have head : Search.cut lineEnd (headOf unknownMethodText.bytes) =
      some (ascii "BREW / HTTP/1.1", ascii "A: b") := by decide
  have line : HeaderMap.lines (ascii "A: b") = [ascii "A: b"] :=
    Search.pieces_of_cut_eq_none (by decide) (by decide)
  have created : create unknownMethodText =
      .ok (.ok (assemble (ascii "BREW / HTTP/1.1") (.add .empty (ascii "A") (ascii "b")))) := by
    rw [create_eq, parse, head]
    dsimp only
    rw [line]
    rfl
  intro rejects
  obtain ⟨target, wellFormed, -⟩ := rejects.accepts _ created
  rw [firstLine_of_cut head] at wellFormed
  have first : some (66 : UInt8) = some 71 := congrArg List.head? wellFormed.parts
  exact absurd first (by decide)

end Request
end Http
end Cppio
