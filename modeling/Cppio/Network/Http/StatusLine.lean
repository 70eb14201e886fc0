import Cppio.Network.Http.RequestLine
import Cppio.Network.Http.Response

/-!
# Which status lines are accepted

`response::create` gives the second field of the first line to `std::stoul`.  That
skips blanks and a sign, stops at the first byte that is no digit and throws if
there is no number, and its 64 bits are cut to 32.
-/

namespace Cppio
namespace Http
namespace Response

/-- The field that is read as the code. -/
def codeField (line : Bytes) : Bytes :=
  (Request.splitRequestLine line).2.1

/-- After blanks and a sign there are digits, which stand for a number of 64 bits. -/
def Readable (code : Bytes) : Prop :=
  let digits := (skipSign (code.dropWhile isSpace)).2.takeWhile isDigit
  digits ≠ [] ∧ Numeral.read 10 (digits.map digitValue) < 2 ^ 64

theorem stoul_returns_iff (code : Bytes) :
    (∃ number, stoul code = .ok number) ↔ Readable code := by
  unfold stoul Readable
  dsimp only
  by_cases none : (skipSign (code.dropWhile isSpace)).2.takeWhile isDigit = []
  · rw [if_pos none]
    exact iff_of_false (by simp) fun readable => readable.1 none
  · rw [if_neg none]
    split_ifs with small
    · exact iff_of_true ⟨_, rfl⟩ ⟨none, small⟩
    · exact iff_of_true ⟨_, rfl⟩ ⟨none, small⟩
    · exact iff_of_false (by simp) fun readable => small readable.2

/-- The line is the version, a space and the code, and a reason may follow. -/
structure IsStatusLine (line version code : Bytes) : Prop where
  parts : line = version ++ space :: code ∨
    ∃ reason, line = version ++ space :: (code ++ space :: reason)
  versionSpace : space ∉ version
  nonempty : code ≠ []
  digits : ∀ ch ∈ code, isDigit ch = true
  small : Numeral.read 10 (code.map digitValue) < 2 ^ 32

namespace IsStatusLine

variable {line version code : Bytes}

theorem codeSpace (wellFormed : IsStatusLine line version code) : space ∉ code := fun present =>
  absurd (wellFormed.digits space present) (by decide)

theorem splitRequestLine_eq (wellFormed : IsStatusLine line version code) :
    (Request.splitRequestLine line).1 = version ∧ codeField line = code := by
  obtain rfl | ⟨reason, rfl⟩ := wellFormed.parts
  · rw [codeField, Request.splitRequestLine,
      Search.cut_singleton_append wellFormed.versionSpace]
    dsimp only
    rw [Search.cut_singleton_eq_none.mpr wellFormed.codeSpace]
    exact ⟨rfl, rfl⟩
  · rw [codeField, Request.splitRequestLine,
      Search.cut_singleton_append wellFormed.versionSpace]
    dsimp only
    rw [Search.cut_singleton_append wellFormed.codeSpace]
    exact ⟨rfl, rfl⟩

theorem stoul_eq (wellFormed : IsStatusLine line version code) :
    stoul (codeField line) = .ok (Numeral.read 10 (code.map digitValue)) := by
  have large : Numeral.read 10 (code.map digitValue) < 2 ^ 64 :=
    wellFormed.small.trans (by decide)
  rw [wellFormed.splitRequestLine_eq.2]
  exact stoul_of_isDigit wellFormed.nonempty wellFormed.digits large

end IsStatusLine

/-- `create` returns; a response is made only of a well-formed first line, and any
other is an error. -/
structure ValidatesStatus (text : StringView) : Prop where
  returns : ∃ outcome, create text = .ok outcome
  accepts : ∀ response, create text = .ok (.ok response) →
    ∃ code, IsStatusLine (Request.firstLine text.bytes) response.version code ∧
      response.code.toNat = Numeral.read 10 (code.map digitValue)
  rejects : (¬∃ version code, IsStatusLine (Request.firstLine text.bytes) version code) →
    ∃ code, create text = .ok (.error code)

/-- Where the head has a line end, no header line ends at its first colon, and the
status line is well formed, or it has a number and a header line has no colon. -/
def Accountable (text : Bytes) : Prop :=
  match Search.cut lineEnd (Request.headOf text) with
  | none => True
  | some (line, block) =>
      (∀ header ∈ (HeaderMap.lines block).takeWhile (fun header => decide (colon ∈ header)),
          ¬Request.EndsAtColon header) ∧
        ((∃ version code, IsStatusLine line version code) ∨
          Readable (codeField line) ∧ ∃ header ∈ HeaderMap.lines block, colon ∉ header)

/-- What `create` makes of a text whose head has a line end. -/
theorem create_of_cut
    {text : StringView} {line block : Bytes}
    (split : Search.cut lineEnd (Request.headOf text.bytes) = some (line, block)) :
    create text =
      match stoul (codeField line) with
      | .error thrown => .error (Thrown.ofStoul thrown)
      | .ok code =>
          match HeaderMap.addLines .empty (HeaderMap.lines block) with
          | .error thrown => .error (Thrown.ofSubstr thrown)
          | .ok (.error _) => .ok (.error .invalidArgument)
          | .ok (.ok headers) =>
              .ok (.ok ⟨(Request.splitRequestLine line).1, UInt32.ofNat code, headers, []⟩) := by
  rw [create_eq, parse, split]
  rfl

theorem create_error_iff
    {text : StringView} {line block : Bytes}
    (split : Search.cut lineEnd (Request.headOf text.bytes) = some (line, block)) :
    (∃ code, create text = .ok (.error code)) ↔
      Readable (codeField line) ∧ Request.BlockRefused (HeaderMap.lines block) := by
  rw [create_of_cut split, ← stoul_returns_iff, ← Request.addLines_error_iff .empty]
  cases stoul (codeField line) with
  | error thrown => simp
  | ok number =>
      cases HeaderMap.addLines .empty (HeaderMap.lines block) with
      | error thrown => simp
      | ok outcome =>
          cases outcome with
          | error code => simp
          | ok headers => simp

theorem create_returns_iff_readable
    {text : StringView} {line block : Bytes}
    (split : Search.cut lineEnd (Request.headOf text.bytes) = some (line, block)) :
    (∃ outcome, create text = .ok outcome) ↔
      Readable (codeField line) ∧
        ∀ header ∈ (HeaderMap.lines block).takeWhile (fun header => decide (colon ∈ header)),
          ¬Request.EndsAtColon header := by
  rw [create_of_cut split, ← stoul_returns_iff, ← Request.addLines_returns_iff .empty]
  cases stoul (codeField line) with
  | error thrown => simp
  | ok number =>
      cases HeaderMap.addLines .empty (HeaderMap.lines block) with
      | error thrown => simp
      | ok outcome =>
          cases outcome with
          | error code => simp
          | ok headers => simp

/-- The status line of a response that is made of a well-formed one. -/
theorem IsStatusLine.response_eq
    {text : StringView} {line block version code : Bytes} {response : Response}
    (wellFormed : IsStatusLine line version code)
    (split : Search.cut lineEnd (Request.headOf text.bytes) = some (line, block))
    (created : create text = .ok (.ok response)) :
    response.version = version ∧
      response.code.toNat = Numeral.read 10 (code.map digitValue) := by
  rw [create_of_cut split, wellFormed.stoul_eq, wellFormed.splitRequestLine_eq.1] at created
  dsimp only at created
  cases added : HeaderMap.addLines .empty (HeaderMap.lines block) with
  | error thrown => simp [added] at created
  | ok outcome =>
      rw [added] at created
      cases outcome with
      | error code => simp at created
      | ok headers =>
          obtain rfl := Except.ok.inj (Except.ok.inj created)
          exact ⟨rfl, UInt32.toNat_ofNat_of_lt' wellFormed.small⟩

/-- A status line is validated exactly if `stoul` gets digits alone, or a number where
the text is an error anyway. -/
theorem validatesStatus_iff (text : StringView) :
    ValidatesStatus text ↔ Accountable text.bytes := by
  unfold Accountable
  cases split : Search.cut lineEnd (Request.headOf text.bytes) with
  | none =>
      have failed : create text = .ok (.error .invalidArgument) := by
        rw [create_eq, parse, split]
      refine iff_of_true ⟨⟨_, failed⟩, fun response created => ?_, fun _ => ⟨_, failed⟩⟩ trivial
      cases failed.symm.trans created
  | some parts =>
      obtain ⟨line, block⟩ := parts
      have first := Request.firstLine_of_cut split
      constructor
      · intro validates
        obtain ⟨-, continues⟩ := (create_returns_iff_readable split).mp validates.returns
        refine ⟨continues, ?_⟩
        by_cases wellFormed : ∃ version code, IsStatusLine line version code
        · exact Or.inl wellFormed
        · have error := validates.rejects (first ▸ wellFormed)
          obtain ⟨readable, -, refused⟩ := (create_error_iff split).mp error
          exact Or.inr ⟨readable, refused⟩
      · rintro ⟨continues, ⟨version, code, wellFormed⟩ | ⟨readable, refused⟩⟩
        · have readable : Readable (codeField line) :=
            (stoul_returns_iff _).mp ⟨_, wellFormed.stoul_eq⟩
          refine ⟨(create_returns_iff_readable split).mpr ⟨readable, continues⟩,
            fun response created => ?_, fun malformed => ?_⟩
          · obtain ⟨sameVersion, sameCode⟩ := wellFormed.response_eq split created
            rw [first, sameVersion]
            exact ⟨code, wellFormed, sameCode⟩
          · rw [first] at malformed
            exact absurd ⟨version, code, wellFormed⟩ malformed
        · have error := (create_error_iff split).mpr ⟨readable, continues, refused⟩
          obtain ⟨code, failed⟩ := error
          refine ⟨⟨_, failed⟩, fun response created => ?_, fun _ => ⟨code, failed⟩⟩
          cases failed.symm.trans created

/-- A status line with a word for its code. -/
def wordCodeText : StringView where
  bytes := ascii "HTTP/1.1 OK\r\nA: b\r\n\r\n"
  bounded := by decide

/-- `stoul` finds no number and throws. -/
theorem not_validatesStatus_wordCode : ¬ValidatesStatus wordCodeText := by
  have head : Search.cut lineEnd (Request.headOf wordCodeText.bytes) =
      some (ascii "HTTP/1.1 OK", ascii "A: b") := by decide
  have thrown : stoul (codeField (ascii "HTTP/1.1 OK")) = .error .invalidArgument := by decide
  intro validates
  obtain ⟨outcome, created⟩ := validates.returns
  rw [create_of_cut head, thrown] at created
  cases created

end Response
end Http
end Cppio
