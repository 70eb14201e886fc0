import Cppio.Network.Http.Request

/-!
# Which texts `request::create` answers

The positions that `create` computes always name the parts that cuts of the
text name, also where a search fails and `npos + 1` wraps to zero.  The only
`substr` that can start past the end is the one for the value of a header line
that ends at its first colon; `create` returns exactly when its loop meets no
such line.
-/

namespace Cppio
namespace Http
namespace Request

/-! ## Parts of the text -/

/-- The text up to the first empty line, or all of it. -/
def headOf (text : Bytes) : Bytes :=
  match Search.cut blockEnd text with
  | none => text
  | some (head, _) => head

/-- Method, target and version of a request line.  Without a first space the
whole line is all three, and without a second one it is the version. -/
def splitRequestLine (line : Bytes) : Bytes × Bytes × Bytes :=
  match Search.cut [space] line with
  | none => (line, line, line)
  | some (method, rest) =>
      match Search.cut [space] rest with
      | none => (method, rest, line)
      | some (target, version) => (method, target, version)

/-- Key and value of a segment of the query string. -/
def splitParameter (segment : Bytes) : Bytes × Bytes :=
  match Search.cut [equalsSign] segment with
  | none => (segment, [])
  | some (key, value) => (key, value)

theorem cut_ampersand_length_lt
    {args before after : Bytes}
    (split : Search.cut [ampersand] args = some (before, after)) :
    after.length < args.length := by
  obtain ⟨rfl, -⟩ := Search.cut_singleton_eq_some split
  simp
  omega

/-- The parameters of a query string, added to those read before. -/
def decodeParameters (args : Bytes) (parameters : ParameterMap) : ParameterMap :=
  if args = [] then parameters
  else
    match _split : Search.cut [ampersand] args with
    | none =>
        parameters.insert (splitParameter args).1 (urlDecode (splitParameter args).2)
    | some (segment, rest) =>
        decodeParameters rest
          (parameters.insert (splitParameter segment).1 (urlDecode (splitParameter segment).2))
termination_by args.length
decreasing_by exact cut_ampersand_length_lt _split

theorem decodeParameters_of_cut_eq_none
    {args : Bytes}
    (nonempty : args ≠ [])
    (missing : Search.cut [ampersand] args = none)
    (parameters : ParameterMap) :
    decodeParameters args parameters =
      parameters.insert (splitParameter args).1 (urlDecode (splitParameter args).2) := by
  rw [decodeParameters, if_neg nonempty]
  split
  · rfl
  · simp_all

theorem decodeParameters_of_cut_eq_some
    {args segment rest : Bytes}
    (found : Search.cut [ampersand] args = some (segment, rest))
    (parameters : ParameterMap) :
    decodeParameters args parameters =
      decodeParameters rest (parameters.insert (splitParameter segment).1
        (urlDecode (splitParameter segment).2)) := by
  have nonempty : args ≠ [] := by
    obtain ⟨rfl, -⟩ := Search.cut_singleton_eq_some found
    simp
  rw [decodeParameters, if_neg nonempty]
  split <;> simp_all

/-- The request made of the parts of its line and of its headers. -/
def assemble (line : Bytes) (headers : HeaderMap) : Request :=
  let (method, target, version) := splitRequestLine line
  match Search.cut [questionMark] target with
  | none => ⟨Method.create method, version, target, headers, ∅⟩
  | some (path, args) =>
      ⟨Method.create method, version, path, headers, decodeParameters args ∅⟩

/-- `create` on cuts of the text. -/
def parse (text : Bytes) : Throws (Outcome Request) :=
  match Search.cut lineEnd (headOf text) with
  | none => .ok (.error .invalidArgument)
  | some (line, block) =>
      match HeaderMap.addLines .empty (HeaderMap.lines block) with
      | .error thrown => .error thrown
      | .ok (.error _) => .ok (.error .invalidArgument)
      | .ok (.ok headers) => .ok (.ok (assemble line headers))

theorem substr_head (text : StringView) :
    ∃ view, text.substr 0 (text.find blockEnd) = .ok view ∧
      view.bytes = headOf text.bytes := by
  unfold headOf
  cases split : Search.cut blockEnd text.bytes with
  | none =>
      rw [StringView.find_of_cut_eq_none split]
      exact ⟨text, text.substr_whole, rfl⟩
  | some parts =>
      obtain ⟨before, after⟩ := parts
      obtain ⟨whole, -⟩ := Search.cut_eq_some split
      rw [StringView.find_of_cut_eq_some split]
      exact text.exists_substr 0 before.length (by omega) (by simp [whole])

/-- The request line is read as its cuts at the first two spaces. -/
theorem readRequestLine_eq (line : StringView) :
    ∃ target, readRequestLine line =
        .ok ((splitRequestLine line.bytes).1, target, (splitRequestLine line.bytes).2.2) ∧
      target.bytes = (splitRequestLine line.bytes).2.1 := by
  have bound := line.bounded
  have wrapped : sizeAdd npos 1 = 0 := by decide
  cases first : Search.cut [space] line.bytes with
  | none =>
      have methodPos : line.findFirstOf space 0 = npos :=
        line.findFirstOf_of_cut_eq_none 0 (by simpa using first)
      refine ⟨line, ?_, by simp [splitRequestLine, first]⟩
      have count : sizeSub (sizeSub npos npos) 1 = npos := by decide
      simp only [readRequestLine, splitRequestLine, first, methodPos, wrapped, count,
        line.substr_whole]
      rfl
  | some parts =>
      obtain ⟨method, rest⟩ := parts
      obtain ⟨methodView, restView, rfl, rfl, parts⟩ := line.exists_parts first
      obtain ⟨parted, -⟩ := Search.cut_singleton_eq_some first
      have length := congrArg List.length parted
      simp only [List.length_append, List.length_cons] at length
      have methodPos : line.findFirstOf space 0 = methodView.bytes.length :=
        (line.findFirstOf_zero space).trans parts.found
      have next : sizeAdd methodView.bytes.length 1 = methodView.bytes.length + 1 := parts.next
      have atRest : line.bytes.drop (methodView.bytes.length + 1) = restView.bytes := by
        rw [parted, ← List.drop_drop, List.drop_left]
        rfl
      cases second : Search.cut [space] restView.bytes with
      | none =>
          have pathPos : line.findFirstOf space (methodView.bytes.length + 1) = npos :=
            line.findFirstOf_of_cut_eq_none _ (by rw [atRest]; exact second)
          have count :
              restView.bytes.length ≤ sizeSub (sizeSub npos methodView.bytes.length) 1 := by
            unfold sizeSub npos at *
            omega
          obtain ⟨target, targetSub, targetBytes⟩ :
              ∃ view, line.substr (methodView.bytes.length + 1)
                (sizeSub (sizeSub npos methodView.bytes.length) 1) = .ok view ∧
                  view.bytes = restView.bytes :=
            line.exists_substr _ _ (by omega) (by rw [atRest, List.take_of_length_le count])
          refine ⟨target, ?_, by simp [splitRequestLine, first, second, targetBytes]⟩
          simp only [readRequestLine, splitRequestLine, first, second, methodPos, next, pathPos,
            parts.first, targetSub, wrapped, line.substr_whole]
          rfl
      | some parts =>
          obtain ⟨path, version⟩ := parts
          obtain ⟨partedRest, -⟩ := Search.cut_singleton_eq_some second
          have lengthRest := congrArg List.length partedRest
          simp only [List.length_append, List.length_cons] at lengthRest
          have pathPos : line.findFirstOf space (methodView.bytes.length + 1) =
              methodView.bytes.length + 1 + path.length :=
            line.findFirstOf_of_cut_eq_some _ (by rw [atRest]; exact second)
          have count : sizeSub (sizeSub (methodView.bytes.length + 1 + path.length)
              methodView.bytes.length) 1 = path.length := by
            unfold sizeSub npos at *
            omega
          have last : sizeAdd (methodView.bytes.length + 1 + path.length) 1 =
              methodView.bytes.length + 1 + (path.length + 1) := by
            unfold sizeAdd npos at *
            omega
          obtain ⟨target, targetSub, targetBytes⟩ :
              ∃ view, line.substr (methodView.bytes.length + 1) path.length = .ok view ∧
                view.bytes = path :=
            line.exists_substr _ _ (by omega) (by rw [atRest, partedRest, List.take_left])
          obtain ⟨versionView, versionSub, rfl⟩ :
              ∃ view, line.substr (methodView.bytes.length + 1 + (path.length + 1)) npos =
                .ok view ∧ view.bytes = version := by
            apply line.exists_substr _ _ (by omega)
            rw [line.take_npos, ← List.drop_drop, atRest, partedRest, ← List.drop_drop,
              List.drop_left]
            rfl
          refine ⟨target, ?_, by simp [splitRequestLine, first, second, targetBytes]⟩
          simp only [readRequestLine, splitRequestLine, first, second, methodPos, next, pathPos,
            parts.first, count, targetSub, last, versionSub]
          rfl

theorem readParameter_eq (data : StringView) :
    readParameter data = .ok (splitParameter data.bytes) := by
  cases split : Search.cut [equalsSign] data.bytes with
  | none =>
      have missing : data.findFirstOf equalsSign 0 = npos :=
        data.findFirstOf_of_cut_eq_none 0 (by simpa using split)
      have notFound : ¬npos ≠ npos := fun different => different rfl
      simp only [readParameter, splitParameter, split, missing, data.substr_whole, notFound,
        if_false]
      rfl
  | some parts =>
      obtain ⟨key, value⟩ := parts
      obtain ⟨keyView, valueView, rfl, rfl, parts⟩ := data.exists_parts split
      have next : sizeAdd keyView.bytes.length 1 = keyView.bytes.length + 1 := parts.next
      have valueSub : data.substr (keyView.bytes.length + 1) npos = .ok valueView := parts.second
      simp only [readParameter, splitParameter, split, data.findFirstOf_zero, parts.found,
        parts.first, next, valueSub]
      dsimp only [bind, Except.bind]
      rw [if_pos parts.notEnd]
      rfl

/-- The last turn of the query loop, at a segment that no separator follows. -/
theorem parametersLoop_of_cut_eq_none
    {args : StringView}
    (nonempty : args.bytes ≠ [])
    (missing : Search.cut [ampersand] args.bytes = none)
    (parameters : ParameterMap) :
    parametersLoop args parameters =
      .ok (parameters.insert (splitParameter args.bytes).1
        (urlDecode (splitParameter args.bytes).2)) := by
  have isNonempty : args.bytes.isEmpty = false := by simpa using nonempty
  have found : args.findFirstOf ampersand 0 = npos :=
    args.findFirstOf_of_cut_eq_none 0 (by simpa using missing)
  -- `npos + 1` wraps to 0
  have restSub : args.substr (sizeAdd (args.findFirstOf ampersand 0) 1) npos = .ok args := by
    rw [found]
    exact args.substr_whole
  rw [parametersLoop]
  simp only [isNonempty, Bool.false_eq_true, if_false, found, args.substr_whole]
  dsimp only [bind, Except.bind]
  rw [readParameter_eq]
  dsimp only
  split
  · next _ thrown => cases restSub.symm.trans thrown
  · rfl

/-- One turn of the query loop, at a segment that a separator follows. -/
theorem parametersLoop_of_cut_eq_some
    {args rest : StringView} {segment : Bytes}
    (split_ : Search.cut [ampersand] args.bytes = some (segment, rest.bytes))
    (parameters : ParameterMap) :
    parametersLoop args parameters =
      parametersLoop rest (parameters.insert (splitParameter segment).1
        (urlDecode (splitParameter segment).2)) := by
  obtain ⟨data, rfl, parts⟩ := args.exists_first split_
  have next : sizeAdd data.bytes.length 1 = data.bytes.length + 1 := parts.next
  have isNonempty : args.bytes.isEmpty = false := by
    obtain ⟨parted, -⟩ := Search.cut_singleton_eq_some split_
    simp [parted]
  have restSub : args.substr (sizeAdd (args.findFirstOf ampersand 0) 1) npos = .ok rest := by
    rw [args.findFirstOf_zero, parts.found, next]
    exact parts.second
  rw [parametersLoop]
  simp only [isNonempty, Bool.false_eq_true, if_false, args.findFirstOf_zero, parts.found,
    parts.first]
  dsimp only [bind, Except.bind]
  rw [readParameter_eq]
  dsimp only
  split
  · next _ thrown => cases restSub.symm.trans thrown
  · next other taken =>
      obtain rfl : rest = other := Except.ok.inj (restSub.symm.trans taken)
      rw [dif_neg parts.notEnd]

/-- The query loop never throws. -/
theorem parametersLoop_eq (args : StringView) (parameters : ParameterMap) :
    parametersLoop args parameters = .ok (decodeParameters args.bytes parameters) := by
  induction length : args.bytes.length using Nat.strong_induction_on
      generalizing args parameters with
  | _ length inductionHypothesis =>
      subst length
      by_cases isEmpty : args.bytes = []
      · rw [parametersLoop, decodeParameters]
        simp [isEmpty]
      · cases split : Search.cut [ampersand] args.bytes with
        | none =>
            rw [parametersLoop_of_cut_eq_none isEmpty split,
              decodeParameters_of_cut_eq_none isEmpty split]
        | some parts =>
            obtain ⟨segment, after⟩ := parts
            have shorter := cut_ampersand_length_lt split
            let rest : StringView := ⟨after, shorter.trans args.bounded⟩
            have splitRest : Search.cut [ampersand] args.bytes = some (segment, rest.bytes) :=
              split
            rw [parametersLoop_of_cut_eq_some splitRest, decodeParameters_of_cut_eq_some split]
            exact inductionHypothesis _ shorter rest _ rfl

/-- The positions of `create` name the parts that `parse` takes. -/
theorem create_eq (text : StringView) : create text = parse text.bytes := by
  obtain ⟨view, viewSub, viewBytes⟩ := substr_head text
  rw [create, parse, ← viewBytes]
  simp only [viewSub]
  dsimp only [bind, Except.bind]
  cases split : Search.cut lineEnd view.bytes with
  | none =>
      rw [if_pos (StringView.find_of_cut_eq_none split)]
      rfl
  | some parts =>
      obtain ⟨line, block⟩ := parts
      obtain ⟨lineView, blockView, rfl, rfl, parts⟩ := view.exists_parts split
      have next : sizeAdd lineView.bytes.length 2 = lineView.bytes.length + 2 := parts.next
      have blockSub : view.substr (lineView.bytes.length + 2) npos = .ok blockView := parts.second
      obtain ⟨target, requestLine, targetBytes⟩ := readRequestLine_eq lineView
      simp only [parts.found, parts.notEnd, if_false, parts.first, requestLine, next, blockSub,
        HeaderMap.create_eq]
      cases HeaderMap.addLines .empty (HeaderMap.lines blockView.bytes) with
      | error thrown => rfl
      | ok outcome =>
          cases outcome with
          | error code => rfl
          | ok headers =>
              simp only [assemble]
              rw [← targetBytes]
              cases query : Search.cut [questionMark] target.bytes with
              | none =>
                  have missing : target.findFirstOf questionMark 0 = npos :=
                    target.findFirstOf_of_cut_eq_none 0 (by simpa using query)
                  rw [if_neg (not_not.mpr missing)]
                  rfl
              | some parts =>
                  obtain ⟨path, args⟩ := parts
                  obtain ⟨pathView, argsView, rfl, rfl, targetParts⟩ := target.exists_parts query
                  have nextArgs : sizeAdd pathView.bytes.length 1 = pathView.bytes.length + 1 :=
                    targetParts.next
                  have argsSub : target.substr (pathView.bytes.length + 1) npos = .ok argsView :=
                    targetParts.second
                  rw [target.findFirstOf_zero, targetParts.found, if_pos targetParts.notEnd,
                    nextArgs, argsSub, targetParts.first]
                  simp only [parametersLoop_eq]
                  rfl

/-! ## Texts that make `create` throw -/

/-- The line consists of a name and a colon. -/
def EndsAtColon (line : Bytes) : Prop :=
  ∃ name, colon ∉ name ∧ line = name ++ [colon]

/-- The lines that the loop of `header_map::create` gets past or throws at:
those of the header block up to the first one without a colon. -/
def headerLines (text : Bytes) : List Bytes :=
  match Search.cut lineEnd (headOf text) with
  | none => []
  | some (_, block) => (HeaderMap.lines block).takeWhile fun line => decide (colon ∈ line)

theorem parseLine_of_endsAtColon
    {line : Bytes}
    (ends : EndsAtColon line) :
    HeaderMap.parseLine line = .error .outOfRange := by
  obtain ⟨name, absent, rfl⟩ := ends
  rw [HeaderMap.parseLine, Search.cut_singleton_append absent]

theorem parseLine_of_not_mem
    {line : Bytes}
    (absent : colon ∉ line) :
    HeaderMap.parseLine line = .ok (.error .invalidArgument) := by
  rw [HeaderMap.parseLine, Search.cut_singleton_eq_none.mpr absent]

theorem exists_parseLine
    {line : Bytes}
    (present : colon ∈ line)
    (continues : ¬EndsAtColon line) :
    ∃ header, HeaderMap.parseLine line = .ok (.ok header) := by
  cases split : Search.cut [colon] line with
  | none => exact absurd present (Search.cut_singleton_eq_none.mp split)
  | some parts =>
      obtain ⟨name, after⟩ := parts
      obtain ⟨parted, absent⟩ := Search.cut_singleton_eq_some split
      cases after with
      | nil => exact absurd ⟨name, absent, parted⟩ continues
      | cons skipped value => exact ⟨(name, value), by rw [HeaderMap.parseLine, split]⟩

/-- The header loop returns when it meets no line that ends at its colon. -/
theorem addLines_returns_iff (map : HeaderMap) (lines : List Bytes) :
    (∃ outcome, HeaderMap.addLines map lines = .ok outcome) ↔
      ∀ line ∈ lines.takeWhile (fun line => decide (colon ∈ line)), ¬EndsAtColon line := by
  induction lines generalizing map with
  | nil => simp [HeaderMap.addLines]
  | cons line rest inductionHypothesis =>
      by_cases present : colon ∈ line
      · rw [List.takeWhile_cons_of_pos (by simpa using present), List.forall_mem_cons]
        by_cases ends : EndsAtColon line
        · simp [HeaderMap.addLines, parseLine_of_endsAtColon ends, ends]
        · obtain ⟨header, parsed⟩ := exists_parseLine present ends
          rw [HeaderMap.addLines, parsed]
          simpa only [ends, not_false_eq_true, true_and] using inductionHypothesis _
      · rw [List.takeWhile_cons_of_neg (by simpa using present)]
        simp [HeaderMap.addLines, parseLine_of_not_mem present]

/-- `create` returns a request or an error exactly when no line that the header
loop gets to ends at its first colon. -/
theorem create_returns_iff (text : StringView) :
    (∃ outcome, create text = .ok outcome) ↔
      ∀ line ∈ headerLines text.bytes, ¬EndsAtColon line := by
  rw [create_eq, parse, headerLines]
  cases Search.cut lineEnd (headOf text.bytes) with
  | none => simp
  | some parts =>
      obtain ⟨line, block⟩ := parts
      dsimp only
      refine Iff.trans ?_ (addLines_returns_iff .empty (HeaderMap.lines block))
      cases HeaderMap.addLines .empty (HeaderMap.lines block) with
      | error thrown => simp
      | ok outcome => cases outcome <;> simp

/-- A request whose only header has no value. -/
def emptyHostRequest : StringView where
  bytes := ascii "GET / HTTP/1.1\r\nHost:\r\n\r\n"
  bounded := by decide

/-- The request with an empty `Host` line makes `create` throw. -/
theorem create_throws_emptyHost :
    ¬∃ outcome, create emptyHostRequest = .ok outcome := by
  have head : Search.cut lineEnd (headOf emptyHostRequest.bytes) =
      some (ascii "GET / HTTP/1.1", ascii "Host:") := by decide
  have line : HeaderMap.lines (ascii "Host:") = [ascii "Host:"] :=
    Search.pieces_of_cut_eq_none (by decide) (by decide)
  have thrown : HeaderMap.parseLine (ascii "Host:") = .error .outOfRange := by decide
  rw [create_eq, parse, head]
  simp [line, HeaderMap.addLines, thrown]

end Request
end Http
end Cppio
