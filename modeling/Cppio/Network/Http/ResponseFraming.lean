import Cppio.Library.Machine
import Cppio.Network.Http.ResponseStability

/-!
# The length of the content

`serialize` adds a `Content-Length` header each time it is called, and the one
of an earlier call stays in the map.  What it writes is framed by one header of
that name as long as the response has none yet: none of an earlier call, and
none that a line end in a version, a name or a value smuggles in.
-/

namespace Cppio
namespace Http
namespace Response

/-- The name of a header line. -/
def nameOf (line : Bytes) : Option Bytes :=
  (Search.cut [colon] line).map Prod.fst

/-- The line is a `Content-Length` header. -/
def IsLength (line : Bytes) : Prop :=
  nameOf line = some contentLength

instance : DecidablePred IsLength := fun line =>
  inferInstanceAs (Decidable (nameOf line = some contentLength))

/-- The `Content-Length` line for a content of some length. -/
def lengthLine (length : Nat) : Bytes :=
  HeaderMap.headerLine (contentLength, toString length)

/-- Among the header lines before the first empty line there is one
`Content-Length` line, and it counts the bytes after the empty line. -/
def Framed (text : Bytes) : Prop :=
  ∃ head content start block, Search.cut blockEnd text = some (head, content) ∧
    Search.cut lineEnd head = some (start, block) ∧
      (HeaderMap.lines block).filter (fun line => decide (IsLength line)) =
        [lengthLine content.length]

/-- The lines of the head, with the headers that the response has. -/
def headLines (response : Response) : List Bytes :=
  HeaderMap.lines (response.statusLine ++ lineEnd ++ response.headers.serialize)

/-- The response has no `Content-Length` line yet, and no empty one. -/
structure Unframed (response : Response) : Prop where
  noEmpty : ∀ line ∈ response.headLines, line ≠ []
  noLength : ∀ line ∈ response.headLines.tail, ¬IsLength line

/-- A head ends with a line end, whatever headers it has. -/
theorem exists_head_eq (start : Bytes) (headers : List (Bytes × Bytes)) :
    ∃ front, start ++ lineEnd ++
        headers.flatMap (fun header => HeaderMap.headerLine header ++ lineEnd) =
      front ++ [13, 10] := by
  rcases List.eq_nil_or_concat headers with rfl | ⟨others, last, rfl⟩
  · exact ⟨start, by simp [lineEnd]⟩
  · refine ⟨start ++ lineEnd ++
      others.flatMap (fun header => HeaderMap.headerLine header ++ lineEnd) ++
        HeaderMap.headerLine last, ?_⟩
    simp [lineEnd]

theorem isLength_lengthLine (length : Nat) : IsLength (lengthLine length) := by
  have same : lengthLine length = contentLength ++ colon :: space :: toString length := by
    simp [lengthLine, HeaderMap.headerLine]
  have split : Search.cut [colon] (lengthLine length) =
      some (contentLength, space :: toString length) := by
    rw [same]
    exact Search.cut_singleton_append (by decide) _
  rw [IsLength, nameOf, split]
  rfl

theorem not_infix_lengthLine (length : Nat) : ¬lineEnd <:+: lengthLine length := by
  have value : ¬lineEnd <:+: toString length := fun occurs =>
    absurd (isDigit_of_mem_toString (occurs.subset (List.mem_cons_self))) (by decide)
  have spaced : ¬lineEnd <:+: [] ++ space :: toString length :=
    Search.not_pair_infix_append_cons (by decide) (by decide) (by decide) value
  have joined : ¬lineEnd <:+: contentLength ++ colon :: space :: toString length :=
    Search.not_pair_infix_append_cons (by decide) (by decide) (by decide) spaced
  simpa [lengthLine, HeaderMap.headerLine] using joined

/-- What follows a line end in the lines of a head. -/
theorem headLines_eq
    {response : Response} {before after : List (Bytes × Bytes)} {front : Bytes}
    (headers : response.headers.headers = before ++ after)
    (frontEq : response.statusLine ++ lineEnd ++
      before.flatMap (fun header => HeaderMap.headerLine header ++ lineEnd) =
        front ++ [13, 10]) :
    response.headLines = HeaderMap.lines (front ++ [13, 10]) ++
      HeaderMap.lines
        (after.flatMap fun header => HeaderMap.headerLine header ++ lineEnd) := by
  rw [headLines, HeaderMap.serialize, headers, List.flatMap_append, ← List.append_assoc, frontEq,
    HeaderMap.lines, List.append_assoc]
  exact Search.pieces_append_pair (by decide) front _

/-- `serialize` adds one line to the lines of the head, after the first. -/
theorem exists_headLines_eq (response : Response) :
    ∃ start before after, response.headLines = start :: before ++ after ∧
      response.withContentLength.headLines =
        start :: before ++ lengthLine response.content.length :: after := by
  obtain ⟨before, after, old, new⟩ := Keyed.exists_insertLast_eq headerKey
    (contentLength, toString response.content.length) response.headers.headers
  obtain ⟨front, frontEq⟩ := exists_head_eq response.statusLine before
  have nonempty : HeaderMap.lines (front ++ [13, 10]) ≠ [] := Search.pieces_ne_nil (by simp)
  obtain ⟨start, rest, frontLines⟩ := List.exists_cons_of_ne_nil nonempty
  have inserted : response.withContentLength.headers.headers =
      before ++ (contentLength, toString response.content.length) :: after := new
  have added : HeaderMap.lines (((contentLength, toString response.content.length) :: after).flatMap
      fun header => HeaderMap.headerLine header ++ lineEnd) =
        lengthLine response.content.length :: HeaderMap.lines
          (after.flatMap fun header => HeaderMap.headerLine header ++ lineEnd) := by
    rw [List.flatMap_cons, List.append_assoc]
    exact Search.pieces_of_cut_eq_some
      (Search.cut_pair_append (by decide) (not_infix_lengthLine _) _)
  refine ⟨start, rest, HeaderMap.lines (after.flatMap fun header =>
    HeaderMap.headerLine header ++ lineEnd), ?_, ?_⟩
  · rw [headLines_eq old frontEq, frontLines]
  · rw [headLines_eq inserted frontEq, frontLines, added]

/-- The text that `serialize` writes is the join of the lines, an empty line and
the content. -/
theorem serialize_eq_intercalate (response : Response) :
    response.serialize.1 =
      lineEnd.intercalate response.withContentLength.headLines ++
        13 :: 10 :: 13 :: 10 :: response.content := by
  obtain ⟨front, frontEq⟩ := exists_head_eq response.withContentLength.statusLine
    response.withContentLength.headers.headers
  have joined : lineEnd.intercalate response.withContentLength.headLines = front := by
    rw [headLines, HeaderMap.serialize, frontEq]
    exact Search.intercalate_pieces (by decide) front
  rw [joined, serialize]
  dsimp only
  rw [HeaderMap.serialize, frontEq]
  simp [withContentLength, lineEnd]

/-- A text is framed exactly if its header lines have the new `Content-Length`
line only. -/
theorem framed_iff
    {response : Response}
    (noEmpty : ∀ line ∈ response.headLines, line ≠ []) :
    Framed response.serialize.1 ↔ ∀ line ∈ response.headLines.tail, ¬IsLength line := by
  obtain ⟨start, before, after, oldLines, newLines⟩ := exists_headLines_eq response
  have lengthNonempty : lengthLine response.content.length ≠ [] := by
    simp [lengthLine, HeaderMap.headerLine]
  have absent : ∀ line ∈ response.withContentLength.headLines, ¬lineEnd <:+: line :=
    fun line present => Search.not_infix_of_mem_pieces present
  have nonempty : ∀ line ∈ response.withContentLength.headLines, line ≠ [] := by
    intro line present
    rw [newLines] at present
    rcases List.mem_append.mp present with front | back
    · exact noEmpty line (oldLines ▸ List.mem_append_left _ front)
    · rcases List.mem_cons.mp back with rfl | back
      · exact lengthNonempty
      · exact noEmpty line (oldLines ▸ List.mem_append_right _ back)
  have head : Search.cut blockEnd response.serialize.1 =
      some (lineEnd.intercalate response.withContentLength.headLines, response.content) := by
    rw [serialize_eq_intercalate]
    exact Search.cut_double_intercalate (by decide) (by simp [newLines]) nonempty absent _
  rw [newLines] at head absent nonempty
  obtain ⟨next, rest, restEq⟩ : ∃ next rest,
      before ++ lengthLine response.content.length :: after = next :: rest :=
    List.exists_cons_of_ne_nil (by simp)
  rw [List.cons_append, restEq] at head absent nonempty
  rw [List.forall_mem_cons] at absent nonempty
  have first : Search.cut lineEnd (lineEnd.intercalate (start :: next :: rest)) =
      some (start, lineEnd.intercalate (next :: rest)) := by
    rw [List.intercalate_cons_cons, List.append_assoc]
    exact Search.cut_pair_append (by decide) absent.1 _
  have lines : HeaderMap.lines (lineEnd.intercalate (next :: rest)) = next :: rest :=
    Search.pieces_intercalate (by decide) nonempty.2 absent.2
  have lengths : (next :: rest).filter (fun line => decide (IsLength line)) =
      before.filter (fun line => decide (IsLength line)) ++
        lengthLine response.content.length ::
          after.filter fun line => decide (IsLength line) := by
    rw [← restEq, List.filter_append,
      List.filter_cons_of_pos (by simpa using isLength_lengthLine _)]
  constructor
  · rintro ⟨_, _, _, _, head', first', only⟩
    obtain ⟨rfl, rfl⟩ := Prod.mk.inj (Option.some.inj (head'.symm.trans head))
    obtain ⟨rfl, rfl⟩ := Prod.mk.inj (Option.some.inj (first'.symm.trans first))
    rw [lines, lengths] at only
    have count := congrArg List.length only
    simp only [List.length_append, List.length_cons, List.length_nil] at count
    have noneBefore : before.filter (fun line => decide (IsLength line)) = [] :=
      List.eq_nil_of_length_eq_zero (by omega)
    have noneAfter : after.filter (fun line => decide (IsLength line)) = [] :=
      List.eq_nil_of_length_eq_zero (by omega)
    intro line present
    rw [oldLines] at present
    rcases List.mem_append.mp present with front | back
    · simpa using List.filter_eq_nil_iff.mp noneBefore line front
    · simpa using List.filter_eq_nil_iff.mp noneAfter line back
  · intro noLength
    have noneOf : ∀ part ⊆ before ++ after,
        part.filter (fun line => decide (IsLength line)) = [] := fun part inside =>
      List.filter_eq_nil_iff.mpr fun line present => by
        simpa using noLength line (oldLines ▸ inside present)
    refine ⟨_, _, _, _, head, first, ?_⟩
    rw [lines, lengths, noneOf before (List.subset_append_left _ _),
      noneOf after (List.subset_append_right _ _), List.nil_append]

/-- The lines of headers that have no line ends. -/
theorem lines_flatMap
    {headers : List (Bytes × Bytes)}
    (ofLine : ∀ header ∈ headers, HeaderMap.OfLine header) :
    HeaderMap.lines (headers.flatMap fun header => HeaderMap.headerLine header ++ lineEnd) =
      headers.map HeaderMap.headerLine := by
  induction headers with
  | nil => exact Search.pieces_nil 13 10
  | cons header rest inductionHypothesis =>
      rw [List.forall_mem_cons] at ofLine
      rw [List.flatMap_cons, List.append_assoc, List.map_cons, ← inductionHypothesis ofLine.2]
      exact Search.pieces_of_cut_eq_some (Search.cut_pair_append (by decide) ofLine.1.whole _)

/-- Without line ends in its fields, a response has a `Content-Length` line only
if it has a header of that name. -/
theorem Plain.unframed
    {response : Response}
    (plain : Plain response)
    (noLength : ∀ header ∈ response.headers.headers, header.1 ≠ contentLength) :
    Unframed response := by
  have lines : response.headLines =
      response.statusLine :: response.headers.headers.map HeaderMap.headerLine := by
    rw [headLines, List.append_assoc, ← lines_flatMap plain.headers]
    exact Search.pieces_of_cut_eq_some
      (Search.cut_pair_append (by decide) plain.head.startLine _)
  constructor
  · rw [lines, List.forall_mem_cons, List.forall_mem_map]
    exact ⟨by simp [statusLine], fun header _ => by simp [HeaderMap.headerLine]⟩
  · rw [lines, List.tail_cons, List.forall_mem_map]
    intro header present isLength
    have split := Search.cut_singleton_append (plain.headers header present).name
      (space :: header.2)
    have same : HeaderMap.headerLine header = header.1 ++ colon :: space :: header.2 := by
      simp [HeaderMap.headerLine]
    rw [IsLength, nameOf, same, split] at isLength
    exact noLength header present (Option.some.inj isLength)

/-! ## Sequences of calls -/

/-- A response in use, with the text of the last call if that was `serialize`. -/
structure Usage where
  response : Response
  last : Option Bytes

namespace Usage

/-- A response, before the calls. -/
def start (response : Response) : Usage where
  response := response
  last := none

/-- A call of a member. -/
def step (usage : Usage) (call : Call) : Option Usage :=
  some
    { response := usage.response.call call
      last := match call with
        | .serialize => some usage.response.serialize.1
        | _ => none }

/-- A call of `serialize` returns a framed text, the same one as a call right
before it. -/
def Returns (usage : Usage) : Call → Prop
  | .serialize => Framed usage.response.serialize.1 ∧
      ∀ text, usage.last = some text → usage.response.serialize.1 = text
  | _ => True

/-- `serialize` is called on a response without a `Content-Length` line and
without an empty one. -/
def Fresh (usage : Usage) : Call → Prop
  | .serialize => usage.response.Unframed
  | _ => True

/-- After a call of `serialize` the response has a `Content-Length` line. -/
def Marked (usage : Usage) : Prop :=
  usage.last ≠ none → ∃ line ∈ usage.response.headLines.tail, IsLength line

theorem Marked.step
    {usage next : Usage} {call : Call}
    (stepped : usage.step call = some next) :
    next.Marked := by
  obtain rfl := Option.some.inj stepped
  intro called
  cases call with
  | serialize =>
      obtain ⟨start, before, after, -, lines⟩ := usage.response.exists_headLines_eq
      refine ⟨lengthLine usage.response.content.length, ?_, isLength_lengthLine _⟩
      change _ ∈ usage.response.withContentLength.headLines.tail
      simp [lines]
  | _ => exact absurd rfl called

/-- `serialize` is called on a response without an empty line. -/
def Whole (usage : Usage) : Call → Prop
  | .serialize => ∀ line ∈ usage.response.headLines, line ≠ []
  | _ => True

theorem returns_of_fresh
    {response : Response} {calls : List Call}
    (fresh : Machine.AllSteps step Fresh (start response) calls) :
    Machine.AllSteps step Returns (start response) calls := by
  refine Machine.AllSteps.imp ?_ (fun _ _ _ _ _ stepped => Marked.step stepped) ?_ fresh
  · intro usage call marked unframed
    cases call with
    | serialize =>
        refine ⟨(framed_iff unframed.noEmpty).mpr unframed.noLength, fun text returned => ?_⟩
        obtain ⟨line, present, isLength⟩ := marked (by simp [returned])
        exact absurd isLength (unframed.noLength line present)
    | _ => trivial
  · exact fun called => absurd rfl called

theorem fresh_of_returns
    {response : Response} {calls : List Call}
    (whole : Machine.AllSteps step Whole (start response) calls)
    (returns : Machine.AllSteps step Returns (start response) calls) :
    Machine.AllSteps step Fresh (start response) calls := by
  refine Machine.AllSteps.imp ?_ (fun _ _ _ _ _ _ => trivial) trivial (whole.and returns)
  rintro usage call - ⟨noEmpty, framed⟩
  cases call with
  | serialize => exact ⟨noEmpty, (framed_iff noEmpty).mp framed.1⟩
  | _ => trivial

/-- On every sequence of calls on which `serialize` is only called on a response
without a `Content-Length` line and without an empty one, what it returns is
framed, and two calls in a row would return the same.  Where no empty line is
smuggled in, only these sequences have this. -/
theorem returns_fresh (response : Response) (calls : List Call) :
    (Machine.AllSteps step Fresh (start response) calls →
        Machine.AllSteps step Returns (start response) calls) ∧
      (Machine.AllSteps step Whole (start response) calls →
        Machine.AllSteps step Returns (start response) calls →
          Machine.AllSteps step Fresh (start response) calls) :=
  ⟨returns_of_fresh, fresh_of_returns⟩

/-- A response is edited and serialized once. -/
def serializeOnce : List Call :=
  [.addHeader (ascii "Server") (ascii "cppio"), .setContent (ascii "\r\n\r\n"), .serialize]

theorem returns_fresh_serializeOnce :
    Machine.AllSteps step Returns (start default) serializeOnce := by
  apply (returns_fresh default serializeOnce).1
  have plain : Plain (([.addHeader (ascii "Server") (ascii "cppio"),
      .setContent (ascii "\r\n\r\n")] : List Call).foldl call default) :=
    plain_foldl plain_default (by decide)
  have unframed := plain.unframed (by decide)
  intro _ added
  obtain rfl := Option.some.inj added
  refine ⟨trivial, fun _ set => ?_⟩
  obtain rfl := Option.some.inj set
  exact ⟨trivial, fun _ _ => ⟨unframed, trivial⟩⟩

/-- Of two calls of `serialize` the second returns another text. -/
theorem not_always_returns :
    ¬∀ calls, Machine.AllSteps step Returns (start default) calls := by
  intro always
  have called := always [.serialize, .serialize]
  obtain ⟨-, later⟩ := called _ rfl
  obtain ⟨⟨-, same⟩, -⟩ := later _ rfl
  have equal := same _ rfl
  exact absurd equal (by decide)

end Usage

end Response
end Http
end Cppio
