import Cppio.Network.EndpointText
import Cppio.Network.StoulTexts

/-!
# Endpoints in a buffer

`endpoint::parse` on a view in a longer buffer, with a check of every index.
`stoul` is given the data of the view and reads up to the first byte 0 of the
buffer, so a view that ends with an open number is parsed with what follows it.
-/

namespace Cppio

open Http (Bytes isDigit npos)
open Ip (AddressError InetPton V4 V6)

/-- A `string_view` with what follows it in its buffer, where there is a byte 0. -/
structure BufferView where
  chars : Bytes
  following : Bytes
  terminated : 0 ∈ following

/-- A NUL-terminated string as a view. -/
def BufferView.ofString (text : Bytes) : BufferView where
  chars := text
  following := [0]
  terminated := List.mem_singleton_self 0

/-- `data()` from an index on, read as a string of C. -/
def BufferView.dataFrom (view : BufferView) (index : Nat) : Bytes :=
  cString (view.chars.drop index ++ view.following)

/-! ## Indices -/

namespace Endpoint

/-- `text[index]`. -/
def charAt (text : Bytes) (index : Nat) : Except Fault UInt8 :=
  match text[index]? with
  | some ch => .ok ch
  | none => .error .undefined

/-- `text[text.size() - 1]`, where the size 0 wraps. -/
def backAt (text : Bytes) : Except Fault UInt8 :=
  charAt text (if text = [] then npos else text.length - 1)

/-- `text[0] == '[' && text[text.size() - 1] == ']'`. -/
def opensAndCloses (text : Bytes) : Except Fault Bool :=
  match charAt text 0 with
  | .error fault => .error fault
  | .ok first =>
      if first = 91 then (backAt text).map fun last => decide (last = 93) else .ok false

/-- `text[text.size() - 1] == ']' && text[0] == '['`. -/
def closesAndOpens (text : Bytes) : Except Fault Bool :=
  match backAt text with
  | .error fault => .error fault
  | .ok last =>
      if last = 93 then (charAt text 0).map fun first => decide (first = 91) else .ok false

theorem backAt_of_ne_nil
    {text : Bytes}
    (nonempty : text ≠ []) :
    ∃ last, backAt text = .ok last ∧ text.getLast? = some last := by
  refine ⟨text.getLast nonempty, ?_, List.getLast?_eq_some_getLast nonempty⟩
  rw [backAt, if_neg nonempty, charAt, ← List.getLast?_eq_getElem?,
    List.getLast?_eq_some_getLast nonempty]

theorem charAt_zero_of_ne_nil
    {text : Bytes}
    (nonempty : text ≠ []) :
    ∃ first, charAt text 0 = .ok first ∧ text.head? = some first := by
  obtain ⟨first, rest, rfl⟩ := List.exists_cons_of_ne_nil nonempty
  exact ⟨first, rfl, rfl⟩

theorem opensAndCloses_eq
    {text : Bytes}
    (nonempty : text ≠ []) :
    opensAndCloses text = .ok (decide (text.head? = some 91 ∧ text.getLast? = some 93)) := by
  obtain ⟨first, isFirst, head⟩ := charAt_zero_of_ne_nil nonempty
  obtain ⟨last, isLast, back⟩ := backAt_of_ne_nil nonempty
  rw [opensAndCloses, isFirst, isLast, head, back]
  by_cases opens : first = 91
  · simp [opens, Except.map]
  · simp [opens]

theorem closesAndOpens_eq
    {text : Bytes}
    (nonempty : text ≠ []) :
    closesAndOpens text = .ok (decide (text.getLast? = some 93 ∧ text.head? = some 91)) := by
  obtain ⟨first, isFirst, head⟩ := charAt_zero_of_ne_nil nonempty
  obtain ⟨last, isLast, back⟩ := backAt_of_ne_nil nonempty
  rw [closesAndOpens, isFirst, isLast, head, back]
  by_cases closes : last = 93
  · simp [closes, Except.map]
  · simp [closes]

/-! ## Parsing -/

/-- `v6::parse` with its indices. -/
def parseV6 (pton : InetPton) (address : Bytes) : Except Fault (Except AddressError V6) :=
  if address.length < 2 then .ok (.error .badFormat)
  else
    (opensAndCloses address).map fun bracketed =>
      let addressCut := (address.drop 1).take (address.length - 2)
      let stored := if bracketed then pton.v6 (cString addressCut) else none
      match stored.or (pton.v6 (cString address)) with
      | some bytes => .ok (.ofNetwork bytes)
      | none => .error .badFormat

/-- The indices in `v6::parse` are in range. -/
theorem parseV6_eq (pton : InetPton) (address : Bytes) :
    parseV6 pton address = .ok (V6.parse pton address) := by
  by_cases short : address.length < 2
  · rw [parseV6, V6.parse, if_pos short, if_pos short]
  · have nonempty : address ≠ [] := by
      rintro rfl
      exact short (by decide)
    rw [parseV6, V6.parse, if_neg short, if_neg short, opensAndCloses_eq nonempty]
    by_cases brackets : address.head? = some 91 ∧ address.getLast? = some 93
    · rw [decide_eq_true brackets]
      dsimp only
      rw [if_pos brackets]
      rfl
    · rw [decide_eq_false brackets]
      dsimp only
      rw [if_neg brackets]
      rfl

/-- `endpoint::parse` from where it takes the whole text for an address. -/
def parseWhole (pton : InetPton) (address : Bytes) : Except Fault (Except AddressError Endpoint) :=
  match parseV6 pton address with
  | .error fault => .error fault
  | .ok (.ok ipv6) => .ok (.ok ⟨.v6 ipv6, 0⟩)
  | .ok (.error _) =>
      match V4.parse pton address with
      | .ok ipv4 => .ok (.ok ⟨.v4 ipv4, 0⟩)
      | .error _ => .ok (.error .badFormat)

theorem parseWhole_eq (pton : InetPton) (address : Bytes) :
    parseWhole pton address = .ok (parseAddress pton address) := by
  unfold parseWhole parseAddress
  rw [parseV6_eq]
  cases V6.parse pton address with
  | ok ipv6 => rfl
  | error error =>
      cases V4.parse pton address with
      | ok ipv4 => rfl
      | error error => rfl

/-- The address before the last colon. -/
def parseFront (pton : InetPton) (ipAddr : Bytes) : Except Fault (Except AddressError IpAddress) :=
  match closesAndOpens ipAddr with
  | .error fault => .error fault
  | .ok true =>
      (parseV6 pton (cString ((ipAddr.dropLast ++ [0]).drop 1))).map fun ip => ip.map .v6
  | .ok false => .ok ((V4.parse pton (cString ipAddr)).map .v4)

theorem parseFront_eq
    (pton : InetPton) {ipAddr : Bytes}
    (nonempty : ipAddr ≠ []) :
    parseFront pton ipAddr = .ok (parseHost pton ipAddr) := by
  unfold parseFront parseHost
  rw [closesAndOpens_eq nonempty]
  split_ifs with brackets
  · rw [decide_eq_true brackets, parseV6_eq]
    rfl
  · rw [decide_eq_false brackets]

/-- `endpoint::parse` of a view in its buffer. -/
def parseView (pton : InetPton) (address : BufferView) :
    Except Fault (Except AddressError Endpoint) :=
  match Search.lastIndex 58 address.chars with
  | none => parseWhole pton address.chars
  | some portSeparator =>
      match backAt address.chars with
      | .error fault => .error fault
      | .ok last =>
          if last = 93 then parseWhole pton address.chars
          else
            match stoul (address.dataFrom (portSeparator + 1)) with
            | .error _ => .error .terminate
            | .ok port =>
                if 65535 < port then parseWhole pton address.chars
                else
                  match parseFront pton (address.chars.take portSeparator) with
                  | .error fault => .error fault
                  | .ok (.ok ip) => .ok (.ok ⟨ip, UInt16.ofNat (port &&& 0xFFFF)⟩)
                  | .ok (.error _) => parseWhole pton address.chars

/-- A view without a colon is an address. -/
theorem parseView_of_notMem
    (pton : InetPton) {address : BufferView}
    (noColon : 58 ∉ address.chars) :
    parseView pton address = .ok (parseAddress pton address.chars) := by
  rw [parseView, Search.lastIndex_eq_none noColon]
  exact parseWhole_eq pton _

theorem getLast?_append_colon (host port : Bytes) :
    (host ++ 58 :: port).getLast? = some 93 ↔ port.getLast? = some 93 := by
  rw [List.getLast?_append_of_ne_nil _ (List.cons_ne_nil 58 port)]
  cases port with
  | nil => decide
  | cons ch rest => rw [List.getLast?_cons_cons]

/-- What is made of the answer of `stoul`. -/
def parseAnswer (pton : InetPton) (address host : Bytes) :
    Except StoulError Nat → Except Fault (Except AddressError Endpoint)
  | .error _ => .error .terminate
  | .ok port =>
      if 65535 < port then .ok (parseAddress pton address)
      else if host = [] then .error .undefined
      else
        match parseHost pton host with
        | .ok ip => .ok (.ok ⟨ip, UInt16.ofNat (port &&& 0xFFFF)⟩)
        | .error _ => .ok (parseAddress pton address)

/-- What follows the last colon is given to `stoul`, with what follows it in the buffer. -/
theorem parseView_of_colon
    (pton : InetPton) {address : BufferView} {host port : Bytes}
    (split : address.chars = host ++ 58 :: port)
    (last : 58 ∉ port) :
    parseView pton address =
      if port.getLast? = some 93 then .ok (parseAddress pton address.chars)
      else parseAnswer pton address.chars host (stoul (port ++ address.following)) := by
  have nonempty : host ++ 58 :: port ≠ [] := by simp
  have data : address.dataFrom (host.length + 1) = cString (port ++ address.following) := by
    rw [BufferView.dataFrom, split, ← List.drop_drop, List.drop_left]
    rfl
  obtain ⟨lastChar, isLast, back⟩ := backAt_of_ne_nil nonempty
  have closes : port.getLast? = some 93 ↔ lastChar = 93 := by
    rw [← getLast?_append_colon host, back, Option.some.injEq]
  rw [parseView, split, Search.lastIndex_append last]
  dsimp only
  rw [isLast, data, stoul_cString, List.take_left]
  simp only [closes, parseWhole_eq]
  by_cases bracket : lastChar = 93
  · rw [if_pos bracket, if_pos bracket]
  · rw [if_neg bracket, if_neg bracket]
    cases stoul (port ++ address.following) with
    | error error => rfl
    | ok number =>
        rw [parseAnswer]
        dsimp only
        by_cases large : 65535 < number
        · rw [if_pos large, if_pos large]
        · rw [if_neg large, if_neg large]
          by_cases noHost : host = []
          · rw [if_pos noHost, noHost]
            rfl
          · rw [if_neg noHost, parseFront_eq pton noHost]
            cases parseHost pton host with
            | ok ip => rfl
            | error error => rfl

/-! ## What follows the view -/

/-- Whatever follows these characters in a buffer, a view of them is parsed alike. -/
def DependsOnlyOnChars (pton : InetPton) (chars : Bytes) : Prop :=
  ∀ first second : BufferView, first.chars = chars → second.chars = chars →
    parseView pton first = parseView pton second

/-- The view with these digits after it. -/
def followedBy (chars digits : Bytes) : BufferView where
  chars := chars
  following := digits ++ [0]
  terminated := List.mem_append_right _ (List.mem_singleton_self 0)

theorem stoul_followedBy (port digits : Bytes) :
    stoul (port ++ (digits ++ [0])) = stoul (port ++ digits) := by
  rw [← List.append_assoc]
  exact stoul_append_of_zero fun ch first => (Option.some.inj first).symm

/-- What follows an open number decides whether the view is parsed. -/
theorem not_dependsOnlyOnChars_of_open
    (pton : InetPton) (host : Bytes) {port : Bytes}
    (isOpen : OpenNumber port) :
    ¬DependsOnlyOnChars pton (host ++ 58 :: port) := by
  intro depends
  have last : 58 ∉ port := fun present => absurd (isOpen.byte present) (by decide)
  have bracket : port.getLast? ≠ some 93 := fun isLast =>
    absurd (isOpen.byte (List.mem_of_getLast? isLast)) (by decide)
  obtain ⟨⟨more, number, -, returns⟩, ⟨others, error, -, throws⟩⟩ := isOpen.continued
  have alike := depends (followedBy _ more) (followedBy _ others) rfl rfl
  rw [parseView_of_colon pton rfl last, parseView_of_colon pton rfl last, if_neg bracket,
    if_neg bracket] at alike
  have returnsHere : stoul (port ++ (followedBy (host ++ 58 :: port) more).following) =
      .ok number := (stoul_followedBy port more).trans returns
  have throwsHere : stoul (port ++ (followedBy (host ++ 58 :: port) others).following) =
      .error error := (stoul_followedBy port others).trans throws
  rw [returnsHere, throwsHere, parseAnswer, parseAnswer] at alike
  split_ifs at alike with large noHost
  · cases alike
  · split at alike
    · cases alike
    · cases alike

/-- The result depends on the characters of the view alone exactly where they do not end with
a colon and an open number. -/
theorem dependsOnlyOnChars_iff (pton : InetPton) (chars : Bytes) :
    DependsOnlyOnChars pton chars ↔ ¬∃ host port, chars = host ++ 58 :: port ∧ OpenNumber port := by
  constructor
  · rintro depends ⟨host, port, rfl, isOpen⟩
    exact not_dependsOnlyOnChars_of_open pton host isOpen depends
  · intro notOpen first second isFirst isSecond
    by_cases colon : 58 ∈ chars
    · obtain ⟨host, port, rfl, last⟩ := Search.exists_last colon
      have closed : ¬OpenNumber port := fun isOpen => notOpen ⟨host, port, rfl, isOpen⟩
      rw [parseView_of_colon pton isFirst last, parseView_of_colon pton isSecond last, isFirst,
        isSecond, stoul_append_of_not_open closed first.following second.following]
    · rw [parseView_of_notMem pton (isFirst ▸ colon), parseView_of_notMem pton (isSecond ▸ colon),
        isFirst, isSecond]

/-- `1.2.3.4:8`, with nothing after it and with `0` after it. -/
theorem not_dependsOnlyOnChars_shortPort :
    ¬DependsOnlyOnChars Ip.reader [49, 46, 50, 46, 51, 46, 52, 58, 56] := by
  intro depends
  have alike := depends (followedBy _ []) (followedBy _ [48]) rfl rfl
  have ports := congrArg
    (fun outcome => (outcome.toOption.bind Except.toOption).map Endpoint.port) alike
  exact absurd ports (by decide)

end Endpoint

end Cppio
