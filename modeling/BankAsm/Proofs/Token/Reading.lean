import BankAsm.Proofs.Position
import BankAsm.Proofs.Token.Accepted
import BankAsm.Proofs.Token.Bytes

/-!
# Accepted sources

A source that is read without a failure is cut into segments: the spellings of its
tokens with the gaps in front of them. Nothing of the source is lost and every token
stands where its position says (`Token.Reading`).
-/

namespace BankAsm

namespace Token

/-- What stands in front of a token: blanks, and newlines at the start of a `line`. -/
inductive Gap (line : Prop) (behind : List Char) : List Char → Prop where
  | nil : Gap line behind []
  | blank {front rest}
      (blank : Blank (rest ++ behind) front)
      (further : Gap line behind rest) :
      Gap line behind (front ++ rest)
  | newline {rest}
      (fresh : line)
      (further : Gap line behind rest) :
      Gap line behind ('\n' :: rest)

/-- A gap may stand wherever more is allowed. -/
theorem Gap.mono {line other : Prop} (implies : line → other) {behind text : List Char}
    (gap : Gap line behind text) : Gap other behind text := by
  induction gap with
  | nil => exact .nil
  | blank blank _ inductionHypothesis => exact .blank blank inductionHypothesis
  | newline fresh _ inductionHypothesis => exact .newline (implies fresh) inductionHypothesis

/-- The spelling of a token with the gap in front of it. -/
structure Segment where
  gap : List Char
  spelling : List Char
  token : Token

namespace Segment

/-- The characters of a segment. -/
def text (segment : Segment) : List Char := segment.gap ++ segment.spelling

/-- The characters of segments one after another. -/
def texts (segments : List Segment) : List Char := segments.flatMap text

/-- Whether a segment ends its line. -/
def EndsLine (segment : Segment) : Prop :=
  segment.token.kind = .terminator ∧ segment.spelling = ['\n']

/-- A segment that stands between others as the language has it: the gap has newlines
only at the start of a line, the token is written in one of its ways, and its position
counts the newlines in front of the spelling and the bytes behind the last of them. -/
structure Fits (front : List Segment) (segment : Segment) (back : List Segment) : Prop where
  gap : Gap (∀ last ∈ front.getLast?, last.EndsLine) (segment.spelling ++ texts back) segment.gap
  written : segment.token.Written (texts back) segment.spelling
  line : segment.token.position.line = 1 + (texts front ++ segment.gap).count '\n'
  column : segment.token.position.column =
    1 + Text.byteLength ((texts front ++ segment.gap).reverse.takeWhile (· ≠ '\n'))

/-- Segments one behind the other from a position on, the first at the start of a line
or not. -/
inductive Chain : Prop → Position → List Segment → Prop where
  | nil {line position} : Chain line position []
  | cons {line position segment rest}
      (gap : Gap line (segment.spelling ++ texts rest) segment.gap)
      (written : segment.token.Written (texts rest) segment.spelling)
      (place : segment.token.position = position.after segment.gap)
      (further : Chain segment.EndsLine (position.after segment.text) rest) :
      Chain line position (segment :: rest)

/-- Segments may stand wherever more is allowed. -/
theorem Chain.mono {line other : Prop} (implies : line → other) {position : Position}
    {segments : List Segment} (chain : Chain line position segments) :
    Chain other position segments := by
  cases chain with
  | nil => exact .nil
  | cons gap written place further => exact .cons (gap.mono implies) written place further

/-- A segment of a chain between those in front of it and those behind. -/
theorem Chain.split {line : Prop} {position : Position} {front back : List Segment}
    {segment : Segment} (chain : Chain line position (front ++ segment :: back)) :
    Gap ((front = [] → line) ∧ ∀ last ∈ front.getLast?, last.EndsLine)
        (segment.spelling ++ texts back) segment.gap ∧
      segment.token.Written (texts back) segment.spelling ∧
      segment.token.position = position.after (texts front ++ segment.gap) := by
  induction front generalizing line position with
  | nil =>
    cases chain with
    | cons gap written place _ =>
      exact ⟨gap.mono fun fresh => ⟨fun _ => fresh, by simp⟩, written, place⟩
  | cons first front inductionHypothesis =>
    cases chain with
    | cons _ _ _ further =>
      obtain ⟨gap, written, place⟩ := inductionHypothesis further
      refine ⟨gap.mono ?_, written, ?_⟩
      · rintro ⟨onlyFirst, lastEnds⟩
        refine ⟨by simp, ?_⟩
        cases front with
        | nil => simpa using onlyFirst rfl
        | cons second front => simpa [List.getLast?_cons_cons] using lastEnds
      · rw [place]
        simp [texts]

end Segment

open Segment (Chain texts)

variable {previous : Previous} {position : Position} {cs : List Char} {tokens : List Token}

/-- Every accepted text has tokens. -/
theorem Accepts.tokens_ne_nil (accepts : Accepts previous position cs tokens) : tokens ≠ [] := by
  induction accepts with
  | finished => simp
  | ended => simp
  | blank _ _ inductionHypothesis => exact inductionHypothesis
  | line _ _ inductionHypothesis => exact inductionHypothesis
  | terminator => simp
  | lexeme => simp

/-- Segments with the given tokens that make up a text, from a position on. -/
def Segmented (line : Prop) (position : Position) (cs : List Char) (tokens : List Token) : Prop :=
  ∃ segments : List Segment, segments.map Segment.token = tokens ∧ texts segments = cs ∧
    Chain line position segments

/-- A segment without a gap in front of others. -/
theorem Segmented.cons {line next : Prop} (spelling : List Char) {t : Token}
    (written : t.Written cs spelling) (place : t.position = position)
    (implies : next → Segment.EndsLine ⟨[], spelling, t⟩)
    (rest : Segmented next (position.after spelling) cs tokens) :
    Segmented line position (spelling ++ cs) (t :: tokens) := by
  obtain ⟨segments, rfl, rfl, chain⟩ := rest
  exact ⟨⟨[], spelling, t⟩ :: segments, rfl, rfl,
    .cons .nil written place (chain.mono implies)⟩

/-- More of a gap in front of segments. -/
theorem Segmented.extend {line next : Prop} (front : List Char)
    (gap : ∀ {rest behind}, rest ++ behind = cs → Gap next behind rest →
      Gap line behind (front ++ rest))
    (filled : tokens ≠ []) (rest : Segmented next (position.after front) cs tokens) :
    Segmented line position (front ++ cs) tokens := by
  obtain ⟨segments, rfl, rfl, chain⟩ := rest
  cases chain with
  | nil => exact absurd rfl filled
  | @cons _ _ segment segments inner written place further =>
    have text : Segment.text { segment with gap := front ++ segment.gap } =
        front ++ segment.text := by
      simp [Segment.text]
    refine ⟨{ segment with gap := front ++ segment.gap } :: segments, rfl, ?_, ?_⟩
    · simp [texts, text]
    · refine .cons (gap ?_ inner) written ?_ ?_
      · simp [texts, Segment.text]
      · rw [Position.after_append]
        exact place
      · rw [text, Position.after_append]
        exact further

/-- An accepted text is cut into segments. -/
theorem segmented_of_accepts (accepts : Accepts previous position cs tokens) :
    Segmented (previous.close '\n' = .nothing) position cs tokens := by
  -- A piece without a token goes into the gap of the segment behind it, and one with a
  -- token is a segment of its own.
  induction accepts with
  | @finished position =>
    refine ⟨[⟨[], [], terminator position⟩, ⟨[], [], eof position⟩], rfl, rfl, ?_⟩
    exact .cons .nil (.sourceEnd rfl rfl) rfl (.cons .nil (.sourceEnd rfl rfl) rfl .nil)
  | @ended previous position =>
    exact ⟨[⟨[], [], eof position⟩], rfl, rfl, .cons .nil (.sourceEnd rfl rfl) rfl .nil⟩
  | @blank _ _ front _ _ blank rest inductionHypothesis =>
    refine Segmented.extend front ?_ rest.tokens_ne_nil inductionHypothesis
    rintro inner behind rfl gap
    exact .blank blank gap
  | line fresh rest inductionHypothesis =>
    refine Segmented.extend ['\n'] ?_ rest.tokens_ne_nil inductionHypothesis
    intro front behind _ gap
    exact .newline fresh (gap.mono fun _ => fresh)
  | @terminator separator position back tokens separates _ inductionHypothesis =>
    refine Segmented.cons [separator] ?_ rfl ?_ inductionHypothesis
    · rcases separates with rfl | rfl
      · exact .newline rfl
      · exact .comma rfl
    · rcases separates with rfl | rfl
      · exact fun _ => ⟨rfl, rfl⟩
      · intro fresh
        exact absurd fresh (by decide)
  | @lexeme found previous position back tokens form _ inductionHypothesis =>
    refine Segmented.cons found.spelling ?_ rfl ?_ inductionHypothesis
    · rw [← form.spelling_token position]
      exact .spelling (form.isEnding_token position)
    · intro fresh
      cases fresh

/-- Statements one after another: each has tokens that end nothing, and then one that
ends it. The end of the source is last. -/
inductive Blocks : List Token → Prop where
  | eof {t} (kind : t.kind = .eof) : Blocks [t]
  | block {front last rest}
      (filled : front ≠ [])
      (plain : ∀ t ∈ front, t.isEnding = false)
      (kind : last.kind = .terminator)
      (further : Blocks rest) :
      Blocks (front ++ last :: rest)

/-- The tokens of an accepted text are statements. Behind a lexeme, they start with what
is left of one. -/
theorem blocks_of_accepts (accepts : Accepts previous position cs tokens) :
    (previous = .lexeme → ∃ front last rest, (∀ t ∈ front, t.isEnding = false) ∧
      last.kind = .terminator ∧ Blocks rest ∧ tokens = front ++ last :: rest) ∧
    (previous ≠ .lexeme → Blocks tokens) := by
  -- Behind a lexeme a statement is open, so its tokens so far are not in the text.
  induction accepts with
  | @finished position =>
    refine ⟨fun _ => ⟨[], terminator position, [eof position], by simp, rfl, .eof rfl, rfl⟩, ?_⟩
    exact absurd rfl
  | @ended previous position fresh =>
    refine ⟨?_, fun _ => .eof rfl⟩
    rintro rfl
    cases fresh
  | blank _ _ inductionHypothesis => exact inductionHypothesis
  | line fresh _ inductionHypothesis =>
    refine ⟨?_, fun _ => inductionHypothesis.2 (by simp)⟩
    rintro rfl
    cases fresh
  | @terminator separator position back tokens _ _ inductionHypothesis =>
    have rest : Blocks tokens := inductionHypothesis.2 (Previous.ofSeparator_ne_lexeme separator)
    exact ⟨fun _ => ⟨[], terminator position, tokens, by simp, rfl, rest, rfl⟩, absurd rfl⟩
  | @lexeme found previous position back tokens form _ inductionHypothesis =>
    obtain ⟨front, last, rest, plain, kind, further, rfl⟩ := inductionHypothesis.1 rfl
    have all : ∀ t ∈ found.token position :: front, t.isEnding = false := by
      intro t member
      rcases List.mem_cons.mp member with rfl | later
      · exact form.isEnding_token position
      · exact plain t later
    exact ⟨fun _ => ⟨found.token position :: front, last, rest, all, kind, further, rfl⟩,
      fun _ => .block (by simp) all kind further⟩

/-- An accepted text has at most two tokens more than it has characters. -/
theorem length_of_accepts (accepts : Accepts previous position cs tokens) :
    tokens.length ≤ cs.length + 2 := by
  induction accepts with
  | finished => simp
  | ended => simp
  | blank _ _ inductionHypothesis =>
    rw [List.length_append]
    omega
  | line _ _ inductionHypothesis =>
    rw [List.length_cons]
    omega
  | terminator _ _ inductionHypothesis =>
    rw [List.length_cons, List.length_cons]
    omega
  | lexeme form _ inductionHypothesis =>
    have spelled := List.length_pos_iff.mpr form.spelling_ne_nil
    rw [List.length_cons, List.length_append]
    omega

/-- What the tokens of an accepted source say about it: they are statements and few; the
source is the spellings of its tokens with gaps in front; and no byte but a newline or
ASCII from the space on stands in it. -/
structure Reading (source : String) (tokens : List Token) : Prop where
  blocks : Blocks tokens
  length : tokens.length ≤ Text.byteLength source.toList + 2
  segments : ∃ segments : List Segment, segments.map Segment.token = tokens ∧
    texts segments = source.toList ∧
    ∀ front segment back, segments = front ++ segment :: back → segment.Fits front back
  bytes : ∀ byte ∈ source.toList.flatMap String.utf8EncodeChar, byte = 10 ∨ 32 ≤ byte ∧ byte ≤ 127

/-- A segment of a chain from the start of a legal text fits where it stands. -/
theorem Segment.Chain.fits {line : Prop} {front back : List Segment} {segment : Segment}
    (chain : Chain line .start (front ++ segment :: back))
    (legal : ∀ c ∈ texts (front ++ segment :: back), isLegal c) : segment.Fits front back := by
  obtain ⟨gap, written, place⟩ := chain.split
  have inFront : ∀ c ∈ texts front ++ segment.gap, isLegal c := by
    intro c member
    refine legal c ?_
    have parts : c ∈ texts front ∨ c ∈ segment.gap := List.mem_append.mp member
    simp only [texts, List.flatMap_append, List.flatMap_cons, Segment.text, List.mem_append]
    tauto
  rw [Position.start_after] at place
  refine ⟨gap.mono And.right, written, by rw [place], ?_⟩
  rw [byteLength_eq_length, place]
  intro c member
  exact inFront c (List.mem_reverse.mp ((List.takeWhile_prefix _).subset member))

/-- An accepted source is read back from its tokens. -/
theorem reading_of_accepts {source : String} {tokens : List Token}
    (accepts : Accepts .nothing .start source.toList tokens) : Reading source tokens where
  blocks := (blocks_of_accepts accepts).2 (by simp)
  length := by
    rw [byteLength_eq_length accepts.legal]
    exact length_of_accepts accepts
  segments := by
    obtain ⟨segments, tokens, text, chain⟩ := segmented_of_accepts accepts
    refine ⟨segments, tokens, text, ?_⟩
    rintro front segment back rfl
    refine chain.fits ?_
    rw [text]
    exact accepts.legal
  bytes := fun _ => byte_of_legal accepts.legal

/-- A source without a failure is read back from its tokens: its text is the spellings of
the tokens with gaps in front of them, and each stands where its position says. -/
theorem reading_of_ofSource {source : String} (accepted : (ofSource source).failure = none) :
    Reading source (ofSource source).items :=
  reading_of_accepts (accepts_of_scan (Nat.zero_le _) accepted)

/-- Two statements behind an empty line, the first with a comma and the second with a
comment. -/
theorem reading_of_statements :
    (ofSource "\n a: add 'x', \"b\\\"\" // c").failure = none ∧
      Reading "\n a: add 'x', \"b\\\"\" // c"
        (ofSource "\n a: add 'x', \"b\\\"\" // c").items := by
  have accepted : (ofSource "\n a: add 'x', \"b\\\"\" // c").failure = none := by decide +kernel
  exact ⟨accepted, reading_of_ofSource accepted⟩

end Token

end BankAsm
