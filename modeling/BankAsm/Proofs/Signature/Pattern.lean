import BankAsm.Proofs.Outcome
import BankAsm.Proofs.Text.Blank
import BankAsm.Signature.Pattern

/-!
# Written signatures are read back

A signature that can be written is what its text is read as (`ofPattern_text`), and
whatever a text is read as can be written (`writable_of_ofPattern`). So the text of
what was read is a normal form of the text.
-/

namespace BankAsm

namespace Param

mutual

/-- Whether the name of every kind in a parameter is one that is read. -/
def writable : Param → Bool
  | .kind k => k ∈ TokenKind.operands
  | .group ps => allWritable ps
  | .register => true
  | .number => true

/-- Whether the names of all kinds in parameters are read. -/
def allWritable : List Param → Bool
  | [] => true
  | p :: ps => p.writable && allWritable ps

end

theorem allWritable_iff {ps : List Param} :
    allWritable ps = true ↔ ∀ p ∈ ps, p.writable = true := by
  induction ps with
  | nil => simp [allWritable]
  | cons p ps inductionHypothesis => simp [allWritable, inductionHypothesis]

theorem allWritable_reverse (ps : List Param) : allWritable ps.reverse = allWritable ps := by
  rw [Bool.eq_iff_iff, allWritable_iff, allWritable_iff]
  simp only [List.mem_reverse]

theorem chars_kind (k : TokenKind) : (kind k).chars = '<' :: k.name.toList ++ ['>'] := rfl

theorem chars_register : chars .register = '<' :: "Register".toList ++ ['>'] := by decide

theorem chars_number : chars .number = '<' :: "Number".toList ++ ['>'] := by decide

theorem chars_group (ps : List Param) :
    (group ps).chars = '[' :: (spacedChars ps).drop 1 ++ [']'] := rfl

/-- The name of a kind that is read stands for the kind. -/
theorem ofName?_name : ∀ k ∈ TokenKind.operands, ofName? k.name = some (.kind k) := by decide

theorem close_not_mem_name (k : TokenKind) : '>' ∉ k.name.toList := by
  cases k <;> decide

/-- A parameter that a name stands for can be written. -/
theorem writable_of_ofName? {name : String} {p : Param} (found : ofName? name = some p) :
    p.writable = true := by
  unfold ofName? at found
  split at found
  · obtain rfl := Option.some.inj found
    rfl
  · split at found
    · obtain rfl := Option.some.inj found
      rfl
    · obtain ⟨k, known, rfl⟩ := Option.map_eq_some_iff.mp found
      simpa [writable] using List.mem_of_find?_eq_some known

section Steps

variable {done : List Param} {outer : List (List Param)} {letters : List Char}

theorem read_space (rest : List Char) :
    read none done outer (' ' :: rest) = read none done outer rest := by
  simp [read]

theorem read_openGroup (rest : List Char) :
    read none done outer ('[' :: rest) = read none [] (done :: outer) rest := by
  simp [read]

theorem read_closeGroup (around : List Param) (rest : List Char) :
    read none done (around :: outer) (']' :: rest) =
      read none (.group done.reverse :: around) outer rest := by
  simp [read]

theorem read_openClass (rest : List Char) :
    read none done outer ('<' :: rest) = read (some []) done outer rest := by
  simp [read]

theorem read_closeClass {p : Param} (found : ofName? (String.ofList letters.reverse) = some p)
    (rest : List Char) :
    read (some letters) done outer ('>' :: rest) = read none (p :: done) outer rest := by
  simp [read, found]

/-- A name is read to its bracket. -/
theorem read_letters {name : List Char} (inside : '>' ∉ name) (rest : List Char) :
    read (some letters) done outer (name ++ rest) =
      read (some (name.reverse ++ letters)) done outer rest := by
  induction name generalizing letters with
  | nil => rfl
  | cons c name inductionHypothesis =>
    rw [List.mem_cons, not_or] at inside
    obtain ⟨differs, later⟩ := inside
    have other : c ≠ '>' := Ne.symm differs
    have step : read (some letters) done outer (c :: (name ++ rest)) =
        read (some (c :: letters)) done outer (name ++ rest) := by
      simp [read, other]
    rw [List.cons_append, step, inductionHypothesis later, List.reverse_cons, List.append_assoc]
    rfl

/-- A class in angle brackets is read as what its name stands for. -/
theorem read_class {name : String} {p : Param} (found : ofName? name = some p)
    (inside : '>' ∉ name.toList) (rest : List Char) :
    read none done outer ('<' :: name.toList ++ ['>'] ++ rest) =
      read none (p :: done) outer rest := by
  have written : String.ofList (name.toList.reverse ++ []).reverse = name := by simp
  rw [List.append_assoc, List.cons_append, read_openClass, read_letters inside,
    List.singleton_append, read_closeClass (written ▸ found)]

/-- The space in front of the first parameter may be missing. -/
theorem read_drop_space (ps : List Param) (rest : List Char) :
    read none done outer ((spacedChars ps).drop 1 ++ rest) =
      read none done outer (spacedChars ps ++ rest) := by
  cases ps with
  | nil => rfl
  | cons p ps =>
    rw [spacedChars, List.cons_append, List.cons_append, read_space]
    rfl

end Steps

mutual

/-- The text of a parameter is read as the parameter, whatever follows. -/
theorem read_chars : (p : Param) → p.writable = true →
    ∀ (done : List Param) (outer : List (List Param)) (rest : List Char),
      read none done outer (p.chars ++ rest) = read none (p :: done) outer rest
  | .kind k, writes, done, outer, rest => by
    have known : k ∈ TokenKind.operands := of_decide_eq_true writes
    rw [chars_kind, read_class (ofName?_name k known) (close_not_mem_name k)]
  | .register, _, done, outer, rest => by
    rw [chars_register, read_class (p := .register) (by decide) (by decide)]
  | .number, _, done, outer, rest => by
    rw [chars_number, read_class (p := .number) (by decide) (by decide)]
  | .group ps, writes, done, outer, rest => by
    rw [writable] at writes
    rw [chars_group, List.append_assoc, List.cons_append, List.singleton_append,
      read_openGroup, read_drop_space, read_spacedChars ps writes, read_closeGroup]
    simp

/-- The texts of parameters are read one after the other, whatever follows. -/
theorem read_spacedChars : (ps : List Param) → allWritable ps = true →
    ∀ (done : List Param) (outer : List (List Param)) (rest : List Char),
      read none done outer (spacedChars ps ++ rest) = read none (ps.reverse ++ done) outer rest
  | [], _, _, _, _ => rfl
  | p :: ps, writes, done, outer, rest => by
    rw [allWritable, Bool.and_eq_true] at writes
    rw [spacedChars, List.cons_append, List.cons_append, read_space, List.append_assoc,
      read_chars p writes.1, read_spacedChars ps writes.2, List.reverse_cons, List.append_assoc]
    rfl

end

/-- Parameters that are read can be written, if those read before them can. -/
theorem allWritable_of_read {name : Option (List Char)} {done : List Param}
    {outer : List (List Param)} {cs : List Char} {params : List Param}
    (reads : read name done outer cs = .ok params)
    (inner : allWritable done = true) (around : ∀ group ∈ outer, allWritable group = true) :
    allWritable params = true := by
  fun_induction read name done outer cs with
  | case1 | case2 | case5 | case11 | case12 => cases reads
  | case3 done =>
    obtain rfl := Except.ok.inj reads
    rwa [allWritable_reverse]
  | case4 done outer cs letters written p found inductionHypothesis =>
    refine inductionHypothesis reads ?_ around
    rw [allWritable, writable_of_ofName? found, inner]
    rfl
  | case6 done outer c cs letters differs inductionHypothesis =>
    exact inductionHypothesis reads inner around
  | case7 done outer cs inductionHypothesis => exact inductionHypothesis reads inner around
  | case8 done outer cs differs inductionHypothesis =>
    exact inductionHypothesis reads rfl (List.forall_mem_cons.mpr ⟨inner, around⟩)
  | case9 done outer cs space opener inductionHypothesis =>
    exact inductionHypothesis reads inner around
  | case10 done cs group others space opener bracket inductionHypothesis =>
    obtain ⟨next, further⟩ := List.forall_mem_cons.mp around
    refine inductionHypothesis reads ?_ further
    rw [allWritable, writable, allWritable_reverse, inner, next]
    rfl

/-- Parameters that were read before stay, so that nothing is read of spaces alone. -/
theorem blank_of_read {name : Option (List Char)} {done : List Param}
    {outer : List (List Param)} {cs : List Char} (reads : read name done outer cs = .ok []) :
    name = none ∧ done = [] ∧ outer = [] ∧ ∀ c ∈ cs, c = ' ' := by
  fun_induction read name done outer cs with
  | case1 | case2 | case5 | case11 | case12 => cases reads
  | case3 done =>
    have nothing : done = [] := List.reverse_eq_nil_iff.mp (Except.ok.inj reads)
    simp [nothing]
  | case4 done outer cs letters written p found inductionHypothesis =>
    obtain ⟨_, absurd, _⟩ := inductionHypothesis reads
    cases absurd
  | case6 done outer c cs letters differs inductionHypothesis =>
    obtain ⟨absurd, _⟩ := inductionHypothesis reads
    cases absurd
  | case7 done outer cs inductionHypothesis =>
    obtain ⟨_, rfl, rfl, spaces⟩ := inductionHypothesis reads
    exact ⟨rfl, rfl, rfl, List.forall_mem_cons.mpr ⟨rfl, spaces⟩⟩
  | case8 done outer cs differs inductionHypothesis =>
    obtain ⟨_, _, absurd, _⟩ := inductionHypothesis reads
    cases absurd
  | case9 done outer cs space opener inductionHypothesis =>
    obtain ⟨absurd, _⟩ := inductionHypothesis reads
    cases absurd
  | case10 done cs group others space opener bracket inductionHypothesis =>
    obtain ⟨_, absurd, _⟩ := inductionHypothesis reads
    cases absurd

theorem getLast?_chars (p : Param) : p.chars.getLast? = some '>' ∨ p.chars.getLast? = some ']' := by
  cases p with
  | kind k => exact .inl (by rw [chars_kind, List.getLast?_concat])
  | group ps => exact .inr (by rw [chars_group, List.getLast?_concat])
  | register => exact .inl (by rw [chars_register, List.getLast?_concat])
  | number => exact .inl (by rw [chars_number, List.getLast?_concat])

/-- A text does not end in white space if it ends in parameters. -/
theorem endsFull_spacedChars (front : List Char) (p : Param) (ps : List Param) :
    Text.endsFull (front ++ spacedChars (p :: ps)) := by
  induction ps generalizing front p with
  | nil =>
    intro c last
    rw [spacedChars, spacedChars, List.append_nil, List.getLast?_append, List.getLast?_cons] at last
    rcases getLast?_chars p with bracket | bracket
    · rw [bracket] at last
      obtain rfl := Option.some.inj last
      decide
    · rw [bracket] at last
      obtain rfl := Option.some.inj last
      decide
  | cons q ps inductionHypothesis =>
    rw [spacedChars, ← List.append_assoc]
    exact inductionHypothesis _ q

end Param

namespace Signature

open Text (isBlank startsFull endsFull)

/-- A signature that is read back from its text. -/
structure Writable (s : Signature) : Prop where
  /-- It has a mnemonic. -/
  named : s.mnemonic ≠ ""
  /-- The mnemonic holds no space. -/
  spaceless : ' ' ∉ s.mnemonic.toList
  /-- The mnemonic does not begin with white space. -/
  front : startsFull s.mnemonic.toList
  /-- Without parameters it does not end with it either. -/
  back : s.params = [] → endsFull s.mnemonic.toList
  /-- The kinds of all parameters are those that a pattern may name. -/
  kinds : Param.allWritable s.params = true

theorem toList_text (s : Signature) :
    s.text.toList = s.mnemonic.toList ++ Param.spacedChars s.params := by
  rw [text, String.toList_append, String.toList_ofList]

/-- The text of a signature that can be written has no margin. -/
theorem Writable.trim_text {s : Signature} (writable : s.Writable) :
    Text.trim s.text.toList = s.text.toList := by
  have something : s.mnemonic.toList ≠ [] := by simpa using writable.named
  apply Text.trim_eq_self
  · intro c first
    refine writable.front c ?_
    obtain ⟨d, ds, spelled⟩ := List.exists_cons_of_ne_nil something
    rw [toList_text, spelled] at first
    rw [spelled]
    exact first
  · rw [toList_text]
    cases params : s.params with
    | nil =>
      rw [Param.spacedChars, List.append_nil]
      exact writable.back params
    | cons p ps => exact Param.endsFull_spacedChars _ p ps

/-- The mnemonic of a signature that can be written is what its text has in front of the
first space. -/
theorem Writable.takeWhile_text {s : Signature} (writable : s.Writable) :
    s.text.toList.takeWhile (· ≠ ' ') = s.mnemonic.toList := by
  have within : ∀ c ∈ s.mnemonic.toList, decide (c ≠ ' ') = true := by
    intro c member
    simp only [decide_eq_true_eq]
    rintro rfl
    exact writable.spaceless member
  rw [toList_text, List.takeWhile_append_of_pos within]
  cases s.params with
  | nil => rw [Param.spacedChars, List.takeWhile_nil, List.append_nil]
  | cons p ps =>
    rw [Param.spacedChars, List.cons_append, List.takeWhile_cons_of_neg (by simp),
      List.append_nil]

/-- The text of a signature that can be written is read as the signature. -/
theorem Writable.ofPattern_text {s : Signature} (writable : s.Writable) :
    ofPattern s.text = .ok s := by
  have something : s.mnemonic.toList ≠ [] := by simpa using writable.named
  have reads : Param.read none [] [] (Param.spacedChars s.params) = .ok s.params := by
    have whole := Param.read_spacedChars s.params writable.kinds [] [] []
    rw [List.append_nil, List.append_nil] at whole
    rw [whole, Param.read, List.reverse_reverse]
  have rest : s.text.toList.drop s.mnemonic.toList.length = Param.spacedChars s.params := by
    rw [toList_text, List.drop_left]
  simp only [ofPattern, writable.trim_text, writable.takeWhile_text, something, if_false, rest,
    reads, Except.map, String.ofList_toList]

/-- The parts of a text that is read, without its margin. -/
theorem parts_of_ofPattern {text : String} {s : Signature} (reads : ofPattern text = .ok s) :
    s.mnemonic.toList ≠ [] ∧
      s.mnemonic.toList = (Text.trim text.toList).takeWhile (· ≠ ' ') ∧
      Param.read none [] [] ((Text.trim text.toList).drop s.mnemonic.toList.length) =
        .ok s.params := by
  simp only [ofPattern] at reads
  split at reads
  case isTrue => cases reads
  case isFalse something =>
    obtain ⟨params, readParams, rfl⟩ := Outcome.map_eq_ok_iff.mp reads
    rw [String.toList_ofList]
    exact ⟨something, rfl, readParams⟩

/-- What a text is read as can be written. -/
theorem writable_of_ofPattern {text : String} {s : Signature} (reads : ofPattern text = .ok s) :
    s.Writable := by
  obtain ⟨something, spelled, readParams⟩ := parts_of_ofPattern reads
  have front : startsFull (Text.trim text.toList) := Text.startsFull_trim _
  have back : endsFull (Text.trim text.toList) := Text.endsFull_trim _
  generalize Text.trim text.toList = cs at spelled readParams front back
  constructor
  case named => simpa using something
  case spaceless =>
    rw [spelled]
    intro member
    have other := List.all_eq_true.mp List.all_takeWhile ' ' member
    simp at other
  case front =>
    intro c first
    rw [spelled, List.head?_takeWhile] at first
    exact front c (Option.filter_eq_some_iff.mp first).1
  case back =>
    -- Only spaces are read as no parameters, and the text does not end in one.
    intro nothing
    rw [nothing] at readParams
    obtain ⟨_, _, _, spaces⟩ := Param.blank_of_read readParams
    have starts : s.mnemonic.toList <+: cs := spelled ▸ List.takeWhile_prefix _
    have whole := List.prefix_iff_eq_append.mp starts
    generalize cs.drop s.mnemonic.toList.length = rest at spaces whole
    rcases List.eq_nil_or_concat rest with rfl | ⟨others, c, rfl⟩
    · rw [List.append_nil] at whole
      rwa [whole]
    · obtain rfl : c = ' ' := spaces c (by simp)
      have full := back ' ' (by rw [← whole]; simp)
      exact absurd full (by decide)
  case kinds => exact Param.allWritable_of_read readParams rfl (by simp)

/-- Signatures and their texts are inverse to each other as far as either side can be
written or read. -/
structure TextsReadBack : Prop where
  /-- A signature that can be written is read back from its text. -/
  read_text (s : Signature) (writable : s.Writable) : ofPattern s.text = .ok s
  /-- So no two of them have the same text. -/
  injective (s other : Signature) (writable : s.Writable) (otherWritable : other.Writable)
    (same : s.text = other.text) : s = other
  /-- Whatever a text is read as can be written. -/
  normal (text : String) (s : Signature) (reads : ofPattern text = .ok s) : s.Writable
  /-- So its text is a normal form, which is read as the same signature. -/
  read_normal (text : String) (s : Signature) (reads : ofPattern text = .ok s) :
    ofPattern s.text = .ok s

/-- What is written is read back, and what is read can be written. -/
theorem textsReadBack : TextsReadBack where
  read_text := fun _ writable => writable.ofPattern_text
  injective := by
    intro s other writable otherWritable same
    have reads := writable.ofPattern_text
    rw [same, otherWritable.ofPattern_text] at reads
    exact (Except.ok.inj reads).symm
  normal := fun _ _ reads => writable_of_ofPattern reads
  read_normal := fun _ _ reads => (writable_of_ofPattern reads).ofPattern_text

/-- Spaces in a text and white space around it are not in its normal form. -/
example : (ofPattern "\tload [ <Number>[ ] ]<Index>\n").toOption.map text =
    some "load [<Number> []] <Index>" := by
  decide

end Signature

end BankAsm
