import BankAsm.Proofs.Outcome
import BankAsm.Statement.Read

/-!
# The tokens of statements

No stage between the scan and the statements makes tokens of its own: blocks cut
the tokens of a scan apart, and the leaves of the operands of a statement are tokens
of its block (`mem_tokens_of_mem_ofSource`).
-/

namespace BankAsm

/-- The items of a feed of results are results of the list. -/
theorem Feed.exists_of_mem_ofResults {ε α β : Type} {read : α → Except ε (Option β)}
    {list : List α} {b : β} (member : b ∈ (Feed.ofResults read list).items) :
    ∃ a ∈ list, read a = .ok (some b) := by
  induction list with
  | nil => cases member
  | cons a as inductionHypothesis =>
    unfold Feed.ofResults at member
    split at member
    case h_1 first result =>
      rcases List.mem_cons.mp member with rfl | later
      · exact ⟨a, List.mem_cons_self, result⟩
      · obtain ⟨other, here, resultOther⟩ := inductionHypothesis later
        exact ⟨other, List.mem_cons_of_mem a here, resultOther⟩
    case h_2 => cases member
    case h_3 => cases member

/-- The failure of a feed of results is that of one in the list. -/
theorem Feed.exists_of_failure_ofResults {ε α β : Type} {read : α → Except ε (Option β)}
    {list : List α} {e : ε} (fails : (Feed.ofResults read list).failure = some e) :
    ∃ a ∈ list, read a = .error e := by
  induction list with
  | nil => cases fails
  | cons a as inductionHypothesis =>
    unfold Feed.ofResults at fails
    split at fails
    case h_1 =>
      obtain ⟨other, here, failsOther⟩ := inductionHypothesis fails
      exact ⟨other, List.mem_cons_of_mem a here, failsOther⟩
    case h_2 => cases fails
    case h_3 other failed =>
      obtain rfl : other = e := Option.some.inj fails
      exact ⟨a, List.mem_cons_self, failed⟩

namespace Operand

/-- The tokens in an operand. -/
def leaves : Operand → List Token
  | .token t => [t]
  | .group operands => operands.flatMap leaves

/-- What holds of all tokens that are read, and of those that were read before, holds
of all tokens in the operands. -/
theorem forall_leaves_of_read {ending : Except Diagnostic Token} {holds : Token → Prop}
    {ts : List Token} {read : List Operand} {outer : List (List Operand)}
    {operands : List Operand}
    (result : Operand.read ending read outer ts = .ok operands)
    (ahead : ∀ t ∈ ts, holds t)
    (innermost : ∀ operand ∈ read, ∀ t ∈ operand.leaves, holds t)
    (around : ∀ level ∈ outer, ∀ operand ∈ level, ∀ t ∈ operand.leaves, holds t) :
    ∀ operand ∈ operands, ∀ t ∈ operand.leaves, holds t := by
  induction ts generalizing read outer with
  | nil =>
    unfold Operand.read at result
    split at result
    case h_1 => cases result
    case h_2 => cases result
    case h_3 =>
      cases result
      intro operand member
      exact innermost operand (List.mem_reverse.mp member)
  | cons t ts inductionHypothesis =>
    have later : ∀ other ∈ ts, holds other := fun other member =>
      ahead other (List.mem_cons_of_mem t member)
    unfold Operand.read at result
    split at result
    case h_1 =>
      refine inductionHypothesis result later (by simp) ?_
      intro level member
      rcases List.mem_cons.mp member with rfl | further
      · exact innermost
      · exact around level further
    case h_2 =>
      split at result
      case h_2 => cases result
      case h_1 level others =>
        refine inductionHypothesis result later ?_ fun other member =>
          around other (List.mem_cons_of_mem level member)
        intro operand member
        rcases List.mem_cons.mp member with rfl | further
        · intro leaf inside
          obtain ⟨inner, innerMember, here⟩ := List.mem_flatMap.mp (by
            simpa only [leaves] using inside)
          exact innermost inner (List.mem_reverse.mp innerMember) leaf here
        · exact around level List.mem_cons_self operand further
    case h_3 =>
      refine inductionHypothesis result later ?_ around
      intro operand member
      rcases List.mem_cons.mp member with rfl | further
      · intro leaf inside
        have single : leaf = t := by simpa [leaves] using inside
        rw [single]
        exact ahead t List.mem_cons_self
      · exact innermost operand further

end Operand

/-- Blocks are cut from the tokens of a scan. -/
theorem Block.mem_of_mem_cut {ending : Except Diagnostic Token} {ts : List Token}
    {block : Block} {t : Token}
    (among : block ∈ (Block.cut ending ts).1 :: (Block.cut ending ts).2)
    (member : t ∈ block.tokens) : t ∈ ts := by
  induction ts generalizing block with
  | nil =>
    rw [List.mem_singleton.mp among] at member
    cases member
  | cons first rest inductionHypothesis =>
    unfold Block.cut at among
    split at among
    case h_1 =>
      rw [List.mem_singleton.mp among] at member
      cases member
    case h_2 =>
      rcases List.mem_cons.mp among with rfl | later
      · cases member
      · exact List.mem_cons_of_mem first (inductionHypothesis later member)
    case h_3 =>
      rcases List.mem_cons.mp among with rfl | later
      · rcases List.mem_cons.mp member with rfl | further
        · exact List.mem_cons_self
        · exact List.mem_cons_of_mem first (inductionHypothesis List.mem_cons_self further)
      · exact List.mem_cons_of_mem first
          (inductionHypothesis (List.mem_cons_of_mem _ later) member)

namespace Statement

/-- What holds of the tokens of a block holds of those in its statement. -/
theorem forall_leaves_of_readBehind {label : Option Label} {ending : Except Diagnostic Token}
    {holds : Token → Prop} {ts : List Token} {s : Statement}
    (result : readBehind label ending ts = .ok s) (ahead : ∀ t ∈ ts, holds t) :
    ∀ operand ∈ s.operands, ∀ t ∈ operand.leaves, holds t := by
  unfold readBehind at result
  split at result
  case h_1 =>
    split at result
    case h_1 => cases result
    case h_2 => cases result
  case h_2 t ts =>
    have later : ∀ other ∈ ts, holds other := fun other member =>
      ahead other (List.mem_cons_of_mem t member)
    split at result
    case isTrue =>
      obtain ⟨operands, read, rfl⟩ := Outcome.map_eq_ok_iff.mp result
      refine Operand.forall_leaves_of_read read later ?_ (by simp)
      intro operand member leaf inside
      rw [List.mem_singleton.mp member] at inside
      have single : leaf = t := by simpa [Operand.leaves] using inside
      rw [single]
      exact ahead t List.mem_cons_self
    case isFalse =>
      split at result
      case isFalse => cases result
      case isTrue =>
        obtain ⟨operands, read, rfl⟩ := Outcome.map_eq_ok_iff.mp result
        exact Operand.forall_leaves_of_read read later (by simp) (by simp)

/-- The tokens in the statement of a block are tokens of the block. -/
theorem mem_tokens_of_ofBlock {block : Block} {s : Statement}
    (result : ofBlock block = .ok (some s)) :
    ∀ operand ∈ s.operands, ∀ t ∈ operand.leaves, t ∈ block.tokens := by
  unfold ofBlock at result
  split at result
  case h_1 => cases result
  case h_2 name position ts _ tokens =>
    obtain ⟨found, read, same⟩ := Outcome.map_eq_ok_iff.mp result
    cases same
    rw [tokens]
    exact forall_leaves_of_readBehind read fun t member => List.mem_cons_of_mem _ member
  case h_3 =>
    obtain ⟨found, read, same⟩ := Outcome.map_eq_ok_iff.mp result
    cases same
    exact forall_leaves_of_readBehind read fun t member => member

/-- The tokens in a statement are tokens of its source. -/
theorem mem_tokens_of_mem_ofSource {source : String} {s : Statement}
    (member : s ∈ (Statement.ofSource source).items) :
    ∀ operand ∈ s.operands, ∀ t ∈ operand.leaves, t ∈ (Token.ofSource source).items := by
  obtain ⟨block, among, result⟩ := Feed.exists_of_mem_ofResults member
  intro operand here t inside
  exact Block.mem_of_mem_cut among (mem_tokens_of_ofBlock result operand here t inside)

end Statement

end BankAsm
