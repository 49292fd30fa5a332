import BankAsm.Proofs.Assembly.Pulls
import BankAsm.Proofs.Layout.Failing

/-!
# What the next pull does

A pull does with the next statement what `Places` and `Fails` say of it: it gives the
statement at its place (`Offers.pull_of_places`), or what it reports
(`Offers.pull_of_fails`). A pull that fails in another way had no statement with octets before
it (`refused_of_pull`).
-/

namespace BankAsm

namespace Assembly

open Layout (Places Fails)

variable {assembly : Assembly} {s : Statement} {code : List Octet} {after : Layout}

/-- The next statement, with its octets. -/
structure Offers (assembly : Assembly) (s : Statement) (code : List Octet) : Prop where
  next : s ∈ assembly.pending.items.head?
  encoded : assembly.table.encode s = .ok code

/-- A statement is offered with its own octets. -/
theorem Offers.unique {other : Statement} {octets : List Octet} (offers : assembly.Offers s code)
    (again : assembly.Offers other octets) : s = other ∧ code = octets := by
  obtain rfl : s = other := Option.some.inj (offers.next.symm.trans again.next)
  exact ⟨rfl, Except.ok.inj (offers.encoded.symm.trans again.encoded)⟩

/-- A statement that is offered is the first that is pending. -/
theorem Offers.pending_eq (offers : assembly.Offers s code) :
    assembly.pending = ⟨s :: assembly.pending.items.tail, assembly.pending.failure⟩ := by
  have next := offers.next
  cases items : assembly.pending.items with
  | nil => simp [items] at next
  | cons first rest =>
    rw [items] at next
    obtain rfl : first = s := Option.some.inj next
    rw [List.tail_cons, ← items]

/-- A pull gives the next statement at its place. -/
theorem Offers.pull_of_places {p : Placed} (offers : assembly.Offers s code)
    (places : Places assembly.layout s code after p) :
    assembly.pull = (some (.ok p), { assembly with
      layout := after
      pending := ⟨assembly.pending.items.tail, assembly.pending.failure⟩ }) := by
  have placing := placeNext_eq_ok_iff.mpr ⟨code, offers.encoded, places⟩
  rw [pull, offers.pending_eq]
  simp only [placing]
  rfl

/-- A pull that gives a statement had it before it, and placed it. -/
theorem exists_offers_of_pull {p : Placed} {behind : Assembly}
    (pulled : assembly.pull = (some (.ok p), behind)) :
    ∃ code, assembly.Offers p.statement code ∧
      Places assembly.layout p.statement code behind.layout p := by
  obtain ⟨code, encoded, places⟩ := places_of_pull pulled
  refine ⟨code, ⟨?_, encoded⟩, places⟩
  rw [(takes_of_pull pulled).items]
  rfl

/-- A pull reports why the next statement does not find its place. -/
theorem Offers.pull_of_fails {d : Diagnostic} (offers : assembly.Offers s code)
    (fails : Fails assembly.layout s code after d) :
    assembly.pull =
      (some (.error (.reported d)), { assembly with layout := after, pending := .done }) := by
  have placing : placeNext assembly.table assembly.layout s = (after, .error (.reported d)) := by
    simp only [placeNext, offers.encoded, Layout.place_of_fails fails]
  rw [pull, offers.pending_eq]
  simp only [placing]

/-- A statement that is not placed was not encoded, and changed nothing, or it was refused. -/
theorem fails_of_placeNext {table : EncodingTable} {layout : Layout} {failure : Failure}
    (step : placeNext table layout s = (after, .error failure)) :
    (after = layout ∧ table.encode s = .error failure) ∨
      ∃ code d, table.encode s = .ok code ∧ failure = .reported d ∧
        Fails layout s code after d := by
  unfold placeNext at step
  split at step
  case h_1 unencoded =>
    cases step
    exact .inl ⟨rfl, unencoded⟩
  case h_2 code encoded =>
    split at step
    case h_1 => cases step
    case h_2 d refused =>
      cases step
      exact .inr ⟨code, d, encoded, rfl, Layout.fails_of_place refused⟩

/-- A pull that fails has refused a statement, or there was none with octets. -/
theorem refused_of_pull {failure : Failure} (fails : assembly.pull.1 = some (.error failure)) :
    (assembly.pull.2.layout = assembly.layout ∧ ∀ s code, ¬assembly.Offers s code) ∨
      ∃ s code d, assembly.Offers s code ∧ failure = .reported d ∧
        Fails assembly.layout s code assembly.pull.2.layout d := by
  obtain ⟨table, layout, items, cut⟩ := assembly
  cases items with
  | nil =>
    refine .inl ⟨?_, fun s code offers => by simpa using offers.next⟩
    cases cut <;> rfl
  | cons s rest =>
    simp only [pull] at fails ⊢
    split at fails
    case h_1 => cases fails
    case h_2 after refused placing =>
      cases fails
      rcases fails_of_placeNext placing with ⟨same, unencoded⟩ | ⟨code, d, encoded, same, step⟩
      · refine .inl ⟨same, fun other code offers => ?_⟩
        obtain rfl : s = other := Option.some.inj offers.next
        have encoded : table.encode s = .ok code := offers.encoded
        rw [unencoded] at encoded
        cases encoded
      · exact .inr ⟨s, code, d, ⟨rfl, encoded⟩, same, step⟩

end Assembly

end BankAsm
