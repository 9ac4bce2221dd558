import Mathlib.Data.List.Chain
import Mathlib.Order.Interval.Finset.Nat
import ConfLex.Proofs.Signals

/-!
# Every run makes progress

Each turn of the lexer's loop either ends the run or moves the cursor forward: a blank by one
byte, a unit by at least one byte and by no more than the input has left
(`Cursor.pos_advanceBy_unit`). The loops that read a unit's body walk the bytes after the cursor
one at a time, so the scanner's answer is a length within the rest.

So a listener hears the signals of the loop at positions that strictly increase from where the run
started, all within the text, and after them at most the closing end of line and end of input, at
the end of the input (`Lexer.run_progress`). Counting the positions, a run from offset `p` of a
text of `len` bytes hands its listener at most `(len - p) + 2` signals; the main statement is
`Lexer.run_hears_at_most_bytes_left_add_two`.
-/

namespace ConfLex

/-- Positions that strictly increase from `a` on and stay at most `n` are at most `n - a`
many. -/
theorem length_le_of_isChain_lt {a n : Nat} {ps : List Nat} (hc : (a :: ps).IsChain (· < ·))
    (hle : ∀ p ∈ ps, p ≤ n) : ps.length ≤ n - a := by
  have hpw : (a :: ps).Pairwise (· < ·) := List.isChain_iff_pairwise.mp hc
  have hsub : ps.toFinset ⊆ Finset.Ioc a n := by
    intro p hp
    rw [List.mem_toFinset] at hp
    exact Finset.mem_Ioc.mpr ⟨List.rel_of_pairwise_cons hpw hp, hle p hp⟩
  calc ps.length = ps.toFinset.card :=
        (List.toFinset_card_of_nodup (List.pairwise_cons.mp hpw).2.nodup).symm
    _ ≤ (Finset.Ioc a n).card := Finset.card_le_card hsub
    _ = n - a := Nat.card_Ioc a n

namespace Cursor

/-- Moving over the unit at the front of the rest moves the cursor strictly forward, and not past
the end of the text. -/
theorem pos_advanceBy_unit {c : Cursor} {b : UInt8} {t : List UInt8} {k : TokenKind} {n : Nat}
    (h : c.rest = b :: t) (hs : Scan.next b t = .unit k n) :
    c.pos < (c.advanceBy n).pos ∧ (c.advanceBy n).pos ≤ c.source.length := by
  have hpos : 0 < n := Scan.pos_of_next_eq_unit hs
  have hn : n ≤ (b :: t).length := (Scan.next_eq_unit hs).le_length
  have hlen : (b :: t).length = c.source.length - c.pos := by
    rw [← h, c.rest_eq, List.length_drop]
  have hlt := pos_lt_of_rest_cons h
  rw [pos_advanceBy, h, Nat.min_eq_left hn]
  omega

end Cursor

namespace Lexer

/-- How the signals that a run from `c` hands over lie in the text: first the signals of the loop,
`units`, each heard strictly past the one before it, the first strictly past `c`, and all within
the text; then `closing`, at most an end of line and the end of input, heard at the end of the
input. -/
structure Progress (c : Cursor) (units closing : List Heard) : Prop where
  /-- Every signal of the loop is heard strictly past the one before it. -/
  advances : (c.pos :: units.map fun x => x.cursor.pos).IsChain (· < ·)
  /-- Every signal of the loop is heard within the text. -/
  within : ∀ x ∈ units, x.cursor.pos ≤ c.source.length
  /-- The closing signals are an end of line and the end of input, or fewer. -/
  closing_prefix : closing.map Heard.signal <+: [.eol, .eof]
  /-- The closing signals are heard at the end of the input. -/
  closing_at_end : ∀ x ∈ closing, x.cursor.rest = []

namespace Progress

variable {c : Cursor} {units closing : List Heard}

/-- Nothing more heard, as after a fault. -/
theorem nil (c : Cursor) : Progress c [] [] :=
  ⟨List.isChain_singleton _, by simp, List.nil_prefix, by simp⟩

/-- The closing end of line and end of input, heard when the input is used up. -/
theorem close (h : c.rest = []) (eol eof : Bool) (notes : List (Level × String)) :
    Progress c [] [⟨c, .eol, eol⟩, ⟨c.reportAll notes, .eof, eof⟩] := by
  refine ⟨List.isChain_singleton _, by simp, List.prefix_refl _, ?_⟩
  simp [h]

/-- A blank: the signals heard from one byte further on are heard past the cursor. -/
theorem blank {b : UInt8} {t : List UInt8} (h : c.rest = b :: t)
    (hp : Progress c.advance units closing) : Progress c units closing where
  advances := hp.advances.imp_head fun hlt => by
    rw [Cursor.pos_advance_cons h] at hlt
    omega
  within := Cursor.source_advance c ▸ hp.within
  closing_prefix := hp.closing_prefix
  closing_at_end := hp.closing_at_end

/-- A unit at the front of the rest, heard just past it; the run goes on from there, with
whatever the listener reported. -/
theorem unit {b : UInt8} {t : List UInt8} {k : TokenKind} {n : Nat} (h : c.rest = b :: t)
    (hs : Scan.next b t = .unit k n) (sig : Signal) (go : Bool) (notes : List (Level × String))
    (hp : Progress ((c.advanceBy n).reportAll notes) units closing) :
    Progress c (⟨c.advanceBy n, sig, go⟩ :: units) closing := by
  obtain ⟨hlt, hle⟩ := Cursor.pos_advanceBy_unit h hs
  have hpos : ((c.advanceBy n).reportAll notes).pos = (c.advanceBy n).pos :=
    Cursor.pos_reportAll _ _
  have hsrc : ((c.advanceBy n).reportAll notes).source = c.source := by simp
  refine ⟨?_, ?_, hp.closing_prefix, hp.closing_at_end⟩
  · rw [List.map_cons]
    exact List.IsChain.cons_cons hlt (hpos ▸ hp.advances)
  · intro y hy
    rcases List.mem_cons.mp hy with rfl | hy
    · exact hle
    · exact hsrc ▸ hp.within y hy

/-- The signals of the loop are at most as many as the bytes left, and there are at most two
closing ones. -/
theorem length_le (h : Progress c units closing) :
    (units ++ closing).length ≤ c.source.length - c.pos + 2 := by
  have hunits : units.length ≤ c.source.length - c.pos := by
    have := length_le_of_isChain_lt h.advances (by simpa using h.within)
    rwa [List.length_map] at this
  have hclosing : closing.length ≤ 2 := by
    simpa using h.closing_prefix.length_le
  rw [List.length_append]
  omega

end Progress

variable {σ : Type}

/-- The signals a watched listener hears in a run: those of the loop, each past the one before,
then the closing ones at the end of the input. The induction follows the run's turns: at the end
of the input the closing end of line and end of input are heard; a blank moves the run one byte
on; a unit the listener lets pass or stops at is heard past the cursor; after a fault nothing
more is heard. -/
theorem run_progress (l : Listener σ) (c : Cursor) (p : σ × List Heard) :
    ∃ units closing, (run l.watch c p).state.2 = p.2 ++ units ++ closing ∧
      Progress c units closing := by
  fun_induction run l.watch c p with
  | case1 c p hrest =>
    let r1 := l.hear c .eol p.1
    refine ⟨[], [⟨c, .eol, r1.go⟩, ⟨c.reportAll r1.notes, .eof,
      (l.hear (c.reportAll r1.notes) .eof r1.state).go⟩], ?_, Progress.close hrest _ _ _⟩
    simp [r1, finish, tell, Listener.watch]
  | case2 c p b t hrest hs ih =>
    obtain ⟨units, closing, heq, hp⟩ := ih
    exact ⟨units, closing, heq, hp.blank hrest⟩
  | case3 c p b t hrest k n hs c1 r c2 hgo ih =>
    obtain ⟨units, closing, heq, hp⟩ := ih
    refine ⟨_, closing, ?_,
      hp.unit hrest hs (Signal.ofUnit k ⟨(b :: t).take n, ⟨c.pos, c.pos + n⟩⟩) r.go r.notes⟩
    rw [heq]
    simp [r, c1, Listener.watch]
  | case4 c p b t hrest k n hs c1 r c2 hgo =>
    refine ⟨_, [], ?_, (Progress.nil _).unit hrest hs
      (Signal.ofUnit k ⟨(b :: t).take n, ⟨c.pos, c.pos + n⟩⟩) r.go r.notes⟩
    simp [r, c1, Listener.watch]
  | case5 c p b t hrest k o hs failed =>
    exact ⟨[], [], by simp, Progress.nil c⟩

/-- A run makes progress: the listener hears the signals of the loop at positions that strictly
increase from where the run started, all within the text, then at most the closing end of line
and end of input, at the end of the input. So a run from offset `p` of a text of `len` bytes hands
its listener at most `(len - p) + 2` signals. -/
theorem run_hears_at_most_bytes_left_add_two (l : Listener σ) (c : Cursor) (s : σ) :
    (∃ units closing, (run l.watch c (s, [])).state.2 = units ++ closing ∧
      Progress c units closing) ∧
    (run l.watch c (s, [])).state.2.length ≤ c.source.length - c.pos + 2 := by
  obtain ⟨units, closing, heq, hp⟩ := run_progress l c (s, [])
  rw [List.nil_append] at heq
  refine ⟨⟨units, closing, heq, hp⟩, ?_⟩
  rw [heq]
  exact hp.length_le

/-- Line feeds reach the bound: each is a unit of one byte, heard as an end of line. -/
example : (run (⟨fun _ _ _ => ⟨true, (), []⟩⟩ : Listener Unit).watch
    (Cursor.new [10, 10, 10] "lines") ((), [])).state.2.length = 5 := by
  decide +kernel

end Lexer

end ConfLex
