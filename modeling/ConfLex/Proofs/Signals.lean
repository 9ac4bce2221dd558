import ConfLex.Proofs.LineIndex
import ConfLex.Proofs.Driver

/-!
# Where a run hands over its signals

`Lexer.Hands c d sig` says that a run of the lexer from the cursor `c` can hand the signal `sig`
to its listener while standing at the cursor `d`: a unit of the reading of the rest, heard just
past the unit, or, once the input is used up, the closing end of line and end of input. What
the listener answered and reported before decides how far a run gets, not where it stands, so
`Hands` does not mention the listener. `Lexer.run_invariant_hands` says that a property of the
listener's state kept by every such signal holds at the end of every run, and
`Listener.watch` writes down every signal a listener hears with the cursor it hears it at.

The signals handed keep to the cursor: it has moved forward from where the run started
(`Hands.moves`), a unit's token is the text from its start up to the cursor
(`Hands.token_of_unit`), and an end of line is heard right after a line feed or at the end of the
input (`Hands.eol_cases`).
-/

namespace ConfLex

namespace Lexer

/-- The signals a run from a cursor can hand its listener, each with the cursor it is heard
at. -/
inductive Hands : Cursor → Cursor → Signal → Prop where
  /-- The unit at the front of the rest, heard just past it. -/
  | unit {c : Cursor} {b : UInt8} {t : List UInt8} {k : TokenKind} {n : Nat}
      (h : c.rest = b :: t) (hs : Scan.next b t = .unit k n) :
      Hands c (c.advanceBy n) (Signal.ofUnit k ⟨(b :: t).take n, ⟨c.pos, c.pos + n⟩⟩)
  /-- A signal handed after a blank. -/
  | blank {c d : Cursor} {sig : Signal} {b : UInt8} {t : List UInt8}
      (h : c.rest = b :: t) (hs : Scan.next b t = .blank) (hd : Hands c.advance d sig) :
      Hands c d sig
  /-- A signal handed after a unit the listener let pass, whatever it reported. -/
  | past {c d : Cursor} {sig : Signal} {b : UInt8} {t : List UInt8} {k : TokenKind} {n : Nat}
      (h : c.rest = b :: t) (hs : Scan.next b t = .unit k n) (notes : List (Level × String))
      (hd : Hands ((c.advanceBy n).reportAll notes) d sig) : Hands c d sig
  /-- The closing end of line, at the end of the input. -/
  | eol {c : Cursor} (h : c.rest = []) : Hands c c .eol
  /-- The end of input, after whatever the listener reported at the closing end of line. -/
  | eof {c : Cursor} (h : c.rest = []) (notes : List (Level × String)) :
      Hands c (c.reportAll notes) .eof

variable {σ : Type} {l : Listener σ}

/-- A property of the listener's state that every signal a run can hand keeps holds at the end of
the run. -/
theorem run_invariant_hands (P : σ → Prop) (c : Cursor) (s : σ)
    (hP : ∀ d sig s, Hands c d sig → P s → P (l.hear d sig s).state) (hs : P s) :
    P (run l c s).state := by
  fun_induction run l c s with
  | case1 c s hrest =>
    exact hP _ _ _ (.eof hrest _) (hP _ _ _ (.eol hrest) hs)
  | case2 c s b t hrest hblank ih =>
    exact ih (fun d sig s hd => hP d sig s (.blank hrest hblank hd)) hs
  | case3 c s b t hrest k n hunit c1 r c2 hgo ih =>
    exact ih (fun d sig s hd => hP d sig s (.past hrest hunit _ hd)) (hP _ _ _ (.unit hrest hunit) hs)
  | case4 c s b t hrest k n hunit c1 r c2 hgo => exact hP _ _ _ (.unit hrest hunit) hs
  | case5 c s b t hrest k o hfault failed => exact hs

/-- Two listeners that answer alike and report alike whenever they hear, in related states, a
signal that a run from `c` can hand, make runs from `c` that end at the same cursor with the same
result, in related states. -/
theorem run_related {τ : Type} (l' : Listener τ) (S : σ → τ → Prop) (c : Cursor) (s : σ) (u : τ)
    (hS : ∀ d sig s u, Hands c d sig → S s u →
      (l.hear d sig s).go = (l'.hear d sig u).go ∧ (l.hear d sig s).notes = (l'.hear d sig u).notes ∧
        S (l.hear d sig s).state (l'.hear d sig u).state)
    (hst : S s u) :
    (run l c s).cursor = (run l' c u).cursor ∧ S (run l c s).state (run l' c u).state ∧
      (run l c s).result = (run l' c u).result := by
  fun_induction run l c s generalizing u with
  | case1 c s hrest =>
    rw [run_nil hrest]
    obtain ⟨-, hn1, hs1⟩ := hS _ _ _ _ (.eol hrest) hst
    obtain ⟨-, hn2, hs2⟩ := hS _ _ _ _ (.eof hrest (l.hear c .eol s).notes) hs1
    simp only [finish, tell, ← hn1, hn2, true_and, and_true]
    exact hs2
  | case2 c s b t hrest hblank ih =>
    rw [run_blank hrest hblank]
    exact ih u (fun d sig s u hd => hS d sig s u (.blank hrest hblank hd)) hst
  | case3 c s b t hrest k n hunit c1 r c2 hgo ih =>
    obtain ⟨hgo', hn, hs'⟩ := hS _ _ _ u (.unit hrest hunit) hst
    rw [run_unit_go hrest hunit rfl (hgo'.symm.trans hgo), ← hn]
    exact ih _ (fun d sig s u hd => hS d sig s u (.past hrest hunit _ hd)) hs'
  | case4 c s b t hrest k n hunit c1 r c2 hgo =>
    obtain ⟨hgo', hn, hs'⟩ := hS _ _ _ u (.unit hrest hunit) hst
    rw [run_unit_stop hrest hunit rfl (hgo'.symm.trans (Bool.of_not_eq_true hgo)), ← hn]
    exact ⟨rfl, hs', rfl⟩
  | case5 c s b t hrest k o hfault failed =>
    rw [run_fault hrest hfault]
    exact ⟨rfl, hst, rfl⟩

namespace Hands

variable {c d : Cursor} {sig : Signal}

/-- A signal is heard at a cursor moved forward from where the run started. -/
theorem moves (h : Hands c d sig) : c.Moves d := by
  induction h with
  | unit => exact Cursor.Moves.advanceBy _ _
  | blank _ _ _ ih => exact (Cursor.Moves.advance _).trans ih
  | past _ _ notes _ ih =>
    exact ((Cursor.Moves.advanceBy _ _).trans (Cursor.Moves.reportAll _ notes)).trans ih
  | eol => exact Cursor.Moves.refl _
  | eof _ notes => exact Cursor.Moves.reportAll _ notes

/-- A unit's token is the text from its start up to the cursor it is heard at. -/
theorem token_of_unit (h : Hands c d sig) :
    ∀ k tok, sig = .unit k tok →
      tok.span.stop = d.pos ∧ tok.span.start ≤ tok.span.stop ∧
        tok.bytes = (d.source.drop tok.span.start).take (tok.span.stop - tok.span.start) := by
  induction h with
  | @unit c b t k n hrest hs =>
    intro k' tok hsig
    have hk : Signal.ofUnit k ⟨(b :: t).take n, ⟨c.pos, c.pos + n⟩⟩ =
        .unit k ⟨(b :: t).take n, ⟨c.pos, c.pos + n⟩⟩ := by
      cases k <;> first | rfl | cases hsig
    rw [hk, Signal.unit.injEq] at hsig
    obtain ⟨-, rfl⟩ := hsig
    have hn : n ≤ (b :: t).length := (Scan.next_eq_unit hs).le_length
    refine ⟨?_, Nat.le_add_right _ _, ?_⟩
    · simp only [Cursor.pos_advanceBy, hrest, Nat.min_eq_left hn]
    · simp only [Cursor.source_advanceBy, Nat.add_sub_cancel_left, ← c.rest_eq, hrest]
  | blank _ _ _ ih => exact ih
  | past _ _ _ _ ih => exact ih
  | eol => intro k tok h; cases h
  | eof => intro k tok h; cases h

/-- An end of line is heard right after a line feed, or at the end of the input. -/
theorem eol_cases (h : Hands c d sig) (hsig : sig = .eol) :
    d.rest = [] ∨ (0 < d.pos ∧ d.source[d.pos - 1]? = some 10) := by
  induction h with
  | @unit c b t k n hrest hs =>
    have hk : k = .eol := by
      cases k <;> first | rfl | cases hsig
    subst hk
    obtain ⟨rfl, rfl⟩ := Scan.next_eq_eol hs
    right
    rw [Cursor.pos_advanceBy, hrest, Cursor.source_advanceBy]
    refine ⟨by simp, ?_⟩
    simp only [List.length_cons, Nat.min_eq_left (Nat.le_add_left 1 _), Nat.add_sub_cancel]
    exact Cursor.source_getElem?_pos hrest
  | blank _ _ _ ih => exact ih hsig
  | past _ _ _ _ ih => exact ih hsig
  | eol hrest => exact .inl hrest
  | eof => cases hsig

/-- The end of input is heard at the end of the input. -/
theorem rest_of_eof (h : Hands c d sig) (hsig : sig = .eof) : d.rest = [] := by
  induction h with
  | @unit c b t k n hrest hs =>
    have hk : k = .eof := by
      cases k <;> first | rfl | cases hsig
    exact absurd (hk ▸ hs) (fun hs => Scan.next_ne_eof hs rfl)
  | blank _ _ _ ih => exact ih hsig
  | past _ _ _ _ ih => exact ih hsig
  | eol => cases hsig
  | eof hrest notes => rw [Cursor.rest_reportAll]; exact hrest

end Hands

end Lexer

/-! ## Writing down where signals are heard -/

/-- A signal as a listener heard it: the cursor it was heard at, and the answer. -/
structure Heard where
  /-- The cursor the signal was heard at. -/
  cursor : Cursor
  /-- The signal. -/
  signal : Signal
  /-- Whether the listener let the lexer go on. -/
  answer : Bool

namespace Listener

variable {σ : Type}

/-- The listener that answers as `l` does and also writes down every signal it hears, with the
cursor it hears it at and its answer. -/
def watch (l : Listener σ) : Listener (σ × List Heard) where
  hear c sig s :=
    let r := l.hear c sig s.1
    { go := r.go, state := (r.state, s.2 ++ [⟨c, sig, r.go⟩]), notes := r.notes }

end Listener

namespace Lexer

variable {σ : Type}

/-- Watching a listener changes nothing in its run. -/
theorem run_watch (l : Listener σ) (c : Cursor) (p : σ × List Heard) :
    (run l.watch c p).cursor = (run l c p.1).cursor ∧
    (run l.watch c p).state.1 = (run l c p.1).state ∧
    (run l.watch c p).result = (run l c p.1).result :=
  @run_related _ l.watch _ l (fun p s => p.1 = s) c p p.1
    (fun _ _ _ _ _ hps => by subst hps; exact ⟨rfl, rfl, rfl⟩) rfl

/-- Every signal a watched listener hears is one the run can hand, at the cursor it can hand it
at. -/
theorem watch_hands (l : Listener σ) (c : Cursor) (s : σ) :
    ∀ x ∈ (run l.watch c (s, [])).state.2, Hands c x.cursor x.signal := by
  refine run_invariant_hands (fun p : σ × List Heard => ∀ x ∈ p.2, Hands c x.cursor x.signal)
    c (s, []) (fun d sig p hd hp => ?_) (by simp)
  intro x hx
  rcases List.mem_append.mp hx with hx | hx
  · exact hp x hx
  · rw [List.mem_singleton] at hx
    subst hx
    exact hd

end Lexer

end ConfLex
