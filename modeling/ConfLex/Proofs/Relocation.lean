import ConfLex.Proofs.LineIndex
import ConfLex.Proofs.Driver
import ConfLex.Lex.Trace

/-!
# Resuming from a cursor

The lexer keeps nothing of its own between two units: everything it knows is in the cursor. So
a run from a cursor that stands at offset `p` of a text is a run over the rest of the text,
seen from further on. Every span is moved `p` bytes, and every line and column the cursor
reports is moved by the place of `p`: lines after the first add the lines before `p`, and columns
on the first line add the column of `p` (`Position.relocate`).

`Cursor.Resumes c e e'` relates a cursor `e` over the whole text to a cursor `e'` over the text
after `c`'s position. The two step in lockstep, since they have the same bytes ahead
(`Cursor.Resumes.advance`), and report the same messages at relocated places
(`Cursor.Resumes.reportAll`); so two runs from related cursors, with listeners that answer alike
when they hear related signals, stay related to the end (`Lexer.run_resumes`). A listener that
answers from a script (`Listener.scripted`) answers alike wherever it stands, and the main
statement `Lexer.run_from_cursor` compares what it hears.
-/

namespace ConfLex

/-! ## Moving spans and places -/

/-- The signal with its token moved `p` bytes further into the text. -/
def Signal.shift (p : Nat) : Signal → Signal
  | .unit k tok => .unit k ⟨tok.bytes, ⟨tok.span.start + p, tok.span.stop + p⟩⟩
  | .eol => .eol
  | .eof => .eof

/-- A place in a text that starts at the place `base` of a longer text, as a place in the longer
text: lines after the first add the lines before `base`, and columns on the first line add the
column of `base`. -/
def Position.relocate (base q : Position) : Position :=
  ⟨base.line + q.line - 1, if q.line = 1 then base.column + q.column else q.column⟩

/-- The diagnostic reported at the relocated place. -/
def Diagnostic.relocate (base : Position) (d : Diagnostic) : Diagnostic :=
  { d with position := base.relocate d.position }

/-- The error reported at the relocated place. -/
def LexError.relocate (base : Position) (e : LexError) : LexError :=
  ⟨e.kind, (base.relocate ⟨e.line, e.column⟩).line, (base.relocate ⟨e.line, e.column⟩).column⟩

/-- The signal heard `p` bytes further into the text, with the cursor's place relocated. -/
def TraceEvent.relocate (p : Nat) (base : Position) (ev : TraceEvent) : TraceEvent :=
  ⟨ev.signal.shift p, ev.answer, ev.position + p, (base.relocate ⟨ev.line, ev.column⟩).line,
    (base.relocate ⟨ev.line, ev.column⟩).column⟩

theorem Signal.ofUnit_shift (k : TokenKind) (bytes : List UInt8) (start stop p : Nat) :
    (Signal.ofUnit k ⟨bytes, ⟨start, stop⟩⟩).shift p = Signal.ofUnit k ⟨bytes, ⟨start + p, stop + p⟩⟩ := by
  cases k <;> rfl

/-- The listener that answers its `i`-th signal, counting from 0, with `answer i` after reporting
`notes i`, and writes down every signal with its answer and where the cursor stood. -/
def Listener.scripted (answer : Nat → Bool) (notes : Nat → List (Level × String)) :
    Listener (List TraceEvent) where
  hear c sig evs :=
    { go := answer evs.length
      state := evs ++ [⟨sig, answer evs.length, c.pos, c.line, c.column⟩]
      notes := notes evs.length }

/-! ## Cursors over a text and over its rest -/

namespace Cursor

/-- `e` is the cursor `e'` over the text after `c`'s position, seen in the whole text: it has the
same bytes ahead and stands `c.pos` bytes further; it has passed the line starts `c` passed and
then those `e'` passed, moved; and it has reported what `c` reported, then what `e'` reported,
at relocated places. -/
structure Resumes (c e e' : Cursor) : Prop where
  rest_eq : e.rest = e'.rest
  pos_eq : e.pos = e'.pos + c.pos
  name_eq : e.name = e'.name
  lineStarts_eq : e.lineStarts.toList = c.lineStarts.toList ++ e'.lineStarts.toList.tail.map (· + c.pos)
  head_eq : e'.lineStarts.toList.head? = some 0
  reports_eq : e.reports = c.reports ++ e'.reports.map (Diagnostic.relocate ⟨c.line, c.column⟩)

namespace Resumes

variable {c e e' : Cursor}

/-- A cursor is the start of its own rest. -/
theorem start (c : Cursor) : Resumes c c (new c.rest c.name) :=
  ⟨rfl, (Nat.zero_add _).symm, rfl, by simp [new], rfl, by simp [new]⟩

/-- Skipping a byte keeps two cursors related: a line feed passed adds the same line start to
both, moved in the whole text. -/
theorem advance (h : Resumes c e e') : Resumes c e.advance e'.advance := by
  cases hr : e'.rest with
  | nil =>
    rw [advance_of_rest_nil hr, advance_of_rest_nil (h.rest_eq.trans hr)]
    exact h
  | cons b t =>
    have hr' := h.rest_eq.trans hr
    have hne : e'.lineStarts.toList ≠ [] := fun hnil => by
      have := h.head_eq
      rw [hnil] at this
      cases this
    refine ⟨?_, ?_, ?_, ?_, ?_, ?_⟩
    · rw [rest_advance_cons hr', rest_advance_cons hr]
    · rw [pos_advance_cons hr', pos_advance_cons hr, h.pos_eq]
      omega
    · rw [name_advance, name_advance, h.name_eq]
    · rw [lineStarts_advance_cons hr', lineStarts_advance_cons hr]
      by_cases hb : b = 10
      · simp only [hb, if_true, Array.toList_push, h.lineStarts_eq, List.tail_append_of_ne_nil hne,
          List.map_append, List.map_cons, List.map_nil, List.append_assoc, h.pos_eq]
        congr 3
        omega
      · simp only [hb, if_false]
        exact h.lineStarts_eq
    · rw [lineStarts_advance_cons hr]
      by_cases hb : b = 10
      · simp only [hb, if_true, Array.toList_push, List.head?_append, h.head_eq, Option.some_or]
      · simp only [hb, if_false]
        exact h.head_eq
    · rw [reports_advance, reports_advance]
      exact h.reports_eq

theorem advanceBy (h : Resumes c e e') (n : Nat) : Resumes c (e.advanceBy n) (e'.advanceBy n) := by
  induction n generalizing e e' with
  | zero => exact h
  | succ n ih => exact ih h.advance

/-- The line and column of `e` are those of `e'`, relocated to the place of `c`, as long as `c`'s
last line start lies at or before it. The column counts from the last line start, which is `c`'s
exactly when `e'` passed none. -/
theorem position_eq (hc : ∃ last, c.lineStarts.back? = some last ∧ last ≤ c.pos)
    (h : Resumes c e e') :
    e.line = (Position.relocate ⟨c.line, c.column⟩ ⟨e'.line, e'.column⟩).line ∧
      e.column = (Position.relocate ⟨c.line, c.column⟩ ⟨e'.line, e'.column⟩).column := by
  obtain ⟨last, hlast, hle⟩ := hc
  obtain ⟨ts, hts⟩ : ∃ ts, e'.lineStarts.toList = 0 :: ts := by
    cases hl : e'.lineStarts.toList with
    | nil => have := h.head_eq; rw [hl] at this; cases this
    | cons x ts =>
      have := h.head_eq
      rw [hl, List.head?_cons, Option.some.injEq] at this
      exact ⟨ts, by rw [this]⟩
  have hline : e.line = c.line + e'.line - 1 := by
    simp only [line, ← Array.length_toList, h.lineStarts_eq, hts, List.length_append,
      List.tail_cons, List.length_map, List.length_cons]
    omega
  have hcol : c.column = c.pos - last := by rw [column, hlast, Option.getD_some]
  have hlast' : c.lineStarts.toList.getLast? = some last := by rw [Array.getLast?_toList, hlast]
  have hcole : e.column = e.pos - e.lineStarts.toList.getLast?.getD 0 := by
    rw [column, Array.getLast?_toList]
  have hcole' : e'.column = e'.pos - e'.lineStarts.toList.getLast?.getD 0 := by
    rw [column, Array.getLast?_toList]
  simp only [Position.relocate]
  refine ⟨hline, ?_⟩
  rcases List.eq_nil_or_concat ts with rfl | ⟨ts, x, rfl⟩
  · have he' : e'.line = 1 := by rw [line, ← Array.length_toList, hts]; rfl
    have hlaste : e.lineStarts.toList.getLast? = some last := by
      rw [h.lineStarts_eq, hts, List.tail_cons, List.map_nil, List.append_nil, hlast']
    rw [if_pos he', hcole, hcole', hlaste, hts, hcol, h.pos_eq]
    simp only [Option.getD_some, List.getLast?_singleton]
    omega
  · have he' : e'.line ≠ 1 := by
      rw [line, ← Array.length_toList, hts]
      simp
    have hlaste : e.lineStarts.toList.getLast? = some (x + c.pos) := by
      rw [h.lineStarts_eq, hts, List.tail_cons, List.concat_eq_append]
      simp [List.getLast?_append]
    have hlaste' : e'.lineStarts.toList.getLast? = some x := by
      rw [hts, List.concat_eq_append, ← List.cons_append, List.getLast?_concat]
    rw [if_neg he', hcole, hcole', hlaste, hlaste', h.pos_eq]
    simp only [Option.getD_some]
    omega

/-- Reporting the same notes at related cursors reports them at relocated places. -/
theorem reportAll (hc : ∃ last, c.lineStarts.back? = some last ∧ last ≤ c.pos)
    (h : Resumes c e e') {notes notes' : List (Level × String)} (hn : notes = notes') :
    Resumes c (e.reportAll notes) (e'.reportAll notes') := by
  subst hn
  have hpos := h.position_eq hc
  refine ⟨?_, ?_, ?_, ?_, ?_, ?_⟩
  · rw [rest_reportAll, rest_reportAll, h.rest_eq]
  · rw [pos_reportAll, pos_reportAll, h.pos_eq]
  · rw [name_reportAll, name_reportAll, h.name_eq]
  · rw [reportAll_eq, reportAll_eq]
    exact h.lineStarts_eq
  · rw [reportAll_eq]
    exact h.head_eq
  · rw [reports_reportAll, reports_reportAll, h.reports_eq, List.map_append, List.append_assoc,
      List.map_map]
    congr 2
    refine List.map_congr_left fun note _ => ?_
    simp only [Function.comp_apply, diagnostic, Diagnostic.relocate, h.name_eq, hpos.1, hpos.2]

/-- A unit read from related cursors is heard with its span moved. -/
theorem shift_ofUnit (h : Resumes c e e') (k : TokenKind) (bytes : List UInt8) (n : Nat) :
    (Signal.ofUnit k ⟨bytes, ⟨e'.pos, e'.pos + n⟩⟩).shift c.pos =
      Signal.ofUnit k ⟨bytes, ⟨e.pos, e.pos + n⟩⟩ := by
  rw [Signal.ofUnit_shift, Nat.add_right_comm e'.pos n, ← h.pos_eq]

/-- Failing at related cursors reports the same error at relocated places. -/
theorem fail (hc : ∃ last, c.lineStarts.back? = some last ∧ last ≤ c.pos)
    (h : Resumes c e e') (kind : LexErrorKind) :
    Resumes c (e.fail kind).1 (e'.fail kind).1 ∧
      (e.fail kind).2 = LexError.relocate ⟨c.line, c.column⟩ (e'.fail kind).2 := by
  have hpos := h.position_eq hc
  refine ⟨(h.reportAll hc (rfl : [(Level.error, kind.message)] = _) :), ?_⟩
  simp only [Cursor.fail, LexError.relocate, hpos.1, hpos.2]

end Resumes

end Cursor

/-! ## Runs in lockstep -/

namespace Lexer

variable {σ τ : Type}

/-- Two runs from related cursors, with listeners that answer alike and report alike when they
hear related signals at related cursors, stay related: they end at related cursors, in related
states, and one fails exactly when the other does, with the same error at relocated places. -/
theorem run_resumes (l₁ : Listener σ) (l₂ : Listener τ) (S : σ → τ → Prop) {c : Cursor}
    (hc : ∃ last, c.lineStarts.back? = some last ∧ last ≤ c.pos)
    (hS : ∀ e e' sig s u, c.Resumes e e' → S s u →
      (l₁.hear e (sig.shift c.pos) s).go = (l₂.hear e' sig u).go ∧
      (l₁.hear e (sig.shift c.pos) s).notes = (l₂.hear e' sig u).notes ∧
      S (l₁.hear e (sig.shift c.pos) s).state (l₂.hear e' sig u).state)
    (e e' : Cursor) (s : σ) (u : τ) (he : c.Resumes e e') (hst : S s u) :
    c.Resumes (run l₁ e s).cursor (run l₂ e' u).cursor ∧ S (run l₁ e s).state (run l₂ e' u).state ∧
      (run l₁ e s).result = (run l₂ e' u).result.mapError (LexError.relocate ⟨c.line, c.column⟩) := by
  fun_induction run l₁ e s generalizing e' u with
  | case1 e s hrest =>
    rw [run_nil (he.rest_eq ▸ hrest)]
    obtain ⟨-, hn1, hs1⟩ := hS e e' .eol s u he hst
    have he1 := he.reportAll hc hn1
    obtain ⟨-, hn2, hs2⟩ := hS _ _ .eof _ _ he1 hs1
    exact ⟨he1.reportAll hc hn2, hs2, rfl⟩
  | case2 e s b t hrest hs ih =>
    have hrest' : e'.rest = b :: t := he.rest_eq.symm.trans hrest
    rw [run_blank hrest' hs]
    exact ih _ _ he.advance hst
  | case3 e s b t hrest k n hs c1 r c2 hgo ih =>
    have hrest' : e'.rest = b :: t := he.rest_eq.symm.trans hrest
    obtain ⟨hgo', hn, hst'⟩ := hS _ _ (Signal.ofUnit k ⟨(b :: t).take n, ⟨e'.pos, e'.pos + n⟩⟩)
      s u (he.advanceBy n) hst
    rw [he.shift_ofUnit] at hgo' hn hst'
    rw [run_unit_go hrest' hs rfl (hgo'.symm.trans hgo)]
    exact ih _ _ ((he.advanceBy n).reportAll hc hn) hst'
  | case4 e s b t hrest k n hs c1 r c2 hgo =>
    have hrest' : e'.rest = b :: t := he.rest_eq.symm.trans hrest
    obtain ⟨hgo', hn, hst'⟩ := hS _ _ (Signal.ofUnit k ⟨(b :: t).take n, ⟨e'.pos, e'.pos + n⟩⟩)
      s u (he.advanceBy n) hst
    rw [he.shift_ofUnit] at hgo' hn hst'
    rw [run_unit_stop hrest' hs rfl (hgo'.symm.trans (Bool.of_not_eq_true hgo))]
    exact ⟨(he.advanceBy n).reportAll hc hn, hst', rfl⟩
  | case5 e s b t hrest k o hs failed =>
    have hrest' : e'.rest = b :: t := he.rest_eq.symm.trans hrest
    rw [run_fault hrest' hs]
    obtain ⟨hf, herr⟩ := (he.advanceBy o).fail hc k
    exact ⟨hf, hst, by rw [herr]; rfl⟩

/-- Resuming the lexer from any cursor reached from the start of a text is lexing the rest of
the text afresh, under the same name: whatever it answers, a scripted listener hears the same
signals with the same answers, at the same places moved by the cursor's position, line and
column; the run ends at the same place moved likewise, having reported the same diagnostics at
relocated places after those the cursor had, and fails exactly when lexing the rest fails, with
the same error at the relocated place. -/
theorem run_from_cursor (source : List UInt8) (name : String) (ops : List Cursor.Op)
    (answer : Nat → Bool) (notes : Nat → List (Level × String)) :
    let c := (Cursor.new source name).perform ops
    let whole := run (Listener.scripted answer notes) c []
    let rest := run (Listener.scripted answer notes) (Cursor.new (source.drop c.pos) name) []
    whole.state = rest.state.map (TraceEvent.relocate c.pos ⟨c.line, c.column⟩) ∧
      whole.result = rest.result.mapError (LexError.relocate ⟨c.line, c.column⟩) ∧
      whole.cursor.pos = rest.cursor.pos + c.pos ∧
      whole.cursor.reports =
        c.reports ++ rest.cursor.reports.map (Diagnostic.relocate ⟨c.line, c.column⟩) := by
  intro c whole rest
  have hm := Cursor.moves_perform (Cursor.new source name) ops
  have hi : c.Indexed := hm.indexed (Cursor.indexed_new _ _)
  obtain ⟨last, hlast, hle, -⟩ := hi.column_eq
  have hc : ∃ last, c.lineStarts.back? = some last ∧ last ≤ c.pos := ⟨last, hlast, hle⟩
  have hstart : c.Resumes c (Cursor.new (source.drop c.pos) name) := by
    have hdrop : source.drop c.pos = c.rest := by rw [c.rest_eq, hm.source_eq, Cursor.source_new]
    have hname : c.name = name := hm.name_eq
    rw [hdrop, ← hname]
    exact Cursor.Resumes.start c
  have hS : ∀ e e' sig (evs evs' : List TraceEvent), c.Resumes e e' →
      evs = evs'.map (TraceEvent.relocate c.pos ⟨c.line, c.column⟩) →
      let r₁ := (Listener.scripted answer notes).hear e (sig.shift c.pos) evs
      let r₂ := (Listener.scripted answer notes).hear e' sig evs'
      r₁.go = r₂.go ∧ r₁.notes = r₂.notes ∧
        r₁.state = r₂.state.map (TraceEvent.relocate c.pos ⟨c.line, c.column⟩) := by
    intro e e' sig evs evs' he hevs
    have hpos := he.position_eq hc
    have hlen : evs.length = evs'.length := by rw [hevs, List.length_map]
    refine ⟨by simp [Listener.scripted, hlen], by simp [Listener.scripted, hlen], ?_⟩
    simp only [Listener.scripted, hevs, List.length_map, List.map_append, List.map_cons,
      List.map_nil, TraceEvent.relocate, he.pos_eq, hpos.1, hpos.2]
  obtain ⟨hcur, hst, hres⟩ := run_resumes (Listener.scripted answer notes)
    (Listener.scripted answer notes) (fun evs evs' => evs = evs'.map (TraceEvent.relocate c.pos ⟨c.line, c.column⟩))
    hc hS c _ [] [] hstart rfl
  exact ⟨hst, hres, hcur.pos_eq, hcur.reports_eq⟩

end Lexer

end ConfLex
