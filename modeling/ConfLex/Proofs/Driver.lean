import ConfLex.Proofs.Munch
import ConfLex.Lex.Lexer

/-!
# How the lexer drives its listener

`Lexer.run` reads the input exactly as `Scan.read` does and hands the listener the units it
reads, in order. The run equations `run_nil` and `run_cons`, and `run_blank`, `run_unit_go`,
`run_unit_stop` and `run_fault` for the cases of the latter, take one step of a run at a time. `Listener.observe` lets a listener write down what
it hears, answers and reports, without changing the run (`run_observe`). By one induction over the
run, `run_observed` then says what every listener hears: the signals of the units in order, up
to the first one it answers with a stop, or else all of them, followed by the closing end of
line and end of input when the input ran out; and that the only diagnostic a run adds to the
listener's own is the one for the error that ends it. `run_invariant` says that a property of
the listener's state that every signal keeps holds at the end of every run.
-/

namespace ConfLex

/-! ## How a reading ends -/

namespace Ending

/-- The signals a run hands over after the units: an end of line and the end of input when the
input ran out, none after a fault. -/
def closing : Ending → List Signal
  | .done => [.eol, .eof]
  | .fault _ _ => []

/-- The result of a run from `c` whose reading ends so: success when the input ran out, or the
fault's error at its offset. -/
def result (c : Cursor) : Ending → Except LexError Unit
  | .done => .ok ()
  | .fault k o => .error ((c.advanceBy (o - c.pos)).fail k).2

theorem result_reportAll (e : Ending) (notes : List (Level × String)) (c : Cursor) :
    e.result (c.reportAll notes) = e.result c := by
  cases e with
  | done => rfl
  | fault k o =>
    simp only [result, Cursor.reportAll_eq, Cursor.advanceBy_withReports, Cursor.fail_eq]
    rfl

/-- Moving the cursor towards a fault leaves the error where it is. -/
theorem result_advanceBy {e : Ending} {n : Nat} {c : Cursor} (hn : n ≤ c.rest.length)
    (he : ∀ k o, e = .fault k o → c.pos + n ≤ o) : e.result (c.advanceBy n) = e.result c := by
  cases e with
  | done => rfl
  | fault k o =>
    have ho := he k o rfl
    simp only [result, Cursor.advanceBy_add, Cursor.pos_advanceBy, Nat.min_eq_left hn]
    congr 4
    omega

end Ending

namespace Scan

/-- The signal a unit is handed over as. -/
def signal (u : TokenKind × Token) : Signal := Signal.ofUnit u.1 u.2

/-- A reading ends in a fault no earlier than where it starts. -/
theorem le_of_read_fault {bytes : List UInt8} {pos o : Nat} {k : LexErrorKind}
    (h : (read bytes pos).2 = .fault k o) : pos ≤ o := by
  fun_induction read bytes pos with
  | case1 => cases h
  | case2 pos b t hs ih => have := ih h; omega
  | case3 pos b t k' n hs rest ih => have := ih h; omega
  | case4 pos b t k' o' hs =>
    cases h
    omega

end Scan

/-- The diagnostic that reports an error of the stream `name`, at the error's line and column. -/
def LexError.diagnostic (name : String) (e : LexError) : Diagnostic :=
  ⟨.error, e.message, name, ⟨e.line, e.column⟩⟩

/-- The diagnostics a result adds to a stream's reports: the error's, if it is one. -/
def LexError.reportsOf (name : String) : Except LexError Unit → List Diagnostic
  | .ok () => []
  | .error e => [e.diagnostic name]

/-! ## Listening in -/

/-- A signal as a listener heard it: the signal, the answer, and the diagnostics its messages
became. -/
structure Hearing where
  /-- The signal. -/
  signal : Signal
  /-- Whether the listener let the lexer go on. -/
  answer : Bool
  /-- The listener's messages, as reported at the cursor. -/
  reports : List Diagnostic

namespace Listener

variable {σ : Type}

/-- The listener that answers as `l` does and also writes down every signal it hears. -/
def observe (l : Listener σ) : Listener (σ × List Hearing) where
  hear c sig s :=
    let r := l.hear c sig s.1
    { go := r.go
      state := (r.state, s.2 ++ [⟨sig, r.go, r.notes.map c.diagnostic⟩])
      notes := r.notes }

end Listener

namespace Lexer

variable {σ : Type} {l : Listener σ} {c : Cursor} {s : σ} {b : UInt8} {t : List UInt8}

/-! ## One step of a run -/

theorem run_nil (h : c.rest = []) : run l c s = finish l c s := by
  rw [run]
  split <;> simp_all

/-- One step of a run over input that is not used up, by what the scanner reads next. -/
theorem run_cons (h : c.rest = b :: t) :
    run l c s =
      match Scan.next b t with
      | .blank => run l c.advance s
      | .unit kind n =>
        let r := l.hear (c.advanceBy n) (Signal.ofUnit kind ⟨(b :: t).take n, ⟨c.pos, c.pos + n⟩⟩) s
        if r.go then run l ((c.advanceBy n).reportAll r.notes) r.state
        else ⟨(c.advanceBy n).reportAll r.notes, r.state, .ok ()⟩
      | .fault kind o =>
        ⟨((c.advanceBy o).fail kind).1, s, .error ((c.advanceBy o).fail kind).2⟩ := by
  rw [run]
  split
  · simp_all
  · next b' t' h' =>
    rw [h] at h'
    obtain ⟨rfl, rfl⟩ := List.cons.inj h'
    split <;> simp_all

theorem run_blank (h : c.rest = b :: t) (hs : Scan.next b t = .blank) :
    run l c s = run l c.advance s := by
  rw [run_cons h, hs]

theorem run_unit_go {k : TokenKind} {n : Nat} {r : Reply σ} (h : c.rest = b :: t)
    (hs : Scan.next b t = .unit k n)
    (hr : l.hear (c.advanceBy n) (Signal.ofUnit k ⟨(b :: t).take n, ⟨c.pos, c.pos + n⟩⟩) s = r)
    (hgo : r.go = true) :
    run l c s = run l ((c.advanceBy n).reportAll r.notes) r.state := by
  rw [run_cons h, hs]
  simp only [hr, hgo, if_true]

theorem run_unit_stop {k : TokenKind} {n : Nat} {r : Reply σ} (h : c.rest = b :: t)
    (hs : Scan.next b t = .unit k n)
    (hr : l.hear (c.advanceBy n) (Signal.ofUnit k ⟨(b :: t).take n, ⟨c.pos, c.pos + n⟩⟩) s = r)
    (hgo : r.go = false) :
    run l c s = ⟨(c.advanceBy n).reportAll r.notes, r.state, .ok ()⟩ := by
  rw [run_cons h, hs]
  simp only [hr, hgo, Bool.false_eq_true, if_false]

theorem run_fault {k : LexErrorKind} {o : Nat} (h : c.rest = b :: t)
    (hs : Scan.next b t = .fault k o) :
    run l c s = ⟨((c.advanceBy o).fail k).1, s, .error ((c.advanceBy o).fail k).2⟩ := by
  rw [run_cons h, hs]

/-! ## Writing down what is heard -/

/-- Writing down what a listener hears changes nothing in its run. -/
theorem run_observe (l : Listener σ) (c : Cursor) (p : σ × List Hearing) :
    (run l.observe c p).cursor = (run l c p.1).cursor ∧
    (run l.observe c p).state.1 = (run l c p.1).state ∧
    (run l.observe c p).result = (run l c p.1).result := by
  fun_induction run l.observe c p with
  | case1 c p h =>
    rw [run_nil h]
    exact ⟨rfl, rfl, rfl⟩
  | case2 c p b t h hs ih =>
    rw [run_blank h hs]
    exact ih
  | case3 c p b t h k n hs c1 r c2 hgo ih =>
    rw [run_unit_go h hs rfl (show (l.hear _ _ p.1).go = true from hgo)]
    exact ih
  | case4 c p b t h k n hs c1 r c2 hgo =>
    rw [run_unit_stop h hs rfl (show (l.hear _ _ p.1).go = false from Bool.of_not_eq_true hgo)]
    exact ⟨rfl, rfl, rfl⟩
  | case5 c p b t h k o hs failed =>
    rw [run_fault h hs]
    exact ⟨rfl, rfl, rfl⟩

/-! ## The course of a run -/

section Course

variable {τ : Type}

/-- How the hearings of a run follow the units of a reading, and how the run ends: either the
listener stops the lexer at the `i`-th unit, after letting it go on at every unit before, and the
run ends successfully just past that unit; or it lets the lexer go on at every unit, hears the
closing signals as well, and the run ends with `outcome`. -/
def Course (units : List (TokenKind × Token)) (closing : List Signal)
    (outcome : Except LexError Unit) (heard : List Hearing) (r : Run τ) : Prop :=
  (∃ i, ∃ hi : i < units.length,
      heard.map Hearing.signal = (units.map Scan.signal).take (i + 1) ∧
      heard.map Hearing.answer = List.replicate i true ++ [false] ∧
      r.result = .ok () ∧ r.cursor.pos = units[i].2.span.stop) ∨
  (heard.map Hearing.signal = units.map Scan.signal ++ closing ∧
      (heard.map Hearing.answer).take units.length = List.replicate units.length true ∧
      r.result = outcome)

variable {u : TokenKind × Token} {units : List (TokenKind × Token)} {closing : List Signal}
  {outcome : Except LexError Unit} {x : Hearing} {heard : List Hearing} {r : Run τ}

/-- A listener that lets the lexer go on at a unit continues the course of the rest. -/
theorem Course.go (hx : x.signal = Scan.signal u) (ha : x.answer = true)
    (h : Course units closing outcome heard r) : Course (u :: units) closing outcome (x :: heard) r := by
  rcases h with ⟨i, hi, hsig, hans, hres, hpos⟩ | ⟨hsig, hans, hres⟩
  · refine .inl ⟨i + 1, by simpa using hi, ?_, ?_, hres, by simpa using hpos⟩
    · simp [hx, hsig]
    · simp [ha, hans, List.replicate_succ]
  · refine .inr ⟨?_, ?_, hres⟩
    · simp [hx, hsig]
    · simp [ha, hans, List.replicate_succ]

/-- A listener that stops the lexer at a unit ends the run there. -/
theorem Course.stop (hx : x.signal = Scan.signal u) (ha : x.answer = false)
    (hres : r.result = .ok ()) (hpos : r.cursor.pos = u.2.span.stop) :
    Course (u :: units) closing outcome [x] r :=
  .inl ⟨0, by simp, by simp [hx], by simp [ha], hres, hpos⟩

end Course

/-- Moving the cursor over bytes leaves the result of the reading after them unchanged. -/
theorem read_result_advanceBy (c : Cursor) (n : Nat) (hn : n ≤ c.rest.length) :
    (Scan.read (c.rest.drop n) (c.pos + n)).2.result (c.advanceBy n) =
      (Scan.read (c.rest.drop n) (c.pos + n)).2.result c :=
  Ending.result_advanceBy hn (fun _ _ h => Scan.le_of_read_fault h)

/-- What every listener hears in a run, and what the run reports. It hears the units of the
reading in order, up to the first at which it stops the lexer, or else all of them and the
closing signals; the run then ends as the reading does. The run's diagnostics are the
listener's own, in the order it reported them, then the error's if the run failed. The induction
follows the run's turns: the closing signals at the end of the input, a blank, a unit the
listener lets pass or stops at, and a fault, whose error is reported where it was found. -/
theorem run_observed (l : Listener σ) (c : Cursor) (s : σ) (h : List Hearing) :
    ∃ heard, (run l.observe c (s, h)).state.2 = h ++ heard ∧
      Course (Scan.read c.rest c.pos).1 (Scan.read c.rest c.pos).2.closing
        ((Scan.read c.rest c.pos).2.result c) heard (run l c s) ∧
      (run l c s).cursor.reports =
        c.reports ++ heard.flatMap Hearing.reports ++ LexError.reportsOf c.name (run l c s).result := by
  fun_induction run l c s generalizing h with
  | case1 c s hrest =>
    rw [run_nil hrest, hrest, Scan.read_nil]
    refine ⟨_, List.append_assoc _ _ _, .inr ⟨rfl, rfl, rfl⟩, ?_⟩
    simp [finish, tell, Listener.observe, LexError.reportsOf]
  | case2 c s b t hrest hs ih =>
    obtain ⟨heard, hh, hc, hr⟩ := ih h
    have hres := read_result_advanceBy c 1 (by simp [hrest])
    simp only [hrest, List.drop_succ_cons, List.drop_zero, Cursor.advanceBy_one] at hres
    rw [Cursor.rest_advance_cons hrest, Cursor.pos_advance_cons hrest, hres] at hc
    rw [Cursor.reports_advance, Cursor.name_advance] at hr
    rw [run_blank hrest hs, hrest, Scan.read_blank hs]
    exact ⟨heard, hh, hc, hr⟩
  | case3 c s b t hrest k n hs c1 r c2 hgo ih =>
    have hn : n ≤ (b :: t).length := (Scan.next_eq_unit hs).le_length
    obtain ⟨heard, hh, hc, hr⟩ := ih (h ++ [⟨Signal.ofUnit k ⟨(b :: t).take n, ⟨c.pos, c.pos + n⟩⟩,
      r.go, r.notes.map c1.diagnostic⟩])
    have hres := read_result_advanceBy c n (by rw [hrest]; exact hn)
    simp only [c2, c1, Cursor.rest_reportAll, Cursor.rest_advanceBy, Cursor.pos_reportAll,
      Cursor.pos_advanceBy, Ending.result_reportAll, hrest, Nat.min_eq_left hn] at hc hres
    rw [hres] at hc
    rw [run_unit_go hrest hs rfl (show (l.observe.hear _ _ (s, h)).go = true from hgo), hrest,
      Scan.read_unit hs]
    refine ⟨_, hh.trans (List.append_assoc _ _ _), hc.go rfl hgo, ?_⟩
    rw [hr]
    simp [c2, c1]
  | case4 c s b t hrest k n hs c1 r c2 hgo =>
    have hn : n ≤ (b :: t).length := (Scan.next_eq_unit hs).le_length
    rw [run_unit_stop hrest hs rfl
        (show (l.observe.hear _ _ (s, h)).go = false from Bool.of_not_eq_true hgo), hrest,
      Scan.read_unit hs]
    refine ⟨_, rfl, Course.stop rfl (Bool.of_not_eq_true hgo) rfl ?_, ?_⟩
    · simp only [c2, c1, Cursor.pos_reportAll, Cursor.pos_advanceBy, hrest, Nat.min_eq_left hn]
    · simp [c2, c1, r, LexError.reportsOf]
  | case5 c s b t hrest k o hs failed =>
    rw [run_fault hrest hs, hrest, Scan.read_fault hs]
    refine ⟨[], (List.append_nil h).symm, .inr ⟨rfl, rfl, ?_⟩, ?_⟩
    · simp [Ending.result, failed]
    · simp [failed, Cursor.fail_eq, LexError.reportsOf, LexError.diagnostic, LexError.message,
        Cursor.diagnostic]

/-- A property of the listener's state that every signal keeps holds at the end of every run. -/
theorem run_invariant (P : σ → Prop) (hP : ∀ c sig s, P s → P (l.hear c sig s).state)
    (c : Cursor) (hs : P s) : P (run l c s).state := by
  fun_induction run l c s with
  | case1 c s hrest => exact hP _ _ _ (hP _ _ _ hs)
  | case2 c s b t hrest hblank ih => exact ih hs
  | case3 c s b t hrest k n hunit c1 r c2 hgo ih => exact ih (hP _ _ _ hs)
  | case4 c s b t hrest k n hunit c1 r c2 hgo => exact hP _ _ _ hs
  | case5 c s b t hrest k o hfault failed => exact hs

end Lexer

end ConfLex
