import ConfLex.Proofs.Tokenize
import ConfLex.Diagnostic.Handler

/-!
# What a listener hears, and what a run reports

Two consequences of the course of a run (`Lexer.run_observed`) for a text lexed from its
start. Whatever a listener answers, it hears the signals that a listener which
always goes on would hear, cut off right after the first unit at which it stops the lexer; and a
listener that lets comments pass never hears a comment. The diagnostics of a run are the
listener's own, followed by one error diagnostic exactly when the run fails; lexing with the
collector reports nothing else, which fixes what a handler holds afterwards.
-/

namespace ConfLex

namespace Listener

variable {σ : Type} {l : Listener σ} {c : Cursor} {sig : Signal} {s : σ}

/-- Letting comments pass answers a comment by going on, with nothing changed. -/
theorem passComments_hear_comment (h : sig.kind = .comment) :
    l.passComments.hear c sig s = { go := true, state := s } := by
  cases sig with
  | unit k tok =>
    simp only [Signal.kind] at h
    subst h
    rfl
  | eol => cases h
  | eof => cases h

/-- Every other signal reaches the listener itself. -/
theorem passComments_hear_of_ne (h : sig.kind ≠ .comment) :
    l.passComments.hear c sig s = l.hear c sig s := by
  cases sig with
  | unit k tok => cases k <;> simp_all [passComments, Signal.kind]
  | eol => rfl
  | eof => rfl

end Listener

namespace Collector

/-- Hearing a content unit, the collector reports nothing: it checks its limit before recording
and after, and neither branch reports. -/
theorem notes_content (c : Cursor) (k : TokenKind) (tok : Token) (col : Collector) :
    (content c k tok col).notes = [] := by
  unfold content
  simp only [apply_ite Reply.notes, ite_self]

/-- The collector never reports a message. -/
@[simp] theorem notes_hear (c : Cursor) (sig : Signal) (col : Collector) :
    (listener.hear c sig col).notes = [] := by
  cases sig with
  | unit k tok =>
    by_cases hk : k = .comment
    · subst hk
      simp only [listener]
      split
      · rfl
      · exact notes_content _ _ _ _
    · have hc : listener.hear c (.unit k tok) col = content c k tok col := by
        cases k <;> simp_all [listener]
      rw [hc]
      exact notes_content _ _ _ _
  | eol => rfl
  | eof => rfl

end Collector

section Listening

variable {σ : Type} (l : Listener σ) (source : List UInt8) (name : String) (s : σ)

/-- Whatever a listener answers, it hears the units of the reading of the text in order. Either
it stops the lexer at one of them, having let it go on at every unit before, and the run ends
successfully just past that unit; or it lets it go on at every unit, hears an end of line and
the end of input after them exactly when the text was read to its end, and the run ends as the
reading does, successfully or with the error of its fault. Writing down what the listener hears
changes nothing in the run. A listener that lets comments pass lets the lexer go on at every
comment, and the listener it wraps never hears one. -/
theorem listener_course :
    Lexer.Course (Scan.read source 0).1 (Scan.read source 0).2.closing
        ((Scan.read source 0).2.result (Cursor.new source name))
        (Lexer.run l.observe (Cursor.new source name) (s, [])).state.2
        (Lexer.run l (Cursor.new source name) s) ∧
      ((Lexer.run l.observe (Cursor.new source name) (s, [])).cursor =
          (Lexer.run l (Cursor.new source name) s).cursor ∧
        (Lexer.run l.observe (Cursor.new source name) (s, [])).state.1 =
          (Lexer.run l (Cursor.new source name) s).state ∧
        (Lexer.run l.observe (Cursor.new source name) (s, [])).result =
          (Lexer.run l (Cursor.new source name) s).result) ∧
      (∀ x ∈ (Lexer.run l.passComments.observe (Cursor.new source name) (s, [])).state.2,
        x.signal.kind = .comment → x.answer = true) ∧
      (∀ x ∈ (Lexer.run l.observe.passComments (Cursor.new source name) (s, [])).state.2,
        x.signal.kind ≠ .comment) := by
  refine ⟨?_, Lexer.run_observe l _ (s, []), ?_, ?_⟩
  · obtain ⟨heard, hh, hc, -⟩ := Lexer.run_observed l (Cursor.new source name) s []
    rw [hh, List.nil_append]
    simpa using hc
  · refine Lexer.run_invariant (fun p : σ × List Hearing => ∀ x ∈ p.2, x.signal.kind = .comment → x.answer = true)
      (fun c sig p hp => ?_) _ (by simp)
    intro x hx hk
    rcases List.mem_append.mp hx with hx | hx
    · exact hp x hx hk
    · rw [List.mem_singleton] at hx
      subst hx
      exact congrArg Reply.go (Listener.passComments_hear_comment hk)
  · refine Lexer.run_invariant (fun p : σ × List Hearing => ∀ x ∈ p.2, x.signal.kind ≠ .comment)
      (fun c sig p hp => ?_) _ (by simp)
    by_cases hk : sig.kind = .comment
    · rw [Listener.passComments_hear_comment hk]
      exact hp
    · rw [Listener.passComments_hear_of_ne hk]
      intro x hx
      rcases List.mem_append.mp hx with hx | hx
      · exact hp x hx
      · rw [List.mem_singleton] at hx
        subst hx
        exact hk

/-- The diagnostics of a run are the listener's own messages, as reported at the cursor and in
the order it reported them, followed by one error diagnostic exactly when the run fails: the
error's message, in the stream, at the error's line and column. Lexing with the collector
reports nothing else; so a handler that collects diagnostics gains nothing from a success and
exactly that error from a failure, while a strict handler refuses the error, failing with
`Diagnostic error: ` and the diagnostic's display before it could collect it. -/
theorem run_diagnostics :
    (Lexer.run l (Cursor.new source name) s).cursor.reports =
        (Lexer.run l.observe (Cursor.new source name) (s, [])).state.2.flatMap Hearing.reports ++
          LexError.reportsOf name (Lexer.run l (Cursor.new source name) s).result ∧
      (tokenize source name).cursor.reports =
        LexError.reportsOf name (tokenize source name).result ∧
      ∀ h : Handler, (tokenize source name).cursor.reports.foldlM Handler.report h =
        match (tokenize source name).result with
        | .ok () => .ok h
        | .error e =>
          if h.strict then .error ("Diagnostic error: " ++ (e.diagnostic name).display)
          else .ok { h with diagnostics := h.diagnostics ++ [e.diagnostic name] } := by
  have hown : ∀ {τ : Type} (l : Listener τ) (s : τ),
      (Lexer.run l (Cursor.new source name) s).cursor.reports =
        (Lexer.run l.observe (Cursor.new source name) (s, [])).state.2.flatMap Hearing.reports ++
          LexError.reportsOf name (Lexer.run l (Cursor.new source name) s).result := by
    intro τ l s
    obtain ⟨heard, hh, -, hr⟩ := Lexer.run_observed l (Cursor.new source name) s []
    rw [hh, List.nil_append]
    simpa using hr
  have hsilent : (Lexer.run Collector.listener.observe (Cursor.new source name)
      ({}, [])).state.2.flatMap Hearing.reports = [] := by
    rw [List.flatMap_eq_nil_iff]
    refine Lexer.run_invariant (fun p : Collector × List Hearing => ∀ x ∈ p.2, x.reports = [])
      (fun c sig p hp => ?_) _ (by simp)
    intro x hx
    rcases List.mem_append.mp hx with hx | hx
    · exact hp x hx
    · rw [List.mem_singleton] at hx
      subst hx
      simp
  have htok : (tokenize source name).cursor.reports =
      LexError.reportsOf name (tokenize source name).result := by
    rw [tokenize, hown, hsilent, List.nil_append]
  refine ⟨hown l s, htok, fun h => ?_⟩
  rw [htok]
  generalize (tokenize source name).result = r
  cases r with
  | ok u =>
    cases u
    rfl
  | error e =>
    have hd : (e.diagnostic name).level.isError = true := rfl
    simp only [LexError.reportsOf, List.foldlM_cons, List.foldlM_nil, bind_pure]
    unfold Handler.report
    rw [hd, Bool.and_true]
    rfl

end Listening

end ConfLex
