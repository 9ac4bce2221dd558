import ConfLex.Proofs.Limits
import ConfLex.Proofs.Lines
import ConfLex.Diagnostic.Render

/-!
# Where the caret stands

A rendered diagnostic shows the line of its position and puts a caret under its column. Columns
count bytes, and the caret is indented by the characters before the column, counted on the line
as it is shown: the line without the line feed and carriage returns that end it. When the column
lies past the shown text, among those carriage returns, the count falls back to the column.

For an error of the lexer that is the whole story. The lexer stops where a character starts
(`Munch.valid_drop_of_fault`), and the lines of a well-formed text start and end where
characters start, so the shown line is read off the text unchanged
(`SourceFile.lineAt?_of_lineStart?`). An error within the shown text gets its caret after exactly
the characters before it on its line, whatever multi-byte characters come first. An error among
the carriage returns that end its line, at its line feed after them or at the end of the input
after them, gets its caret after as many spaces as there are bytes before it on its line
(`caret_under_lexing_error`).
-/

namespace ConfLex

open ByteClass

/-! ## Errors are found where characters start -/

/-- An error is found where a character starts: the bytes from there on are valid. A missing
hexadecimal digit is reported past the `0` and the `x`, two characters of one byte each. -/
theorem Broken.valid_drop {r : List UInt8} {k : LexErrorKind} {o : Nat} (h : Broken r k o)
    (hv : Utf8.Valid r) : Utf8.Valid (r.drop o) := by
  cases h with
  | invalid rest _ _ => exact hv
  | @lineBreak w rest _ =>
    have hd : (34 :: (w ++ 10 :: rest)).drop (w.length + 1) = 10 :: rest := by simp
    exact hv.drop (by rw [hd]; rfl)
  | @escapedLineBreak w rest _ =>
    have hd : (34 :: (w ++ 92 :: 10 :: rest)).drop (w.length + 2) = 10 :: rest := by simp
    exact hv.drop (by rw [hd]; rfl)
  | unclosedString _ => exact hv.drop (by simp)
  | danglingEscape _ => exact hv.drop (by simp)
  | unclosedComment _ => exact hv.drop (by simp)
  | @hexDigitMissing x rest _ hx _ _ =>
    have hxa : x.toNat < 128 := by rcases hx with rfl | rfl <;> decide
    exact (hv.of_cons_ascii (by decide)).of_cons_ascii hxa
  | exponentCut _ _ => exact hv.drop (by simp)
  | @signedExponentDigitMissing m rest x s _ _ _ hs _ _ =>
    have hsa : s.toNat < 128 := by rcases hs with rfl | rfl <;> decide
    have hd : (m ++ x :: s :: rest).drop (m.length + 2) = rest := by simp
    rw [hd]
    exact Utf8.Valid.of_append_ascii (u := m ++ [x]) (by simpa using hv) hsa
  | @exponentDigitMissing m rest x y _ _ hx _ _ _ =>
    have hd : (m ++ x :: y :: rest).drop (m.length + 1) = y :: rest := by simp
    rw [hd]
    exact Utf8.Valid.of_append_ascii hv (ascii_of_mark hx)

/-- A reading that runs into an error finds it within the input, where a character starts. -/
theorem Munch.valid_drop_of_fault {input : List UInt8} {pos o : Nat}
    {units : List (TokenKind × Token)} {k : LexErrorKind}
    (h : Munch input pos units (.fault k o)) (hv : Utf8.Valid input) :
    pos ≤ o ∧ o - pos ≤ input.length ∧ Utf8.Valid (input.drop (o - pos)) := by
  generalize he : Ending.fault k o = ending at h
  induction h with
  | done => cases he
  | @broken input pos k' o' hb =>
    obtain ⟨-, rfl⟩ := Ending.fault.inj he
    rw [Nat.add_sub_cancel_left]
    exact ⟨Nat.le_add_right _ _, hb.le_length, hb.valid_drop hv⟩
  | @blank b t pos units ending hb _ ih =>
    obtain ⟨h1, h2, h3⟩ := ih (hv.of_cons_ascii (ascii_of_isBlank hb)) he
    have hsub : o - pos = o - (pos + 1) + 1 := by omega
    refine ⟨by omega, by simp only [List.length_cons]; omega, ?_⟩
    rw [hsub, List.drop_succ_cons]
    exact h3
  | @unit input pos k n units ending _ hl _ ih =>
    obtain ⟨h1, h2, h3⟩ := ih (hl.valid_drop hv) he
    have hn := hl.le_length
    have hsub : o - pos = n + (o - (pos + n)) := by omega
    rw [List.length_drop] at h2
    refine ⟨by omega, by omega, ?_⟩
    rw [hsub, ← List.drop_drop]
    exact h3

/-- A failed lexing of a well-formed text reports its error at an offset within the text where a
character starts, on the line after as many line feeds as come before the offset, as far from
that line's start as the offset is. The error is that of the cursor moved to the offset where the
scan failed. -/
theorem error_position_of_tokenize {text name : String} {e : LexError}
    (he : (tokenize (Utf8.encode text) name).result = .error e) :
    ∃ o, o ≤ (Utf8.encode text).length ∧ Utf8.Valid ((Utf8.encode text).drop o) ∧
      e.line = ((Utf8.encode text).take o).count 10 + 1 ∧
      e.column = o - lineStartAt (Utf8.encode text) o := by
  have hv := Utf8.valid_encode text
  generalize Utf8.encode text = s at hv he ⊢
  obtain ⟨-, hres, -⟩ := Collector.run_collect (Cursor.new s name) {}
    (Collector.tracking_new s name) hv
  simp only [Cursor.rest_new, Cursor.pos_new] at hres
  rw [tokenize, hres] at he
  cases hread : (Scan.read s 0).2 with
  | done => simp [hread, Ending.result] at he
  | fault k o =>
    rw [hread, Ending.result, Cursor.pos_new, Nat.sub_zero, Except.error.injEq] at he
    obtain ⟨-, hle, hdrop⟩ := Munch.valid_drop_of_fault (hread ▸ Scan.munch_read hv) hv
    rw [Nat.sub_zero] at hle hdrop
    have hi := (Cursor.indexed_new s name).advanceBy o
    have hpos : ((Cursor.new s name).advanceBy o).pos = o := by
      simp [Nat.min_eq_left hle]
    subst he
    refine ⟨o, hle, hdrop, ?_, ?_⟩
    · show ((Cursor.new s name).advanceBy o).line = _
      rw [hi.line_eq, hpos, Cursor.source_advanceBy]
      rfl
    · show ((Cursor.new s name).advanceBy o).column = _
      rw [hi.column_eq_lineStartAt, hpos, Cursor.source_advanceBy]
      rfl

/-! ## The caret -/

/-- A character starts at a place of a prefix if it starts there in the whole. -/
theorem Utf8.startsChar_drop_of_prefix {u v : List UInt8} (hp : u <+: v) {n : Nat}
    (hn : n ≤ u.length) (hv : startsChar (v.drop n)) : startsChar (u.drop n) := by
  obtain ⟨z, rfl⟩ := hp
  rw [List.drop_append_of_le_length hn] at hv
  cases hd : u.drop n with
  | nil => rfl
  | cons y w =>
    rw [hd] at hv
    exact hv

namespace Renderer

/-- Past the end of a line's text the caret falls back to the column. -/
theorem caretIndent_of_lt {line : String} {column : Nat} (h : (Utf8.encode line).length < column) :
    caretIndent line column = column := by
  have hnone : Utf8.slice? (Utf8.encode line) 0 column = none := by
    simp [Utf8.slice?, Nat.not_le.mpr h]
  rw [caretIndent, hnone]

/-- Within a line's text, where a character starts, the caret is indented by the characters
before it. -/
theorem caretIndent_of_le {line : String} {column : Nat} (h : column ≤ (Utf8.encode line).length)
    (hc : Utf8.startsChar ((Utf8.encode line).drop column)) :
    caretIndent line column = (Utf8.chars ((Utf8.encode line).take column)).length := by
  have hsome : Utf8.slice? (Utf8.encode line) 0 column = some ((Utf8.encode line).take column) := by
    simp [Utf8.slice?, Utf8.isBoundary, h, hc]
  rw [caretIndent, hsome]

/-- The caret is never indented past the column: the piece of the line before the column has at
most `column` bytes, and every character takes one byte at least. -/
theorem caretIndent_le (line : String) (column : Nat) : caretIndent line column ≤ column := by
  unfold caretIndent
  split
  · next piece hpiece =>
    simp only [Utf8.slice?] at hpiece
    split at hpiece
    · obtain rfl := Option.some.inj hpiece
      calc (Utf8.chars _).length ≤ _ := Utf8.length_chars_le _
        _ ≤ column := by simp only [List.length_take]; omega
    · cases hpiece
  · exact Nat.le_refl _

/-- The caret under a column of a line read off the front of some bytes, at a column where a
character starts in them: after the characters before the column when the column lies within
the line, after the column's bytes when it lies past the line. -/
theorem caretIndent_of_prefix {line : String} {v : List UInt8} (hp : Utf8.encode line <+: v)
    {column : Nat} (hc : Utf8.startsChar (v.drop column)) :
    caretIndent line column =
      if column ≤ (Utf8.encode line).length then (Utf8.chars (v.take column)).length
      else column := by
  split
  · next hin =>
    rw [caretIndent_of_le hin (Utf8.startsChar_drop_of_prefix hp hin hc)]
    obtain ⟨z, rfl⟩ := hp
    rw [List.take_append_of_le_length hin]
  · next hout => exact caretIndent_of_lt (by omega)

/-- A plain renderer draws a diagnostic whose line the file has as five lines: the header, the
arrow to the position, an empty gutter line, the line's text, and the caret after `caretIndent`
spaces, if the caret can be drawn. -/
theorem render_plain_of_lineAt? {d : Diagnostic} {f : SourceFile} {shown : String}
    (hshown : f.lineAt? d.position.line = some shown)
    (hfits : caretIndent shown d.position.column < textLimit) :
    let width := max (toString d.position.line).length 2
    render ⟨false⟩ d (some f) = some
      (d.level.name ++ ": " ++ d.message ++ "\n" ++
        spaces width ++ "--> " ++ d.stream ++ ":" ++ toString d.position.line ++ ":" ++
          toString d.position.column ++ "\n" ++
        spaces width ++ " |\n" ++
        alignRight width (toString d.position.line) ++ " | " ++ shown ++ "\n" ++
        spaces width ++ " | " ++ spaces (caretIndent shown d.position.column) ++ "^\n") := by
  simp only [render, Option.bind_some, hshown, if_neg (Nat.not_le.mpr hfits), paint,
    Bool.false_eq_true, if_false, Position.display]
  rw [show ("--> " : String) = "-->" ++ " " from rfl,
    show (" |\n" : String) = " " ++ "|" ++ "\n" from rfl,
    show (" | " : String) = " " ++ "|" ++ " " from rfl,
    show ("^\n" : String) = "^" ++ "\n" from rfl]
  simp only [String.append_assoc]

end Renderer

/-- The caret of a lexing error. Lexing a well-formed text that fails records one diagnostic, the
error's. Rendered plainly with the text at hand, it shows the error's line without the line feed
and carriage returns that end it, and puts the caret under the error: after as many spaces as
there are characters before the error on its line when the error lies within the shown text, and
after as many spaces as there are bytes before it when it lies past the shown text, among the
carriage returns stripped from the line's end. The error's line starts at the last line start
before the error, `column` bytes before it, and a character starts at the error. -/
theorem caret_under_lexing_error (text name : String) (e : LexError)
    (hlen : (Utf8.encode text).length < Renderer.textLimit)
    (he : (tokenize (Utf8.encode text) name).result = .error e) :
    let bytes := Utf8.encode text
    let f := SourceFile.ofString name text
    let width := max (toString e.line).length 2
    (tokenize bytes name).cursor.reports = [e.diagnostic name] ∧
      ∃ start shown, f.lineStart? e.line = some start ∧ f.lineAt? e.line = some shown ∧
        Utf8.encode shown <+: bytes.drop start ∧
        Renderer.render ⟨false⟩ (e.diagnostic name) (some f) = some
          ("error: " ++ e.message ++ "\n" ++
            Renderer.spaces width ++ "--> " ++ name ++ ":" ++ toString e.line ++ ":" ++
              toString e.column ++ "\n" ++
            Renderer.spaces width ++ " |\n" ++
            Renderer.alignRight width (toString e.line) ++ " | " ++ shown ++ "\n" ++
            Renderer.spaces width ++ " | " ++
              Renderer.spaces (if e.column ≤ (Utf8.encode shown).length
                then (Utf8.chars ((bytes.drop start).take e.column)).length else e.column) ++
              "^\n") := by
  dsimp only
  obtain ⟨o, hle, hvo, hline, hcol⟩ := error_position_of_tokenize he
  have hreports : (tokenize (Utf8.encode text) name).cursor.reports = [e.diagnostic name] := by
    rw [tokenize, Collector.reports_run, ← tokenize, he]
    rfl
  have hstart : (SourceFile.ofString name text).lineStart? e.line =
      some (lineStartAt (Utf8.encode text) o) := by
    rw [hline]
    exact (SourceFile.positionOf_eq (SourceFile.ofString name text) o).2
  have hat : lineStartAt (Utf8.encode text) o + e.column = o := by
    have := lineStartAt_le (Utf8.encode text) o
    omega
  obtain ⟨shown, hshown, hpre⟩ := (SourceFile.ofString name text).lineAt?_of_lineStart? hstart
  have hc : Utf8.startsChar
      (((Utf8.encode text).drop (lineStartAt (Utf8.encode text) o)).drop e.column) := by
    rw [List.drop_drop, hat]
    exact Utf8.startsChar_of_valid hvo
  have hfits : Renderer.caretIndent shown e.column < Renderer.textLimit := by
    have := Renderer.caretIndent_le shown e.column
    omega
  refine ⟨hreports, lineStartAt (Utf8.encode text) o, shown, hstart, hshown, hpre, ?_⟩
  rw [Renderer.render_plain_of_lineAt? hshown hfits]
  simp only [LexError.diagnostic]
  rw [Renderer.caretIndent_of_prefix hpre hc]
  rfl

/-- A string cut off by the end of the input after `"é` and a carriage return. The error lies 4
bytes into its line, past the 3 bytes of the shown text `"é`: the caret stands after 4 spaces,
where 3 characters come before the error. -/
theorem caret_after_carriage_return_counts_bytes :
    (Utf8.encode "\"é\r").length < Renderer.textLimit ∧
      (tokenize (Utf8.encode "\"é\r") "test").result = .error ⟨.eofInString, 1, 4⟩ ∧
      Renderer.render ⟨false⟩ (LexError.diagnostic "test" ⟨.eofInString, 1, 4⟩)
          (some (SourceFile.ofString "test" "\"é\r")) =
        some ("error: end of file in string literal\n  --> test:1:4\n   |\n" ++
          " 1 | \"é\n   |     ^\n") := by
  have hlen : (Utf8.encode "\"é\r").length < Renderer.textLimit := by decide
  have hread : (Scan.read (Utf8.encode "\"é\r") 0).2 = .fault .eofInString 4 := by decide +kernel
  have he : (tokenize (Utf8.encode "\"é\r") "test").result = .error ⟨.eofInString, 1, 4⟩ := by
    rw [tokenize, (Collector.run_collect (Cursor.new (Utf8.encode "\"é\r") "test") {}
      (Collector.tracking_new _ _) (Utf8.valid_encode "\"é\r")).2.1, Cursor.rest_new,
      Cursor.pos_new, hread, Ending.result]
    exact congrArg Except.error (by decide +kernel)
  obtain ⟨-, start, shown, hstart, hshown, -, hrender⟩ :=
    caret_under_lexing_error "\"é\r" "test" _ hlen he
  have hfirst : (SourceFile.ofString "test" "\"é\r").lineStart? 1 = some 0 := by decide
  have hline : (SourceFile.ofString "test" "\"é\r").lineAt? 1 = some "\"é" := by decide +kernel
  obtain rfl : start = 0 := Option.some.inj (hstart.symm.trans hfirst)
  obtain rfl : shown = "\"é" := Option.some.inj (hshown.symm.trans hline)
  refine ⟨hlen, he, ?_⟩
  rw [hrender]
  decide +kernel

end ConfLex
