import ConfLex.Proofs.Boundaries

/-!
# The lines of a source file

A source file numbers its lines from 1. Line `k` starts at the `k`-th entry of the file's index
and runs up to where line `k + 1` starts, or to the end of the text for the last line; it is
shown without the line feeds and carriage returns that end it.

Every line start is 0 or follows a line feed, a character of its own, so in a well-formed text
the lines start and end where characters start and cutting one out never fails
(`SourceFile.lineAt?_eq`). A line feed inside a line would start another line between the two,
so a line's only line feed is its last byte, and the line as shown holds none
(`SourceFile.newline_only_at_line_end`).

The main statement is `SourceFile.line_text_between_line_starts`: a line is found exactly for the
numbers from 1 to the number of lines, and it is then the bytes between its start and the next
with the line end stripped; `tryLineAt` fails for exactly the other numbers, with an error that
names the number asked for and the number of lines.
-/

namespace ConfLex

/-! ## Where lines start -/

/-- Every line starts at the beginning of the text or right after a line feed. -/
theorem eq_zero_or_newline_of_mem_lineStartsOf {bytes : List UInt8} {x : Nat}
    (hx : x ∈ lineStartsOf bytes) :
    x = 0 ∨ (0 < x ∧ x ≤ bytes.length ∧ bytes[x - 1]? = some 10) := by
  have hall := lineStartsOf_take_eq_range bytes (Nat.le_refl bytes.length)
  rw [List.take_length] at hall
  rw [hall] at hx
  simp only [List.mem_cons, List.mem_map, List.mem_filter, List.mem_range, beq_iff_eq] at hx
  rcases hx with rfl | ⟨i, ⟨hi, hnl⟩, rfl⟩
  · exact .inl rfl
  · exact .inr ⟨Nat.succ_pos i, hi, by rw [Nat.add_sub_cancel]; exact hnl⟩

/-- Every line feed starts a line after it. -/
theorem succ_mem_lineStartsOf_of_newline {bytes : List UInt8} {i : Nat}
    (hnl : bytes[i]? = some 10) : i + 1 ∈ lineStartsOf bytes := by
  have hall := lineStartsOf_take_eq_range bytes (Nat.le_refl bytes.length)
  rw [List.take_length] at hall
  obtain ⟨hi, hget⟩ := List.getElem?_eq_some_iff.mp hnl
  rw [hall]
  simp [hi, hget]

/-- The text of a well-formed file is well-formed from the start of each of its lines on: the line
feed before a line's start is a character of its own. -/
theorem valid_drop_of_mem_lineStartsOf {bytes : List UInt8} (hv : Utf8.Valid bytes) {x : Nat}
    (hx : x ∈ lineStartsOf bytes) : x ≤ bytes.length ∧ Utf8.Valid (bytes.drop x) := by
  rcases eq_zero_or_newline_of_mem_lineStartsOf hx with rfl | ⟨hpos, hle, hnl⟩
  · exact ⟨Nat.zero_le _, hv⟩
  · refine ⟨hle, ?_⟩
    obtain ⟨hlt, hget⟩ := List.getElem?_eq_some_iff.mp hnl
    have hsplit := List.take_append_drop (x - 1) bytes
    rw [List.drop_eq_getElem_cons hlt, hget, Nat.sub_add_cancel hpos] at hsplit
    exact Utf8.Valid.of_append_ascii (hsplit ▸ hv) (by decide)

/-! ## Stripping the end of a line

A line is shown without the bytes of a class at its end: the list is reversed, the class is
dropped from its front, and the rest is reversed back. -/

section Strip

variable {α : Type} (p : α → Bool) (l : List α)

/-- Stripping bytes from the end of a list leaves a prefix, followed by the bytes stripped. -/
theorem reverse_dropWhile_reverse_append :
    (l.reverse.dropWhile p).reverse ++ (l.reverse.takeWhile p).reverse = l := by
  rw [← List.reverse_append, List.takeWhile_append_dropWhile, List.reverse_reverse]

theorem mem_stripped_end {x : α} (hx : x ∈ (l.reverse.takeWhile p).reverse) : p x := by
  rw [List.mem_reverse] at hx
  exact mem_takeWhile hx

/-- What is left after stripping does not end with a byte of the class. -/
theorem getLast?_strip {x : α} (hx : x ∈ ((l.reverse.dropWhile p).reverse).getLast?) :
    p x = false := by
  rw [List.getLast?_reverse] at hx
  have h := List.head?_dropWhile_not p l.reverse
  rw [Option.mem_def.mp hx] at h
  exact h

/-- Stripping a class removes each of its members from a list in which only the last element
can be one. -/
theorem not_mem_strip {x : α} (hpx : p x) (hx : x ∉ l.dropLast) :
    x ∉ (l.reverse.dropWhile p).reverse := by
  rw [List.mem_reverse]
  cases hl : l.reverse with
  | nil => simp
  | cons a r =>
    have hsplit : l = r.reverse ++ [a] := by
      rw [← List.reverse_reverse l, hl, List.reverse_cons]
    rw [hsplit, List.dropLast_concat, List.mem_reverse] at hx
    rw [List.dropWhile_cons]
    split
    · exact fun hmem => hx ((List.dropWhile_suffix p).subset hmem)
    · next ha =>
      rintro (_ | ⟨_, hmem⟩)
      · exact ha hpx
      · exact hx hmem

end Strip

namespace SourceFile

variable (f : SourceFile)

theorem valid_bytes : Utf8.Valid f.bytes := f.bytes_eq ▸ Utf8.valid_encode f.text

theorem pairwise_lineStarts : f.lineStarts.Pairwise (· < ·) :=
  f.lineStarts_eq ▸ pairwise_lineStartsOf f.bytes

/-- Lines are numbered from 1 to the number of lines. -/
theorem lineStart?_isSome_iff (line : Nat) :
    (f.lineStart? line).isSome ↔ 1 ≤ line ∧ line ≤ f.lineCount := by
  unfold lineStart? lineCount
  by_cases h0 : line = 0
  · simp [h0]
  · simp [h0]
    omega

theorem lineStart?_eq_some {line start : Nat} (h : f.lineStart? line = some start) :
    ∃ hk : line - 1 < f.lineStarts.length, 1 ≤ line ∧ f.lineStarts[line - 1] = start := by
  have hline : line ≠ 0 := fun h0 => by simp [lineStart?, h0] at h
  simp only [lineStart?, hline, if_false] at h
  obtain ⟨hk, rfl⟩ := List.getElem?_eq_some_iff.mp h
  exact ⟨hk, by omega, rfl⟩

theorem mem_of_lineStart? {line x : Nat} (h : f.lineStart? line = some x) :
    x ∈ lineStartsOf f.bytes := by
  obtain ⟨hk, -, rfl⟩ := f.lineStart?_eq_some h
  rw [← f.lineStarts_eq]
  exact List.getElem_mem hk

/-- A line ends where the next one starts, or at the end of the file: after its start, within
the file, where the text is well-formed again. -/
theorem lineEnd {line start : Nat} (h : f.lineStart? line = some start) :
    start ≤ (f.lineStart? (line + 1)).getD f.bytes.length ∧
      (f.lineStart? (line + 1)).getD f.bytes.length ≤ f.bytes.length ∧
      Utf8.Valid (f.bytes.drop ((f.lineStart? (line + 1)).getD f.bytes.length)) := by
  have hstart := valid_drop_of_mem_lineStartsOf f.valid_bytes (f.mem_of_lineStart? h)
  cases hnext : f.lineStart? (line + 1) with
  | none =>
    exact ⟨hstart.1, Nat.le_refl _, by rw [Option.getD_none, List.drop_length]; exact .nil⟩
  | some stop =>
    obtain ⟨hle, hv⟩ := valid_drop_of_mem_lineStartsOf f.valid_bytes (f.mem_of_lineStart? hnext)
    refine ⟨?_, hle, hv⟩
    obtain ⟨hi, hl, rfl⟩ := f.lineStart?_eq_some h
    obtain ⟨hj, -, rfl⟩ := f.lineStart?_eq_some hnext
    exact Nat.le_of_lt (List.pairwise_iff_getElem.mp f.pairwise_lineStarts _ _ hi hj (by omega))

/-- Cutting a line out of a well-formed file never fails: the line as shown is the text of its
bytes from its start to the next line's, with the line feeds and carriage returns at their end
stripped, and those bytes are well-formed. What follows the shown text starts a character: a
stripped byte, or the next line. -/
theorem lineAt?_eq {line start : Nat} (h : f.lineStart? line = some start) :
    let piece := (f.bytes.drop start).take ((f.lineStart? (line + 1)).getD f.bytes.length - start)
    let text := (piece.reverse.dropWhile fun b => b = 10 || b = 13).reverse
    f.lineAt? line = some (Utf8.decode text) ∧ Utf8.Valid text := by
  intro piece text
  obtain ⟨hle, hstop, hvstop⟩ := f.lineEnd h
  have hvstart := (valid_drop_of_mem_lineStartsOf f.valid_bytes (f.mem_of_lineStart? h)).2
  have hslice := Utf8.slice?_of_isBoundary hle hstop
    (Utf8.isBoundary_of_valid (by omega) hvstart) (Utf8.isBoundary_of_valid hstop hvstop)
  refine ⟨?_, ?_⟩
  · simp only [lineAt?, h, hslice, Option.bind_eq_bind, Option.bind_some]
    rfl
  have hrest : f.bytes.drop start =
      piece ++ f.bytes.drop ((f.lineStart? (line + 1)).getD f.bytes.length) := by
    have h := List.take_append_drop ((f.lineStart? (line + 1)).getD f.bytes.length - start)
      (f.bytes.drop start)
    rw [List.drop_drop, Nat.add_sub_cancel' hle] at h
    exact h.symm
  have hsplit := reverse_dropWhile_reverse_append (fun b : UInt8 => b = 10 || b = 13) piece
  generalize htrail : (piece.reverse.takeWhile fun b : UInt8 => b = 10 || b = 13).reverse = trail
    at hsplit
  have hnext : Utf8.startsChar
      (trail ++ f.bytes.drop ((f.lineStart? (line + 1)).getD f.bytes.length)) := by
    cases trail with
    | nil => exact Utf8.startsChar_of_valid hvstop
    | cons a t =>
      have hpa := mem_stripped_end _ piece (htrail ▸ List.mem_cons_self)
      simp only [Bool.or_eq_true, decide_eq_true_eq] at hpa
      rcases hpa with rfl | rfl <;> rfl
  exact Utf8.Valid.of_append_left
    (r := trail ++ f.bytes.drop ((f.lineStart? (line + 1)).getD f.bytes.length))
    (by rw [← List.append_assoc, hsplit, ← hrest]; exact hvstart) hnext

/-- A line of a well-formed file is shown as a text whose bytes are the file's bytes from the
line's start on, up to the line feed and carriage returns that end the line. -/
theorem lineAt?_of_lineStart? {line start : Nat} (h : f.lineStart? line = some start) :
    ∃ shown, f.lineAt? line = some shown ∧ Utf8.encode shown <+: f.bytes.drop start := by
  obtain ⟨hat, hvalid⟩ := f.lineAt?_eq h
  refine ⟨_, hat, ?_⟩
  rw [Utf8.encode_decode hvalid]
  exact List.IsPrefix.trans ⟨_, reverse_dropWhile_reverse_append _ _⟩ (List.take_prefix _ _)

/-- A line feed within a line is its last byte: one further in would start a line before the
next line's start. -/
theorem newline_only_at_line_end {line start : Nat} (h : f.lineStart? line = some start)
    {i : Nat} (hi : start ≤ i) (hend : i + 1 < (f.lineStart? (line + 1)).getD f.bytes.length) :
    f.bytes[i]? ≠ some 10 := by
  intro hnl
  have hmem : i + 1 ∈ f.lineStarts := f.lineStarts_eq ▸ succ_mem_lineStartsOf_of_newline hnl
  obtain ⟨m, hm, hxm⟩ := List.mem_iff_getElem.mp hmem
  obtain ⟨hk, hline, rfl⟩ := f.lineStart?_eq_some h
  have hlt := List.pairwise_iff_getElem.mp f.pairwise_lineStarts
  have hafter : line - 1 < m := by
    refine Nat.lt_of_not_le fun hle => ?_
    rcases Nat.lt_or_eq_of_le hle with hml | rfl
    · have := hlt m (line - 1) hm hk hml
      omega
    · omega
  cases hnext : f.lineStart? (line + 1) with
  | none =>
    have hlast : ¬ (1 ≤ line + 1 ∧ line + 1 ≤ f.lineCount) := fun hk => by
      simpa [hnext] using (f.lineStart?_isSome_iff (line + 1)).mpr hk
    simp only [lineCount] at hlast
    omega
  | some stop =>
    obtain ⟨hj, -, rfl⟩ := f.lineStart?_eq_some hnext
    rw [hnext, Option.getD_some] at hend
    rcases Nat.lt_or_eq_of_le (show line + 1 - 1 ≤ m by omega) with hml | heq
    · have := hlt _ m hj hm hml
      omega
    · simp only [heq] at hend
      omega

/-- A line as shown holds no line feed: once the bytes that end it are stripped, a line feed
left inside would be one before the line's last byte. -/
theorem newline_not_mem_line {line start : Nat} (h : f.lineStart? line = some start) :
    10 ∉ (((f.bytes.drop start).take
      ((f.lineStart? (line + 1)).getD f.bytes.length - start)).reverse.dropWhile
        fun b => b = 10 || b = 13).reverse := by
  refine not_mem_strip _ _ (by decide) fun hmem => ?_
  obtain ⟨j, hj, hget⟩ := List.mem_iff_getElem.mp hmem
  obtain ⟨hle, hstop, -⟩ := f.lineEnd h
  rw [List.getElem_dropLast, List.getElem_take, List.getElem_drop] at hget
  rw [List.length_dropLast, List.length_take, List.length_drop] at hj
  have hbyte : f.bytes[start + j]? = some 10 := by
    rw [List.getElem?_eq_getElem (by omega), hget]
  exact f.newline_only_at_line_end h (Nat.le_add_right start j) (by omega) hbyte

/-- The number of a line is found exactly when the file has that line; the line is then the
bytes between its start and the next line's, or the end of the file, less the line feeds and
carriage returns that end them, and it holds no line feed. Asking for a line the file does not
have is an error that names the number asked for and the number of lines. -/
theorem line_text_between_line_starts (k : Nat) :
    ((f.lineAt? k).isSome ↔ 1 ≤ k ∧ k ≤ f.lineCount) ∧
    (∀ shown, f.lineAt? k = some shown →
      ∃ start trail, f.lineStart? k = some start ∧
        (f.bytes.drop start).take ((f.lineStart? (k + 1)).getD f.bytes.length - start) =
          Utf8.encode shown ++ trail ∧
        (∀ b ∈ trail, b = 10 ∨ b = 13) ∧
        (∀ b ∈ (Utf8.encode shown).getLast?, b ≠ 10 ∧ b ≠ 13) ∧
        10 ∉ Utf8.encode shown) ∧
    (f.tryLineAt k = .error (.invalidLineNumber k f.lineCount) ↔
      ¬ (1 ≤ k ∧ k ≤ f.lineCount)) ∧
    (∀ shown, f.lineAt? k = some shown → f.tryLineAt k = .ok shown) := by
  have hfound : (f.lineAt? k).isSome ↔ (f.lineStart? k).isSome := by
    constructor
    · intro hs
      cases hstart : f.lineStart? k with
      | none => simp [lineAt?, hstart] at hs
      | some start => rfl
    · intro hs
      obtain ⟨start, hstart⟩ := Option.isSome_iff_exists.mp hs
      simp [(f.lineAt?_eq hstart).1]
  rw [f.lineStart?_isSome_iff] at hfound
  refine ⟨hfound, ?_, ?_, ?_⟩
  · intro shown hshown
    obtain ⟨start, hstart⟩ := Option.isSome_iff_exists.mp
      (hfound.mp (by simp [hshown]) |> (f.lineStart?_isSome_iff k).mpr)
    obtain ⟨hat, hvalid⟩ := f.lineAt?_eq hstart
    rw [hshown, Option.some.injEq] at hat
    subst hat
    rw [Utf8.encode_decode hvalid]
    refine ⟨start, ?_⟩
    generalize hpiece : (f.bytes.drop start).take
      ((f.lineStart? (k + 1)).getD f.bytes.length - start) = piece
    refine ⟨_, hstart, (reverse_dropWhile_reverse_append _ piece).symm, ?_, ?_, ?_⟩
    · intro b hb
      simpa using mem_stripped_end _ piece hb
    · intro b hb
      simpa using getLast?_strip _ piece hb
    · exact hpiece ▸ f.newline_not_mem_line hstart
  · constructor
    · intro herr hk
      obtain ⟨shown, hshown⟩ := Option.isSome_iff_exists.mp (hfound.mpr hk)
      simp [tryLineAt, hshown] at herr
    · intro hk
      have hnone : f.lineAt? k = none :=
        Option.not_isSome_iff_eq_none.mp ((not_congr hfound).mpr hk)
      simp [tryLineAt, hnone]
  · intro shown hshown
    simp [tryLineAt, hshown]

end SourceFile

end ConfLex
