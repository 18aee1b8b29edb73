/-
Where a report points. A line feed ends a line, so an offset of a text stands in the line whose number
is the count of the line feeds before it, and its column is what the text behind the last of these
takes.
-/
import LiveTemplate.Proofs.Location.Regions

namespace LiveTemplate

namespace Text

/-- The text behind the last line feed. -/
def lastLine (cs : List Char) : List Char :=
  (cs.reverse.takeWhile (· != '\n')).reverse

/-- A text is one line, or a line, a line feed and a text. -/
theorem lines_induction {P : List Char → Prop} (line : ∀ l, '\n' ∉ l → P l)
    (append : ∀ l rest, '\n' ∉ l → P rest → P (l ++ '\n' :: rest)) : ∀ cs, P cs := by
  suffices pieces : ∀ (cs l : List Char), '\n' ∉ l → P (l ++ cs) from
    fun cs => pieces cs [] List.not_mem_nil
  intro cs
  induction cs with
  | nil =>
    intro l hl
    rw [List.append_nil]
    exact line l hl
  | cons c cs ih =>
    intro l hl
    by_cases feed : c = '\n'
    · rw [feed]
      exact append l cs hl (ih [] List.not_mem_nil)
    · rw [List.append_cons]
      exact ih (l ++ [c]) (by simp [hl, Ne.symm feed])

/-! ## Lines -/

variable {l : List Char}

theorem linesFrom_append (h : '\n' ∉ l) (line rest : List Char) :
    linesFrom line (l ++ rest) = linesFrom (l.reverse ++ line) rest := by
  induction l generalizing line with
  | nil => rfl
  | cons c l ih =>
    rw [List.mem_cons, not_or] at h
    rw [List.cons_append, linesFrom, if_neg (by simpa using Ne.symm h.1), ih h.2]
    simp

/-- The lines of a text that begins with a line. -/
theorem lines_append (h : '\n' ∉ l) (rest : List Char) :
    lines (l ++ '\n' :: rest) = l :: lines rest := by
  rw [lines, linesFrom_append h]
  simp [linesFrom, lines]

theorem lines_of_not_mem (h : '\n' ∉ l) (hn : l ≠ []) : lines l = [l] := by
  have := linesFrom_append h [] []
  rw [List.append_nil, List.append_nil] at this
  rw [lines, this, linesFrom, if_neg (by simpa using hn), List.reverse_reverse]

theorem firstLine_append (h : '\n' ∉ l) (rest : List Char) :
    firstLine (l ++ rest) = l ++ firstLine rest :=
  List.takeWhile_append_of_pos fun _ hc => bne_iff_ne.2 (ne_of_mem_of_not_mem hc h)

/-- A text that is not empty has a first line. -/
theorem lines_eq_cons {cs : List Char} (h : cs ≠ []) :
    lines cs = firstLine cs :: (lines cs).tail := by
  induction cs using lines_induction with
  | line l hl =>
    have first := firstLine_append hl []
    rw [List.append_nil] at first
    rw [lines_of_not_mem hl h, first]
    simp [firstLine]
  | append l rest hl =>
    rw [lines_append hl, firstLine_append hl]
    simp [firstLine]

theorem lastLine_of_not_mem (h : '\n' ∉ l) : lastLine l = l := by
  have all : l.reverse.takeWhile (· != '\n') = l.reverse :=
    List.takeWhile_eq_self_iff.2 fun _ hc =>
      bne_iff_ne.2 (ne_of_mem_of_not_mem (List.mem_reverse.1 hc) h)
  rw [lastLine, all, List.reverse_reverse]

theorem lastLine_append (l rest : List Char) : lastLine (l ++ '\n' :: rest) = lastLine rest := by
  have reversed : (l ++ '\n' :: rest).reverse = rest.reverse ++ '\n' :: l.reverse := by simp
  have feed : ('\n' :: l.reverse).takeWhile (· != '\n') = [] := List.takeWhile_cons_of_neg (by simp)
  rw [lastLine, reversed, List.takeWhile_append, feed, List.append_nil]
  split
  case isTrue whole => rw [lastLine, (List.takeWhile_prefix _).eq_of_length whole]
  case isFalse => rfl

end Text

open Text Delimiter

/-! ## Offsets -/

/-- The line that holds an offset is found behind the lines before it, and in it the column. -/
theorem lineColumnFrom_lines {after : List Char} (ha : after ≠ []) (before : List Char)
    (passed n : Nat) :
    lineColumnFrom (n + byteLength before) passed n (lines (before ++ after)) =
        some (passed + before.count '\n', width (lastLine before)) ∧
      (lines (before ++ after))[before.count '\n']? = some (lastLine before ++ firstLine after) := by
  induction before using lines_induction generalizing passed n with
  | line l hl =>
    have some : l ++ after ≠ [] := by simp [ha]
    rw [lines_eq_cons some, firstLine_append hl, lastLine_of_not_mem hl, List.count_eq_zero.2 hl]
    refine ⟨?_, rfl⟩
    have inside : n + byteLength l < n + byteLength (l ++ firstLine after) + 1 := by
      rw [byteLength_append]
      omega
    rw [lineColumnFrom, if_pos inside, Nat.add_sub_cancel_left, takeBytes_append]
    rfl
  | append l rest hl ih =>
    have length : n + byteLength (l ++ '\n' :: rest) = n + byteLength l + 1 + byteLength rest := by
      rw [byteLength_append, byteLength]
      show _ + (_ + (1 + _)) = _
      omega
    have count : (l ++ '\n' :: rest).count '\n' = rest.count '\n' + 1 := by
      rw [List.count_append, List.count_eq_zero.2 hl, List.count_cons_self, Nat.zero_add]
    obtain ⟨column, line⟩ := ih (passed + 1) (n + byteLength l + 1)
    rw [List.append_assoc, List.cons_append, lines_append hl, lastLine_append, length, count]
    refine ⟨?_, line⟩
    rw [lineColumnFrom, if_neg (by omega), column]
    congr 2
    omega

/-- An offset between two characters of a source is reported in the line that holds it, which is as
many lines behind the first as there are line feeds before it, and in the column behind what its line
has before it. -/
theorem lineColumn_lines (source : String) (offset : Nat) (boundary : Boundary source.toList offset)
    (inside : offset < byteLength source.toList) :
    let before := takeBytes offset source.toList
    let after := dropBytes offset source.toList
    lineColumn (lines source.toList) offset = (before.count '\n', width (lastLine before)) ∧
      (lines source.toList)[before.count '\n']? = some (lastLine before ++ firstLine after) := by
  obtain ⟨before, after, eq, rfl⟩ := boundary
  rw [eq] at inside ⊢
  simp only [takeBytes_append, dropBytes_append]
  have ha : after ≠ [] := by
    rintro rfl
    simp at inside
  obtain ⟨column, line⟩ := lineColumnFrom_lines ha before 0 0
  rw [Nat.zero_add, Nat.zero_add] at column
  refine ⟨?_, line⟩
  rw [lineColumn, column]
  rfl

theorem lineColumn_lines_wide :
    Boundary "äb\n\n漢字x\n".toList 8 ∧ 8 < byteLength "äb\n\n漢字x\n".toList ∧
      lineColumn (lines "äb\n\n漢字x\n".toList) 8 = (2, 2) ∧
      (lines "äb\n\n漢字x\n".toList)[2]? = some "漢字x".toList := by
  have boundary : Boundary "äb\n\n漢字x\n".toList 8 :=
    ⟨"äb\n\n漢".toList, "字x\n".toList, by decide +kernel, by decide +kernel⟩
  have inside : 8 < byteLength "äb\n\n漢字x\n".toList := by decide +kernel
  have before : takeBytes 8 "äb\n\n漢字x\n".toList = "äb\n\n漢".toList := by decide +kernel
  have after : dropBytes 8 "äb\n\n漢字x\n".toList = "字x\n".toList := by decide +kernel
  obtain ⟨column, line⟩ := lineColumn_lines "äb\n\n漢字x\n" 8 boundary inside
  rw [before] at column line
  rw [after] at line
  exact ⟨boundary, inside, column.trans (by decide +kernel), line.trans (by decide +kernel)⟩

end LiveTemplate
