import LineCensus.Proofs.Text.Search
import LineCensus.Text.Lines

namespace LineCensus.Text

/-!
# Lines written and read

A text of lines can be read back whatever line ends it was written with:

* `LineEnd`, `writeLines` — a text of lines, each with a line end of its own.
* `IsLine` — a line that can be told from its line end.
* `splitLines_append_feed` — the first line of a text is what stands in front of its first line feed.
* `length_splitLines` — the number of lines, from the line feeds alone.
* `linesOf_writeLines` — the lines that are written are the lines that are read.
-/

/-- What stands behind a line. -/
inductive LineEnd where
  | feed
  | returnFeed
  deriving DecidableEq, Repr

/-- The characters of a line end. -/
def LineEnd.text : LineEnd → String
  | .feed => "\n"
  | .returnFeed => "\r\n"

/-- The text of lines with their line ends. -/
def writeLines : List (String × LineEnd) → String
  | [] => ""
  | (line, ending) :: rest => line ++ ending.text ++ writeLines rest

/-- No line feed is in the line, and no carriage return at its end, so that it can be told from its
    line end. -/
structure IsLine (line : String) : Prop where
  feed_not_mem : '\n' ∉ line.toList
  getLast?_ne_return : line.toList.getLast? ≠ some '\r'

/-! ### One line -/

theorem splitLines_nil : splitLines [] = [] := rfl

/-- **One step.**  The first line stands in front of the first line feed; the others are the lines of
    what is behind it. -/
theorem splitLines_append_feed {line : List Char} (h : '\n' ∉ line) (rest : List Char) :
    splitLines (line ++ '\n' :: rest) = dropReturn line :: splitLines rest := by
  have hpieces : splitAtChar '\n' (line ++ '\n' :: rest) = line :: splitAtChar '\n' rest := by
    simp only [splitAtChar_eq_splitOn]
    exact List.splitOn_append_cons_self_of_not_mem h rest
  have hne : splitAtChar '\n' rest ≠ [] := by
    rw [splitAtChar_eq_splitOn]
    exact List.splitOn_ne_nil _ _
  -- The last piece is one of what is behind the line feed, be it dropped or not.
  have hfinal : dropFinalEmpty (line :: splitAtChar '\n' rest) =
      line :: dropFinalEmpty (splitAtChar '\n' rest) := by
    rw [dropFinalEmpty, dropFinalEmpty, List.getLast?_cons_of_ne_nil hne,
      List.dropLast_cons_of_ne_nil hne]
    split <;> rfl
  rw [splitLines, hpieces, hfinal, List.map_cons, splitLines]

/-- A text without line feeds is one line, if there is something in it. -/
theorem splitLines_of_not_mem {line : List Char} (h : '\n' ∉ line) (hne : line ≠ []) :
    splitLines line = [dropReturn line] := by
  have hpieces : splitAtChar '\n' line = [line] := by
    rw [splitAtChar_eq_splitOn]
    exact List.splitOn_eq_singleton h
  rw [splitLines, hpieces, dropFinalEmpty]
  simp [hne]

theorem dropReturn_of_ne {line : List Char} (h : line.getLast? ≠ some '\r') :
    dropReturn line = line :=
  if_neg h

theorem dropReturn_concat (line : List Char) : dropReturn (line ++ ['\r']) = line := by
  simp [dropReturn]

/-! ### All lines -/

/-- **How many lines.**  There are as many as line feeds, and one more if the text does not end with a
    line feed but with something else. -/
theorem length_splitLines (text : List Char) :
    (splitLines text).length =
      text.count '\n' + if text ≠ [] ∧ text.getLast? ≠ some '\n' then 1 else 0 := by
  -- Induction on the length, for the text is taken apart line by line.
  induction hn : text.length using Nat.strongRecOn generalizing text with
  | ind n ih =>
    by_cases hfeed : '\n' ∈ text
    · obtain ⟨line, rest, rfl, hline⟩ := List.eq_append_cons_of_mem hfeed
      have hrest := ih rest.length (by simp at hn; omega) rest rfl
      rw [splitLines_append_feed hline, List.length_cons, hrest, List.count_append,
        List.count_eq_zero_of_not_mem hline, List.count_cons_self]
      cases rest with
      | nil => simp
      | cons c rest => simp; omega
    · by_cases hempty : text = []
      · simp [hempty, splitLines_nil]
      · have hlast : text.getLast? ≠ some '\n' := fun h => hfeed (List.mem_of_getLast? h)
        rw [splitLines_of_not_mem hfeed hempty, List.count_eq_zero_of_not_mem hfeed,
          if_pos ⟨hempty, hlast⟩]
        rfl

/-- A line and its line end in front of a text are one more line. -/
theorem splitLines_line {line : String} (h : IsLine line) (ending : LineEnd) (rest : List Char) :
    splitLines (line.toList ++ (ending.text.toList ++ rest)) =
      line.toList :: splitLines rest := by
  cases ending with
  | feed =>
    have hstep := splitLines_append_feed h.feed_not_mem rest
    rwa [dropReturn_of_ne h.getLast?_ne_return] at hstep
  | returnFeed =>
    -- The return stays with the line until it is dropped from its end.
    have hnotMem : '\n' ∉ line.toList ++ ['\r'] := by
      simp [h.feed_not_mem]
    have hstep := splitLines_append_feed hnotMem rest
    rwa [dropReturn_concat, List.append_assoc] at hstep

/-- The lines in front of a text are read as they were written. -/
theorem splitLines_writeLines {ls : List (String × LineEnd)} (h : ∀ l ∈ ls, IsLine l.1)
    (rest : List Char) :
    splitLines ((writeLines ls).toList ++ rest) = ls.map (·.1.toList) ++ splitLines rest := by
  induction ls with
  | nil => rfl
  | cons l ls ih =>
    rw [List.forall_mem_cons] at h
    simp only [writeLines, String.toList_append, List.append_assoc, List.map_cons,
      List.cons_append]
    rw [splitLines_line h.1, ih h.2]

/-- **Lines come back.**  Lines that were written, each with a line feed or with a carriage return
    and a line feed behind it, are the lines of the text; so they are if the last one has something
    in it and no line end.  Any text has as many lines as line feeds, and one more if there is
    something behind the last line feed. -/
theorem linesOf_writeLines :
    (∀ ls : List (String × LineEnd), (∀ l ∈ ls, IsLine l.1) →
      linesOf (writeLines ls) = ls.map (·.1) ∧
      ∀ last, IsLine last → last ≠ "" →
        linesOf (writeLines ls ++ last) = ls.map (·.1) ++ [last]) ∧
    ∀ text, (linesOf text).length =
      text.toList.count '\n' + if text ≠ "" ∧ text.toList.getLast? ≠ some '\n' then 1 else 0 := by
  refine ⟨fun ls h => ⟨?_, fun last hlast hne => ?_⟩, fun text => ?_⟩
  · have hread := splitLines_writeLines h []
    rw [List.append_nil, splitLines_nil, List.append_nil] at hread
    simp [linesOf, hread]
  · have hne' : last.toList ≠ [] := by simpa using hne
    have hread := splitLines_writeLines h last.toList
    rw [splitLines_of_not_mem hlast.feed_not_mem hne',
      dropReturn_of_ne hlast.getLast?_ne_return] at hread
    simp [linesOf, hread]
  · have hlength := length_splitLines text.toList
    simpa [linesOf] using hlength

/-- `linesOf_writeLines` for a return inside a line, an empty line and a last line without an end. -/
theorem linesOf_writeLines_mixed :
    let ls : List (String × LineEnd) := [("a\rb", .returnFeed), ("", .feed)]
    (∀ l ∈ ls, IsLine l.1) ∧ IsLine "c" ∧
      linesOf (writeLines ls ++ "c") = ["a\rb", "", "c"] := by
  intro ls
  have hls : ∀ l ∈ ls, IsLine l.1 := by
    simp only [ls, List.forall_mem_cons]
    exact ⟨⟨by decide, by decide⟩, ⟨by decide, by decide⟩, List.forall_mem_nil _⟩
  have hlast : IsLine "c" := ⟨by decide, by decide⟩
  exact ⟨hls, hlast, (linesOf_writeLines.1 ls hls).2 "c" hlast (by decide)⟩

end LineCensus.Text
