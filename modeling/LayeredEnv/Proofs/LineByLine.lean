import LayeredEnv.EnvFile
import LayeredEnv.Proofs.LossyDecoding
import LayeredEnv.Proofs.Trimming

/-!
# Line by line

A line feed separates what stands on its two sides, in the bytes as well as in the text.  In the
bytes it belongs to no longer sequence, so a sequence that is cut off before it is ill-formed, bytes
that continue nothing after it are so too, and neither hangs on the other side.  In the text it ends
a line, and what a line means hangs on that line only.  The one thing that is passed on is the
number of the line.

A file is read by cutting its text at every line feed, and blanks around a line do not count.  That
gives the same as reading lines one by one, where a carriage return before a line feed belongs to
the end of the line and no line comes after the last line feed (`EnvFile.readLines_eq_or`).

Main statement: `EnvFile.reads_line_by_line`.
-/

namespace LayeredEnv

/-! ### Lines of a text -/

namespace Text

variable {sep : Char}

/-- There is one piece more than there are separators. -/
theorem length_splitOn (s : List Char) : (splitOn sep s).length = s.count sep + 1 := by
  induction s with
  | nil => rfl
  | cons c s ih =>
    rw [splitOn]
    by_cases hc : c = sep
    · rw [if_pos hc, hc, List.count_cons_self, List.length_cons, ih]
    · rw [if_neg hc, List.count_cons_of_ne hc, ← ih]
      cases hpieces : splitOn sep s with
      | nil => exact absurd hpieces (splitOn_ne_nil sep s)
      | cons piece pieces => rfl

/-- A line before its line feed, without a carriage return at its end. -/
def dropReturn (line : List Char) : List Char :=
  if line.getLast? = some '\r' then line.dropLast else line

/-- The lines among the pieces between line feeds: nothing comes after the last line feed if the
last piece is empty. -/
def linesOfPieces : List (List Char) → List (List Char)
  | [] => []
  | [last] => if last = [] then [] else [last]
  | line :: next :: rest => dropReturn line :: linesOfPieces (next :: rest)

/-- The lines of a text.  A line ends with a line feed or with a carriage return and a line feed,
and the last line may lack its end. -/
def lines (text : List Char) : List (List Char) :=
  linesOfPieces (splitOn '\n' text)

/-- A carriage return at the end of a line is a blank around it. -/
theorem trim_dropReturn (line : List Char) : trim (dropReturn line) = trim line := by
  unfold dropReturn
  split
  · next hlast =>
    obtain ⟨before, rfl⟩ := List.getLast?_eq_some_iff.mp hlast
    rw [List.dropLast_concat,
      trim_append_right (List.forall_mem_singleton.mpr isBlank_carriageReturn)]
  · rfl

end Text

/-! ### Line feeds in bytes and in text -/

namespace Utf8

variable {bytes bad rest : List UInt8} {text : List Char}

theorem utf8EncodeChar_lineFeed : String.utf8EncodeChar '\n' = [10] := by decide

/-- A line feed is among the bytes of no character but itself. -/
theorem count_utf8EncodeChar (c : Char) :
    (String.utf8EncodeChar c).count 10 = if c = '\n' then 1 else 0 := by
  split
  · next hc =>
    rw [hc, utf8EncodeChar_lineFeed]
    rfl
  · next hc =>
    refine List.count_eq_zero_of_not_mem fun hmem => hc ?_
    exact (utf8EncodeChar_of_mem hmem (by decide)).1

/-- A line feed is in no ill-formed start. -/
theorem IllFormedStart.not_mem_lineFeed (h : IllFormedStart bad rest) : 10 ∉ bad := by
  intro hmem
  have hbad : bad = [10] := by
    rcases h.begins with ⟨c, hbegin⟩ | hlength
    · have hbytes := (utf8EncodeChar_of_mem (hbegin.subset hmem) (by decide)).2
      rw [hbytes] at hbegin
      rcases List.prefix_cons_iff.mp hbegin with hnil | ⟨further, hcons, hfurther⟩
      · exact absurd hnil h.nonempty
      · rw [hcons, List.prefix_nil.mp hfurther]
    · obtain ⟨byte, rfl⟩ := List.length_eq_one_iff.mp hlength
      rw [List.mem_singleton.mp hmem]
  refine h.noChar '\n' ?_
  rw [utf8EncodeChar_lineFeed, hbad]
  exact List.prefix_append [10] rest

/-- There are as many line feeds in the text as in the bytes. -/
theorem Replaces.count_lineFeed (h : Replaces bytes text) : text.count '\n' = bytes.count 10 := by
  induction h with
  | nil => rfl
  | char c _ ih =>
    rw [List.count_append, count_utf8EncodeChar, List.count_cons, ih, Nat.add_comm]
    simp only [beq_iff_eq]
  | illFormed hbad _ ih =>
    have hreplacement : '\uFFFD' ≠ '\n' := by decide
    rw [List.count_append, List.count_eq_zero_of_not_mem hbad.not_mem_lineFeed, Nat.zero_add,
      List.count_cons_of_ne hreplacement, ih]

theorem lossyText_append_lineFeed (a b : List UInt8) :
    lossyText (a ++ 10 :: b) = lossyText a ++ '\n' :: lossyText b := by
  rw [lossyText, decode_append_lineFeed, List.map_append, List.map_cons]
  rfl

theorem isWellFormed_append_lineFeed (a b : List UInt8) :
    isWellFormed (a ++ 10 :: b) = (isWellFormed a && isWellFormed b) := by
  rw [isWellFormed, decode_append_lineFeed, List.all_append, List.all_cons, Option.isSome_some,
    Bool.true_and, isWellFormed, isWellFormed]

end Utf8

/-- The same complaint about a line that stands further down. -/
def Notice.later (count : Nat) (notice : Notice) : Notice :=
  ⟨notice.line.map (· + count), notice.complaint⟩

namespace EnvFile

/-! ### Readings of a text -/

theorem readLines_append_lineFeed (a b : List Char) :
    readLines (a ++ '\n' :: b) = readLines a ++ readLines b := by
  rw [readLines, Text.splitOn_append_sep, List.map_append, readLines, readLines]

theorem directives_append_lineFeed (a b : List Char) :
    directives (a ++ '\n' :: b) = directives a ++ directives b := by
  rw [directives, readLines_append_lineFeed, List.filterMap_append, directives, directives]

/-- Complaints about further lines come after those about the first ones. -/
theorem noticesFrom_append (first : Nat) (readings others : List LineReading) :
    noticesFrom first (readings ++ others) =
      noticesFrom first readings ++ noticesFrom (first + readings.length) others := by
  induction readings generalizing first with
  | nil => rfl
  | cons reading readings ih =>
    rw [List.length_cons, Nat.add_comm readings.length 1, ← Nat.add_assoc]
    cases reading with
    | nothing | directive => exact ih (first + 1)
    | fault c =>
      rw [List.cons_append, noticesFrom, ih, noticesFrom, List.cons_append]

/-- Further down the complaints are the same, with the lines counted from there. -/
theorem noticesFrom_add (first count : Nat) (readings : List LineReading) :
    noticesFrom (first + count) readings =
      (noticesFrom first readings).map (Notice.later count) := by
  induction readings generalizing first with
  | nil => rfl
  | cons reading readings ih =>
    have hrest := ih (first + 1)
    rw [Nat.add_right_comm] at hrest
    cases reading with
    | nothing | directive => exact hrest
    | fault c =>
      rw [noticesFrom, noticesFrom, hrest, List.map_cons]
      rfl

/-- Complaints about the text after a line feed are counted on from the lines before it. -/
theorem notices_append_lineFeed (a b : List Char) :
    notices (a ++ '\n' :: b) =
      notices a ++ (notices b).map (Notice.later (a.count '\n' + 1)) := by
  have hlength : (readLines a).length = a.count '\n' + 1 := by
    rw [readLines, List.length_map, Text.length_splitOn]
  rw [notices, readLines_append_lineFeed, noticesFrom_append, hlength, noticesFrom_add, notices,
    notices]

/-! ### Reading the lines -/

theorem readLine_congr {raw raw' : List Char} (h : Text.trim raw = Text.trim raw') :
    readLine raw = readLine raw' := by
  rw [readLine, readLine, h]

/-- What the pieces between line feeds mean is what the lines mean, and nothing after the last line
feed. -/
theorem readLines_eq_or (text : List Char) :
    readLines text = (Text.lines text).map readLine ∨
      readLines text = (Text.lines text).map readLine ++ [.nothing] := by
  rw [readLines, Text.lines]
  induction Text.splitOn '\n' text using Text.linesOfPieces.induct with
  | case1 => exact .inl rfl
  | case2 => exact .inr rfl
  | case3 last hlast =>
    rw [Text.linesOfPieces, if_neg hlast]
    exact .inl rfl
  | case4 line next rest ih =>
    have hlines : (Text.linesOfPieces (line :: next :: rest)).map readLine =
        readLine line :: (Text.linesOfPieces (next :: rest)).map readLine := by
      rw [Text.linesOfPieces, List.map_cons, readLine_congr (Text.trim_dropReturn line)]
    rw [hlines, List.cons_append]
    exact ih.imp (congrArg (readLine line :: ·)) (congrArg (readLine line :: ·))

theorem directives_eq_lines (text : List Char) :
    directives text = ((Text.lines text).map readLine).filterMap LineReading.directive? := by
  rw [directives]
  rcases readLines_eq_or text with hread | hread
  · rw [hread]
  · rw [hread, List.filterMap_append]
    exact List.append_nil _

theorem notices_eq_lines (text : List Char) :
    notices text = noticesFrom 1 ((Text.lines text).map readLine) := by
  rw [notices]
  rcases readLines_eq_or text with hread | hread
  · rw [hread]
  · rw [hread, noticesFrom_append]
    exact List.append_nil _

/-! ### Files -/

/-- The complaints about single lines of a file. -/
def lineNoticesOf (bytes : List UInt8) : List Notice :=
  (noticesOf bytes).filter fun notice => notice.line.isSome

/-- The complaint that a file is no text. -/
def notUtf8Notice : Notice :=
  ⟨none, .notUtf8⟩

/-- Complaints about the lines of a text have the number of a line. -/
theorem isSome_line_of_mem_noticesFrom {first : Nat} {readings : List LineReading} {notice : Notice}
    (h : notice ∈ noticesFrom first readings) : notice.line.isSome = true := by
  induction readings generalizing first with
  | nil => simp [noticesFrom] at h
  | cons reading readings ih =>
    cases reading with
    | nothing | directive => exact ih h
    | fault c =>
      rcases List.mem_cons.mp h with rfl | h
      · rfl
      · exact ih h

theorem lineNoticesOf_eq (bytes : List UInt8) :
    lineNoticesOf bytes = notices (Utf8.lossyText bytes) := by
  have hlines : (notices (Utf8.lossyText bytes)).filter (fun notice => notice.line.isSome) =
      notices (Utf8.lossyText bytes) :=
    List.filter_eq_self.mpr fun _ hmem => isSome_line_of_mem_noticesFrom hmem
  rw [lineNoticesOf, noticesOf, List.filter_append, hlines]
  cases Utf8.isWellFormed bytes <;> rfl

theorem notUtf8Notice_mem_iff (bytes : List UInt8) :
    notUtf8Notice ∈ noticesOf bytes ↔ Utf8.isWellFormed bytes = false := by
  have hlines : notUtf8Notice ∉ notices (Utf8.lossyText bytes) := fun hmem =>
    absurd (isSome_line_of_mem_noticesFrom hmem) (by decide)
  rw [noticesOf, List.mem_append, or_iff_left hlines]
  cases Utf8.isWellFormed bytes with
  | false => exact iff_of_true (List.mem_singleton.mpr rfl) rfl
  | true => simp

/-- What is on one side of a line feed is read apart from what is on the other side, even if a
sequence of bytes is cut off there: the directives are those of the two sides, so are the complaints
about lines, with the lines counted on, and the bytes are well-formed if those of both sides are.

The directives and the complaints of any file are those of the lines of its text, which has U+FFFD
in the place of every longest ill-formed start. -/
theorem reads_line_by_line (a b : List UInt8) :
    directivesOf (a ++ 10 :: b) = directivesOf a ++ directivesOf b ∧
    lineNoticesOf (a ++ 10 :: b) =
      lineNoticesOf a ++ (lineNoticesOf b).map (Notice.later (a.count 10 + 1)) ∧
    (notUtf8Notice ∈ noticesOf (a ++ 10 :: b) ↔
      notUtf8Notice ∈ noticesOf a ∨ notUtf8Notice ∈ noticesOf b) ∧
    ∀ bytes, ∃ text, (∀ text', Utf8.Replaces bytes text' ↔ text' = text) ∧
      directivesOf bytes = ((Text.lines text).map readLine).filterMap LineReading.directive? ∧
      lineNoticesOf bytes = noticesFrom 1 ((Text.lines text).map readLine) ∧
      (notUtf8Notice ∉ noticesOf bytes ↔
        ∃ text : List Char, bytes = text.flatMap String.utf8EncodeChar) := by
  refine ⟨?_, ?_, ?_, fun bytes => ⟨Utf8.lossyText bytes, fun _ => Utf8.replaces_iff, ?_, ?_, ?_⟩⟩
  · rw [directivesOf, Utf8.lossyText_append_lineFeed, directives_append_lineFeed, directivesOf,
      directivesOf]
  · have hcount := (Utf8.replaces_lossyText a).count_lineFeed
    rw [lineNoticesOf_eq, Utf8.lossyText_append_lineFeed, notices_append_lineFeed, hcount,
      lineNoticesOf_eq, lineNoticesOf_eq]
  · simp only [notUtf8Notice_mem_iff, Utf8.isWellFormed_append_lineFeed, Bool.and_eq_false_iff]
  · rw [directivesOf, directives_eq_lines]
  · rw [lineNoticesOf_eq, notices_eq_lines]
  · rw [notUtf8Notice_mem_iff, Bool.not_eq_false, Utf8.isWellFormed_iff]

example : directivesOf ([65, 61, 0xE2, 0x82] ++ 10 :: [0xAC, 66, 61, 49]) =
    [.assignment "A" "\uFFFD", .assignment "\uFFFDB" "1"] := by decide

end EnvFile

end LayeredEnv
