import LayeredEnv.Proofs.LineByLine
import LayeredEnv.Proofs.RenderedFiles

/-!
# Every line is accounted for

A line is passed over if it is blank or a comment, and any other line gives either a directive or a
complaint.  `EnvFile.Accounts` follows a reading from line to line: what is read of all of them is
what each of them gives by itself, in the order of the lines, and a complaint has the number of its
line.  So the complaints are about lines further and further down, and none of the lines is lost or
counted twice.

What a directive holds can be put to use without being looked at again: a key has no `=` and no
blanks at its ends, a target has no blanks at its ends, and nothing goes past the end of its line.

Main statement: `EnvFile.accounts_for_every_line`.
-/

namespace LayeredEnv

/-! ### Lines by themselves -/

namespace Text

theorem not_mem_dropReturn {line : List Char} {c : Char} (h : c ∉ line) : c ∉ dropReturn line := by
  unfold dropReturn
  split
  · exact fun hmem => h (List.dropLast_subset line hmem)
  · exact h

/-- What is in none of the pieces is in none of the lines. -/
theorem not_mem_of_mem_linesOfPieces {pieces : List (List Char)} {line : List Char} {c : Char}
    (hpieces : ∀ piece ∈ pieces, c ∉ piece) (h : line ∈ linesOfPieces pieces) : c ∉ line := by
  induction pieces using linesOfPieces.induct with
  | case1 => simp [linesOfPieces] at h
  | case2 => simp [linesOfPieces] at h
  | case3 last hlast =>
    rw [linesOfPieces, if_neg hlast, List.mem_singleton] at h
    exact h ▸ hpieces last (List.mem_singleton.mpr rfl)
  | case4 first next rest ih =>
    obtain ⟨hfirst, hrest⟩ := List.forall_mem_cons.mp hpieces
    rw [linesOfPieces] at h
    rcases List.mem_cons.mp h with rfl | h
    · exact not_mem_dropReturn hfirst
    · exact ih hrest h

/-- No line holds a line feed. -/
theorem not_mem_of_mem_lines {text line : List Char} (h : line ∈ lines text) : '\n' ∉ line :=
  not_mem_of_mem_linesOfPieces (fun _ => not_mem_of_mem_splitOn) h

end Text

namespace EnvFile

variable {line text : List Char} {lines : List (List Char)} {first : Nat}
  {found : List Directive} {complaints : List Notice}

/-- The line means nothing: without the blanks around it, it is empty or a comment. -/
def PassedOver (line : List Char) : Prop :=
  Text.trim line = [] ∨ ['#'] <+: Text.trim line

instance (line : List Char) : Decidable (PassedOver line) :=
  inferInstanceAs (Decidable (_ ∨ _))

theorem readAssignment_ne_nothing (line : List Char) : readAssignment line ≠ .nothing := by
  unfold readAssignment
  split
  · exact LineReading.noConfusion
  · dsimp only
    split <;> exact LineReading.noConfusion

/-- A line is read as nothing exactly if it is passed over. -/
theorem readLine_eq_nothing_iff : readLine line = .nothing ↔ PassedOver line := by
  refine ⟨fun h => ?_, readLine_eq_nothing⟩
  by_contra hline
  obtain ⟨hne, hcomment⟩ := not_or.mp hline
  cases himport : importTarget? (Text.trim line) with
  | some target =>
    rw [readLine_eq_importing himport] at h
    exact absurd h LineReading.noConfusion
  | none =>
    have himportWord := not_begins_importWord (Text.trimmed_trim line) himport
    rw [readLine_eq_readAssignment rfl hne hcomment himportWord] at h
    exact readAssignment_ne_nothing _ h

theorem readLines_of_oneLine (h : '\n' ∉ line) : readLines line = [readLine line] := by
  rw [readLines, Text.splitOn_of_not_mem h, List.map_singleton]

/-- A line by itself gives nothing if it is passed over, and otherwise either a directive and no
complaint, or a complaint and no directive. -/
theorem reading_cases (h : '\n' ∉ line) :
    (PassedOver line ∧ readLine line = .nothing ∧ directives line = [] ∧ notices line = []) ∨
      (¬ PassedOver line ∧ ∃ d, readLine line = .directive d ∧ directives line = [d] ∧
        notices line = []) ∨
      (¬ PassedOver line ∧ ∃ c, readLine line = .fault c ∧ directives line = [] ∧
        notices line = [⟨some 1, c⟩]) := by
  rw [← readLine_eq_nothing_iff, directives, notices, readLines_of_oneLine h]
  cases readLine line with
  | nothing => exact .inl ⟨rfl, rfl, rfl, rfl⟩
  | directive d => exact .inr (.inl ⟨LineReading.noConfusion, d, rfl, rfl, rfl⟩)
  | fault c => exact .inr (.inr ⟨LineReading.noConfusion, c, rfl, rfl, rfl⟩)

/-! ### Lines one after the other -/

/-- What is read of lines, of which the first has the number `first`: nothing of a line that is
passed over, and of any other line its directive, or its complaint under the number of the line. -/
inductive Accounts : (first : Nat) → (lines : List (List Char)) → List Directive → List Notice →
    Prop
  | nil {first : Nat} : Accounts first [] [] []
  | nothing {first : Nat} {line : List Char} {lines : List (List Char)} {found : List Directive}
      {complaints : List Notice} :
      PassedOver line → directives line = [] → notices line = [] →
      Accounts (first + 1) lines found complaints →
      Accounts first (line :: lines) found complaints
  | directive {first : Nat} {line : List Char} {lines : List (List Char)} {d : Directive}
      {found : List Directive} {complaints : List Notice} :
      ¬ PassedOver line → directives line = [d] → notices line = [] →
      Accounts (first + 1) lines found complaints →
      Accounts first (line :: lines) (d :: found) complaints
  | complaint {first : Nat} {line : List Char} {lines : List (List Char)} {c : Complaint}
      {found : List Directive} {complaints : List Notice} :
      ¬ PassedOver line → directives line = [] → notices line = [⟨some 1, c⟩] →
      Accounts (first + 1) lines found complaints →
      Accounts first (line :: lines) found (⟨some first, c⟩ :: complaints)

/-- The readings of lines account for them, whatever the number of the first one. -/
theorem accounts_of_oneLine (h : ∀ line ∈ lines, '\n' ∉ line) (first : Nat) :
    Accounts first lines ((lines.map readLine).filterMap LineReading.directive?)
      (noticesFrom first (lines.map readLine)) := by
  induction lines generalizing first with
  | nil => exact .nil
  | cons line lines ih =>
    obtain ⟨hline, hlines⟩ := List.forall_mem_cons.mp h
    have hrest := ih hlines (first + 1)
    rcases reading_cases hline with ⟨hpassed, hread, hdirectives, hnotices⟩ |
      ⟨hkept, d, hread, hdirectives, hnotices⟩ | ⟨hkept, c, hread, hdirectives, hnotices⟩
    · rw [List.map_cons, hread]
      exact .nothing hpassed hdirectives hnotices hrest
    · rw [List.map_cons, hread]
      exact .directive hkept hdirectives hnotices hrest
    · rw [List.map_cons, hread]
      exact .complaint hkept hdirectives hnotices hrest

/-- What is read of a text accounts for its lines, counted from one. -/
theorem accounts_lines (text : List Char) :
    Accounts 1 (Text.lines text) (directives text) (notices text) := by
  rw [directives_eq_lines, notices_eq_lines]
  exact accounts_of_oneLine (fun _ => Text.not_mem_of_mem_lines) 1

/-- There are as many directives and complaints as lines that are not passed over. -/
theorem Accounts.length_add_length (h : Accounts first lines found complaints) :
    found.length + complaints.length =
      (lines.filter fun line => ¬ PassedOver line).length := by
  induction h with
  | nil => rfl
  | nothing hpassed _ _ _ ih =>
    rw [List.filter_cons_of_neg (by simpa using hpassed)]
    exact ih
  | directive hkept _ _ _ ih =>
    rw [List.filter_cons_of_pos (by simpa using hkept), List.length_cons, List.length_cons]
    omega
  | complaint hkept _ _ _ ih =>
    rw [List.filter_cons_of_pos (by simpa using hkept), List.length_cons, List.length_cons]
    omega

/-- The complaints have the numbers of lines, and each is about a line further down than the one
before it. -/
theorem Accounts.exists_numbers (h : Accounts first lines found complaints) :
    ∃ numbers : List Nat, complaints.map Notice.line = numbers.map some ∧
      numbers.Pairwise (· < ·) ∧ ∀ n ∈ numbers, first ≤ n ∧ n < first + lines.length := by
  induction h with
  | nil => exact ⟨[], rfl, .nil, by simp⟩
  | nothing _ _ _ _ ih | directive _ _ _ _ ih =>
    obtain ⟨numbers, hnumbers, hincreasing, hbounds⟩ := ih
    refine ⟨numbers, hnumbers, hincreasing, fun n hn => ?_⟩
    obtain ⟨hle, hlt⟩ := hbounds n hn
    rw [List.length_cons]
    omega
  | @complaint first _ _ _ _ _ _ _ _ _ ih =>
    obtain ⟨numbers, hnumbers, hincreasing, hbounds⟩ := ih
    have hlater : ∀ n ∈ numbers, first < n := fun n hn => (hbounds n hn).1
    refine ⟨first :: numbers, ?_, List.pairwise_cons.mpr ⟨hlater, hincreasing⟩, fun n hn => ?_⟩
    · rw [List.map_cons, hnumbers, List.map_cons]
    · rw [List.length_cons]
      rcases List.mem_cons.mp hn with rfl | hn
      · omega
      · obtain ⟨hle, hlt⟩ := hbounds n hn
        omega

/-- Every line of a text gives nothing, a directive or a complaint: nothing exactly if it is blank
or a comment, and what it gives by itself in any case.  The directives are in the order of the
lines, the complaints have numbers of lines that go up, and there are as many of both together as
lines that are not passed over.  A key is not empty, has no blanks at its ends and neither an `=`
nor a line feed in it; a value has no line feed; and a target is not empty and has no blanks at its
ends and no line feed. -/
theorem accounts_for_every_line (text : List Char) :
    Accounts 1 (Text.lines text) (directives text) (notices text) ∧
      (∃ numbers : List Nat, (notices text).map Notice.line = numbers.map some ∧
        numbers.Pairwise (· < ·) ∧ ∀ n ∈ numbers, 1 ≤ n ∧ n ≤ (Text.lines text).length) ∧
      (directives text).length + (notices text).length =
        ((Text.lines text).filter fun line => ¬ PassedOver line).length ∧
      (∀ key value, .assignment key value ∈ directives text →
        IsKey key.toList ∧ '\n' ∉ value.toList) ∧
      ∀ target, .importing target ∈ directives text → IsTarget target.toList := by
  have haccounts := accounts_lines text
  obtain ⟨numbers, hnumbers, hincreasing, hbounds⟩ := haccounts.exists_numbers
  refine ⟨haccounts, ⟨numbers, hnumbers, hincreasing, fun n hn => ?_⟩,
    haccounts.length_add_length, ?_, ?_⟩
  · obtain ⟨hle, hlt⟩ := hbounds n hn
    omega
  · intro key value hmem
    exact isKey_of_mem_directives hmem
  · intro target hmem
    exact isTarget_of_mem_directives hmem

/-- Lines of every kind, with ends of both kinds and blanks of several. -/
def mixedText : List Char :=
  ("# a\n" ++ "\t\n" ++ "export K = 'v'\r\n" ++ " =x\n" ++ "import \u3000t\u00a0\n" ++
    "nope").toList

/-- Of the six lines two are passed over, two give directives, and the fourth and the last one give
complaints. -/
theorem accounts_for_mixedText :
    ∃ numbers : List Nat, (notices mixedText).map Notice.line = numbers.map some ∧
      numbers.Pairwise (· < ·) ∧ numbers = [4, 6] ∧
      (directives mixedText).length + (notices mixedText).length = 4 ∧
      .assignment "K" "v" ∈ directives mixedText ∧ IsKey "K".toList ∧
      .importing "t" ∈ directives mixedText ∧ IsTarget "t".toList := by
  obtain ⟨-, ⟨numbers, hnumbers, hincreasing, -⟩, hlength, hkeys, htargets⟩ :=
    accounts_for_every_line mixedText
  have hlines : (notices mixedText).map Notice.line = [some 4, some 6] := by decide +kernel
  have hkept : ((Text.lines mixedText).filter fun line => ¬ PassedOver line).length = 4 := by
    decide +kernel
  have hassignment : .assignment "K" "v" ∈ directives mixedText := by decide +kernel
  have himport : .importing "t" ∈ directives mixedText := by decide +kernel
  have hexactly : numbers = [4, 6] := by
    have hsome : numbers.map some = [4, 6].map some := hnumbers.symm.trans hlines
    exact (List.map_inj_right fun _ _ => Option.some.inj).mp hsome
  exact ⟨numbers, hnumbers, hincreasing, hexactly, hlength.trans hkept, hassignment,
    (hkeys "K" "v" hassignment).1, himport, htargets "t" himport⟩

end EnvFile

end LayeredEnv
