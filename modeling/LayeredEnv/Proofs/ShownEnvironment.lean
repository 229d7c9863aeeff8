import LayeredEnv.CommandLine.Perform
import LayeredEnv.Proofs.RenderedFiles

/-!
# A printed environment read back

In the plain format a variable is printed with nothing but `=` between its name and its value, and
nothing is escaped.  So some variables come back from their lines as they were and some do not, and
`EnvFile.IsPlain` tells which.

Of all the ways to write an assignment down (`EnvFile.SpellsLine`) the plain one is the shortest: an
export word, quotes and padding only make a line longer.  A line of that length which is read as the
assignment is therefore written without any of them (`EnvFile.SpellsLine.isPlain`), and what the
grammar asks of such a line is what is asked of the variable.  Printed variables stay on lines of
their own, so the whole output comes back exactly if each of its variables does.

Main statement: `CommandLine.shows_faithfully_iff`.
-/

namespace LayeredEnv

/-- A list that is shortened by a filter to the length that it had is not shortened anywhere. -/
theorem eq_some_of_filterMap_eq_map {α : Type u} {β : Type v} {f : α → Option β} {g : α → β}
    {l : List α} (h : l.filterMap f = l.map g) : ∀ a ∈ l, f a = some (g a) := by
  induction l with
  | nil => simp
  | cons a rest ih =>
    rw [List.filterMap_cons, List.map_cons] at h
    cases ha : f a with
    | none =>
      have hlength := congrArg List.length h
      have hle := List.length_filterMap_le f rest
      simp only [ha, List.length_cons, List.length_map] at hlength
      omega
    | some b =>
      rw [ha] at h
      obtain ⟨rfl, hrest⟩ := List.cons.inj h
      exact List.forall_mem_cons.mpr ⟨ha, ih hrest⟩

namespace EnvFile

variable {key value : String} {line text : List Char}

/-- The line with a key and a value on it and nothing between them but `=`. -/
def assignmentLine (key value : String) : List Char :=
  key.toList ++ '=' :: value.toList

/-- A key and a value that come back from the line on which they are joined by `=`: the key may be
assigned to and does not begin like a comment, an export or an import, and the value is a text on
one line, without blanks at its ends, that does not stand between two like quotes. -/
structure IsPlain (key value : List Char) : Prop where
  isKey : IsKey key
  unmarked : ∀ marker, Marker marker → ¬ marker <+: key
  oneLine : '\n' ∉ value
  trimmed : Text.Trimmed value
  unquoted : ∀ quote inner, isQuote quote = true → value ≠ quote :: (inner ++ [quote])

/-! ### Deciding what is plain -/

/-- A key has no marker exactly if it begins with neither of the two fixed ones, nor with the word
of an import directive and a blank behind it. -/
theorem unmarked_iff {key : List Char} :
    (∀ marker, Marker marker → ¬ marker <+: key) ↔
      ¬ ['#'] <+: key ∧ ¬ exportWord <+: key ∧
        (((Text.dropStart? importWord key).bind List.head?).all
          fun c => !Text.isBlank c) = true := by
  constructor
  · intro h
    refine ⟨h _ .comment, h _ .exporting, (Option.all_eq_true _ _).mpr fun c hc => ?_⟩
    obtain ⟨rest, hrest, hhead⟩ := Option.bind_eq_some_iff.mp hc
    obtain ⟨rest, rfl⟩ := List.head?_eq_some_iff.mp hhead
    have hbegins : importWord ++ [c] <+: key :=
      ⟨rest, by rw [Text.dropStart?_eq_some_iff.mp hrest]; simp⟩
    simpa using fun hblank => h _ (.importing hblank) hbegins
  · rintro ⟨hcomment, hexport, himport⟩ marker hmarker hbegins
    cases hmarker with
    | comment => exact hcomment hbegins
    | exporting => exact hexport hbegins
    | @importing c hblank =>
      obtain ⟨rest, rfl⟩ := hbegins
      have hdrop : Text.dropStart? importWord (importWord ++ [c] ++ rest) = some (c :: rest) :=
        Text.dropStart?_eq_some_iff.mpr (by simp)
      rw [hdrop] at himport
      simp [hblank] at himport

/-- A value that does not stand between two like quotes is one that keeps what it has. -/
theorem unquoted_iff {value : List Char} :
    (∀ quote inner, isQuote quote = true → value ≠ quote :: (inner ++ [quote])) ↔
      stripQuotes value = value := by
  constructor
  · exact stripQuotes_of_unquoted
  · rintro h quote inner hquote rfl
    have hlength := congrArg List.length ((stripQuotes_quoted hquote).symm.trans h)
    simp only [List.length_cons, List.length_append, List.length_nil] at hlength
    omega

theorem isPlain_iff {key value : List Char} :
    IsPlain key value ↔
      (key ≠ [] ∧ '=' ∉ key ∧ '\n' ∉ key ∧ Text.Trimmed key) ∧
      (¬ ['#'] <+: key ∧ ¬ exportWord <+: key ∧
        (((Text.dropStart? importWord key).bind List.head?).all
          fun c => !Text.isBlank c) = true) ∧
      '\n' ∉ value ∧ Text.Trimmed value ∧ stripQuotes value = value := by
  rw [← unmarked_iff, ← unquoted_iff]
  constructor
  · rintro ⟨⟨hne, hequals, hline, htrimmed⟩, hmarker, hvalue, hvalueTrimmed, hunquoted⟩
    exact ⟨⟨hne, hequals, hline, htrimmed⟩, hmarker, hvalue, hvalueTrimmed, hunquoted⟩
  · rintro ⟨⟨hne, hequals, hline, htrimmed⟩, hmarker, hvalue, hvalueTrimmed, hunquoted⟩
    exact ⟨⟨hne, hequals, hline, htrimmed⟩, hmarker, hvalue, hvalueTrimmed, hunquoted⟩

instance (key value : List Char) : Decidable (IsPlain key value) :=
  decidable_of_iff' _ isPlain_iff

/-! ### The shortest spelling -/

/-- A value is not spelled in fewer characters than it has, and in as many as it is. -/
theorem SpellsValue.cases_length {value spelled : List Char} (h : SpellsValue value spelled) :
    value.length < spelled.length ∨ spelled = value ∧ Text.Trimmed value ∧
      ∀ quote inner, isQuote quote = true → value ≠ quote :: (inner ++ [quote]) := by
  cases h with
  | quoted hquote hvalue =>
    left
    simp only [List.length_cons, List.length_append, List.length_nil]
    omega
  | bare hvalue htrimmed hunquoted => exact .inr ⟨rfl, htrimmed, hunquoted⟩

/-- An assignment that is written on a line no longer than the plain one is written as that one. -/
theorem SpellsLine.isPlain (h : SpellsLine (.directive (.assignment key value)) line)
    (hlength : line.length ≤ (assignmentLine key value).length) :
    IsPlain key.toList value.toList := by
  obtain ⟨hleft, hitem, hright⟩ := h
  cases hitem with
  | @assignment _ _ before after spelled hkey hbefore hafter hvalue hmarker =>
    simp only [assignmentLine, List.length_append, List.length_cons] at hlength
    rcases hvalue.cases_length with hlonger | ⟨rfl, htrimmed, hunquoted⟩
    · omega
    · obtain rfl : before = [] := List.eq_nil_of_length_eq_zero (by omega)
      rw [List.append_nil] at hmarker
      exact ⟨hkey, hmarker, hvalue.oneLine_value, htrimmed, hunquoted⟩
  | exported hkey hstart hbefore hafter hvalue =>
    have hvalueLength : value.toList.length ≤ _ :=
      hvalue.cases_length.elim Nat.le_of_lt fun h => h.1.symm ▸ le_rfl
    simp only [assignmentLine, exportWord, List.length_append, List.length_cons,
      List.length_nil] at hlength
    omega

/-- The plain line of a key and a value that come back from it is one of the ways to write them. -/
theorem IsPlain.spellsLine (h : IsPlain key.toList value.toList) :
    SpellsLine (.directive (.assignment key value)) (assignmentLine key value) := by
  have hempty : Padding [] := by decide
  have hmarker : ∀ marker, Marker marker → ¬ marker <+: key.toList ++ [] := by
    rw [List.append_nil]
    exact h.unmarked
  have hspells := SpellsLine.intro hempty (.assignment h.isKey hempty hempty
    (.bare h.oneLine h.trimmed h.unquoted) hmarker) hempty
  simpa [assignmentLine] using hspells

/-- A plain line that is read as its key and its value is written as the grammar asks. -/
theorem isPlain_of_readLine (hline : '\n' ∉ assignmentLine key value)
    (h : readLine (assignmentLine key value) = .directive (.assignment key value)) :
    IsPlain key.toList value.toList :=
  (spellsLine_of_readLine hline h).isPlain le_rfl

/-! ### Texts -/

/-- What a text assigns stays on its line. -/
theorem oneLine_of_mem_directives (h : .assignment key value ∈ directives text) :
    '\n' ∉ assignmentLine key value := by
  obtain ⟨hkey, hvalue⟩ := isKey_of_mem_directives h
  simp [assignmentLine, hkey.oneLine, hvalue]

/-- The plain line is read as its key and its value, without a complaint, exactly if these are
plain. -/
theorem reads_assignmentLine_iff :
    directives (assignmentLine key value) = [.assignment key value] ∧
        notices (assignmentLine key value) = [] ↔
      IsPlain key.toList value.toList := by
  constructor
  · rintro ⟨hdirectives, hnotices⟩
    have hline : '\n' ∉ assignmentLine key value :=
      oneLine_of_mem_directives (by rw [hdirectives]; simp)
    rw [directives, readLines, Text.splitOn_of_not_mem hline] at hdirectives
    refine isPlain_of_readLine hline (eq_directive_of_directive? ?_)
    cases hread : (readLine (assignmentLine key value)).directive? <;> simp_all
  · intro h
    have hrenders := Renders.last h.spellsLine
    exact ⟨hrenders.directives_eq, hrenders.notices_eq_nil⟩

/-- The plain lines of variables, one after the other. -/
def assignmentLines (pairs : List (String × String)) : List Char :=
  pairs.flatMap fun p => assignmentLine p.1 p.2 ++ ['\n']

/-- The assignments of variables. -/
def assignments (pairs : List (String × String)) : List Directive :=
  pairs.map fun p => .assignment p.1 p.2

variable {pairs : List (String × String)}

/-- Each of the lines is read by itself. -/
theorem readLines_assignmentLines (h : ∀ p ∈ pairs, '\n' ∉ assignmentLine p.1 p.2) :
    readLines (assignmentLines pairs) =
      pairs.map (fun p => readLine (assignmentLine p.1 p.2)) ++ [.nothing] := by
  induction pairs with
  | nil => decide
  | cons p rest ih =>
    obtain ⟨hp, hrest⟩ := List.forall_mem_cons.mp h
    have hsplit : assignmentLines (p :: rest) =
        assignmentLine p.1 p.2 ++ '\n' :: assignmentLines rest := by
      simp [assignmentLines]
    rw [hsplit, readLines, Text.splitOn_append_cons hp, List.map_cons, ← readLines, ih hrest,
      List.map_cons, List.cons_append]

/-- The lines of plain variables render them. -/
theorem renders_assignmentLines (h : ∀ p ∈ pairs, IsPlain p.1.toList p.2.toList) :
    Renders ((assignments pairs).map .directive) (assignmentLines pairs) := by
  induction pairs with
  | nil => exact .nil
  | cons p rest ih =>
    obtain ⟨hp, hrest⟩ := List.forall_mem_cons.mp h
    exact .cons hp.spellsLine .lineFeed (ih hrest)

/-- The lines of variables are read as these, without a complaint, exactly if all of them are plain.
-/
theorem reads_assignmentLines_iff :
    directives (assignmentLines pairs) = assignments pairs ∧
        notices (assignmentLines pairs) = [] ↔
      ∀ p ∈ pairs, IsPlain p.1.toList p.2.toList := by
  constructor
  · rintro ⟨hdirectives, hnotices⟩
    have hlines : ∀ p ∈ pairs, '\n' ∉ assignmentLine p.1 p.2 := fun p hp =>
      oneLine_of_mem_directives (by
        rw [hdirectives]
        exact List.mem_map.mpr ⟨p, hp, rfl⟩)
    rw [directives, readLines_assignmentLines hlines, List.filterMap_append,
      List.filterMap_map] at hdirectives
    intro p hp
    have hread := eq_some_of_filterMap_eq_map ((List.append_nil _).symm.trans hdirectives) p hp
    exact isPlain_of_readLine (hlines p hp) (eq_directive_of_directive? hread)
  · intro h
    have hrenders := renders_assignmentLines h
    refine ⟨?_, hrenders.notices_eq_nil⟩
    rw [hrenders.directives_eq, List.filterMap_map]
    exact List.filterMap_some

end EnvFile

namespace CommandLine

/-- What is printed of an environment are the plain lines of its variables. -/
theorem toList_plainText (r : Resolution) :
    (plainText false r).toList = EnvFile.assignmentLines r.environment := by
  simp [plainText, plainLine, EnvFile.assignmentLines, EnvFile.assignmentLine,
    Resolution.environment, Resolution.values, KeyMap.map, KeyMap.mapWithKey, List.flatMap_map]

/-- The variables of strings are the strings. -/
theorem environment_of_strings {r : Resolution} {strings : KeyMap String}
    (h : r.values = strings.map .string) : r.environment = strings.entries := by
  have hdisplay : ∀ s, (Json.string s).display = s := fun _ => rfl
  simp [Resolution.environment, h, KeyMap.map, KeyMap.mapWithKey, Function.comp_def, hdisplay]

/-- A line of a key and a value with `=` between them is read as these, without a complaint, exactly
if they are plain.  What is printed of strings is read as these, in key order and without a
complaint, exactly if all of them are plain. -/
theorem shows_faithfully_iff :
    (∀ key value : String,
      EnvFile.directives (key ++ "=" ++ value).toList = [.assignment key value] ∧
          EnvFile.notices (key ++ "=" ++ value).toList = [] ↔
        EnvFile.IsPlain key.toList value.toList) ∧
      ∀ (r : Resolution) (strings : KeyMap String), r.values = strings.map .string →
        ∃ text, (∀ launch tree environment,
            finish launch tree environment r (.print .plain false) = ended tree 0 text "") ∧
          (EnvFile.directives text.toList =
                (strings.entries.map fun p => .assignment p.1 p.2) ∧
              EnvFile.notices text.toList = [] ↔
            ∀ p ∈ strings.entries, EnvFile.IsPlain p.1.toList p.2.toList) := by
  constructor
  · intro key value
    have hline : (key ++ "=" ++ value).toList = EnvFile.assignmentLine key value := by
      simp [EnvFile.assignmentLine]
    rw [hline]
    exact EnvFile.reads_assignmentLine_iff
  · intro r strings hstrings
    refine ⟨plainText false r, fun launch tree environment => rfl, ?_⟩
    rw [toList_plainText, environment_of_strings hstrings]
    exact EnvFile.reads_assignmentLines_iff

/-- Strings that look like something else: a comment and another assignment in a value, a quote, and
an empty one under a key that begins like an import. -/
def lookalikeStrings : KeyMap String :=
  KeyMap.ofList [("A B", "#1=x"), ("export", "\""), ("importer", "")]

/-- The strings as they are resolved. -/
def lookalikeResolution : Resolution where
  bindings := lookalikeStrings.map fun s => ⟨.string s, .environment⟩
  layers := []
  mode := none

/-- All of them come back from what is printed. -/
theorem shows_lookalikeStrings :
    lookalikeResolution.values = lookalikeStrings.map .string ∧
      (∀ p ∈ lookalikeStrings.entries, EnvFile.IsPlain p.1.toList p.2.toList) ∧
      ∃ text, (∀ launch tree environment,
          finish launch tree environment lookalikeResolution (.print .plain false) =
            ended tree 0 text "") ∧
        EnvFile.directives text.toList =
          [.assignment "A B" "#1=x", .assignment "export" "\"", .assignment "importer" ""] ∧
        EnvFile.notices text.toList = [] := by
  have hentries : lookalikeStrings.entries =
      [("A B", "#1=x"), ("export", "\""), ("importer", "")] := by
    decide +kernel
  have hvalues : lookalikeResolution.values = lookalikeStrings.map .string :=
    KeyMap.ext_get? fun key => by simp [lookalikeResolution, Resolution.values, Function.comp_def]
  have hplain : ∀ p ∈ lookalikeStrings.entries,
      EnvFile.IsPlain p.1.toList p.2.toList := by
    rw [hentries]
    decide +kernel
  obtain ⟨text, htext, hback⟩ := shows_faithfully_iff.2 _ _ hvalues
  obtain ⟨hdirectives, hnotices⟩ := hback.mpr hplain
  rw [hentries] at hdirectives
  exact ⟨hvalues, hplain, text, htext, hdirectives, hnotices⟩

end CommandLine

end LayeredEnv
