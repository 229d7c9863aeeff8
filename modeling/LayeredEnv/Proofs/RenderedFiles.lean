import LayeredEnv.EnvFile
import LayeredEnv.Proofs.Trimming

/-!
# Env files read back

An env file is a list of items, and there are many ways to write it down: padding goes around
everything, a value may be in quotes, an assignment may be announced as an export, and a line ends
in a line feed with or without a carriage return.  `EnvFile.Renders` is the grammar of all of them.

A line is read by the first rule that takes it, so what a line means depends on how it begins.
What stands before the `=` of an assignment, the key and the padding after it, must not begin with
an `EnvFile.Marker`, since such a line is a comment, an import directive, or an assignment to what
comes after the marker; behind the export word nothing is kept out.  The grammar leaves out no more
than it has to: a text is read without a complaint exactly if it renders some items
(`EnvFile.notices_eq_nil_iff`).

Main statement: `EnvFile.reads_rendering_back`.
-/

namespace LayeredEnv

namespace EnvFile

variable {line spelled : List Char} {item : Item}

/-! ### The grammar -/

/-- Blanks that stay on their line. -/
def Padding (s : List Char) : Prop :=
  ∀ c ∈ s, Text.isBlank c = true ∧ c ≠ '\n'

instance (s : List Char) : Decidable (Padding s) :=
  List.decidableBAll _ s

/-- The beginnings of a line that keep it from assigning to what stands before its `=`. -/
inductive Marker : List Char → Prop
  | comment : Marker ['#']
  | exporting : Marker exportWord
  | importing {c : Char} : Text.isBlank c = true → Marker (importWord ++ [c])

/-- A text that may be assigned to. -/
structure IsKey (key : List Char) : Prop where
  nonempty : key ≠ []
  noEquals : '=' ∉ key
  oneLine : '\n' ∉ key
  trimmed : Text.Trimmed key

/-- A text that may be imported. -/
structure IsTarget (target : List Char) : Prop where
  nonempty : target ≠ []
  oneLine : '\n' ∉ target
  trimmed : Text.Trimmed target

/-- The ways to write a value. -/
inductive SpellsValue : (value spelled : List Char) → Prop
  /-- Between two quotes, any text on one line. -/
  | quoted {quote : Char} {value : List Char} : isQuote quote = true → '\n' ∉ value →
      SpellsValue value (quote :: (value ++ [quote]))
  /-- As it is, a text that would lose nothing. -/
  | bare {value : List Char} : '\n' ∉ value → Text.Trimmed value →
      (∀ quote inner, isQuote quote = true → value ≠ quote :: (inner ++ [quote])) →
      SpellsValue value value

/-- What may stand on a line. -/
inductive Item
  | directive (d : Directive)
  | comment (text : String)
  | blank
  deriving DecidableEq, Repr

/-- What a line with the item on it means. -/
def Item.reading : Item → LineReading
  | .directive d => .directive d
  | .comment _ => .nothing
  | .blank => .nothing

/-- The directive that the item is, if it is one. -/
def Item.directive? : Item → Option Directive
  | .directive d => some d
  | .comment _ => none
  | .blank => none

/-- The ways to write an item, without the padding around it. -/
inductive SpellsItem : Item → List Char → Prop
  | blank : SpellsItem .blank []
  | comment {text : String} : '\n' ∉ text.toList → SpellsItem (.comment text) ('#' :: text.toList)
  | importing {target : String} {gap : List Char} : IsTarget target.toList → Padding gap →
      gap ≠ [] → SpellsItem (.directive (.importing target)) (importWord ++ gap ++ target.toList)
  /-- An assignment by itself, which must not be taken for something else. -/
  | assignment {key value : String} {beforeEquals afterEquals spelled : List Char} :
      IsKey key.toList → Padding beforeEquals → Padding afterEquals →
      SpellsValue value.toList spelled →
      (∀ marker, Marker marker → ¬ marker <+: key.toList ++ beforeEquals) →
      SpellsItem (.directive (.assignment key value))
        (key.toList ++ beforeEquals ++ '=' :: (afterEquals ++ spelled))
  /-- An assignment after the export word. -/
  | exported {key value : String} {beforeKey beforeEquals afterEquals spelled : List Char} :
      IsKey key.toList → Padding beforeKey → Padding beforeEquals → Padding afterEquals →
      SpellsValue value.toList spelled →
      SpellsItem (.directive (.assignment key value))
        (exportWord ++ (beforeKey ++ key.toList ++ beforeEquals) ++
          '=' :: (afterEquals ++ spelled))

/-- The ways to write a line with an item on it. -/
inductive SpellsLine (item : Item) : List Char → Prop
  | intro {left spelled right : List Char} : Padding left → SpellsItem item spelled →
      Padding right → SpellsLine item (left ++ spelled ++ right)

/-- What may stand at the end of a line. -/
inductive Terminator : List Char → Prop
  | lineFeed : Terminator ['\n']
  | carriageReturn : Terminator ['\r', '\n']

/-- The ways to write a file with items on its lines, of which the last need not be ended. -/
inductive Renders : List Item → List Char → Prop
  | nil : Renders [] []
  | last {item : Item} {line : List Char} : SpellsLine item line → Renders [item] line
  | cons {item : Item} {items : List Item} {line terminator text : List Char} :
      SpellsLine item line → Terminator terminator → Renders items text →
      Renders (item :: items) (line ++ terminator ++ text)

/-! ### Values and keys -/

theorem Padding.blank {s : List Char} (h : Padding s) : ∀ c ∈ s, Text.isBlank c = true :=
  fun c hc => (h c hc).1

theorem Padding.oneLine {s : List Char} (h : Padding s) : '\n' ∉ s :=
  fun hmem => (h '\n' hmem).2 rfl

theorem Padding.noEquals {s : List Char} (h : Padding s) : '=' ∉ s :=
  fun hmem => absurd (h '=' hmem).1 (by decide)

theorem Padding.append {s t : List Char} (hs : Padding s) (ht : Padding t) : Padding (s ++ t) :=
  fun c hc => (List.mem_append.mp hc).elim (hs c) (ht c)

theorem isBlank_of_isQuote {quote : Char} (h : isQuote quote = true) :
    Text.isBlank quote = false := by
  unfold isQuote at h
  rcases (by simpa using h : quote = '"' ∨ quote = '\'') with rfl | rfl <;> decide

/-- A spelled value has no blank at its ends. -/
theorem SpellsValue.trimmed {value : List Char} (h : SpellsValue value spelled) :
    Text.Trimmed spelled := by
  cases h with
  | quoted hquote hvalue =>
    have hblank := isBlank_of_isQuote hquote
    refine ⟨by simpa using hblank, ?_⟩
    rw [← List.cons_append, List.getLast?_concat]
    simpa using hblank
  | bare hvalue htrimmed hunquoted => exact htrimmed

theorem SpellsValue.oneLine {value : List Char} (h : SpellsValue value spelled) :
    '\n' ∉ spelled := by
  cases h with
  | @quoted quote _ hquote hvalue =>
    have hne : '\n' ≠ quote := by
      rintro rfl
      exact absurd hquote (by decide)
    simp [hvalue, hne]
  | bare hvalue htrimmed hunquoted => exact hvalue

theorem stripQuotes_quoted {quote : Char} {inner : List Char} (hquote : isQuote quote = true) :
    stripQuotes (quote :: (inner ++ [quote])) = inner := by
  rw [stripQuotes, hquote, List.getLast?_concat, List.dropLast_concat]
  simp

/-- A text stands between two like quotes and loses them, or it does not and is left as it is. -/
theorem stripQuotes_cases (value : List Char) :
    (∃ quote inner, isQuote quote = true ∧ value = quote :: (inner ++ [quote]) ∧
        stripQuotes value = inner) ∨
      (∀ quote inner, isQuote quote = true → value ≠ quote :: (inner ++ [quote])) ∧
        stripQuotes value = value := by
  cases value with
  | nil => exact .inr ⟨by simp, rfl⟩
  | cons c rest =>
    rw [stripQuotes]
    split
    · next hpair =>
      left
      obtain ⟨hquote, hlast⟩ := Bool.and_eq_true_iff.mp hpair
      have hrest : rest.dropLast ++ [c] = rest :=
        List.dropLast_append_getLast? c (by simpa using hlast)
      exact ⟨c, rest.dropLast, hquote, by rw [hrest], rfl⟩
    · next hpair =>
      right
      refine ⟨fun quote inner hquote heq => hpair ?_, rfl⟩
      obtain ⟨rfl, rfl⟩ := List.cons.inj heq
      simp [hquote]

theorem stripQuotes_of_unquoted {value : List Char}
    (h : ∀ quote inner, isQuote quote = true → value ≠ quote :: (inner ++ [quote])) :
    stripQuotes value = value := by
  rcases stripQuotes_cases value with ⟨quote, inner, hquote, heq, -⟩ | ⟨-, hsame⟩
  · exact absurd heq (h quote inner hquote)
  · exact hsame

/-- A spelled value is read back, in quotes or not. -/
theorem SpellsValue.stripQuotes_eq {value : List Char} (h : SpellsValue value spelled) :
    stripQuotes spelled = value := by
  cases h with
  | quoted hquote hvalue => exact stripQuotes_quoted hquote
  | bare hvalue htrimmed hunquoted => exact stripQuotes_of_unquoted hunquoted

/-! ### Lines -/

theorem SpellsItem.oneLine (h : SpellsItem item spelled) : '\n' ∉ spelled := by
  cases h with
  | blank => exact List.not_mem_nil
  | comment htext => simpa using htext
  | importing htarget hgap hne =>
    simp [importWord, hgap.oneLine, htarget.oneLine]
  | assignment hkey hbefore hafter hvalue hmarker =>
    simp [hkey.oneLine, hbefore.oneLine, hafter.oneLine, hvalue.oneLine]
  | exported hkey hstart hbefore hafter hvalue =>
    simp [exportWord, hkey.oneLine, hstart.oneLine, hbefore.oneLine, hafter.oneLine,
      hvalue.oneLine]

theorem SpellsLine.oneLine (h : SpellsLine item line) : '\n' ∉ line := by
  obtain ⟨hleft, hitem, hright⟩ := h
  simp [hleft.oneLine, hitem.oneLine, hright.oneLine]

/-- Padding after a line is padding on it. -/
theorem SpellsLine.append_padding {more : List Char} (h : SpellsLine item line)
    (hmore : Padding more) : SpellsLine item (line ++ more) := by
  obtain ⟨hleft, hitem, hright⟩ := h
  rw [List.append_assoc]
  exact ⟨hleft, hitem, hright.append hmore⟩

/-- A line that does not begin with the import word and a blank imports nothing. -/
theorem importTarget?_eq_none (h : ∀ c, Text.isBlank c = true → ¬ importWord ++ [c] <+: line) :
    importTarget? line = none := by
  unfold importTarget?
  split
  · next c rest hdrop =>
    refine if_neg fun hblank => h c (Bool.and_eq_true_iff.mp hblank).1 ?_
    rw [Text.dropStart?_eq_some_iff.mp hdrop]
    exact ⟨rest, by simp⟩
  · rfl

/-- A line imports what is left after the import word and the blanks after it. -/
theorem importTarget?_eq_some_iff {target : List Char} :
    importTarget? line = some target ↔
      ∃ c rest, Text.isBlank c = true ∧ line = importWord ++ c :: rest ∧
        Text.trimStart rest = target ∧ target ≠ [] := by
  constructor
  · intro h
    unfold importTarget? at h
    split at h
    · next c rest hdrop =>
      obtain ⟨htest, htarget⟩ := Option.ite_none_right_eq_some.mp h
      obtain rfl := Option.some.inj htarget
      obtain ⟨hblank, hne⟩ := Bool.and_eq_true_iff.mp htest
      exact ⟨c, rest, hblank, Text.dropStart?_eq_some_iff.mp hdrop, rfl, by simpa using hne⟩
    · simp at h
  · rintro ⟨c, rest, hblank, hline, htarget, hne⟩
    rw [importTarget?, Text.dropStart?_eq_some_iff.mpr hline]
    simp [hblank, htarget, hne]

/-- A line that is empty or a comment once trimmed means nothing. -/
theorem readLine_eq_nothing {raw : List Char}
    (h : Text.trim raw = [] ∨ ['#'] <+: Text.trim raw) : readLine raw = .nothing := by
  rw [readLine]
  rcases h with h | ⟨rest, h⟩
  · simp [h]
  · simp [← h]

/-- A line with a target once trimmed imports it. -/
theorem readLine_eq_importing {raw target : List Char}
    (h : importTarget? (Text.trim raw) = some target) :
    readLine raw = .directive (.importing (String.ofList target)) := by
  obtain ⟨c, rest, -, hline, -, -⟩ := importTarget?_eq_some_iff.mp h
  have hi : ∃ rest, Text.trim raw = 'i' :: rest := ⟨_, hline⟩
  obtain ⟨rest, hrest⟩ := hi
  rw [readLine]
  simp only [h]
  simp [hrest]

/-- A line that is no comment and imports nothing is read as an assignment. -/
theorem readLine_eq_readAssignment {raw : List Char} (htrim : Text.trim raw = line)
    (hne : line ≠ []) (hcomment : ¬ ['#'] <+: line)
    (himport : ∀ c, Text.isBlank c = true → ¬ importWord ++ [c] <+: line) :
    readLine raw = readAssignment line := by
  have hhead : line.head? ≠ some '#' := fun hhash => by
    obtain ⟨rest, rfl⟩ := List.head?_eq_some_iff.mp hhash
    exact hcomment ⟨rest, rfl⟩
  simp [readLine, htrim, hne, hhead, importTarget?_eq_none himport]

/-- A marker that begins a line begins what stands before the `=`. -/
theorem Marker.prefix_before {marker before after : List Char} (h : Marker marker)
    (hbegins : marker <+: before ++ '=' :: after) : marker <+: before := by
  have hequals : '=' ∉ marker := by
    cases h with
    | comment => decide
    | exporting => decide
    | @importing c hblank =>
      have hne : '=' ≠ c := by
        rintro rfl
        exact absurd hblank (by decide)
      simp [importWord, hne]
  obtain ⟨rest, hrest⟩ := hbegins
  obtain ⟨tail, htail, -⟩ | ⟨more, hmore, hafter⟩ := List.append_eq_append_iff.mp hrest
  · exact ⟨tail, htail.symm⟩
  · cases more with
    | nil => exact ⟨[], by rw [hmore, List.append_nil, List.append_nil]⟩
    | cons c more =>
      -- the marker would hold the `=`
      obtain ⟨rfl, -⟩ := List.cons.inj hafter
      exact absurd (by simp [hmore]) hequals

/-- A spelled value is read back from among the padding around it. -/
theorem SpellsValue.read {value afterEquals right : List Char} (h : SpellsValue value spelled)
    (hafter : Padding afterEquals) (hright : Padding right) :
    stripQuotes (Text.trim (Text.trimEnd (afterEquals ++ spelled ++ right))) = value := by
  rw [Text.trim_trimEnd, Text.trim_padded hafter.blank h.trimmed hright.blank, h.stripQuotes_eq]

/-- A line that assigns to what stands before its `=`, once `start` is taken off. -/
theorem readLine_eq_assignment (start : List Char) {left before after right value : List Char}
    {key : String} (hleft : Padding left) (hkey : IsKey key.toList) (hequals : '=' ∉ before)
    (hbefore : Text.trim before = key.toList)
    (hhead : ∀ c ∈ (start ++ before).head?, Text.isBlank c = false)
    (hmarker : ∀ marker, Marker marker → marker ≠ exportWord → ¬ marker <+: start ++ before)
    (hstart : ∀ rest, (Text.dropStart? exportWord (start ++ before ++ '=' :: rest)).getD
      (start ++ before ++ '=' :: rest) = before ++ '=' :: rest)
    (hafter : stripQuotes (Text.trim (Text.trimEnd (after ++ right))) = value) :
    readLine (left ++ (start ++ before ++ '=' :: after) ++ right) =
      .directive (.assignment key (String.ofList value)) := by
  have hne : start ++ before ≠ [] := by
    rintro hnil
    rw [(List.append_eq_nil_iff.mp hnil).2] at hbefore
    exact hkey.nonempty hbefore.symm
  have htrim : Text.trim (left ++ (start ++ before ++ '=' :: after) ++ right) =
      start ++ before ++ '=' :: Text.trimEnd (after ++ right) := by
    rw [List.append_assoc, Text.trim_append_left hleft.blank, List.append_assoc, List.cons_append,
      Text.trim, Text.trimStart_of_head, Text.trimEnd_append_cons (by decide)]
    rw [List.head?_append_of_ne_nil _ hne]
    exact hhead
  have hnoMarker : ∀ marker, Marker marker → marker ≠ exportWord →
      ¬ marker <+: start ++ before ++ '=' :: Text.trimEnd (after ++ right) :=
    fun marker h hother hbegins => hmarker marker h hother (h.prefix_before hbegins)
  have himport : ∀ c, importWord ++ [c] ≠ exportWord := fun c heq => absurd (List.cons.inj heq).1
    (by decide)
  rw [readLine_eq_readAssignment htrim (by simp) (hnoMarker _ .comment (by decide))
    fun c hc => hnoMarker _ (.importing hc) (himport c)]
  rw [readAssignment, hstart, Text.cutAt?_append hequals]
  simp [hbefore, hkey.nonempty, hafter]

theorem readLine_blank {left right : List Char} (hleft : Padding left) (hright : Padding right) :
    readLine (left ++ [] ++ right) = .nothing := by
  have hempty : Text.Trimmed [] := ⟨by simp, by simp⟩
  exact readLine_eq_nothing (.inl (Text.trim_padded hleft.blank hempty hright.blank))

theorem readLine_comment {left text right : List Char} (hleft : Padding left) :
    readLine (left ++ '#' :: text ++ right) = .nothing := by
  have hhash : ∀ c ∈ ('#' :: text ++ right).head?, Text.isBlank c = false := by
    intro c hc
    obtain rfl : '#' = c := Option.some.inj hc
    decide
  refine readLine_eq_nothing (.inr ⟨Text.trimEnd (text ++ right), ?_⟩)
  rw [List.append_assoc, Text.trim_append_left hleft.blank, Text.trim,
    Text.trimStart_of_head hhash]
  exact (@Text.trimEnd_append_cons [] _ '#' (by decide)).symm

theorem readLine_importing {left gap right : List Char} {target : String} (hleft : Padding left)
    (htarget : IsTarget target.toList) (hgap : Padding gap) (hne : gap ≠ [])
    (hright : Padding right) :
    readLine (left ++ (importWord ++ gap ++ target.toList) ++ right) =
      .directive (.importing target) := by
  have htrimmed : Text.Trimmed (importWord ++ gap ++ target.toList) := by
    refine ⟨?_, ?_⟩
    · intro c hc
      obtain rfl : 'i' = c := Option.some.inj hc
      decide
    · rw [List.getLast?_append_of_ne_nil _ htarget.nonempty]
      exact htarget.trimmed.last
  obtain ⟨c, gap, rfl⟩ := List.exists_cons_of_ne_nil hne
  obtain ⟨hc, hgap⟩ := List.forall_mem_cons.mp hgap.blank
  have hrest : Text.trimStart (gap ++ target.toList) = target.toList := by
    rw [Text.trimStart_append hgap, Text.trimStart_of_head htarget.trimmed.head]
  have htrim : Text.trim (left ++ (importWord ++ c :: gap ++ target.toList) ++ right) =
      importWord ++ c :: (gap ++ target.toList) := by
    rw [Text.trim_padded hleft.blank htrimmed hright.blank, List.append_assoc, List.cons_append]
  rw [readLine_eq_importing (importTarget?_eq_some_iff.mpr
    ⟨c, _, hc, htrim, hrest, htarget.nonempty⟩), String.ofList_toList]

/-- Before an assignment by itself nothing is taken off. -/
theorem readLine_assignment {left beforeEquals afterEquals right : List Char} {key value : String}
    (hleft : Padding left) (hkey : IsKey key.toList) (hbefore : Padding beforeEquals)
    (hafter : Padding afterEquals) (hvalue : SpellsValue value.toList spelled)
    (hmarker : ∀ marker, Marker marker → ¬ marker <+: key.toList ++ beforeEquals)
    (hright : Padding right) :
    readLine (left ++ (key.toList ++ beforeEquals ++ '=' :: (afterEquals ++ spelled)) ++ right) =
      .directive (.assignment key value) := by
  have hbeforeTrim : Text.trim (key.toList ++ beforeEquals) = key.toList := by
    rw [Text.trim_append_right hbefore.blank, hkey.trimmed.trim_eq]
  have hhead : ∀ c ∈ (key.toList ++ beforeEquals).head?, Text.isBlank c = false := by
    rw [List.head?_append_of_ne_nil _ hkey.nonempty]
    exact hkey.trimmed.head
  have hstart : ∀ rest, Text.dropStart? exportWord
      (key.toList ++ beforeEquals ++ '=' :: rest) = none := fun rest =>
    Text.dropStart?_eq_none_iff.mpr fun hbegins =>
      hmarker _ .exporting (Marker.exporting.prefix_before hbegins)
  have hread := readLine_eq_assignment [] hleft hkey (by simp [hkey.noEquals, hbefore.noEquals])
    hbeforeTrim hhead (fun marker h _ => hmarker marker h)
    (fun rest => by rw [List.nil_append, hstart]; rfl) (hvalue.read hafter hright)
  rwa [String.ofList_toList] at hread

/-- Before an exported assignment the export word is taken off, and it lets no other marker
through. -/
theorem readLine_exported {left beforeKey beforeEquals afterEquals right : List Char}
    {key value : String} (hleft : Padding left) (hkey : IsKey key.toList)
    (hstart : Padding beforeKey) (hbefore : Padding beforeEquals) (hafter : Padding afterEquals)
    (hvalue : SpellsValue value.toList spelled) (hright : Padding right) :
    readLine (left ++ (exportWord ++ (beforeKey ++ key.toList ++ beforeEquals) ++
      '=' :: (afterEquals ++ spelled)) ++ right) = .directive (.assignment key value) := by
  have hbeforeTrim : Text.trim (beforeKey ++ key.toList ++ beforeEquals) = key.toList :=
    Text.trim_padded hstart.blank hkey.trimmed hbefore.blank
  have hhead : ∀ c ∈ (exportWord ++ (beforeKey ++ key.toList ++ beforeEquals)).head?,
      Text.isBlank c = false := by
    intro c hc
    obtain rfl : 'e' = c := Option.some.inj hc
    decide
  have hmarker : ∀ marker, Marker marker → marker ≠ exportWord →
      ¬ marker <+: exportWord ++ (beforeKey ++ key.toList ++ beforeEquals) := by
    rintro marker (_ | _ | _) hother ⟨rest, hrest⟩
    · exact absurd (List.cons.inj hrest).1 (by decide)
    · exact hother rfl
    · exact absurd (List.cons.inj hrest).1 (by decide)
  have hdrop : ∀ rest, (Text.dropStart? exportWord
      (exportWord ++ (beforeKey ++ key.toList ++ beforeEquals) ++ '=' :: rest)).getD
        (exportWord ++ (beforeKey ++ key.toList ++ beforeEquals) ++ '=' :: rest) =
      beforeKey ++ key.toList ++ beforeEquals ++ '=' :: rest := by
    intro rest
    rw [List.append_assoc exportWord, Text.dropStart?_eq_some_iff.mpr rfl, Option.getD_some]
  have hread := readLine_eq_assignment exportWord hleft hkey
    (by simp [hstart.noEquals, hkey.noEquals, hbefore.noEquals]) hbeforeTrim hhead hmarker hdrop
    (hvalue.read hafter hright)
  rwa [String.ofList_toList] at hread

/-- A line means the item that is written on it. -/
theorem SpellsLine.readLine_eq (h : SpellsLine item line) : readLine line = item.reading := by
  obtain ⟨hleft, hitem, hright⟩ := h
  cases hitem with
  | blank => exact readLine_blank hleft hright
  | comment htext => exact readLine_comment hleft
  | importing htarget hgap hne => exact readLine_importing hleft htarget hgap hne hright
  | assignment hkey hbefore hafter hvalue hmarker =>
    exact readLine_assignment hleft hkey hbefore hafter hvalue hmarker hright
  | exported hkey hstart hbefore hafter hvalue =>
    exact readLine_exported hleft hkey hstart hbefore hafter hvalue hright

/-! ### Files -/

@[simp] theorem Item.directive?_reading (item : Item) :
    item.reading.directive? = item.directive? := by
  cases item <;> rfl

@[simp] theorem Item.fault?_reading (item : Item) : item.reading.fault? = none := by
  cases item <;> rfl

/-- There are no complaints about a text exactly if none of its lines is at fault. -/
theorem noticesFrom_eq_nil_iff {first : Nat} {readings : List LineReading} :
    noticesFrom first readings = [] ↔ ∀ reading ∈ readings, reading.fault? = none := by
  induction readings generalizing first with
  | nil => simp [noticesFrom]
  | cons reading readings ih =>
    cases reading <;> simp [noticesFrom, LineReading.fault?, ih]

/-- The line after a terminator is read by itself, and the terminator's carriage return is not read
at all. -/
theorem readLines_append_terminator {terminator text : List Char} (hline : SpellsLine item line)
    (hterminator : Terminator terminator) :
    readLines (line ++ terminator ++ text) = item.reading :: readLines text := by
  cases hterminator with
  | lineFeed =>
    rw [List.append_assoc, List.singleton_append, readLines,
      Text.splitOn_append_cons hline.oneLine, List.map_cons, hline.readLine_eq, readLines]
  | carriageReturn =>
    have hreturn : SpellsLine item (line ++ ['\r']) := hline.append_padding (by decide)
    have hassoc : line ++ ['\r', '\n'] ++ text = (line ++ ['\r']) ++ '\n' :: text := by simp
    rw [hassoc, readLines, Text.splitOn_append_cons hreturn.oneLine, List.map_cons,
      hreturn.readLine_eq, readLines]

/-- The lines of a rendering mean its items, up to nothing after the last terminator. -/
theorem Renders.readLines_eq {items : List Item} {text : List Char} (h : Renders items text) :
    readLines text = items.map Item.reading ∨
      readLines text = items.map Item.reading ++ [.nothing] := by
  induction h with
  | nil => exact .inr rfl
  | last hline =>
    rw [readLines, Text.splitOn_of_not_mem hline.oneLine, List.map_singleton, hline.readLine_eq]
    exact .inl rfl
  | cons hline hterminator hrest ih =>
    rw [readLines_append_terminator hline hterminator, List.map_cons, List.cons_append]
    exact ih.imp (congrArg _) (congrArg _)

theorem Renders.directives_eq {items : List Item} {text : List Char} (h : Renders items text) :
    directives text = items.filterMap Item.directive? := by
  have hitems : (items.map Item.reading).filterMap LineReading.directive? =
      items.filterMap Item.directive? := by
    rw [List.filterMap_map]
    exact List.filterMap_congr fun item _ => item.directive?_reading
  rw [directives]
  rcases h.readLines_eq with hread | hread
  · rw [hread, hitems]
  · rw [hread, List.filterMap_append, hitems]
    exact List.append_nil _

theorem Renders.notices_eq_nil {items : List Item} {text : List Char} (h : Renders items text) :
    notices text = [] := by
  have hitems : ∀ reading ∈ items.map Item.reading, reading.fault? = none := by simp
  rw [notices, noticesFrom_eq_nil_iff]
  rcases h.readLines_eq with hread | hread
  · rwa [hread]
  · rw [hread, List.forall_mem_append]
    exact ⟨hitems, List.forall_mem_singleton.mpr rfl⟩

/-- A file is read back from every rendering of its items: the assignments and the imports in order,
and no complaint. -/
theorem reads_rendering_back {items : List Item} {text : List Char} (h : Renders items text) :
    directives text = items.filterMap Item.directive? ∧ notices text = [] :=
  ⟨h.directives_eq, h.notices_eq_nil⟩

/-- Lines that look like others are read back as what they are: a key that begins like a comment,
after the export word; a target with an equals sign; a comment about an import; blanks; and a key
that is the import word, with a quote as its value. -/
theorem reads_lookalikes_back :
    ∃ text, text = ("export  #k =\t\" 'v' \"\r\n" ++ "\u00a0import\u3000a=#b \n" ++
        " # import x\n" ++ "\t\r\n" ++ "import=\"\r").toList ∧
      Renders [.directive (.assignment "#k" " 'v' "), .directive (.importing "a=#b"),
        .comment " import x", .blank, .directive (.assignment "import" "\"")] text ∧
      directives text =
        [.assignment "#k" " 'v' ", .importing "a=#b", .assignment "import" "\""] ∧
      notices text = [] := by
  have hexported : SpellsItem (.directive (.assignment "#k" " 'v' "))
      (exportWord ++ ([' '] ++ "#k".toList ++ [' ']) ++
        '=' :: (['\t'] ++ '"' :: (" 'v' ".toList ++ ['"']))) :=
    .exported ⟨by decide, by decide, by decide, by decide⟩ (by decide) (by decide)
      (by decide) (.quoted (by decide) (by decide))
  have himport : SpellsItem (.directive (.importing "a=#b"))
      (importWord ++ ['\u3000'] ++ "a=#b".toList) :=
    .importing ⟨by decide, by decide, by decide⟩ (by decide) (by decide)
  have hcomment : SpellsItem (.comment " import x") ('#' :: " import x".toList) :=
    .comment (by decide)
  have hvalue : SpellsValue "\"".toList "\"".toList :=
    .bare (by decide) (by decide) fun quote inner _ heq => by
      simpa using congrArg List.length heq
  have hassignment : SpellsItem (.directive (.assignment "import" "\""))
      ("import".toList ++ [] ++ '=' :: ([] ++ "\"".toList)) := by
    refine .assignment ⟨by decide, by decide, by decide, by decide⟩ (by decide)
      (by decide) hvalue fun marker hmarker hbegins => ?_
    rcases hmarker with _ | _ | @⟨c, hc⟩
    · exact absurd hbegins (by decide)
    · exact absurd hbegins (by decide)
    · have hlength : 7 ≤ 6 := hbegins.length_le
      exact absurd hlength (by decide)
  have hrenders : Renders _ _ :=
    .cons (@SpellsLine.intro _ [] _ [] (by decide) hexported (by decide)) .carriageReturn <|
    .cons (@SpellsLine.intro _ ['\u00a0'] _ [' '] (by decide) himport (by decide)) .lineFeed <|
    .cons (@SpellsLine.intro _ [' '] _ [] (by decide) hcomment (by decide)) .lineFeed <|
    .cons (@SpellsLine.intro _ ['\t'] _ [] (by decide) .blank (by decide)) .carriageReturn <|
    .last (@SpellsLine.intro _ [] _ ['\r'] (by decide) hassignment (by decide))
  exact ⟨_, by decide, hrenders, reads_rendering_back hrenders⟩

/-! ### Every text without a fault is a rendering -/

theorem readLine_trim (raw : List Char) : readLine (Text.trim raw) = readLine raw := by
  rw [readLine, readLine, (Text.trimmed_trim raw).trim_eq]

theorem padding_of_blank {s : List Char} (hblank : ∀ c ∈ s, Text.isBlank c = true)
    (hline : '\n' ∉ s) : Padding s :=
  fun c hc => ⟨hblank c hc, fun heq => hline (heq ▸ hc)⟩

/-- A text without blanks at its ends spells what is left of it without its quotes. -/
theorem spellsValue_stripQuotes (hline : '\n' ∉ spelled) (htrimmed : Text.Trimmed spelled) :
    SpellsValue (stripQuotes spelled) spelled := by
  rcases stripQuotes_cases spelled with ⟨quote, inner, hquote, rfl, hinner⟩ | ⟨hunquoted, hsame⟩
  · rw [hinner]
    exact .quoted hquote fun hmem => hline (by simp [hmem])
  · rw [hsame]
    exact .bare hline htrimmed hunquoted

/-- A line without blanks at its ends that imports nothing does not begin with the import word and a
blank. -/
theorem not_begins_importWord (htrimmed : Text.Trimmed line) (h : importTarget? line = none) :
    ∀ c, Text.isBlank c = true → ¬ importWord ++ [c] <+: line := by
  rintro c hc ⟨rest, rfl⟩
  rw [List.append_assoc, List.singleton_append] at htrimmed h
  by_cases htarget : Text.trimStart rest = []
  · have hrest : ∀ d ∈ c :: rest, Text.isBlank d = true :=
      List.forall_mem_cons.mpr ⟨hc, List.dropWhile_eq_nil_iff.mp htarget⟩
    exact absurd (Text.eq_nil_of_blank_of_last hrest htrimmed.last) (by simp)
  · have hsome := importTarget?_eq_some_iff.mpr ⟨c, rest, hc, rfl, rfl, htarget⟩
    exact absurd (h.symm.trans hsome) (by simp)

/-- What is assigned without a fault stands on the two sides of the first `=`. -/
theorem exists_sides (h : (readAssignment line).fault? = none) :
    ∃ before after, (Text.dropStart? exportWord line).getD line = before ++ '=' :: after ∧
      '=' ∉ before ∧ Text.trim before ≠ [] := by
  unfold readAssignment at h
  split at h
  · simp [LineReading.fault?] at h
  · next before after hcut =>
    obtain ⟨hequals, hline⟩ := Text.cutAt?_eq_some_iff.mp hcut
    refine ⟨before, after, hline, hequals, fun hempty => ?_⟩
    simp [hempty, LineReading.fault?] at h

/-- What is assigned to is a key with padding around it. -/
theorem exists_key {before : List Char} (hline : '\n' ∉ before) (hequals : '=' ∉ before)
    (hne : Text.trim before ≠ []) :
    ∃ (key : String) (left right : List Char), IsKey key.toList ∧ Padding left ∧ Padding right ∧
      before = left ++ key.toList ++ right := by
  obtain ⟨left, right, hleft, hright, hkey⟩ := Text.exists_trim_padded before
  have hparts : ∀ c ∉ before, c ∉ left ∧ c ∉ Text.trim before ∧ c ∉ right := by
    intro c hc
    rw [hkey] at hc
    simpa [and_assoc] using hc
  obtain ⟨hleftLine, hkeyLine, hrightLine⟩ := hparts _ hline
  refine ⟨String.ofList (Text.trim before), left, right, ?_, padding_of_blank hleft hleftLine,
    padding_of_blank hright hrightLine, by rwa [String.toList_ofList]⟩
  rw [String.toList_ofList]
  exact ⟨hne, (hparts _ hequals).2.1, hkeyLine, Text.trimmed_trim before⟩

/-- What ends in no blank is padding and a value. -/
theorem exists_value {after : List Char} (hline : '\n' ∉ after)
    (hlast : ∀ c ∈ after.getLast?, Text.isBlank c = false) :
    ∃ (value : String) (left spelled : List Char), Padding left ∧
      SpellsValue value.toList spelled ∧ after = left ++ spelled := by
  obtain ⟨left, right, hleft, hright, hvalue⟩ := Text.exists_trim_padded after
  obtain rfl : right = [] := by
    rw [hvalue] at hlast
    exact Text.eq_nil_of_blank_of_last hright hlast
  rw [List.append_nil] at hvalue
  have hparts : '\n' ∉ left ∧ '\n' ∉ Text.trim after := by
    rw [hvalue] at hline
    simpa using hline
  refine ⟨String.ofList (stripQuotes (Text.trim after)), left, Text.trim after,
    padding_of_blank hleft hparts.1, ?_, hvalue⟩
  rw [String.toList_ofList]
  exact spellsValue_stripQuotes hparts.2 (Text.trimmed_trim after)

/-- A line without blanks at its ends that has a target spells an import. -/
theorem exists_spells_importing {target : List Char} (htrimmed : Text.Trimmed line)
    (hline : '\n' ∉ line) (himport : importTarget? line = some target) :
    ∃ item, SpellsItem item line := by
  obtain ⟨c, rest, hc, rfl, rfl, hne⟩ := importTarget?_eq_some_iff.mp himport
  have hsplit : importWord ++ c :: rest =
      importWord ++ c :: rest.takeWhile Text.isBlank ++ Text.trimStart rest := by
    rw [List.append_assoc, List.cons_append, Text.trimStart, List.takeWhile_append_dropWhile]
  rw [hsplit] at hline htrimmed ⊢
  rw [List.mem_append, List.mem_append, not_or, not_or] at hline
  obtain ⟨⟨-, hgapLine⟩, htargetLine⟩ := hline
  have hgap : ∀ d ∈ c :: rest.takeWhile Text.isBlank, Text.isBlank d = true :=
    List.forall_mem_cons.mpr ⟨hc, fun _ => List.mem_takeWhile_imp⟩
  have htarget : IsTarget (String.ofList (Text.trimStart rest)).toList := by
    rw [String.toList_ofList]
    exact ⟨hne, htargetLine, Text.not_isBlank_head_trimStart rest, htrimmed.last_append⟩
  have hspells := SpellsItem.importing htarget (padding_of_blank hgap hgapLine) (by simp)
  rw [String.toList_ofList] at hspells
  exact ⟨_, hspells⟩

/-- A line without blanks at its ends whose assignment is not at fault spells it. -/
theorem exists_spells_assignment (htrimmed : Text.Trimmed line) (hline : '\n' ∉ line)
    (hmarker : ∀ marker, Marker marker → marker ≠ exportWord → ¬ marker <+: line)
    (hfault : (readAssignment line).fault? = none) : ∃ item, SpellsItem item line := by
  obtain ⟨before, after, hsides, hequals, hne⟩ := exists_sides hfault
  cases hdrop : Text.dropStart? exportWord line with
  | none =>
    rw [hdrop, Option.getD_none] at hsides
    obtain rfl := hsides
    rw [List.append_cons] at htrimmed hline
    rw [List.mem_append, List.mem_append, not_or, not_or] at hline
    obtain ⟨key, left, right, hkey, hleft, hright, rfl⟩ := exists_key hline.1.1 hequals hne
    obtain ⟨value, gap, spelled, hgap, hvalue, rfl⟩ := exists_value hline.2 htrimmed.last_append
    obtain rfl : left = [] := by
      have hhead := htrimmed.head
      simp only [List.append_assoc] at hhead
      exact Text.eq_nil_of_blank_of_head hleft.blank hhead
    refine ⟨_, .assignment hkey hright hgap hvalue fun marker h hbegins => ?_⟩
    have hline := hbegins.trans (List.prefix_append _ ('=' :: (gap ++ spelled)))
    by_cases hexport : marker = exportWord
    · exact Text.dropStart?_eq_none_iff.mp hdrop (hexport ▸ hline)
    · exact hmarker marker h hexport hline
  | some rest =>
    rw [hdrop, Option.getD_some] at hsides
    obtain rfl := hsides
    obtain rfl := Text.dropStart?_eq_some_iff.mp hdrop
    rw [← List.append_assoc, List.append_cons] at htrimmed hline
    rw [List.mem_append, List.mem_append, List.mem_append, not_or, not_or, not_or] at hline
    obtain ⟨key, left, right, hkey, hleft, hright, rfl⟩ := exists_key hline.1.1.2 hequals hne
    obtain ⟨value, gap, spelled, hgap, hvalue, rfl⟩ := exists_value hline.2 htrimmed.last_append
    rw [← List.append_assoc]
    exact ⟨_, .exported hkey hleft hright hgap hvalue⟩

/-- A line without blanks at its ends that is not at fault spells an item. -/
theorem exists_spellsItem (htrimmed : Text.Trimmed line) (hline : '\n' ∉ line)
    (hfault : (readLine line).fault? = none) : ∃ item, SpellsItem item line := by
  by_cases hnil : line = []
  · exact ⟨.blank, hnil ▸ .blank⟩
  by_cases hcomment : ['#'] <+: line
  · obtain ⟨text, rfl⟩ := hcomment
    have hspells : SpellsItem (.comment (String.ofList text))
        ('#' :: (String.ofList text).toList) := .comment (by simpa using hline)
    rw [String.toList_ofList] at hspells
    exact ⟨_, hspells⟩
  cases himport : importTarget? line with
  | some target => exact exists_spells_importing htrimmed hline himport
  | none =>
    have himportWord := not_begins_importWord htrimmed himport
    rw [readLine_eq_readAssignment htrimmed.trim_eq hnil hcomment himportWord] at hfault
    refine exists_spells_assignment htrimmed hline (fun marker hmarker hother => ?_) hfault
    cases hmarker with
    | comment => exact hcomment
    | exporting => exact absurd rfl hother
    | importing hc => exact himportWord _ hc

theorem exists_spellsLine (hline : '\n' ∉ line) (hfault : (readLine line).fault? = none) :
    ∃ item, SpellsLine item line := by
  obtain ⟨left, right, hleft, hright, hsplit⟩ := Text.exists_trim_padded line
  rw [hsplit, List.mem_append, List.mem_append, not_or, not_or] at hline
  obtain ⟨⟨hleftLine, htrimLine⟩, hrightLine⟩ := hline
  rw [← readLine_trim] at hfault
  obtain ⟨item, hitem⟩ := exists_spellsItem (Text.trimmed_trim line) htrimLine hfault
  refine ⟨item, ?_⟩
  rw [hsplit]
  exact ⟨padding_of_blank hleft hleftLine, hitem, padding_of_blank hright hrightLine⟩

/-- Lines that spell items render them, with line feeds between. -/
theorem exists_renders {lines : List (List Char)}
    (h : ∀ line ∈ lines, ∃ item, SpellsLine item line) :
    ∃ items, Renders items (Text.joinWith ['\n'] lines) := by
  induction lines with
  | nil => exact ⟨[], .nil⟩
  | cons line lines ih =>
    obtain ⟨⟨item, hitem⟩, hlines⟩ := List.forall_mem_cons.mp h
    cases lines with
    | nil => exact ⟨[item], .last hitem⟩
    | cons next lines =>
      obtain ⟨items, hitems⟩ := ih hlines
      exact ⟨item :: items, .cons hitem .lineFeed hitems⟩

/-- A text is read without a complaint exactly if it renders some items. -/
theorem notices_eq_nil_iff {text : List Char} :
    notices text = [] ↔ ∃ items, Renders items text := by
  refine ⟨fun h => ?_, fun ⟨_, hitems⟩ => hitems.notices_eq_nil⟩
  have hfaults : ∀ reading ∈ readLines text, reading.fault? = none :=
    noticesFrom_eq_nil_iff.mp h
  have hlines : ∀ line ∈ Text.splitOn '\n' text, ∃ item, SpellsLine item line := fun line hmem =>
    exists_spellsLine (Text.not_mem_of_mem_splitOn hmem)
      (hfaults _ (List.mem_map_of_mem hmem))
  have hrenders := exists_renders hlines
  rwa [Text.joinWith_splitOn] at hrenders

/-! ### What a text holds -/

theorem eq_directive_of_directive? {reading : LineReading} {d : Directive}
    (h : reading.directive? = some d) : reading = .directive d := by
  cases reading <;> simp_all [LineReading.directive?]

/-- A line that is read as a directive spells it. -/
theorem spellsLine_of_readLine {d : Directive} (hline : '\n' ∉ line)
    (h : readLine line = .directive d) : SpellsLine (.directive d) line := by
  obtain ⟨item, hitem⟩ := exists_spellsLine hline (by rw [h]; rfl)
  have hreading : item.reading = .directive d := by
    rw [← hitem.readLine_eq, h]
  cases item with
  | directive d' =>
    obtain rfl : d' = d := LineReading.directive.inj hreading
    exact hitem
  | comment text => simp [Item.reading] at hreading
  | blank => simp [Item.reading] at hreading

/-- Every directive of a text is spelled by a line. -/
theorem exists_spellsLine_of_mem_directives {d : Directive} {text : List Char}
    (h : d ∈ directives text) : ∃ line, SpellsLine (.directive d) line := by
  obtain ⟨reading, hreading, hdirective⟩ := List.mem_filterMap.mp h
  obtain ⟨line, hline, rfl⟩ := List.mem_map.mp hreading
  exact ⟨line, spellsLine_of_readLine (Text.not_mem_of_mem_splitOn hline)
    (eq_directive_of_directive? hdirective)⟩

theorem SpellsValue.oneLine_value {value : List Char} (h : SpellsValue value spelled) :
    '\n' ∉ value := by
  cases h with
  | quoted hquote hvalue => exact hvalue
  | bare hvalue htrimmed hunquoted => exact hvalue

/-- What a text assigns to may be assigned to, and what it assigns stays on its line. -/
theorem isKey_of_mem_directives {key value : String} {text : List Char}
    (h : .assignment key value ∈ directives text) : IsKey key.toList ∧ '\n' ∉ value.toList := by
  obtain ⟨line, -, hitem, -⟩ := exists_spellsLine_of_mem_directives h
  cases hitem with
  | assignment hkey _ _ hvalue _ => exact ⟨hkey, hvalue.oneLine_value⟩
  | exported hkey _ _ _ hvalue => exact ⟨hkey, hvalue.oneLine_value⟩

/-- What a text imports may be imported. -/
theorem isTarget_of_mem_directives {target : String} {text : List Char}
    (h : .importing target ∈ directives text) : IsTarget target.toList := by
  obtain ⟨line, -, hitem, -⟩ := exists_spellsLine_of_mem_directives h
  cases hitem with
  | importing htarget _ _ => exact htarget

end EnvFile

end LayeredEnv
