import LayeredEnv.Text.Utf8

/-!
# Patterns

A pattern matches texts: `*` matches any text, `?` any character, and brackets one of some
characters.  Every other character matches itself, and so does every quoted one.  `Pattern.parts`
reads the signs and `Pattern.fits` matches what it read.

This is part of `Shell.launch`, the launcher of the runnable program, and of nothing else: what is
stated of requests, commands and actions holds for every launcher.
-/

namespace LayeredEnv.Shell

/-- The characters of a pattern, each with whether it is quoted. -/
abbrev Pattern := List (Char × Bool)

namespace Pattern

/-- A part of a pattern. -/
inductive Part
  | one (test : Char → Bool)
  | any

/-- The classes of characters by name. -/
def classes : List (String × (Char → Bool)) :=
  [("alpha", Char.isAlpha), ("digit", Char.isDigit), ("alnum", Char.isAlphanum),
    ("upper", Char.isUpper), ("lower", Char.isLower),
    ("space", fun c => c == ' ' || (0x09 ≤ c.toNat && c.toNat ≤ 0x0D)),
    ("blank", fun c => c == ' ' || c == '\t'),
    ("cntrl", fun c => c.toNat < 0x20 || c.toNat == 0x7F),
    ("print", fun c => 0x20 ≤ c.toNat && c.toNat < 0x7F),
    ("graph", fun c => 0x20 < c.toNat && c.toNat < 0x7F),
    ("punct", fun c => 0x20 < c.toNat && c.toNat < 0x7F && !c.isAlphanum),
    ("xdigit", fun c => c.isDigit || ('a' ≤ c && c ≤ 'f') || ('A' ≤ c && c ≤ 'F'))]

/-- The class whose name stands at the start of a text up to `:]`, and the length of the name. -/
def classAt? (p : Pattern) : Option ((Char → Bool) × Nat) :=
  let name := (p.takeWhile fun c => c.1.isAlpha).map Prod.fst
  match p.drop name.length with
  | (':', _) :: (']', _) :: _ =>
    (classes.find? fun c => c.1.toList == name).map fun c => (c.2, name.length)
  | _ => none

/-- The test of the characters in brackets up to the closing one, and what follows it.  With
`first`, a closing bracket stands for itself. -/
def members? (first : Bool) (p : Pattern) : Option ((Char → Bool) × Pattern) :=
  match p with
  | [] => none
  | (']', false) :: rest =>
    if first then (members? false rest).map fun (test, rest) => (fun d => d == ']' || test d, rest)
    else some (fun _ => false, rest)
  | ('[', false) :: (':', false) :: rest =>
    match classAt? rest with
    | some (own, length) =>
      (members? false (rest.drop (length + 2))).map fun (test, rest) =>
        (fun d => own d || test d, rest)
    | none =>
      (members? false ((':', false) :: rest)).map fun (test, rest) =>
        (fun d => d == '[' || test d, rest)
  | (c, _) :: ('-', false) :: (d, q) :: rest =>
    if d == ']' && !q then
      (members? false (('-', false) :: (d, q) :: rest)).map fun (test, rest) =>
        (fun e => e == c || test e, rest)
    else
      (members? false rest).map fun (test, rest) =>
        (fun e => (c ≤ e && e ≤ d) || test e, rest)
  | (c, _) :: rest =>
    (members? false rest).map fun (test, rest) => (fun d => d == c || test d, rest)
termination_by p.length
decreasing_by all_goals (simp only [List.length_cons, List.length_drop]; omega)

/-- The test of brackets, the first of which has been read, and what follows them. -/
def brackets? : Pattern → Option ((Char → Bool) × Pattern)
  | ('!', false) :: rest | ('^', false) :: rest =>
    (members? true rest).map fun (test, rest) => (fun c => !test c, rest)
  | p => members? true p

/-- The parts of a pattern. -/
def parts (p : Pattern) : List Part :=
  match p with
  | [] => []
  | ('*', false) :: rest => .any :: parts rest
  | ('?', false) :: rest => .one (fun _ => true) :: parts rest
  | ('[', false) :: rest =>
    match brackets? rest with
    | some (test, after) =>
      if _h : after.length < rest.length then .one test :: parts after
      else .one (· == '[') :: parts rest
    | none => .one (· == '[') :: parts rest
  | ('\\', false) :: (c, _) :: rest => .one (· == c) :: parts rest
  | (c, _) :: rest => .one (· == c) :: parts rest
termination_by p.length
decreasing_by all_goals (simp only [List.length_cons]; omega)

/-- A text and all its ends. -/
def ends : List Char → List (List Char)
  | [] => [[]]
  | c :: rest => (c :: rest) :: ends rest

/-- Whether parts match a text. -/
def fits : List Part → List Char → Bool
  | [], s => s.isEmpty
  | .one test :: rest, c :: s => test c && fits rest s
  | .one _ :: _, [] => false
  | .any :: rest, s => (ends s).any (fits rest)

/-- Whether a pattern matches a text. -/
def accepts (p : Pattern) (s : List Char) : Bool :=
  fits p.parts s

/-- Whether a pattern may match more than itself. -/
def isOpen (p : Pattern) : Bool :=
  p.any fun c => !c.2 && (c.1 == '*' || c.1 == '?' || c.1 == '[')

/-- The text without the shortest or longest start that matches; `none` if no start does. -/
def dropStart? (p : Pattern) (longest : Bool) (s : List Char) : Option (List Char) :=
  let cuts := List.range (s.length + 1)
  let cuts := if longest then cuts.reverse else cuts
  (cuts.find? fun n => p.accepts (s.take n)).map s.drop

/-- The text without the shortest or longest end that matches; `none` if no end does. -/
def dropEnd? (p : Pattern) (longest : Bool) (s : List Char) : Option (List Char) :=
  let cuts := List.range (s.length + 1)
  let cuts := if longest then cuts else cuts.reverse
  (cuts.find? fun n => p.accepts (s.drop n)).map s.take

/-! ### Texts byte by byte -/

/-- The pattern in which each byte is a character. -/
def bytewise (p : Pattern) : Pattern :=
  p.flatMap fun c => (Utf8.bytewise [c.1]).map fun d => (d, c.2)

/-- Whether a pattern matches a text, where a sign matches a byte. -/
def acceptsText (p : Pattern) (s : List Char) : Bool :=
  p.bytewise.accepts (Utf8.bytewise s)

/-- The text without the shortest or longest start that matches byte by byte. -/
def dropTextStart? (p : Pattern) (longest : Bool) (s : String) : Option String :=
  (p.bytewise.dropStart? longest (Utf8.bytewise s.toList)).map fun s =>
    String.ofList (Utf8.ofBytewise s)

/-- The text without the shortest or longest end that matches byte by byte. -/
def dropTextEnd? (p : Pattern) (longest : Bool) (s : String) : Option String :=
  (p.bytewise.dropEnd? longest (Utf8.bytewise s.toList)).map fun s =>
    String.ofList (Utf8.ofBytewise s)

/-! ### Several texts as one

Texts that follow one another are cut as a whole: what a cut at the end leaves out takes the texts
after it along.  The longest end is looked for in the first text alone, and so is a start; the
longest start that is all of the first text takes the others along. -/

/-- Cuts the last of some texts that can be cut, and leaves out those after it. -/
def cutLast? (cut : String → Option String) : List String → Option (List String)
  | [] => none
  | s :: rest =>
    match cutLast? cut rest with
    | some rest => some (s :: rest)
    | none => (cut s).map ([·])

/-- Texts without the shortest or longest start that matches. -/
def cutStart (p : Pattern) (longest : Bool) : List String → List String
  | [] => []
  | s :: rest =>
    if longest && p.acceptsText s.toList then [""]
    else (p.dropTextStart? longest s).getD s :: rest

/-- Texts without the shortest or longest end that matches. -/
def cutEnd (p : Pattern) (longest : Bool) (texts : List String) : List String :=
  let cut := p.dropTextEnd? longest
  (if longest then texts.head?.bind fun s => (cut s).map ([·]) else cutLast? cut texts).getD texts

end Pattern

end LayeredEnv.Shell
