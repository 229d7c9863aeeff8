import LayeredEnv.Number.Numeral
import LayeredEnv.Shell.Pattern
import LayeredEnv.Text.Lines

/-!
# Regular expressions

A regular expression matches parts of a text.  `Regex.read?` reads one in either of two notations,
which differ in whether brackets, braces and bars mean something with or without a backslash.
`Regex.ends` lists where a match may end, the preferred end first; `Regex.search?` finds the first
match and the longest one there.

This is part of `Shell.launch`, the launcher of the runnable program, and of nothing else: what is
stated of requests, commands and actions holds for every launcher.
-/

namespace LayeredEnv.Shell

/-- A regular expression. -/
inductive Regex
  | empty
  | one (test : Char → Bool)
  | start
  | finish
  /-- The edge of a word: its start, its end, or both if neither is asked for. -/
  | edge (atStart atEnd : Bool)
  | both (a b : Regex)
  | either (a b : Regex)
  | many (a : Regex) (least : Nat) (most : Option Nat)
  | group (number : Nat) (a : Regex)
  /-- What a group matched. -/
  | again (number : Nat)

namespace Regex

/-! ### Signs -/

/-- A sign of a regular expression as it is written. -/
inductive Sign
  | one (test : Char → Bool)
  | opening
  | closing
  | bar
  | repeats (least : Nat) (most : Option Nat)
  | start
  | finish
  | edge (atStart atEnd : Bool)
  | again (number : Nat)

/-- Whether a character may stand in a word. -/
def isWordChar (c : Char) : Bool :=
  c.isAlphanum || c == '_'

/-- Whether a character is a blank. -/
def isSpace (c : Char) : Bool :=
  c == ' ' || (0x09 ≤ c.toNat && c.toNat ≤ 0x0D)

/-- The bounds in braces and what follows them: `3}`, `3,}`, `,4}` or `3,4}`, where `closes` ends
them. -/
def bounds? (closes : List Char) (s : List Char) : Option ((Nat × Option Nat) × List Char) :=
  let low := s.takeWhile Char.isDigit
  let rest := s.drop low.length
  let finish (least : Nat) (most : Option Nat) (rest : List Char) :
      Option ((Nat × Option Nat) × List Char) :=
    (Text.dropStart? closes rest).map fun rest => ((least, most), rest)
  match rest with
  | ',' :: rest =>
    let high := rest.takeWhile Char.isDigit
    finish (Numeral.value 10 low)
      (if high.isEmpty then none else some (Numeral.value 10 high)) (rest.drop high.length)
  | rest =>
    if low.isEmpty then none
    else finish (Numeral.value 10 low) (some (Numeral.value 10 low)) rest

/-- The sign that a character after a backslash is in both notations. -/
def escaped (c : Char) : Sign :=
  match c with
  | 'w' => .one isWordChar
  | 'W' => .one fun d => !isWordChar d
  | 's' => .one isSpace
  | 'S' => .one fun d => !isSpace d
  | '<' => .edge true false
  | '>' => .edge false true
  | 'b' => .edge true true
  | 'n' => .one (· == '\n')
  | 't' => .one (· == '\t')
  | c => if '1' ≤ c && c ≤ '9' then .again (c.toNat - '0'.toNat) else .one (· == c)

/-- Signs of a text of at most `fuel` signs.  With `extended`, brackets, braces and bars mean
something without a backslash.  `fresh` says that nothing stands before, so that a star is
itself. -/
def signs? (extended : Bool) : (fuel : Nat) → (fresh : Bool) → List Char → Option (List Sign)
  | 0, _, _ => none
  | _ + 1, _, [] => some []
  | fuel + 1, fresh, c :: rest =>
    let more (sign : Sign) (fresh : Bool) (rest : List Char) : Option (List Sign) :=
      (signs? extended fuel fresh rest).map (sign :: ·)
    let braces (closes rest : List Char) : Option (List Sign) :=
      match bounds? closes rest with
      | some ((least, most), rest) => more (.repeats least most) false rest
      | none => if extended then more (.one (· == c)) false rest else none
    match c, rest with
    | '\\', d :: rest =>
      match d, extended with
      | '(', false => more .opening true rest
      | ')', false => more .closing false rest
      | '|', false => more .bar true rest
      | '+', false => more (.repeats 1 none) false rest
      | '?', false => more (.repeats 0 (some 1)) false rest
      | '\x7b', false => braces ['\\', '\x7d'] rest
      | d, _ => more (escaped d) false rest
    | '\\', [] => none
    | '(', _ => if extended then more .opening true rest else more (.one (· == c)) false rest
    | ')', _ => if extended then more .closing false rest else more (.one (· == c)) false rest
    | '|', _ => if extended then more .bar true rest else more (.one (· == c)) false rest
    | '+', _ =>
      if extended && !fresh then more (.repeats 1 none) false rest
      else more (.one (· == c)) false rest
    | '?', _ =>
      if extended && !fresh then more (.repeats 0 (some 1)) false rest
      else more (.one (· == c)) false rest
    | '*', _ =>
      if fresh then more (.one (· == c)) false rest else more (.repeats 0 none) false rest
    | '\x7b', _ =>
      if extended && !fresh then braces ['\x7d'] rest else more (.one (· == c)) false rest
    | '.', _ => more (.one fun _ => true) false rest
    | '^', _ => if extended || fresh then more .start true rest else more (.one (· == c)) false rest
    | '$', _ =>
      let ends :=
        match rest with
        | [] | '\\' :: ')' :: _ | '\\' :: '|' :: _ => true
        | _ => extended
      if ends then more .finish false rest else more (.one (· == c)) false rest
    | '[', _ =>
      let negated := rest.head? == some '^'
      let inside : Pattern := (if negated then rest.tail else rest).map fun d => (d, false)
      match Pattern.members? true inside with
      | some (test, after) =>
        more (.one fun d => test d != negated) false (after.map Prod.fst)
      | none => none
    | c, _ => more (.one (· == c)) false rest

/-! ### Reading -/

/-- Applies the repetitions that stand at the start of signs. -/
def repeated (a : Regex) : List Sign → Regex × List Sign
  | .repeats least most :: rest => repeated (.many a least most) rest
  | rest => (a, rest)

mutual

/-- Reads alternatives up to a closing bracket; `groups` have been opened before. -/
def readEither : (fuel : Nat) → (groups : Nat) → List Sign → Option (Regex × Nat × List Sign)
  | 0, _, _ => none
  | fuel + 1, groups, s =>
    match readBoth fuel groups s with
    | some (a, groups, .bar :: rest) =>
      (readEither fuel groups rest).map fun (b, groups, rest) => (.either a b, groups, rest)
    | result => result

/-- Reads what follows one another up to a bar or a closing bracket. -/
def readBoth : (fuel : Nat) → (groups : Nat) → List Sign → Option (Regex × Nat × List Sign)
  | 0, _, _ => none
  | fuel + 1, groups, s =>
    let further (a : Regex) (groups : Nat) (rest : List Sign) : Option (Regex × Nat × List Sign) :=
      let (a, rest) := repeated a rest
      (readBoth fuel groups rest).map fun (b, groups, rest) => (.both a b, groups, rest)
    match s with
    | [] => some (.empty, groups, [])
    | .bar :: _ | .closing :: _ => some (.empty, groups, s)
    | .opening :: rest =>
      match readEither fuel (groups + 1) rest with
      | some (a, more, .closing :: rest) => further (.group (groups + 1) a) more rest
      | _ => none
    | .one test :: rest => further (.one test) groups rest
    | .start :: rest => further .start groups rest
    | .finish :: rest => further .finish groups rest
    | .edge a b :: rest => further (.edge a b) groups rest
    | .again n :: rest => further (.again n) groups rest
    | .repeats .. :: rest => further .empty groups rest

end

/-- The expression in which a character also stands for its other case. -/
def ignoringCase : Regex → Regex
  | .one test => .one fun c => test c.toLower || test c.toUpper
  | .both a b => .both a.ignoringCase b.ignoringCase
  | .either a b => .either a.ignoringCase b.ignoringCase
  | .many a least most => .many a.ignoringCase least most
  | .group n a => .group n a.ignoringCase
  | a => a

/-- Reads a regular expression. -/
def read? (extended : Bool) (s : List Char) : Option Regex :=
  match signs? extended (s.length + 1) true s with
  | none => none
  | some signs =>
    match readEither (2 * signs.length + 2) 0 signs with
    | some (a, _, []) => some a
    | _ => none

/-- The expression that matches a text only. -/
def ofText : List Char → Regex
  | [] => .empty
  | c :: rest => .both (.one (· == c)) (ofText rest)

/-! ### Matching -/

/-- A place in a text: the character before it, what follows, and what the groups matched. -/
structure Place where
  before : Option Char
  rest : List Char
  groups : List (Nat × List Char) := []

namespace Place

/-- The place after some characters. -/
def advance (p : Place) (n : Nat) : Place :=
  match n, p.rest with
  | 0, _ => p
  | n + 1, _ => { p with before := (p.rest.take (n + 1)).getLast?, rest := p.rest.drop (n + 1) }

/-- Whether the edge of a word is here. -/
def isEdge (p : Place) (atStart atEnd : Bool) : Bool :=
  let left := p.before.any isWordChar
  let right := p.rest.head?.any isWordChar
  (atStart && !left && right) || (atEnd && left && !right)

end Place

/-- Where repetitions of a step may end, with the longest first; every round has to go on. -/
def rounds (step : Place → List Place) :
    (fuel : Nat) → (least : Nat) → (most : Option Nat) → Place → List Place
  | 0, least, _, p => if least = 0 then [p] else []
  | fuel + 1, least, most, p =>
    let further :=
      if most = some 0 then []
      else
        ((step p).filter fun q => least ≠ 0 || q.rest.length < p.rest.length).flatMap
          (rounds step fuel (least - 1) (most.map (· - 1)))
    further ++ if least = 0 then [p] else []

/-- The first of the places at each distance. -/
def distinct (places : List Place) : List Place :=
  places.foldr (fun p kept =>
    p :: kept.filter fun q => q.rest.length ≠ p.rest.length) []

/-- Where a match that starts at a place may end. -/
def ends : Regex → Place → List Place
  | .empty, p => [p]
  | .one test, p =>
    match p.rest with
    | c :: rest => if test c then [{ p with before := some c, rest }] else []
    | [] => []
  | .start, p => if p.before.isNone then [p] else []
  | .finish, p => if p.rest.isEmpty then [p] else []
  | .edge a b, p => if p.isEdge a b then [p] else []
  | .both a b, p => distinct ((distinct (a.ends p)).flatMap b.ends)
  | .either a b, p => distinct (a.ends p ++ b.ends p)
  | .many a least most, p => distinct (rounds a.ends (p.rest.length + least + 1) least most p)
  | .group n a, p =>
    (a.ends p).map fun q =>
      { q with
        groups := (n, p.rest.take (p.rest.length - q.rest.length)) ::
          q.groups.filter fun g => g.1 ≠ n }
  | .again n, p =>
    match (p.groups.find? fun g => g.1 = n).map Prod.snd with
    | none => []
    | some text => if text.isPrefixOf p.rest then [p.advance text.length] else []

/-- The end that is furthest away, the first of several. -/
def furthest? : List Place → Option Place
  | [] => none
  | p :: rest =>
    match furthest? rest with
    | some q => if q.rest.length < p.rest.length then some q else some p
    | none => some p

/-- What a search found: what stands before the match, the match, its groups and what follows. -/
structure Found where
  before : List Char
  text : List Char
  groups : List (Nat × List Char)
  rest : List Char

/-- The first match in a text after a character, the longest one there. -/
def search? (a : Regex) (before : Option Char) (s : List Char) : Option Found :=
  match furthest? (a.ends { before, rest := s }) with
  | some q => some ⟨[], s.take (s.length - q.rest.length), q.groups, q.rest⟩
  | none =>
    match s with
    | [] => none
    | c :: rest =>
      (search? a (some c) rest).map fun found => { found with before := c :: found.before }

end Regex

end LayeredEnv.Shell
