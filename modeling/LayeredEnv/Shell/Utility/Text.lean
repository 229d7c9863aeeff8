import LayeredEnv.Shell.Pattern
import LayeredEnv.Shell.Utility

/-!
# Utilities for texts

The utilities that read lines and write lines: all of them, some of them, in another order, or with
other characters.

This is part of `Shell.launch`, the launcher of the runnable program, and of nothing else: what is
stated of requests, commands and actions holds for every launcher.
-/

namespace LayeredEnv.Shell.Utility

/-- The number at the start of a text of digits. -/
def numeral? (s : List Char) : Option Nat :=
  if !s.isEmpty && s.all Char.isDigit then some (Numeral.value 10 s) else none

/-- A number filled up with blanks in front. -/
def padded (width n : Nat) : String :=
  let digits := Numeral.ofNat n
  String.ofList (List.replicate (width - digits.length) ' ' ++ digits)

/-- The lines of a text with their breaks. -/
def wholeLines (s : String) : List String :=
  let pieces := Text.splitOn '\n' s.toList
  let last := pieces.getLast?.getD []
  pieces.dropLast.map (fun l => String.ofList l ++ "\n") ++
    if last.isEmpty then [] else [String.ofList last]

/-! ### All lines -/

/-- Texts one after the other, possibly with numbers before their lines. -/
def concatenate : Utility := withOptions "nbuetvAETs" "" true 1 fun call o =>
  let r := eachText call o.rest (call.refuseFile 1) fun _ text => { output := text }
  if o.has 'n' then
    let numbered := (wholeLines r.output).zipIdx 1
    { r with output := String.join (numbered.map fun p => padded 6 p.2 ++ "\t" ++ p.1) }
  else if o.has 'E' || o.has 'A' || o.has 'e' then
    { r with
      output := String.ofList (r.output.toList.flatMap fun c =>
        if c == '\n' then ['$', c] else [c]) }
  else r

/-- Texts one after the other, the last line of each first. -/
def reverseLines : Utility := fun call =>
  eachText call call.arguments (fun path e =>
      call.refuse 1 ("failed to open " ++ quoted path ++ " for reading: " ++ e.reason))
    fun _ text => { output := String.join (wholeLines text).reverse }

/-- Lines written backwards. -/
def reverseCharacters : Utility := fun call =>
  eachText call call.arguments (fun path e =>
      call.refuse 1 ("cannot open " ++ path ++ ": " ++ e.reason))
    fun _ text => { output := unlines ((lines text).map fun l => String.ofList l.toList.reverse) }

/-- Writes its input to its output and into files. -/
def copyInput : Utility := withOptions "ai" "" true 1 fun call o =>
  let start : Report := { output := call.input, readsInput := true }
  o.rest.foldl (fun r path =>
    let tree := r.tree?.getD call.tree
    match tree.spot ⟨path⟩, Device.streamAt? tree ⟨path⟩ with
    | .error e, _ => r ++ call.refuseFile 1 path e
    | .ok _, some 1 => r ++ ({ output := call.input } : Report)
    | .ok _, some 2 => r ++ ({ errors := call.input } : Report)
    | .ok _, _ =>
      if tree.isDirectory ⟨path⟩ then r ++ call.refuseFile 1 path .isADirectory
      else
        let before := if o.has 'a' then ((tree.read ⟨path⟩).toOption).getD [] else []
        { r with
          tree? := some (tree.write ⟨path⟩ (before ++ Utf8.encode call.input) false) }) start

/-! ### Some lines -/

/-- A utility to which `-5` means `-n 5`. -/
def spellingCount (u : Utility) : Utility := fun call =>
  match call.arguments with
  | first :: rest =>
    match first.toList with
    | '-' :: digits =>
      if (numeral? digits).isSome then
        u { call with arguments := "-n" :: String.ofList digits :: rest }
      else u call
    | _ => u call
  | [] => u call

/-- What a utility takes out of each text, below the name of the text if there are several. -/
def excerpts (call : Call) (operands : List String) (loud silent : Bool)
    (take : String → String) : Report :=
  let named := (loud || decide (1 < operands.length)) && !silent
  let r := eachText call operands
    (fun path e =>
      call.refuse 1 ("cannot open " ++ quoted path ++ " for reading: " ++ e.reason))
    fun path text =>
      let title := if path == "-" then "standard input" else path
      { output := "\x00" ++ (if named then "==> " ++ title ++ " <==\n" else "") ++ take text }
  let parts := (Text.splitOn (Char.ofNat 0) r.output.toList).tail
  { r with
    output := String.ofList (Text.joinWith (if named then ['\n'] else []) parts) }

/-- The first lines of texts. -/
def head : Utility := spellingCount <| withOptions "qv" "nc" true 1 fun call o =>
  let amount := (o.value? 'c').getD ((o.value? 'n').getD "10")
  let (backwards, digits) :=
    match amount.toList with
    | '-' :: digits => (true, digits)
    | digits => (false, digits)
  match numeral? digits with
  | none =>
    call.refuse 1 ("invalid number of " ++ (if o.has 'c' then "bytes" else "lines") ++
      ": " ++ quoted amount)
  | some n =>
    excerpts call o.rest (o.has 'v') (o.has 'q') fun text =>
      if o.has 'c' then
        let bytes := Utf8.encode text
        Format.textOf (bytes.take (if backwards then bytes.length - n else n))
      else
        let all := wholeLines text
        String.join (all.take (if backwards then all.length - n else n))

/-- The last lines of texts. -/
def tail : Utility := spellingCount <| withOptions "qvf" "nc" true 1 fun call o =>
  let amount := (o.value? 'c').getD ((o.value? 'n').getD "10")
  let (fromStart, digits) :=
    match amount.toList with
    | '+' :: digits => (true, digits)
    | '-' :: digits => (false, digits)
    | digits => (false, digits)
  match numeral? digits with
  | none =>
    call.refuse 1 ("invalid number of " ++ (if o.has 'c' then "bytes" else "lines") ++
      ": " ++ quoted amount)
  | some n =>
    excerpts call o.rest (o.has 'v') (o.has 'q') fun text =>
      if o.has 'c' then
        let bytes := Utf8.encode text
        Format.textOf (bytes.drop (if fromStart then n - 1 else bytes.length - n))
      else
        let all := wholeLines text
        String.join (all.drop (if fromStart then n - 1 else all.length - n))

/-! ### Counts -/

/-- How many words a text has. -/
def countWords (s : List Char) : Nat :=
  let isGap (c : Char) : Bool := c == ' ' || (0x09 ≤ c.toNat && c.toNat ≤ 0x0D)
  (s.foldl (fun (n, inside) c =>
    if isGap c then (n, false) else if inside then (n, true) else (n + 1, true))
    ((0 : Nat), false)).1

/-- Counts lines, words, characters and bytes. -/
def count : Utility := withOptions "lwcm" "" true 1 fun call o =>
  let all := o.letters.isEmpty
  let countsOf (text : String) : List Nat :=
    (if all || o.has 'l' then [text.toList.count '\n'] else []) ++
      (if all || o.has 'w' then [countWords text.toList] else []) ++
      (if o.has 'm' then [text.utf8ByteSize] else []) ++
      (if all || o.has 'c' then [text.utf8ByteSize] else [])
  let operands := if o.rest.isEmpty then ["-"] else o.rest
  let texts := textsOf call operands
  let sizes := texts.filterMap fun p => p.2.toOption.map String.utf8ByteSize
  let single := decide ((countsOf "").length = 1 ∧ operands.length = 1)
  let isOpen (path : String) : Bool :=
    isInput call path || (call.tree.pathExists ⟨path⟩ && !call.tree.isFile ⟨path⟩)
  let width :=
    if single then 1
    else if operands.any isOpen then 7
    else (Numeral.ofNat (sizes.foldl (· + ·) 0)).length
  let line (counts : List Nat) (name : String) : String :=
    " ".intercalate (counts.map (padded width)) ++ name ++ "\n"
  let start : Report := { readsInput := asksInput call o.rest }
  let r := texts.foldl (fun r (path, text) =>
    r ++ match text with
      | .ok text => { output := line (countsOf text) (if o.rest.isEmpty then "" else " " ++ path) }
      | .error .isADirectory =>
        { status := 1
          output := line (countsOf "") (" " ++ path)
          errors := call.name ++ ": " ++ path ++ ": Is a directory\n" }
      | .error e => call.refuseFile 1 path e) start
  if operands.length < 2 then r
  else
    let totals := (texts.filterMap fun p => p.2.toOption.map countsOf).foldl
      (fun a b => (a.zip b).map fun p => p.1 + p.2) (countsOf "")
    r ++ ({ output := line totals " total" } : Report)

/-! ### Other orders -/

/-- The number at the start of a line, zero if there is none. -/
def leadingNumber (s : String) : Int :=
  let s := s.toList.dropWhile fun c => c == ' ' || c == '\t'
  let (negative, digits) := DecimalNumeral.takeSign s
  let n : Int := Numeral.value 10 (digits.takeWhile Char.isDigit)
  if negative then -n else n

/-- Sorts lines. -/
def sort : Utility := withOptions "rnufsbdVhcz" "kto" true 2 fun call o =>
  let (r, all) := allLines call o.rest fun path e =>
    call.refuse 2 ("cannot read: " ++ path ++ ": " ++ e.reason)
  let field (s : String) : String :=
    match (o.value? 'k').bind fun k => numeral? (k.toList.takeWhile Char.isDigit) with
    | none => s
    | some n =>
      match (o.value? 't').bind fun t => t.toList.head? with
      | some t => String.ofList ((Text.splitOn t s.toList)[n - 1]?.getD [])
      | none =>
        let words := (Text.splitOn ' ' s.toList).filter fun w => !w.isEmpty
        String.ofList (words[n - 1]?.getD [])
  let key (s : String) : String := if o.has 'f' then (field s).toUpper else field s
  let before (a b : String) : Bool :=
    if o.has 'n' then
      let m := leadingNumber (field a)
      let n := leadingNumber (field b)
      if m = n then (o.has 'u' || a ≤ b) else m < n
    else if key a = key b then (o.has 'u' || a ≤ b)
    else key a < key b
  let alike (a b : String) : Bool :=
    if o.has 'n' then leadingNumber (field a) = leadingNumber (field b) else key a = key b
  if r.status ≠ 0 then r
  else
    let sorted := all.mergeSort (if o.has 'r' then fun a b => before b a else before)
    let sorted :=
      if o.has 'u' then
        sorted.foldr (fun l kept =>
          match kept with
          | next :: _ => if alike l next then l :: kept.tail else l :: kept
          | [] => [l]) []
      else sorted
    match o.value? 'o' with
    | some path =>
      { r with tree? := some (call.tree.write ⟨path⟩ (Utf8.encode (unlines sorted)) false) }
    | none => { r with output := unlines sorted }

/-- Lines that stand next to one another and agree, with how many there are. -/
def runs : List String → List (String × Nat)
  | [] => []
  | l :: rest =>
    match runs rest with
    | (k, n) :: more => if k = l then (k, n + 1) :: more else (l, 1) :: (k, n) :: more
    | [] => [(l, 1)]

/-- Leaves out lines that repeat the one before. -/
def unique : Utility := withOptions "cdui" "fsw" true 1 fun call o =>
  let (r, all) := allLines call (o.rest.take 1) (call.refuseFile 1)
  let kept := (runs all).filter fun p =>
    (!o.has 'd' || decide (1 < p.2)) && (!o.has 'u' || p.2 == 1)
  { r with
    output := unlines (kept.map fun p =>
      if o.has 'c' then padded 7 p.2 ++ " " ++ p.1 else p.1) }

/-! ### Numbers -/

/-- Tells the numbers from one to another. -/
def sequence : Utility := fun call =>
  let numbers := call.arguments.map fun a =>
    let (negative, digits) := DecimalNumeral.takeSign a.toList
    (numeral? digits).map fun n : Nat => if negative then -(n : Int) else n
  match call.arguments.zip numbers |>.find? fun p => p.2.isNone with
  | some (bad, _) => call.misuse 1 ("invalid floating point argument: " ++ quoted bad)
  | none =>
    let between (first step last : Int) : Report :=
      if step = 0 then
        call.misuse 1 ("invalid Zero increment value: " ++ quoted (call.arguments[1]?.getD ""))
      else
        let count := (last - first + step).fdiv step
        { output := unlines ((List.range count.toNat).map fun (i : Nat) =>
            toString (first + step * (i : Int))) }
    match numbers.filterMap id with
    | [last] => between 1 1 last
    | [first, last] => between first 1 last
    | [first, step, last] => between first step last
    | [] => call.missingOperand 1
    | _ => call.misuse 1 ("extra operand " ++ quoted (call.arguments[3]?.getD ""))

/-! ### Parts of lines -/

/-- A range of numbers from one on; without an end it is open. -/
def rangeOf? (s : List Char) : Option (Nat × Option Nat) :=
  match Text.splitOn '-' s with
  | [a] => (numeral? a).map fun n => (n, some n)
  | [[], b] => (numeral? b).map fun n => (1, some n)
  | [a, []] => (numeral? a).map fun n => (n, none)
  | [a, b] => (numeral? a).bind fun m => (numeral? b).map fun n => (m, some n)
  | _ => none

/-- Keeps fields or characters of lines. -/
def cut : Utility := withOptions "sn" "dfcb" true 1 fun call o =>
  let list := ((o.value? 'f').or (o.value? 'c')).or (o.value? 'b')
  match list with
  | none =>
    call.misuse 1 "you must specify a list of bytes, characters, or fields"
  | some list =>
    let ranges := (Text.splitOn ',' list.toList).filterMap rangeOf?
    let chosen (n : Nat) : Bool :=
      ranges.any fun r => decide (r.1 ≤ n) && r.2.all fun last => decide (n ≤ last)
    let d := ((o.value? 'd').bind fun s => s.toList.head?).getD '\t'
    let pick {α : Type} (l : List α) : List α :=
      (l.zipIdx 1).filterMap fun p => if chosen p.2 then some p.1 else none
    let (r, all) := allLines call o.rest (call.refuseFile 1)
    let shown := all.filterMap fun l =>
      if o.has 'f' then
        if l.toList.contains d then
          some (String.ofList (Text.joinWith [d] (pick (Text.splitOn d l.toList))))
        else if o.has 's' then none
        else some l
      else some (String.ofList (Utf8.ofBytewise (pick (Utf8.bytewise l.toList))))
    { r with output := unlines shown }

/-- The characters from one to another. -/
def charsBetween (a b : Char) : List Char :=
  (List.range (b.toNat + 1 - a.toNat)).map fun i => Char.ofNat (a.toNat + i)

/-- The character at the start of a set, possibly written with a backslash, and what follows it. -/
def memberAt : List Char → Option (Char × List Char)
  | [] => none
  | '\\' :: c :: rest =>
    let (byte, after) := Format.escapeAt false (c :: rest)
    if byte == 0x5C && c != '\\' then some (c, rest) else some (Char.ofNat byte.toNat, after)
  | c :: rest => some (c, rest)

/-- The characters of a set as it is written, of at most `fuel` items. -/
def charsOfSet : (fuel : Nat) → List Char → List Char
  | 0, _ => []
  | fuel + 1, s =>
    let classAt? :=
      match s with
      | '[' :: ':' :: rest =>
        let name := rest.takeWhile Char.isAlpha
        match (Pattern.classes.find? fun c => c.1.toList == name), rest.drop name.length with
        | some (_, test), ':' :: ']' :: rest => some (test, rest)
        | _, _ => none
      | _ => none
    match classAt? with
    | some (test, rest) =>
      (charsBetween (Char.ofNat 0) (Char.ofNat 127)).filter test ++ charsOfSet fuel rest
    | none =>
      match memberAt s with
      | none => []
      | some (a, '-' :: rest) =>
        match memberAt rest with
        | some (b, rest) => charsBetween a b ++ charsOfSet fuel rest
        | none => [a, '-']
      | some (a, rest) => a :: charsOfSet fuel rest

/-- The text in which a character of a set does not repeat. -/
def squeeze (set : List Char) : List Char → List Char
  | [] => []
  | c :: rest =>
    match squeeze set rest with
    | d :: more => if c == d && set.contains c then d :: more else c :: d :: more
    | [] => [c]

/-- Replaces, removes or squeezes characters. -/
def translate : Utility := withOptions "dscCt" "" false 1 fun call o =>
  let setOf (s : String) : List Char :=
    charsOfSet (s.utf8ByteSize + 1) (Utf8.bytewise s.toList)
  let done (s : List Char) : Report :=
    { output := String.ofList (Utf8.ofBytewise s), readsInput := true }
  let text := Utf8.bytewise call.input.toList
  let complement := o.has 'c' || o.has 'C'
  match o.rest with
  | [] => call.missingOperand 1
  | first :: more =>
    let set := setOf first
    let isIn (c : Char) : Bool := set.contains c != complement
    match more with
    | [] =>
      if o.has 'd' then done (text.filter fun c => !isIn c)
      else if o.has 's' then
        done (squeeze (if complement then text.filter isIn else set) text)
      else
        call.misuse 1 ("missing operand after " ++ quoted first ++
          "\nTwo strings must be given when translating.")
    | second :: _ =>
      let other := setOf second
      if o.has 'd' then
        let kept := text.filter fun c => !isIn c
        done (if o.has 's' then squeeze other kept else kept)
      else
        let last := other.getLast?
        let swap (c : Char) : Char :=
          if complement then if isIn c then last.getD c else c
          else
            match set.reverse.idxOf? c with
            | some i => (other[set.length - 1 - i]?).getD (last.getD c)
            | none => c
        let swapped := text.map swap
        done (if o.has 's' then squeeze other swapped else swapped)

end LayeredEnv.Shell.Utility
