import LayeredEnv.Shell.Utility

/-!
# Utilities for files

The utilities that list, make, move and remove files, and those that take paths apart.

This is part of `Shell.launch`, the launcher of the runnable program, and of nothing else: what is
stated of requests, commands and actions holds for every launcher.
-/

namespace LayeredEnv.Shell.Utility

/-! ### Paths as text -/

/-- The text without the slashes at its end, unless there is nothing else. -/
def dropSlashes (s : List Char) : List Char :=
  match (s.reverse.dropWhile (· == '/')).reverse with
  | [] => s.take 1
  | kept => kept

/-- The last name of a path, without a suffix unless that is all of it. -/
def lastName (s : String) (suffix : String) : String :=
  let s := dropSlashes s.toList
  let name := (s.reverse.takeWhile (· != '/')).reverse
  let name := if name.isEmpty then s else name
  let short := name.take (name.length - suffix.length)
  String.ofList <|
    if !short.isEmpty && short ++ suffix.toList == name then short else name

/-- The path without its last name. -/
def directoryName (s : String) : String :=
  let s := dropSlashes s.toList
  let before := (s.reverse.dropWhile (· != '/')).reverse
  if before.isEmpty then "." else String.ofList (dropSlashes before)

/-- Tells the last names of paths. -/
def baseNames : Utility := withOptions "az" "s" false 1 fun call o =>
  match o.rest with
  | [] => call.missingOperand 1
  | paths =>
    if o.has 'a' || (o.value? 's').isSome then
      { output := unlines (paths.map fun p => lastName p ((o.value? 's').getD "")) }
    else
      match paths with
      | [p] => { output := lastName p "" ++ "\n" }
      | [p, suffix] => { output := lastName p suffix ++ "\n" }
      | _ :: _ :: extra =>
        call.misuse 1 ("extra operand " ++ quoted (extra.headD ""))
      | [] => {}

/-- Tells paths without their last names. -/
def directoryNames : Utility := fun call =>
  match call.arguments with
  | [] => call.missingOperand 1
  | paths => { output := unlines (paths.map directoryName) }

/-- Tells where links lead, or with `-f` where paths lead. -/
def readLinks : Utility := withOptions "femn" "" true 1 fun call o =>
  let answers := o.rest.map fun path =>
    if o.has 'f' || o.has 'e' || o.has 'm' then
      match call.tree.spot ⟨path⟩ with
      | .ok (.taken place) => some (Location.path place).text
      | .ok (.free place) => if o.has 'e' then none else some (Location.path place).text
      | .error _ => none
    else
      match call.tree.entry ⟨path⟩ with
      | .ok place =>
        match call.tree.node? place with
        | some (.link target) => some target.text
        | _ => none
      | .error _ => none
  let text := unlines (answers.filterMap id)
  { status := if answers.all Option.isSome then 0 else 1
    output := if o.has 'n' then String.ofList text.toList.dropLast else text }

/-- Tells where paths lead. -/
def realPaths : Utility := withOptions "emsqz" "" true 1 fun call o =>
  o.rest.foldl (fun r path =>
    r ++ match call.tree.spot ⟨path⟩ with
      | .ok (.taken place) => { output := (Location.path place).text ++ "\n" }
      | .ok (.free place) =>
        if o.has 'e' then call.refuse 1 (path ++ ": " ++ IoError.reason .notFound)
        else { output := (Location.path place).text ++ "\n" }
      | .error e => call.refuse 1 (path ++ ": " ++ e.reason)) ({} : Report)

/-! ### Lists -/

/-- Lists files and what directories hold. -/
def list : Utility := withOptions "1aAdCFprUf" "" true 2 fun call o =>
  let operands := if o.rest.isEmpty then ["."] else o.rest.mergeSort
  let isHeld (path : String) : Bool := call.tree.isDirectory ⟨path⟩ && !o.has 'd'
  let missing := operands.filter fun path => !call.tree.pathExists ⟨path⟩ &&
    (match call.tree.entry ⟨path⟩ with
      | .ok place => (call.tree.node? place).isNone
      | .error _ => true)
  let present := operands.filter fun path => !missing.contains path
  let marked (directory name : String) : String :=
    let path : Path := Path.join ⟨directory⟩ name
    if o.has 'p' || o.has 'F' then
      if call.tree.isDirectory path then name ++ "/" else name
    else name
  let ordered (names : List String) : List String := if o.has 'r' then names.reverse else names
  let held (path : String) : String :=
    match call.tree.locate ⟨path⟩ with
    | .ok place =>
      let names := call.tree.children place
      let all := o.has 'a' || o.has 'f'
      let names := if all || o.has 'A' then names
        else names.filter fun n => !n.startsWith "."
      unlines (ordered ((if all then [".", ".."] else []) ++ names.map (marked path)))
    | .error _ => ""
  let files := present.filter fun p => !isHeld p
  let directories := present.filter isHeld
  let named := 1 < operands.length
  let blocks := (if files.isEmpty then [] else [unlines (ordered (files.map (marked "")))]) ++
    (ordered directories).map fun p => (if named then p ++ ":\n" else "") ++ held p
  { status := if missing.isEmpty then 0 else 2
    output := "\n".intercalate blocks
    errors := String.join (missing.map fun p =>
      call.name ++ ": cannot access " ++ quoted p ++ ": " ++
        (match call.tree.locate ⟨p⟩ with
          | .error e => e.reason
          | .ok _ => "") ++ "\n") }

/-! ### Changes -/

/-- Changes files one operand after the other. -/
def eachChange (call : Call) (operands : List String) (f : FileTree → String → Report) : Report :=
  operands.foldl (fun r path => r ++ f (r.tree?.getD call.tree) path) {}

/-- Removes files. -/
def removeFiles : Utility := withOptions "frRdiv" "" true 1 fun call o =>
  if o.rest.isEmpty then if o.has 'f' then {} else call.missingOperand 1
  else
    eachChange call o.rest fun tree path =>
      match tree.entry ⟨path⟩ with
      | .error .notFound =>
        if o.has 'f' then {}
        else call.refuse 1 ("cannot remove " ++ quoted path ++ ": " ++ IoError.reason .notFound)
      | .error e => call.refuse 1 ("cannot remove " ++ quoted path ++ ": " ++ e.reason)
      | .ok place =>
        match tree.node? place with
        | none =>
          if o.has 'f' then {}
          else call.refuse 1 ("cannot remove " ++ quoted path ++ ": " ++ IoError.reason .notFound)
        | some .directory =>
          if o.has 'r' || o.has 'R' then { tree? := some (tree.remove ⟨path⟩) }
          else
            call.refuse 1 ("cannot remove " ++ quoted path ++ ": " ++
              IoError.reason .isADirectory)
        | some _ => { tree? := some (tree.remove ⟨path⟩) }

/-- Removes directories that hold nothing. -/
def removeDirectories : Utility := withOptions "pv" "" true 1 fun call o =>
  if o.rest.isEmpty then call.missingOperand 1
  else
    eachChange call o.rest fun tree path =>
      let refuse (e : String) : Report :=
        call.refuse 1 ("failed to remove " ++ quoted path ++ ": " ++ e)
      match tree.locate ⟨path⟩ with
      | .error e => refuse e.reason
      | .ok place =>
        if tree.node? place ≠ some .directory then refuse (IoError.reason .notADirectory)
        else if !(tree.children place).isEmpty then refuse "Directory not empty"
        else { tree? := some (tree.remove ⟨path⟩) }

/-- Makes directories. -/
def makeDirectories : Utility := withOptions "pv" "m" true 1 fun call o =>
  if o.rest.isEmpty then call.missingOperand 1
  else
    eachChange call o.rest fun tree path =>
      let refuse (e : String) : Report :=
        call.refuse 1 ("cannot create directory " ++ quoted path ++ ": " ++ e)
      if o.has 'p' then
        if tree.pathExists ⟨path⟩ && !tree.isDirectory ⟨path⟩ then refuse "File exists"
        else { tree? := some (tree.put ⟨path⟩ .directory) }
      else
        match tree.entry ⟨path⟩ with
        | .error e => refuse e.reason
        | .ok place =>
          if (tree.node? place).isSome then refuse "File exists"
          else { tree? := some (tree.set place .directory) }

/-- Makes files that are not there. -/
def touch : Utility := withOptions "acmh" "dtr" true 1 fun call o =>
  if o.rest.isEmpty then
    call.misuse 1 "missing file operand"
  else
    eachChange call o.rest fun tree path =>
      match tree.spot ⟨path⟩ with
      | .ok (.taken _) => {}
      | .ok (.free place) =>
        if o.has 'c' then {} else { tree? := some (tree.set place (.file [] false)) }
      | .error e => call.refuse 1 ("cannot touch " ++ quoted path ++ ": " ++ e.reason)

/-- Where a file goes that is copied or moved to a path. -/
def targetOf (tree : FileTree) (source target : String) : Path :=
  if tree.isDirectory ⟨target⟩ then Path.join ⟨target⟩ (lastName source "") else ⟨target⟩

/-- The tree with everything at a location and below it also at another one. -/
def graft (tree : FileTree) (source target : Location) : FileTree :=
  let moved := tree.nodes.filterMap fun (l, node) =>
    if source.isPrefixOf l then some (target ++ l.drop source.length, node) else none
  moved.foldl (fun t p => t.set p.1 p.2) tree

/-- Carries sources to the last operand. -/
def carry (call : Call) (operands : List String) (one : FileTree → String → Path → Report) :
    Report :=
  match operands.reverse with
  | [] => call.misuse 1 "missing file operand"
  | [only] => call.misuse 1 ("missing destination file operand after " ++ quoted only)
  | target :: sources =>
    if 1 < sources.length && !call.tree.isDirectory ⟨target⟩ then
      let reason : IoError := if call.tree.pathExists ⟨target⟩ then .notADirectory else .notFound
      call.refuse 1 ("target " ++ quoted target ++ ": " ++ reason.reason)
    else
      eachChange call sources.reverse fun tree source =>
        one tree source (targetOf tree source target)

/-- Copies files. -/
def copy : Utility := withOptions "afiprRvnLPdu" "" true 1 fun call o =>
  carry call o.rest fun tree source target =>
    match tree.locate ⟨source⟩ with
    | .error e => call.refuse 1 ("cannot stat " ++ quoted source ++ ": " ++ e.reason)
    | .ok place =>
      match tree.bytesAt? place with
      | some bytes =>
        match tree.spot target with
        | .error e =>
          call.refuse 1
            ("cannot create regular file " ++ quoted target.text ++ ": " ++ e.reason)
        | .ok spot =>
          if spot = .taken place then
            call.refuse 1
              (quoted source ++ " and " ++ quoted target.text ++ " are the same file")
          else
            let isNew := match spot with | .free _ => true | .taken _ => false
            { tree? := some (tree.write target bytes (isNew && tree.isExecutable ⟨source⟩)) }
      | none =>
        if o.has 'r' || o.has 'R' || o.has 'a' then
          match tree.entry target with
          | .ok there => { tree? := some ((graft tree place there).set there .directory) }
          | .error e =>
            call.refuse 1
              ("cannot create directory " ++ quoted target.text ++ ": " ++ e.reason)
        else call.refuse 1 ("-r not specified; omitting directory " ++ quoted source)

/-- Moves files. -/
def move : Utility := withOptions "finvu" "" true 1 fun call o =>
  carry call o.rest fun tree source target =>
    let refuse (e : IoError) : Report :=
      call.refuse 1 ("cannot stat " ++ quoted source ++ ": " ++ e.reason)
    match tree.entry ⟨source⟩ with
    | .error e => refuse e
    | .ok place =>
      if (tree.node? place).isNone then refuse .notFound
      else
        match tree.entry target with
        | .error e =>
          call.refuse 1 ("cannot move " ++ quoted source ++ " to " ++
            quoted target.text ++ ": " ++ e.reason)
        | .ok there =>
          if there = place then
            call.refuse 1
              (quoted source ++ " and " ++ quoted target.text ++ " are the same file")
          else { tree? := some ((graft (tree.remove target) place there).remove ⟨source⟩) }

/-- Makes links. -/
def makeLinks : Utility := withOptions "sfnv" "" true 1 fun call o =>
  let operands :=
    match o.rest with
    | [only] => [only, "."]
    | all => all
  carry call operands fun tree source target =>
    let kind := if o.has 's' then "symbolic link " else "hard link "
    match tree.entry target with
    | .error e =>
      call.refuse 1 ("failed to create " ++ kind ++ quoted target.text ++ ": " ++ e.reason)
    | .ok there =>
      if (tree.node? there).isSome && !o.has 'f' then
        call.refuse 1
          ("failed to create " ++ kind ++ quoted target.text ++ ": File exists")
      else if o.has 's' then { tree? := some ((tree.remove target).set there (.link ⟨source⟩)) }
      else
        match tree.entry ⟨source⟩ with
        | .ok place =>
          match tree.node? place with
          | some node => { tree? := some ((tree.remove target).set there node) }
          | none =>
            call.refuse 1 ("failed to access " ++ quoted source ++ ": " ++
              IoError.reason .notFound)
        | .error e =>
          call.refuse 1 ("failed to access " ++ quoted source ++ ": " ++ e.reason)

/-- Whether a mode lets a file be executed; `none` if it leaves that alone. -/
def executableAfter (mode : String) : Option Bool :=
  let digits := mode.toList
  if !digits.isEmpty && digits.all Char.isDigit then
    some (Numeral.value 8 digits % 2 = 1 || Numeral.value 8 digits / 64 % 2 = 1)
  else if digits.contains 'x' then some (digits.contains '+' || digits.contains '=')
  else none

/-- Changes whether files may be executed. -/
def changeMode : Utility := fun call =>
  match call.arguments.filter fun a => a != "-R" && a != "--" with
  | [] => call.missingOperand 1
  | [mode] =>
    call.misuse 1 ("missing operand after " ++ quoted mode)
  | mode :: paths =>
    eachChange call paths fun tree path =>
      match tree.locate ⟨path⟩ with
      | .error e => call.refuse 1 ("cannot access " ++ quoted path ++ ": " ++ e.reason)
      | .ok place =>
        match tree.node? place, executableAfter mode with
        | some (.file bytes _), some x => { tree? := some (tree.set place (.file bytes x)) }
        | _, _ => {}

end LayeredEnv.Shell.Utility
