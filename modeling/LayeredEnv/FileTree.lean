import LayeredEnv.Path

/-!
# A finite tree of files

A `FileTree` lists what stands at which location, a location being the names that lead there from
the root directory.  Looking up a path walks the tree step by step from the working directory and
follows symbolic links, at most forty of them, as an operating system does.  Two path texts name
one file exactly if they lead to one location.

Besides files there may be devices, which can be read and written as files can, but hold nothing and
are no files.

Of permissions there is only the one to execute a file: every file can be read, every directory can
be searched and written to, and nothing changes a tree while it is read.  So reading a file that is
there never fails (`FileTree.exists_read_of_isFile`).  As a cascade reads no path without asking
first whether a file is there, it fails with cycles only (`Site.cases_of_cascade_error`), and the
fault of a file that cannot be read, `Fault.unreadableEnvFile`, does not arise within one.

Main statement: the location of whatever can be read is one of the finitely many
`FileTree.readableLocations` (`FileTree.mem_readableLocations`), which bounds whatever walks the
files.
-/

namespace LayeredEnv

/-- The names that lead to a place from the root directory. -/
abbrev Location := List String

/-- The absolute path of a location. -/
def Location.path (l : Location) : Path :=
  ⟨"/" ++ "/".intercalate l⟩

/-- What may stand at a location. -/
inductive Node
  | file (bytes : List UInt8) (executable : Bool)
  | directory
  | link (target : Path)
  /-- What takes everything that is written to it and gives nothing to read. -/
  | device
  deriving DecidableEq, Repr

/-- The bytes that can be read, if anything can be. -/
def Node.bytes? : Node → Option (List UInt8)
  | file bytes _ => some bytes
  | device => some []
  | directory | link _ => none

/-- Why the operating system refuses a request. -/
inductive IoError
  | notFound
  | isADirectory
  | notADirectory
  | tooManyLinks
  | nameTooLong
  | nulInPath
  | nulInArgument
  | notText
  | permissionDenied
  | notAProgram
  | tooManyProcesses
  deriving DecidableEq, Repr

/-- The reason for a refusal. -/
def IoError.reason : IoError → String
  | notFound => "No such file or directory"
  | isADirectory => "Is a directory"
  | notADirectory => "Not a directory"
  | tooManyLinks => "Too many levels of symbolic links"
  | nameTooLong => "File name too long"
  | nulInPath => "file name contained an unexpected NUL byte"
  | nulInArgument => "nul byte found in provided data"
  | notText => "stream did not contain valid UTF-8"
  | permissionDenied => "Permission denied"
  | notAProgram => "Exec format error"
  | tooManyProcesses => "Resource temporarily unavailable"

/-- The number of a refusal, if the operating system made it. -/
def IoError.number? : IoError → Option Nat
  | notFound => some 2
  | isADirectory => some 21
  | notADirectory => some 20
  | tooManyLinks => some 40
  | nameTooLong => some 36
  | nulInPath | nulInArgument | notText => none
  | permissionDenied => some 13
  | notAProgram => some 8
  | tooManyProcesses => some 11

/-- The words for a refusal. -/
def IoError.message (e : IoError) : String :=
  match e.number? with
  | some n => e.reason ++ " (os error " ++ toString n ++ ")"
  | none => e.reason

/-- Files, directories and links by location, and the directory that relative paths start from. -/
structure FileTree where
  nodes : List (Location × Node)
  workingDirectory : Location
  deriving Repr

namespace FileTree

/-! ### What stands where -/

/-- The node listed first for a location. -/
def listed? (place : Location) : List (Location × Node) → Option Node
  | [] => none
  | (l, node) :: rest => if l = place then some node else listed? place rest

/-- What stands at a location.  Every location above a listed one, or above the working directory,
is a directory. -/
def node? (t : FileTree) (place : Location) : Option Node :=
  match listed? place t.nodes with
  | some node => some node
  | none =>
    if place.isPrefixOf t.workingDirectory || t.nodes.any (fun p => place.isPrefixOf p.1) then
      some .directory
    else none

/-- The bytes that can be read at a location. -/
def bytesAt? (t : FileTree) (place : Location) : Option (List UInt8) :=
  (t.node? place).bind Node.bytes?

/-- The locations listed with something that can be read. -/
def readableLocations (t : FileTree) : List Location :=
  (t.nodes.filter fun p => p.2.bytes?.isSome).map Prod.fst

/-- The tree with `node` at a location. -/
def set (t : FileTree) (place : Location) (node : Node) : FileTree :=
  { t with nodes := (place, node) :: t.nodes.filter fun p => p.1 != place }

/-! ### Looking up paths -/

/-- How many symbolic links one look-up follows. -/
def linkLimit : Nat := 40

/-- The largest number of bytes in a name. -/
def nameLimit : Nat := 255

/-- The largest number of bytes in a path. -/
def pathLimit : Nat := 4095

/-- Where a walk stands when it can go no further by itself: at its end, before a symbolic link with
steps left to take behind it, or in a directory without the name of the last step. -/
inductive Halt
  | arrived (place : Location)
  | atLink (directory : Location) (target : Path) (rest : List (List Char))
  | atFreeName (place : Location)
  deriving Repr

/-- Walks from a directory along the pieces of a path up to its end or to a symbolic link. -/
def walk (t : FileTree) : Location → List (List Char) → Except IoError Halt
  | here, [] => .ok (.arrived here)
  | here, piece :: rest =>
    if Path.isIdle piece then walk t here rest
    else if piece == ['.', '.'] then walk t here.dropLast rest
    else
      let name := String.ofList piece
      if name.utf8ByteSize > nameLimit then .error .nameTooLong
      else
        match t.node? (here ++ [name]) with
        | none => if rest.isEmpty then .ok (.atFreeName (here ++ [name])) else .error .notFound
        | some .directory => walk t (here ++ [name]) rest
        | some (.link target) => .ok (.atLink here target rest)
        | some (.file ..) | some .device =>
          if rest.isEmpty then .ok (.arrived (here ++ [name])) else .error .notADirectory

/-- What a path leads to: something, or a name in a directory that is free. -/
inductive Spot
  | taken (place : Location)
  | free (place : Location)
  deriving DecidableEq, Repr

/-- Walks with a number of links left to follow. -/
def follow (t : FileTree) : Nat → Location → List (List Char) → Except IoError Spot
  | links, here, pieces =>
    match t.walk here pieces with
    | .error e => .error e
    | .ok (.arrived place) => .ok (.taken place)
    | .ok (.atFreeName place) => .ok (.free place)
    | .ok (.atLink directory target rest) =>
      match links with
      | 0 => .error .tooManyLinks
      | links + 1 =>
        if target.text == "" then .error .notFound
        else
          follow t links (if target.isAbsolute then [] else directory) (target.pieces ++ rest)

/-- What a path leads to. -/
def spot (t : FileTree) (p : Path) : Except IoError Spot :=
  if p.text.toList.contains '\x00' then .error .nulInPath
  else if p.text == "" then .error .notFound
  else if p.text.utf8ByteSize > pathLimit then .error .nameTooLong
  else t.follow linkLimit (if p.isAbsolute then [] else t.workingDirectory) p.pieces

/-- The location that a path leads to. -/
def locate (t : FileTree) (p : Path) : Except IoError Location :=
  match t.spot p with
  | .ok (.taken place) => .ok place
  | .ok (.free _) => .error .notFound
  | .error e => .error e

/-- The bytes that can be read where a path leads to. -/
def read (t : FileTree) (p : Path) : Except IoError (List UInt8) :=
  match t.locate p with
  | .error e => .error e
  | .ok place =>
    match t.bytesAt? place with
    | some bytes => .ok bytes
    | none => .error .isADirectory

/-- Whether a path leads anywhere. -/
def pathExists (t : FileTree) (p : Path) : Bool :=
  (t.locate p).isOk

/-- Whether a path leads to a file. -/
def isFile (t : FileTree) (p : Path) : Bool :=
  match t.locate p with
  | .ok place =>
    match t.node? place with
    | some (.file ..) => true
    | _ => false
  | .error _ => false

/-- Whether a path leads to a file that may be executed. -/
def isExecutable (t : FileTree) (p : Path) : Bool :=
  match t.locate p with
  | .ok place =>
    match t.node? place with
    | some (.file _ executable) => executable
    | _ => false
  | .error _ => false

/-- Whether a path leads to a directory. -/
def isDirectory (t : FileTree) (p : Path) : Bool :=
  match t.locate p with
  | .ok place => t.node? place = some .directory
  | .error _ => false

/-- The location of what a path names, be it there or not; a link as the last step is not
followed. -/
def entry (t : FileTree) (p : Path) : Except IoError Location :=
  match p.fileName?, p.parent? with
  | some name, some parent =>
    if parent.text == "" then .ok (t.workingDirectory ++ [name])
    else
      match t.locate parent with
      | .ok place =>
        if t.node? place = some .directory then .ok (place ++ [name]) else .error .notADirectory
      | .error e => .error e
  | _, _ => t.locate p

/-- The names directly below a location, increasing. -/
def children (t : FileTree) (place : Location) : List String :=
  let below := (t.workingDirectory :: t.nodes.map Prod.fst).filterMap fun l =>
    if place.isPrefixOf l then l[place.length]? else none
  below.mergeSort.eraseDups

/-! ### Changing the tree -/

/-- Takes one step from a directory, which is made first if it is not there; a link on the way is
followed if it leads anywhere. -/
def enter (t : FileTree) (here : Location) : Path.Component → FileTree × Location
  | .root => (t, [])
  | .here => (t, here)
  | .up => (t, here.dropLast)
  | .name name =>
    match t.node? (here ++ [name]) with
    | none => (t.set (here ++ [name]) .directory, here ++ [name])
    | some (.link target) =>
      match t.follow linkLimit (if target.isAbsolute then [] else here) target.pieces with
      | .ok (.taken place) => (t, place)
      | _ => (t, here ++ [name])
    | some _ => (t, here ++ [name])

/-- Takes steps from the working directory, making the directories that are not there. -/
def makeDirectories (t : FileTree) (steps : List Path.Component) : FileTree × Location :=
  steps.foldl (fun s step => s.1.enter s.2 step) (t, t.workingDirectory)

/-- The tree with bytes in the file that a path leads to.  The file is made if it is not there, and
one that may be executed stays so. -/
def write (t : FileTree) (p : Path) (bytes : List UInt8) (executable : Bool) : FileTree :=
  match t.spot p with
  | .ok (.free place) => t.set place (.file bytes executable)
  | .ok (.taken place) =>
    match t.node? place with
    | some (.file _ before) => t.set place (.file bytes (executable || before))
    | _ => t
  | .error _ => t

/-- The tree with a node put under a path whose directories are made if they are not there. -/
def put (t : FileTree) (p : Path) : Node → FileTree
  | .directory => (t.makeDirectories p.components).1
  | .file bytes executable =>
    (t.makeDirectories p.components.dropLast).1.write p bytes executable
  | .link target =>
    let (t, directory) := t.makeDirectories p.components.dropLast
    match p.fileName? with
    | some name => t.set (directory ++ [name]) (.link target)
    | none => t
  | .device =>
    let (t, directory) := t.makeDirectories p.components.dropLast
    match p.fileName? with
    | some name => t.set (directory ++ [name]) .device
    | none => t

/-- The tree without what a path names and everything below it; the directory that it was in stays,
and so does what a link leads to. -/
def remove (t : FileTree) (p : Path) : FileTree :=
  match t.entry p with
  | .ok place => { t with nodes := t.nodes.filter fun q => !place.isPrefixOf q.1 }
  | .error _ => t

/-! ### Small laws -/

theorem mem_of_listed? {place : Location} {node : Node} {nodes : List (Location × Node)}
    (h : listed? place nodes = some node) : (place, node) ∈ nodes := by
  induction nodes with
  | nil => simp [listed?] at h
  | cons p rest ih =>
    rw [listed?] at h
    split at h
    · next e =>
      obtain rfl := e
      obtain rfl := Option.some.inj h
      exact List.mem_cons_self ..
    · exact List.mem_cons_of_mem _ (ih h)

theorem mem_nodes_of_bytesAt? {t : FileTree} {place : Location} {bytes : List UInt8}
    (h : t.bytesAt? place = some bytes) :
    ∃ node, (place, node) ∈ t.nodes ∧ node.bytes? = some bytes := by
  obtain ⟨node, hnode, hbytes⟩ := Option.bind_eq_some_iff.1 h
  unfold node? at hnode
  split at hnode
  · next found hl =>
    obtain rfl := Option.some.inj hnode
    exact ⟨_, mem_of_listed? hl, hbytes⟩
  · split at hnode
    · obtain rfl := Option.some.inj hnode
      simp [Node.bytes?] at hbytes
    · simp at hnode

/-- A location where something can be read is one of the finitely many listed with such a thing. -/
theorem mem_readableLocations {t : FileTree} {place : Location} {bytes : List UInt8}
    (h : t.bytesAt? place = some bytes) : place ∈ t.readableLocations := by
  obtain ⟨node, hnode, hbytes⟩ := mem_nodes_of_bytesAt? h
  exact List.mem_map.2 ⟨_, List.mem_filter.2 ⟨hnode, by simp [hbytes]⟩, rfl⟩

theorem isFile_iff {t : FileTree} {p : Path} :
    t.isFile p = true ↔ ∃ place bytes executable,
      t.locate p = .ok place ∧ t.node? place = some (.file bytes executable) := by
  unfold isFile
  cases t.locate p with
  | error e => simp
  | ok place =>
    constructor
    · intro h
      dsimp only at h
      split at h
      · next bytes executable hnode => exact ⟨place, bytes, executable, rfl, hnode⟩
      · simp at h
    · rintro ⟨_, bytes, executable, h, hnode⟩
      obtain rfl := Except.ok.inj h
      simp [hnode]

/-- Every file can be read. -/
theorem exists_read_of_isFile {t : FileTree} {p : Path} (h : t.isFile p = true) :
    ∃ bytes, t.read p = .ok bytes := by
  obtain ⟨place, bytes, executable, hplace, hnode⟩ := isFile_iff.1 h
  exact ⟨bytes, by simp [read, hplace, bytesAt?, hnode, Node.bytes?]⟩

end FileTree

end LayeredEnv
