import LayeredEnv.Proofs.KeyLeftOut
import LayeredEnv.Proofs.LineByLine
import LayeredEnv.Proofs.RenderedFiles
import LayeredEnv.Proofs.SamePath

/-!
# A line appended to the base file

An assignment that is appended to the base file wins over all others, since the base file is the
first of the layers and the line is the last one of it.  That it changes nothing else takes more:
the base file may be read again, as an import or as the file of a mode, by its own path or by a
link.  There the line is read as well, but with its key left out both resolutions agree.

Main statement: `Request.appended_line_decides`.
-/

namespace LayeredEnv

/-! ### The line -/

namespace EnvFile

variable {key value : String}

/-- An assignment with its value in quotes is read as it is meant. -/
theorem readLine_quoted (hkey : IsKey key.toList)
    (hmarker : ∀ marker, Marker marker → ¬ marker <+: key.toList)
    (hvalue : '\n' ∉ value.toList) :
    '\n' ∉ (key ++ "=\"" ++ value ++ "\"").toList ∧
      readLine (key ++ "=\"" ++ value ++ "\"").toList = .directive (.assignment key value) := by
  have hpadding : Padding [] := fun _ hc => absurd hc List.not_mem_nil
  have hquoted : SpellsValue value.toList ('"' :: (value.toList ++ ['"'])) :=
    .quoted (by decide) hvalue
  have hitem : SpellsItem (.directive (.assignment key value))
      (key.toList ++ [] ++ '=' :: ([] ++ '"' :: (value.toList ++ ['"']))) :=
    .assignment hkey hpadding hpadding hquoted (by simpa using hmarker)
  have hline : SpellsLine (.directive (.assignment key value))
      (key ++ "=\"" ++ value ++ "\"").toList := by
    have htext : (key ++ "=\"" ++ value ++ "\"").toList =
        [] ++ (key.toList ++ [] ++ '=' :: ([] ++ '"' :: (value.toList ++ ['"']))) ++ [] := by
      simp
    rw [htext]
    exact .intro hpadding hitem hpadding
  exact ⟨hline.oneLine, hline.readLine_eq⟩

/-- After a line feed such an assignment is one more directive of a file. -/
theorem directivesOf_append_quoted (hkey : IsKey key.toList)
    (hmarker : ∀ marker, Marker marker → ¬ marker <+: key.toList)
    (hvalue : '\n' ∉ value.toList) (bytes : List UInt8) :
    directivesOf (bytes ++ 10 :: Utf8.encode (key ++ "=\"" ++ value ++ "\"")) =
      directivesOf bytes ++ [.assignment key value] := by
  obtain ⟨honeLine, hread⟩ := readLine_quoted hkey hmarker hvalue
  have hline : directives (key ++ "=\"" ++ value ++ "\"").toList = [.assignment key value] := by
    rw [directives, readLines, Text.splitOn_of_not_mem honeLine, List.map_singleton, hread]
    rfl
  rw [directivesOf, Utf8.lossyText_append_lineFeed, directives_append_lineFeed,
    Utf8.lossyText_encode, hline, directivesOf]

end EnvFile

/-- A file rewritten with one more directive at its end is that file appended to. -/
theorem FileTree.Rewritten.appended {t t' : FileTree} {place : Location} {added : Directive}
    {bytes bytes' : List UInt8} (h : t.Rewritten t' place bytes')
    (hbytes : t.bytesAt? place = some bytes)
    (hdirectives : EnvFile.directivesOf bytes' = EnvFile.directivesOf bytes ++ [added]) :
    t.Appended t' place added :=
  ⟨h.shape, ⟨bytes, bytes', hbytes, h.here, hdirectives⟩, h.elsewhere⟩

/-! ### The last assignment of the file -/

/-- The last member of a list that gathers contributes the end. -/
theorem Splice.exists_last_of_gather {α ε : Type} {f : α → Except ε Splice} {l : List α} {x : α}
    {r : Splice} (h : gather f (l ++ [x]) = .ok r) :
    ∃ first last : Splice, f x = .ok last ∧ r = first.append last := by
  rw [gather_append] at h
  cases hfirst : gather f l with
  | error e => simp [hfirst, Except.bind] at h
  | ok first =>
    cases hx : f x with
    | error e => simp [hfirst, hx, gather, Except.bind, Except.map] at h
    | ok last =>
      simp only [hfirst, hx, gather, Except.bind, Except.map, append_empty, Except.ok.injEq] at h
      exact ⟨first, last, rfl, h.symm⟩

namespace Site

variable {s : Site} {tree' : FileTree} {place : Location} {key value : String}

/-- In a splice from the file itself the added assignment is the last one to its key. -/
theorem lastAssignment?_of_appended (h : s.tree.Appended tree' place (.assignment key value))
    {path : Path} (hplace : s.tree.locate path = .ok place)
    {contents : Splice}
    (hcontents : { s with tree := tree' }.splice path = .ok contents) :
    contents.lastAssignment? key = some ⟨key, value, path⟩ := by
  obtain ⟨l, bytes, read, hholds, -, hread, rfl⟩ := spliceFrom_eq_ok_iff.mp hcontents
  have hlocated : tree'.locate path = .ok place := (h.shape.locate path).symm.trans hplace
  obtain rfl : l = place := Except.ok.inj (hholds.located.symm.trans hlocated)
  obtain ⟨before, bytes', -, hbytes', hdirectives⟩ := h.here
  obtain rfl : bytes = bytes' := Option.some.inj (hholds.readable.symm.trans hbytes')
  rw [hdirectives] at hread
  obtain ⟨first, last, hlast, rfl⟩ := Splice.exists_last_of_gather hread
  have hcounts : { s with tree := tree' }.assignmentSplice false path key value =
      ⟨[⟨key, value, path⟩], []⟩ := assignmentSplice_of_counts (by simp)
  obtain rfl : _ = last := Except.ok.inj hlast
  rw [hcounts, Splice.lastAssignment?_append]
  simp [Splice.lastAssignment?]

end Site

/-! ### The base file -/

namespace Request

variable {r : Request} {tree tree' : FileTree} {env : LiveEnvironment} {key value : String}

/-- The base file of a request. -/
def baseFile (r : Request) : Path :=
  (Layer.base r.directory r.scheme).path

/-- The base file comes first of all, so a key has what is assigned to it last there. -/
theorem get?_rawBindings_of_base {place : Location} {c : Cascade}
    (happended : tree.Appended tree' place (.assignment key value))
    (hfile : tree.isFile r.baseFile = true) (hplace : tree.locate r.baseFile = .ok place)
    (hkey : key ≠ r.modeKey) (hcascade : r.cascade tree' env = .ok c) :
    (r.rawBindings env c).get? key = some ⟨value, .file r.baseFile .base⟩ := by
  obtain ⟨fixed, chased, reached, hfixed, -, hscans, -⟩ := Site.exists_chase_of_cascade hcascade
  have hfile' : (r.site tree').tree.isFile r.baseFile = true :=
    (happended.shape.isFile r.baseFile).symm.trans hfile
  obtain ⟨contents, others, hcontents, -, rfl⟩ := (Site.scanned_cons_of_isFile hfile').mp hfixed
  have hlast := Site.lastAssignment?_of_appended (s := r.site tree) happended hplace hcontents
  have hbinding : (Scan.mk (.base r.directory r.scheme) contents).binding? key =
      some ⟨value, .file r.baseFile .base⟩ := by
    have hsame : r.baseFile.same (Layer.base r.directory r.scheme).path = true :=
      Path.same_refl _
    rw [Scan.binding?, hlast, Option.map_some, Scan.originOf, if_pos hsame]
    rfl
  rw [get?_rawBindings hkey, hscans, List.cons_append, List.findSome?_cons, hbinding]
  rfl

/-- The tree with an assignment appended to the base file, which held the bytes, on a line of its
own. -/
def withAppended (r : Request) (tree : FileTree) (bytes : List UInt8) (key value : String) :
    FileTree :=
  tree.write r.baseFile (bytes ++ 10 :: Utf8.encode (key ++ "=\"" ++ value ++ "\"")) false

/-- Without a schema and without requirements, an assignment appended to the base file decides its
key and nothing else, if that is no mode key and has no conversion.  A resolution that succeeds goes
on to do so, with the key bound to the value from the base file, and with the same layers, the same
mode and the same other bindings; one that fails goes on to do so in the same way. -/
theorem appended_line_decides {bytes : List UInt8} (hschema : r.schema = none)
    (hrequired : r.required = []) (hfile : tree.isFile r.baseFile = true)
    (hread : tree.read r.baseFile = .ok bytes) (hmodeKey : key ≠ r.modeKey)
    (hconversion : r.conversions.get? key = none) (hkey : EnvFile.IsKey key.toList)
    (hmarker : ∀ marker, EnvFile.Marker marker → ¬ marker <+: key.toList)
    (hvalue : '\n' ∉ value.toList) :
    (∀ result, r.resolve tree env = .ok result →
      r.resolve (r.withAppended tree bytes key value) env = .ok { result with
        bindings := result.bindings.insert key ⟨.string value, .file r.baseFile .base⟩ }) ∧
    ∀ fault, r.resolve tree env = .error fault →
      r.resolve (r.withAppended tree bytes key value) env = .error fault := by
  obtain ⟨place, hholds⟩ := FileTree.read_eq_ok_iff.mp hread
  have happended : tree.Appended (r.withAppended tree bytes key value) place
      (.assignment key value) :=
    (FileTree.rewritten_write hfile hholds.located _ false).appended hholds.readable
      (EnvFile.directivesOf_append_quoted hkey hmarker hvalue bytes)
  have hcascades : (r.cascade (r.withAppended tree bytes key value) env).map (Cascade.without key) =
      (r.cascade tree env).map (Cascade.without key) :=
    Site.cascade_without (s := r.site tree) happended hmodeKey r.precedence (r.liveMode? env)
  have hresolve : r.resolve (r.withAppended tree bytes key value) env =
      (r.resolve tree env).map fun result => { result with
        bindings := result.bindings.insert key ⟨.string value, .file r.baseFile .base⟩ } := by
    rcases cases_of_map_eq_map hcascades with ⟨e, hx, hy⟩ | ⟨c', c, hx, hy, hwithout⟩
    · rw [resolve, resolve, hx, hy]
      rfl
    · have hbound := get?_rawBindings_of_base happended hfile hholds.located hmodeKey hx
      rw [resolve, resolve, hx, hy]
      exact complete_of_without hschema hrequired hconversion hwithout hbound
  rw [hresolve]
  constructor
  · intro result h
    rw [h]
    rfl
  · intro fault h
    rw [h]
    rfl

/-- The base file, which ends within a character and without a line feed, is the file of its mode
as well, by a link. -/
def linkedBaseTree : FileTree where
  nodes := [
    (["w", ".env"], .file (Utf8.encode "MODE=dev\nA=own" ++ [0xE2, 0x82]) true),
    (["w", ".env.dev"], .link ⟨".env"⟩)]
  workingDirectory := ["w"]

/-- The mode is that of the files. -/
def linkedBaseRequest : Request where
  precedence := .files

/-- `A` has the value of the appended line, and nothing comes of the mode's reading of it. -/
theorem appended_line_linkedBase :
    ∃ bytes, linkedBaseRequest.schema = none ∧ linkedBaseRequest.required = [] ∧
      linkedBaseTree.isFile linkedBaseRequest.baseFile = true ∧
      linkedBaseTree.read linkedBaseRequest.baseFile = .ok bytes ∧
      "A" ≠ linkedBaseRequest.modeKey ∧ linkedBaseRequest.conversions.get? "A" = none ∧
      EnvFile.IsKey "A".toList ∧
      (∀ marker, EnvFile.Marker marker → ¬ marker <+: "A".toList) ∧ '\n' ∉ "last\"".toList ∧
      ∃ result result', linkedBaseRequest.resolve linkedBaseTree (.ofList []) = .ok result ∧
        linkedBaseRequest.resolve
          (linkedBaseRequest.withAppended linkedBaseTree bytes "A" "last\"") (.ofList []) =
            .ok result' ∧
        result'.bindings.get? "A" = some ⟨.string "last\"", .file ⟨"./.env"⟩ .base⟩ ∧
        result'.layers = result.layers ∧ result'.mode = some "dev" := by
  have hbase : linkedBaseRequest.baseFile = ⟨"./.env"⟩ := by decide +kernel
  have hfile : linkedBaseTree.isFile linkedBaseRequest.baseFile = true := by decide +kernel
  have hread : linkedBaseTree.read linkedBaseRequest.baseFile =
      .ok (Utf8.encode "MODE=dev\nA=own" ++ [0xE2, 0x82]) := by
    rw [hbase]
    rfl
  have hkey : EnvFile.IsKey "A".toList := ⟨by decide, by decide, by decide, by decide⟩
  have hmarker : ∀ marker, EnvFile.Marker marker → ¬ marker <+: "A".toList := by
    rintro marker (_ | _ | @⟨c, hc⟩) hbegins
    · exact absurd hbegins (by decide)
    · exact absurd hbegins (by decide)
    · have hlength : 7 ≤ 1 := hbegins.length_le
      exact absurd hlength (by decide)
  have hvalue : '\n' ∉ "last\"".toList := by decide
  have hmode : (linkedBaseRequest.resolve linkedBaseTree (.ofList [])).toOption.map
      Resolution.mode = some (some "dev") := by
    decide +kernel
  refine ⟨_, rfl, rfl, hfile, hread, by decide, rfl, hkey, hmarker, hvalue, ?_⟩
  cases hresult : linkedBaseRequest.resolve linkedBaseTree (.ofList []) with
  | error e => simp [hresult, Except.toOption] at hmode
  | ok result =>
    rw [hresult] at hmode
    have happended := (appended_line_decides rfl rfl hfile hread (by decide) rfl hkey hmarker
      hvalue).1 result hresult
    refine ⟨result, _, rfl, happended, ?_, rfl, Option.some.inj hmode⟩
    rw [KeyMap.get?_insert_self, hbase]

end Request

end LayeredEnv
