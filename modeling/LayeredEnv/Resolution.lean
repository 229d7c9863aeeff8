import LayeredEnv.Request

/-!
# Resolving a request

The values pass through stages, each of which is a function of its own: the files' bindings, the
mode, the live environment for keys that no file has, conversions of raw text, defaults for keys
that are still absent, and the schema.  The requirements are examined last.  A value and its origin
travel together, so a key has an origin exactly if it has a value.
-/

namespace LayeredEnv

/-- What was resolved: the bindings, every file read in order, and the mode. -/
structure Resolution where
  bindings : KeyMap (Binding Json)
  layers : List Layer
  mode : Option String

namespace Resolution

/-- The values by key. -/
def values (r : Resolution) : Values :=
  r.bindings.map Binding.value

/-- The origins by key. -/
def origins (r : Resolution) : KeyMap Origin :=
  r.bindings.map Binding.origin

/-- The values as the variables of an environment. -/
def environment (r : Resolution) : List (String × String) :=
  r.values.entries.map fun p => (p.1, p.2.display)

end Resolution

namespace Request

/-! ### The stages -/

/-- The bindings with the mode, if there is one. -/
def bindMode (r : Request) (mode : Option ActiveMode) (m : KeyMap (Binding String)) :
    KeyMap (Binding String) :=
  match mode with
  | some mode => m.insert r.modeKey ⟨mode.name, mode.origin⟩
  | none => m

/-- The bindings with the live environment below them, the mode key apart. -/
def fillEnvironment (r : Request) (env : LiveEnvironment) (m : KeyMap (Binding String)) :
    KeyMap (Binding String) :=
  if r.useEnvironment then
    env.vars.foldl
      (fun m p => if p.1 = r.modeKey then m else m.insertIfNew p.1 ⟨p.2, .environment⟩) m
  else m

/-- The value of a key: converted if the key has a conversion, else the raw text. -/
def convertBinding (r : Request) (key : String) (b : Binding String) :
    Except Fault (Binding Json) :=
  match r.conversions.get? key with
  | none => .ok ⟨.string b.value, b.origin⟩
  | some convert =>
    match convert b.value with
    | .ok v => .ok ⟨v, b.origin⟩
    | .error e => .error (.conversion key e)

/-- The bindings with every value converted, up to the first key that fails. -/
def convert (r : Request) (m : KeyMap (Binding String)) : Except Fault (KeyMap (Binding Json)) :=
  m.traverse r.convertBinding

/-- The bindings with the defaults for absent keys. -/
def fillDefaults (r : Request) (m : KeyMap (Binding Json)) : KeyMap (Binding Json) :=
  r.defaults.entries.foldl (fun m p => m.insertIfNew p.1 ⟨p.2, .default⟩) m

/-- The bindings with the schema's values; a key keeps its origin if it has one. -/
def applySchema (r : Request) (m : KeyMap (Binding Json)) : Except Fault (KeyMap (Binding Json)) :=
  match r.schema with
  | none => .ok m
  | some schema =>
    match schema (m.map Binding.value) with
    | .error e => .error (.invalidValues e)
    | .ok values =>
      .ok (values.mapWithKey fun key v =>
        ⟨v, ((m.get? key).map Binding.origin).getD .schema⟩)

/-- The result, if all requirements hold. -/
def examine (r : Request) (result : Resolution) : Except Fault Resolution :=
  match Requirement.examineAll result.values 0 r.required with
  | some shortfall => .error (.missingRequired shortfall)
  | none => .ok result

/-! ### All stages together -/

/-- The bindings before conversion: the files' ones, the mode and the live environment. -/
def rawBindings (r : Request) (env : LiveEnvironment) (c : Cascade) : KeyMap (Binding String) :=
  r.fillEnvironment env (r.bindMode c.mode (c.bindings r.modeKey))

/-- The stages after the cascade. -/
def complete (r : Request) (env : LiveEnvironment) (c : Cascade) : Except Fault Resolution := do
  let converted ← r.convert (r.rawBindings env c)
  let final ← r.applySchema (r.fillDefaults converted)
  r.examine ⟨final, c.layers, c.mode.map ActiveMode.name⟩

/-- The cascade of the request. -/
def cascade (r : Request) (tree : FileTree) (env : LiveEnvironment) : Except Fault Cascade :=
  (r.site tree).cascade r.precedence (r.liveMode? env)

/-- Resolves the request over a tree of files and a live environment. -/
def resolve (r : Request) (tree : FileTree) (env : LiveEnvironment) : Except Fault Resolution := do
  r.complete env (← r.cascade tree env)

end Request

end LayeredEnv
