import DocumentProof.Command.Error
import DocumentProof.Config.Yaml
import DocumentProof.Json.Reader
import DocumentProof.Wallet.Basic

/-!
# Files that commands use

Commands reach files through `Files`, so that they run on the files of the machine and on a
`FileStore` alike. What they read is a JSON document, a configuration, or the documents that a
configuration lists.
-/

namespace DocumentProof

/-- Access to files. -/
structure Files (m : Type → Type) where
  contains : String → m Bool
  isDirectory : String → m Bool
  readText : String → m (Except FileFault String)
  makeDirectory : String → m (Except FileFault Unit)
  write : String → String → m (Except FileFault Unit)

/-- The files of a store. -/
def FileStore.files : Files (StateM FileStore) where
  contains path := do return (← get).contains path
  isDirectory path := do return ((← get).find path).toOption.any FileTree.isDirectory
  readText path := do return (← get).readText path
  makeDirectory path := do
    match (← get).makeDirectory path with
    | .ok s =>
      set s
      return .ok ()
    | .error fault => return .error fault
  write path text := do
    match (← get).write path (Bytes.ofString text) with
    | .ok s =>
      set s
      return .ok ()
    | .error fault => return .error fault

namespace Files

variable {m : Type → Type} [Monad m]

/-- The result of a step, or the failure that its fault amounts to. -/
def orFail {α : Type} (fail : FileFault → CommandError) (step : m (Except FileFault α)) :
    ExceptT CommandError m α := do
  match ← (step : m _) with
  | .ok a => return a
  | .error fault => throw (fail fault)

/-! ### Directories -/

/-- Makes a directory, or accepts the one at hand. -/
def ensureOne (files : Files m) (path : String) : m (Except FileFault Unit) := do
  match ← files.makeDirectory path with
  | .ok () => return .ok ()
  | .error fault => return if ← files.isDirectory path then .ok () else .error fault

/-- Makes a directory and those above it, at most `n`. -/
def ensureFrom (files : Files m) : Nat → String → m (Except FileFault Unit)
  | 0, _ => return .error .missing
  | n + 1, path => do
    if path = "" then return .ok ()
    match ← files.ensureOne path with
    | .error .missing =>
      match Path.parent? path with
      | none => return .error (.other "failed to create whole tree")
      | some above =>
        match ← files.ensureFrom n above with
        | .ok () => files.ensureOne path
        | .error fault => return .error fault
    | result => return result

def ensureDirectory (files : Files m) (path : String) : m (Except FileFault Unit) :=
  files.ensureFrom (path.length + 1) path

/-! ### Documents -/

/-- A path as seen from a directory, if that leads to a file; else as it is. -/
def resolve (files : Files m) (path base : String) : m String := do
  if Path.isAbsolute path then return path
  let joined := Path.join base path
  return if ← files.contains joined then joined else path

/-- The JSON object of a file. -/
def readDocument (files : Files m) (path : String) : ExceptT CommandError m Json := do
  unless ← files.contains path do throw (.documentMissing path)
  let text ← orFail (.documentUnreadable path) (files.readText path)
  match Json.read? text with
  | none => throw (.documentNotJson path)
  | some (.object ms) => return .object ms
  | some _ => throw (.documentNotObject path)

/-- The document that a URI stands for. -/
def readRemote (files : Files m) (base : String) (entry : String × String) :
    ExceptT CommandError m (String × Json) := do
  let path ← files.resolve entry.2 base
  let text ← orFail (.remoteUnreadable entry.1 path) (files.readText path)
  match (Yaml.Node.read? text).bind (·.toJson?) with
  | some x => return (entry.1, x)
  | none => throw (.remoteNotYaml path)

/-- All documents that a configuration lists. -/
def readRemotes (files : Files m) (config : Config) (base : String) :
    ExceptT CommandError m (KeyMap Json) := do
  return KeyMap.ofList (← config.documents.entries.mapM (files.readRemote base))

/-! ### Configurations -/

def readConfig (files : Files m) (path : String) : ExceptT CommandError m Config := do
  let text ← orFail (.configUnreadable path) (files.readText path)
  match Config.ofYaml? text with
  | some config => return config
  | none => throw (.configNotYaml path)

/-- The configuration of a file, if one is given, under an environment. -/
def loadConfig (files : Files m) (path : Option String) (lookup : String → Option String) :
    ExceptT CommandError m Config := do
  let config ← match path with
    | some path => files.readConfig path
    | none => pure Config.default
  let config ← ExceptT.mk (pure (Except.mapError .config (config.withEnvironment lookup)))
  ExceptT.mk (pure (Except.mapError .config config.validate))
  return config

/-! ### Keys -/

/-- The variable that holds a key. -/
def keyVariable : String := "ETHSIG_PRIVATE_KEY"

def keyText (files : Files m) (path : Option String) (lookup : String → Option String) :
    ExceptT CommandError m String := do
  match path, lookup keyVariable with
  | some path, _ =>
    unless ← files.contains path do throw (.keyMissing path)
    orFail (.keyUnreadable path) (files.readText path)
  | none, some text => return text
  | none, none => throw .noKey

/-- The wallet of the key in a file, or else in the environment. -/
def loadWallet (files : Files m) (path : Option String) (lookup : String → Option String) :
    ExceptT CommandError m Wallet := do
  let text ← files.keyText path lookup
  ExceptT.mk (pure (Except.mapError .invalidKey (Wallet.ofHex text)))

end Files

end DocumentProof
