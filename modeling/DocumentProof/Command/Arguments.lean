import DocumentProof.Command.Run

/-!
# Arguments of the command line

The arguments name a command, with options before and after. Options that are not of one command may
stand on either side, and there the later side counts. An option is given once at most on each side,
but logging may be asked for repeatedly.
-/

namespace DocumentProof

/-- A call of the program. -/
structure Invocation where
  verbosity : Nat
  config : Option String
  command : Command
deriving DecidableEq

/-- Why arguments name no command to run. -/
inductive Refusal where
  | version
  | help
  | usage
deriving DecidableEq

namespace Arguments

/-! ### Options -/

inductive Setting where
  | verbose
  | config
  | output
  | stem
  | keyFile
  | method
  | noEmbed
deriving DecidableEq

namespace Setting

def long : Setting → String
  | verbose => "verbose"
  | config => "config"
  | output => "output"
  | stem => "prefix"
  | keyFile => "key"
  | method => "verification-method"
  | noEmbed => "no-embed"

def short? : Setting → Option Char
  | verbose => some 'v'
  | output => some 'o'
  | _ => none

def takesValue : Setting → Bool
  | verbose | noEmbed => false
  | _ => true

/-- Paths are never empty. -/
def accepts (value : String) : Setting → Bool
  | config | output | keyFile => value != ""
  | _ => true

end Setting

/-- The options of every command. -/
def common : List Setting := [.verbose, .config]

/-- The options and other arguments of one side. -/
structure Side where
  settings : List (Setting × String)
  files : List String

namespace Side

def value? (s : Side) (key : Setting) : Option String := s.settings.lookup key

def verbosity (s : Side) : Nat := (s.settings.filter (·.1 = .verbose)).length

/-- Adds an option, unless it is there or its value is none. -/
def add (s : Side) (key : Setting) (value : String) : Except Refusal Side :=
  if (key ≠ .verbose ∧ (s.value? key).isSome) ∨ key.accepts value = false then .error .usage
  else .ok { s with settings := s.settings ++ [(key, value)] }

end Side

/-! ### Reading one side -/

/-- Starts like an option. -/
def isDashed (arg : String) : Bool :=
  match arg.toList with
  | '-' :: _ :: _ => true
  | _ => false

/-- A single option as written, with the value that is written in one with it. -/
inductive Written where
  | setting (key : Setting) (value : Option String)
  | help
  | version

/-- An option by its long name. -/
def long? (known : List Setting) (cs : List Char) : Option Written :=
  let name := String.ofList (cs.takeWhile (· ≠ '='))
  let value := match cs.dropWhile (· ≠ '=') with
    | _ :: v => some (String.ofList v)
    | [] => none
  match known.find? (·.long = name) with
  | some key => if key.takesValue ∨ value = none then some (.setting key value) else none
  | none =>
    if value.isSome then none
    else if name = "help" then some .help
    else if name = "version" then some .version
    else none

/-- Options by their letters. The first one with a value takes the rest. -/
def shorts? (known : List Setting) : List Char → Option (List Written)
  | [] => some []
  | c :: cs =>
    match known.find? (·.short? = some c) with
    | some key =>
      if key.takesValue then
        let value := match cs with
          | [] => none
          | '=' :: v => some (String.ofList v)
          | v => some (String.ofList v)
        some [.setting key value]
      else (shorts? known cs).map (.setting key none :: ·)
    | none =>
      if c = 'h' then some [.help] else if c = 'V' then some [.version] else none

/-- Applies options of one argument. The last one may wait for a value in the next argument. -/
def apply (isRoot : Bool) : Side → List Written → Except Refusal (Side × Option Setting)
  | s, [] => .ok (s, none)
  | _, .help :: _ => .error .help
  | _, .version :: _ => .error (if isRoot then .version else .usage)
  | s, .setting key value :: rest =>
    match value, key.takesValue with
    | some v, _ => do
      let s ← s.add key v
      apply isRoot s rest
    | none, false => do
      let s ← s.add key ""
      apply isRoot s rest
    | none, true => .ok (s, some key)

/-- The options of one argument. -/
def written? (known : List Setting) (arg : String) : Option (List Written) :=
  match arg.toList with
  | '-' :: '-' :: cs => (long? known cs).map fun w => [w]
  | '-' :: cs => shorts? known cs
  | _ => none

/-- The side that the arguments begin with, and what follows it. Before the command, that is from
the first argument on that is no option. -/
def readSide (isRoot : Bool) (known : List Setting) :
    Side → List String → Except Refusal (Side × List String)
  | s, [] => .ok (s, [])
  | s, "--" :: rest =>
    if isRoot then .error .usage else .ok ({ s with files := s.files ++ rest }, [])
  | s, arg :: rest =>
    if isDashed arg then
      match written? known arg with
      | none => .error .usage
      | some ws =>
        match apply isRoot s ws with
        | .error r => .error r
        | .ok (s, none) => readSide isRoot known s rest
        | .ok (s, some key) =>
          match rest with
          | value :: rest =>
            if isDashed value then .error .usage
            else
              match s.add key value with
              | .error r => .error r
              | .ok s => readSide isRoot known s rest
          | [] => .error .usage
    else if isRoot then .ok (s, arg :: rest)
    else readSide isRoot known { s with files := s.files ++ [arg] } rest

/-! ### Commands -/

/-- The options of a command. -/
def settingsOf? (name : String) : Option (List Setting) :=
  if name = "types" ∨ name = "verify" then some common
  else if name = "keygen" then some ([.output, .stem] ++ common)
  else if name = "sign" then some ([.keyFile, .method, .noEmbed] ++ common)
  else none

def command (name : String) (s : Side) : Except Refusal Command :=
  match name, s.files with
  | "types", [file] => .ok (.types file)
  | "verify", [file] => .ok (.verify file)
  | "keygen", [] =>
    .ok (.keygen ((s.value? .output).getD ".") ((s.value? .stem).getD "ethsig"))
  | "sign", [file] =>
    .ok (.sign ⟨s.value? .keyFile, s.value? .method, (s.value? .noEmbed).isNone, file⟩)
  | _, _ => .error .usage

/-- The call that arguments ask for. -/
def read (args : List String) : Except Refusal Invocation := do
  let (root, rest) ← readSide true common ⟨[], []⟩ args
  match rest with
  | [] => .error .usage
  | "help" :: _ => .error .help
  | name :: rest =>
    match settingsOf? name with
    | none => .error .usage
    | some known =>
      let (side, _) ← readSide false known ⟨[], []⟩ rest
      if side.files.contains "" then .error .usage
      else
        return {
          verbosity := if side.verbosity = 0 then root.verbosity else side.verbosity
          config := (side.value? .config).or (root.value? .config)
          command := ← command name side }

end Arguments

/-! ### The whole program -/

/-- The outcome of a call: what is printed, and the exit code. -/
structure Report where
  outputs : List Output
  code : UInt8
deriving DecidableEq

def programVersion : String := "ethsig 0.1.0"

def programUsage : String :=
  "Usage: ethsig [-v] [--config PATH] (types FILE | keygen [-o DIR] [--prefix NAME] | "
    ++ "sign [--key PATH] [--verification-method URI] [--no-embed] FILE | verify FILE)"

namespace Invocation

variable {m : Type → Type} [Monad m]

/-- The outcome of a step that gives an exit code. A failure is logged. -/
def report (onError : UInt8) (step : Action m UInt8) : m Report := do
  match ← step.run.run [] with
  | (.ok code, outputs) => return ⟨outputs, code⟩
  | (.error e, outputs) => return ⟨outputs ++ [.log .error e.message []], onError⟩

/-- Runs a call from a directory. The configuration is read and checked first. -/
def run (world : Surroundings m) (directory : String) (call : Invocation) : m Report := do
  match ← (world.files.loadConfig call.config world.lookup).run with
  | .error e => return ⟨[.log .error e.message []], 2⟩
  | .ok config =>
    let base := (call.config.bind Path.parent?).getD directory
    let r ← report 1 (call.command.run world config base)
    return { r with outputs := r.outputs.filter (·.isShown call.verbosity) }

end Invocation

end DocumentProof
