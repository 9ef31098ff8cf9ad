import PearlAlgo.Config.Migration
import PearlAlgo.Py.Path
import PearlAlgo.Py.Seq

/-!
# Reading a runtime config (`config/config_file.py`)

An explicit path or `PEARLALGO_CONFIG_PATH` comes first, then the canonical live config, then the legacy stack of
`base.yaml` and the only account overlay.
-/

namespace PearlAlgo
open Yaml Py

namespace ConfigFile

/-! ### Substitution of environment variables -/

abbrev Environ := String → Option String

/-- `${name}` or `${name:default}` at the start of a text: the name, the default and the length. -/
def variableAt : List Char → Option (String × Option String × Nat)
  | '$' :: '{' :: t =>
    let name := t.takeWhile fun c => c ≠ '}' ∧ c ≠ ':'
    if name = [] then none
    else
      match t.drop name.length with
      | '}' :: _ => some (String.ofList name, none, name.length + 3)
      | ':' :: t =>
        let default := t.takeWhile fun c => c ≠ '}'
        if t.drop default.length = [] then none
        else some (String.ofList name, some (String.ofList default), name.length + default.length + 4)
      | _ => none
  | _ => none

/-- The text with its variables replaced, after the characters that are skipped. -/
def substitute (env : Environ) : Nat → List Char → List Char
  | _, [] => []
  | skip + 1, _ :: t => substitute env skip t
  | 0, c :: t =>
    match variableAt (c :: t) with
    | some (name, default, n) =>
      ((((env name).or default).map String.toList).getD ((c :: t).take n)) ++ substitute env (n - 1) t
    | none => c :: substitute env 0 t

mutual

def substituteEnvVars (env : Environ) : Datum → Datum
  | .scalar (.str s) => .str (String.ofList (substitute env 0 s.toList))
  | .scalar s => .scalar s
  | .list l => .list (substituteList env l)
  | .map m => .map (substituteMap env m)

def substituteList (env : Environ) : List Datum → List Datum
  | [] => []
  | v :: l => substituteEnvVars env v :: substituteList env l

def substituteMap (env : Environ) : List (Key × Datum) → List (Key × Datum)
  | [] => []
  | (k, v) :: m => (k, substituteEnvVars env v) :: substituteMap env m

end

/-- The host falls back to its default, and an unknown variable stays. -/
example : substituteEnvVars (fun name => if name = "PORT" then some "4002" else none)
    (.str (String.ofList ['$', '{', 'H', ':', 'x', '}', ':', '$', '{', 'P', 'O', 'R', 'T', '}', '$', '{', 'Q', '}'])) =
      .str (String.ofList ['x', ':', '4', '0', '0', '2', '$', '{', 'Q', '}']) := by decide +kernel

/-! ### Files -/

/-- What is at a path; it has no document where it cannot be read as a mapping. -/
structure Node where
  mtime : ℚ
  doc : Option Document

/-- The nodes by their resolved paths, and the names in `config/accounts`. -/
structure Disk where
  node : PyPath → Option Node
  accounts : List String

/-- The project root, the working directory and what `Path.resolve` makes of an absolute path. -/
structure Layout where
  root : PyPath
  cwd : PyPath
  resolve : PyPath → PyPath

variable (w : Layout) (disk : Disk) (env : Environ)

def canonicalLiveConfigPath : PyPath := w.root.div (.ofText "config/live/tradovate_paper.yaml")

def legacyBaseConfigPath : PyPath := w.root.div (.ofText "config/base.yaml")

def legacyAccountsDir : PyPath := w.root.div (.ofText "config/accounts")

def nodeAt (p : PyPath) : Option Node := disk.node (w.resolve p)

/-- `_load_yaml_file`, `none` where it raises. -/
def loadYamlFile (n : Node) : Option Mapping := n.doc.map fun d => substituteMap env d.entries

/-- A file that does not exist counts as empty. -/
def loadIfExists (p : PyPath) : Option Mapping :=
  match nodeAt w disk p with
  | some n => loadYamlFile env n
  | none => some []

def endsWith (s t : String) : Bool := t.toList.isSuffixOf s.toList

/-- The account files that count as overlays. -/
def isOverlay (name : String) : Bool :=
  (endsWith name ".yaml" || endsWith name ".yml") && name.toList.head? ≠ some '.' && !isIn "backup" name

/-- `_resolve_default_config_source`: the path of the config, or of the overlay of the legacy stack. -/
def resolveDefaultConfigSource : Option PyPath × Option PyPath :=
  match env "PEARLALGO_CONFIG_PATH" with
  | some envPath => if envPath ≠ "" then (some (.ofText envPath), none) else fallback
  | none => fallback
where
  fallback : Option PyPath × Option PyPath :=
    if (nodeAt w disk (canonicalLiveConfigPath w)).isSome then (some (canonicalLiveConfigPath w), none)
    else
      match disk.accounts.filter isOverlay with
      | [name] => (none, some ((legacyAccountsDir w).div (.ofText name)))
      | _ => (none, none)

def loadLegacyMergedConfig (overlayPath : Option PyPath) : Option Mapping :=
  (loadIfExists w disk env (legacyBaseConfigPath w)).bind fun base =>
    ((overlayPath.map (loadIfExists w disk env)).getD (some [])).map fun overlay =>
      if base = [] ∧ overlay = [] then [] else deepMerge base overlay

/-- `load_config_yaml`, which is empty where reading raises. -/
def loadConfigYaml (configPath : Option PyPath) : Mapping :=
  let source := match configPath with
    | some p => (some p, none)
    | none => resolveDefaultConfigSource w disk env
  match source with
  | (some p, _) =>
    let resolved := if p.absolute then p else w.resolve (w.root.div p)
    match nodeAt w disk resolved with
    | none => []
    | some n =>
      let data :=
        if resolved.parts.dropLast.getLast? = some "accounts" then loadLegacyMergedConfig w disk env (some resolved)
        else loadYamlFile env n
      (data.map RuntimeConfig.migrate).getD []
  | (none, overlayPath) =>
    match loadLegacyMergedConfig w disk env overlayPath with
    | some data => if data = [] then [] else RuntimeConfig.migrate data
    | none => []

end ConfigFile

end PearlAlgo
