import PearlAlgo.Py.Path
import PearlAlgo.Py.Seq

/-!
# The directories of `kill_request.flag`

The breaker's profit lock (`market_agent/trading_circuit_breaker.py`) and the adapter's failure handler
(`execution/tradovate/adapter.py`) write the flag, and `check_execution_control_flags` reads it in the directory of the
state manager. `ensure_state_dir` (`utils/paths.py`) finds the last two; the first one is fixed.
-/

namespace PearlAlgo
open Py

/-- `PEARLALGO_STATE_DIR` and `PEARLALGO_MARKET`. -/
structure StateEnv where
  stateDir : Option String := none
  market : Option String := none

/-- Where the code is installed, and how the host reads a path: `expanduser` and `resolve` of `pathlib`. -/
structure Host where
  /-- `Path(__file__).resolve()` of the breaker's module -/
  file : PyPath
  expanduser : PyPath → PyPath
  resolve : PyPath → PyPath

namespace StateEnv
variable (upper : String → String) (env : StateEnv)

/-- `str(market or "NQ").strip().upper()` -/
def marketLabel : String := upper (strip (if env.market.getD "" = "" then "NQ" else env.market.getD ""))

/-- The directory that `ensure_state_dir` takes when it is given none; an empty variable counts as unset. -/
def dir : PyPath :=
  if env.stateDir.getD "" = "" then
    ((PyPath.ofText "data").div (.ofText "agent_state")).div (.ofText (env.marketLabel upper))
  else .ofText (env.stateDir.getD "")

end StateEnv

namespace Host
variable (upper : String → String) (host : Host) (env : StateEnv)

/-- `ensure_state_dir`; it also makes the directory. -/
def ensureStateDir (stateDir : Option PyPath) : PyPath :=
  host.resolve (host.expanduser (stateDir.getD (env.dir upper)))

/-- The directory that `_trip_session_profit_lock` writes to. -/
def profitLockDir : PyPath :=
  (((host.file.parents 3).div (.ofText "data")).div (.ofText "tradovate")).div (.ofText "paper")

/-- The directory that `_request_kill_switch_on_failure` writes to. -/
def failureDir : PyPath := host.ensureStateDir upper env none

/-- `state_manager.state_dir` of a service that is configured with `stateDir`. -/
def watchedDir (stateDir : Option PyPath) : PyPath := host.ensureStateDir upper env stateDir

/-- Both producers write the flag where the service reads it. -/
def FlagsReach (stateDir : Option PyPath) : Prop :=
  host.resolve host.profitLockDir = host.watchedDir upper env stateDir ∧
    host.failureDir upper env = host.watchedDir upper env stateDir

/-- The path stands for the directory `data/tradovate/paper` of the repository. -/
def NamesPaper (dir : PyPath) : Prop := host.resolve (host.expanduser dir) = host.resolve host.profitLockDir

/-- The flags reach the service if and only if the directory of the environment is the fixed one, and an explicit
directory is too. -/
theorem flagsReach_iff (stateDir : Option PyPath) : host.FlagsReach upper env stateDir ↔
    host.NamesPaper (env.dir upper) ∧ ∀ dir, stateDir = some dir → host.NamesPaper dir := by
  unfold FlagsReach failureDir watchedDir ensureStateDir
  rw [Option.getD_none]
  constructor
  · rintro ⟨hlock, hfailure⟩
    refine ⟨hfailure.trans hlock.symm, ?_⟩
    rintro dir rfl
    exact hlock.symm
  · rintro ⟨henv, hexplicit⟩
    rcases stateDir with _ | dir
    · exact ⟨henv.symm, rfl⟩
    · have hdir := hexplicit dir rfl
      exact ⟨hdir.symm, henv.trans hdir.symm⟩

end Host

/-! ### A host without symbolic links -/

/-- `cwd` and `home` are absolute. -/
def plainHost (file : PyPath) (cwd home : List String) : Host where
  file
  expanduser p := if p.absolute = false ∧ p.parts.head? = some "~" then ⟨true, home ++ p.parts.tail⟩ else p
  resolve p := ⟨true, PyPath.normalize (if p.absolute then p.parts else cwd ++ p.parts)⟩

/-- Where nothing is configured, no flag of the profit lock reaches the service. -/
theorem default_unreached {upper : String → String} {file : PyPath} {cwd home : List String} {env : StateEnv} {name : String}
    (henv : env.stateDir = none) (hname : PyPath.ofText (env.marketLabel upper) = ⟨false, [name]⟩) (hup : name ≠ "..") :
    (plainHost file cwd home).resolve (plainHost file cwd home).profitLockDir ≠
      (plainHost file cwd home).watchedDir upper env none := by
  have hdefault : env.dir upper = ⟨false, ["data", "agent_state", name]⟩ := by
    unfold StateEnv.dir
    rw [henv, Option.getD_none, if_pos rfl, hname]
    rfl
  have hpaper : ∃ base, (plainHost file cwd home).resolve (plainHost file cwd home).profitLockDir =
      ⟨true, PyPath.normalize (base ++ ["data", "tradovate", "paper"])⟩ := by
    have hdir : (plainHost file cwd home).profitLockDir =
        ⟨file.absolute, (file.parents 3).parts ++ ["data"] ++ ["tradovate"] ++ ["paper"]⟩ := rfl
    rw [hdir]
    rcases habs : file.absolute with _ | _
    · exact ⟨cwd ++ (file.parents 3).parts, by simp [plainHost]⟩
    · exact ⟨(file.parents 3).parts, by simp [plainHost]⟩
  have hwatched : (plainHost file cwd home).watchedDir upper env none =
      ⟨true, PyPath.normalize (cwd ++ ["data", "agent_state", name])⟩ := by
    unfold Host.watchedDir Host.ensureStateDir
    rw [Option.getD_none, hdefault]
    rfl
  obtain ⟨base, hbase⟩ := hpaper
  rw [hbase, hwatched, PyPath.normalize_append (by simp), PyPath.normalize_append (by simp [hup])]
  intro heq
  have hparts := congrArg PyPath.parts heq
  obtain ⟨-, hlast⟩ := List.append_inj' hparts rfl
  simp at hlast

/-- The flag of the profit lock goes where a default installation does not look. -/
theorem not_flagsReach : ¬ ∀ (upper : String → String) (host : Host) (env : StateEnv) (stateDir : Option PyPath),
    host.FlagsReach upper env stateDir := by
  intro h
  have hreach := h String.toUpper (plainHost ⟨true, ["repo", "src", "pearlalgo", "market_agent", "trading_circuit_breaker.py"]⟩
    ["repo"] ["home"]) {} none
  have hlabel : PyPath.ofText (({} : StateEnv).marketLabel String.toUpper) = ⟨false, ["NQ"]⟩ := by decide +kernel
  exact default_unreached rfl hlabel (by decide) hreach.1

end PearlAlgo
