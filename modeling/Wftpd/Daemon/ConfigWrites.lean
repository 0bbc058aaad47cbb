import Wftpd.Daemon.Convergence
import Wftpd.Posix.Replace

/-! The file steps of the saves of `config.toml`, which all write `config.tmp`.

`SaveConfig` saves without the lock that the other requests hold while they save the memory.
-/

set_option autoImplicit false

namespace Wftpd.Daemon
open Wftpd.Posix Wftpd.Common Wftpd.Library

inductive ConfigSave where
  | saveConfig (config : Config)
  /-- `persist_config`, for `StartService` and `StopService`. -/
  | persistConfig (config : Config)
  | saveLogConfig (config : Config)
  deriving DecidableEq

namespace ConfigSave

def config : ConfigSave → Config
  | saveConfig config | persistConfig config | saveLogConfig config => config

def locks : ConfigSave → Bool
  | saveConfig _ => false
  | persistConfig _ | saveLogConfig _ => true

end ConfigSave

namespace ConfigWrites
open Replace

section Machine
variable (toml : Toml)

/-- A configuration that has no text is given up before any file is touched. -/
def program (save : ConfigSave) : List Piece :=
  match toml.serialise save.config with
  | some text => pieces ⟨encodeUtf8 text, save.locks⟩
  | none => []

def step : Parties (Disk Nat) Piece → Move ConfigSave Answer → Option (Parties (Disk Nat) Piece) := Replace.step (program toml)

def passed (moves : List (Move ConfigSave Answer)) : List Config :=
  moves.filterMap fun
    | .arrive _ save => some save.config
    | .go _ _ => none

def TextOfOne (configs : List Config) (bytes : List UInt8) : Prop :=
  ∃ config ∈ configs, ∃ text, toml.serialise config = some text ∧ bytes = encodeUtf8 text

/-- `config.toml` is there, and is the whole text of one of these configurations. -/
def Untorn (configs : List Config) (disk : Disk Nat) : Prop :=
  ∃ file, disk.target = some file ∧ TextOfOne toml configs (disk.contents file)

variable {toml}

theorem installed_sound {whole : List UInt8 → Prop} {content : List UInt8} (good : whole content)
    (leftover : Option (List UInt8)) : (installed (some content) leftover).Sound whole := by
  refine ⟨⟨0, rfl, good, by simp [installed], ?_⟩, fun file isTemp => ?_, fun file opening noted => (by cases noted)⟩
  · cases leftover <;> simp [installed]
  · cases leftover with
    | none => cases isTemp
    | some bytes =>
        cases isTemp
        simp [installed]

/-- Whatever saves overlap, `config.toml` is never torn when each renames a finished file
and none writes to a file that was renamed. -/
theorem config_never_torn (toml : Toml) (initial : Config) (text : Text) (leftover : Option (List UInt8))
    (moves : List (Move ConfigSave Answer)) (final : Parties (Disk Nat) Piece)
    (serialised : toml.serialise initial = some text)
    (careful : Guarded (step toml) Careful (.idle (installed (some (encodeUtf8 text)) leftover)) moves)
    (reached : exec (step toml) (.idle (installed (some (encodeUtf8 text)) leftover)) moves = some final) :
    Untorn toml (initial :: passed moves) final.shared := by
  have start : TextOfOne toml (initial :: passed moves) (encodeUtf8 text) :=
    ⟨initial, by simp, text, serialised, rfl⟩
  have saves : ∀ party save, .arrive party save ∈ moves → program toml save = [] ∨
      ∃ asked, program toml save = pieces asked ∧ TextOfOne toml (initial :: passed moves) asked.payload := by
    intro party save member
    unfold program
    split
    · next text serialised =>
        refine .inr ⟨_, rfl, save.config, List.mem_cons_of_mem _ ?_, text, serialised, rfl⟩
        exact List.mem_filterMap.mpr ⟨_, member, rfl⟩
    · exact .inl rfl
  obtain ⟨file, isTarget, isWhole, -⟩ := (exec_whole (program toml) (installed_sound start leftover) saves careful reached).target
  exact ⟨file, isTarget, isWhole⟩

end Machine

section Sample
open Convergence (blocking sampleConfigs sampleToml sampleToml_serialise)

@[irreducible] def bytes : List UInt8 := encodeUtf8 Config.sample.pretty

def start : Disk Nat := installed (some (encodeUtf8 Config.sample.pretty)) none

def created : Disk Nat := start.create 0 bytes 2

def complete : Disk Nat := created.write 0 2 bytes 0 (bytes.length - 1 + 1)

theorem bytes_length : 0 < bytes.length := by decide +kernel

theorem program_sample : program sampleToml (.saveConfig .sample) = [.create bytes] := by
  have printed : sampleToml.serialise .sample = some Config.sample.pretty := sampleToml_serialise .sample (by simp [sampleConfigs])
  simp only [program, ConfigSave.config, printed, bytes]
  rfl

theorem program_blocking : program sampleToml (.saveConfig blocking) = [.create (encodeUtf8 blocking.pretty)] := by
  have printed : sampleToml.serialise blocking = some blocking.pretty := sampleToml_serialise blocking (by simp [sampleConfigs])
  simp only [program, ConfigSave.config, printed]
  rfl

theorem act_create : act 0 (.works 0) start (.create bytes) [] = some (created, [.write 2 bytes 0]) := rfl

theorem act_write : act 0 (.works (bytes.length - 1)) created (.write 2 bytes 0) [] =
    some (complete, [.write 2 bytes bytes.length]) := by
  have some_left : ¬ bytes.length ≤ 0 := Nat.not_le_of_lt bytes_length
  have end_reached : min (0 + (bytes.length - 1 + 1)) bytes.length = bytes.length := by omega
  simp only [act, if_neg some_left, end_reached]
  rfl

theorem act_finish : act 0 (.works 0) complete (.write 2 bytes bytes.length) [] = some (complete, [.rename]) := by
  simp only [act, if_pos (Nat.le_refl _)]

theorem complete_finished : complete.Finished 2 := by
  refine ⟨⟨0, bytes, bytes.length, true⟩, ?_, rfl, rfl⟩
  have end_reached : min (0 + (bytes.length - 1 + 1)) bytes.length = bytes.length := by omega
  simp only [complete, created, start, Disk.create, Disk.write, Function.update_self, Option.map_some, if_true, end_reached]

def singleSave : List (Move ConfigSave Answer) :=
  [.arrive 0 (.saveConfig .sample), .go 0 (.works 0), .go 0 (.works (bytes.length - 1)), .go 0 (.works 0),
    .go 0 (.works 0)]

def replaced : Disk Nat := { complete with target := some 2, temp := none }

theorem act_rename : act 0 (.works 0) complete .rename [] = some (replaced, []) := rfl

theorem singleSave_run : exec (step sampleToml) (.idle start) singleSave = some (.idle replaced) := by
  rw [step, Replace.step, singleSave, Parties.exec_arrive rfl, program_sample, Parties.exec_go rfl act_create,
    Parties.exec_go rfl act_write, Parties.exec_go rfl act_finish, Parties.exec_go rfl act_rename, exec_nil]
  refine congrArg some (Parties.Answered.eq_idle fun party => ?_)
  by_cases first : party = 0 <;> simp [Parties.idle, Function.update, first]

theorem singleSave_careful : Guarded (step sampleToml) Careful (.idle start) singleSave := by
  unfold step Replace.step singleSave
  refine .cons trivial (Parties.step_arrive.mpr ⟨rfl, rfl⟩) ?_
  rw [program_sample]
  refine .cons (by simp [Careful]) (Parties.step_go.mpr ⟨_, _, _, _, rfl, act_create, rfl⟩) ?_
  refine .cons (fun _ => by simp [created, start, installed, Disk.create])
    (Parties.step_go.mpr ⟨_, _, _, _, rfl, act_write, rfl⟩) ?_
  refine .cons (fun less => absurd less (Nat.lt_irrefl _)) (Parties.step_go.mpr ⟨_, _, _, _, rfl, act_finish, rfl⟩) ?_
  refine .cons (fun file isTemp => ?_) (Parties.step_go.mpr ⟨_, _, _, _, rfl, act_rename, rfl⟩) trivial
  cases isTemp
  exact complete_finished

theorem config_never_torn_single : Untorn sampleToml (.sample :: passed singleSave) replaced :=
  config_never_torn sampleToml .sample Config.sample.pretty none singleSave (.idle replaced)
    (sampleToml_serialise .sample (by simp [sampleConfigs])) singleSave_careful singleSave_run

/-- While a complete temporary file waits to be renamed, another save empties it: `config.toml`
is then empty, and no call has failed. -/
theorem emptied_run : ∃ moves final, exec (step sampleToml) (.idle start) moves = some final ∧
    passed moves = [.sample, blocking] ∧ final.shared.target = some 2 ∧ final.shared.contents 2 = [] := by
  let emptied := complete.create 1 (encodeUtf8 blocking.pretty) 2
  have empties : act 1 (.works 0) complete (.create (encodeUtf8 blocking.pretty)) [] =
      some (emptied, [.write 2 (encodeUtf8 blocking.pretty) 0]) := rfl
  have renamed : act 0 (.works 0) emptied .rename [] = some ({ emptied with target := some 2, temp := none }, []) := rfl
  refine ⟨[.arrive 0 (.saveConfig .sample), .go 0 (.works 0), .go 0 (.works (bytes.length - 1)), .go 0 (.works 0),
    .arrive 1 (.saveConfig blocking), .go 1 (.works 0), .go 0 (.works 0)], ?_⟩
  rw [step, Replace.step, Parties.exec_arrive rfl, program_sample, Parties.exec_go rfl act_create,
    Parties.exec_go rfl act_write, Parties.exec_go rfl act_finish, Parties.exec_arrive rfl, program_blocking,
    Parties.exec_go rfl empties, Parties.exec_go rfl renamed, exec_nil]
  exact ⟨_, rfl, rfl, rfl, by simp [emptied, Disk.create]⟩

theorem config_torn : ¬ ∀ (toml : Toml) (initial : Config) (text : Text) (leftover : Option (List UInt8))
    (moves : List (Move ConfigSave Answer)) (final : Parties (Disk Nat) Piece), toml.serialise initial = some text →
    exec (step toml) (.idle (installed (some (encodeUtf8 text)) leftover)) moves = some final →
    Untorn toml (initial :: passed moves) final.shared := by
  intro untorn
  obtain ⟨moves, final, reached, both, isTarget, empty⟩ := emptied_run
  obtain ⟨file, isTarget', config, member, text, printed, content⟩ :=
    untorn sampleToml .sample Config.sample.pretty none moves final (sampleToml_serialise .sample (by simp [sampleConfigs])) reached
  cases isTarget.symm.trans isTarget'
  have some_bytes : ∀ config ∈ [Config.sample, .sample, blocking], encodeUtf8 config.pretty ≠ [] := by decide +kernel
  rw [both] at member
  have known : config ∈ sampleConfigs := by
    simp only [sampleConfigs, List.mem_cons] at member ⊢
    tauto
  have same : text = config.pretty := Option.some.inj (printed.symm.trans (sampleToml_serialise config known))
  exact some_bytes config member (same ▸ (content.symm.trans empty))

end Sample

end ConfigWrites

end Wftpd.Daemon
