import Wftpd.Daemon.SaveConfig
import Wftpd.Library.Parties

/-! The two copies of the configuration while control requests overlap.

A request is the list of its atomic steps. Those that start or stop services come after the
last change of a copy and are left out. All writes succeed.
-/

set_option autoImplicit false

namespace Wftpd.Daemon
open Wftpd.Posix Wftpd.Common Wftpd.Library

inductive Which where
  | ftp
  | sftp
  | all
  deriving DecidableEq, Repr

def Which.services : Which → List Service
  | .ftp => [.ftp]
  | .sftp => [.sftp]
  | .all => [.ftp, .sftp]

inductive ControlRequest where
  | saveConfig (host : Host) (content : Text)
  | startService (which : Which)
  | stopService (which : Which)
  | saveLogConfig (req : LogConfigRequest)

namespace Convergence

inductive Piece where
  | save (config : Config)
  | swap (config : Config)
  | setEnabled (service : Service) (enabled : Bool)
  | persist
  | saveLog (req : LogConfigRequest)
  deriving DecidableEq

def writing : SaveCalls := ⟨true, true, true⟩

section Machine
variable (toml : Toml)

def pieces : ControlRequest → List Piece
  | .saveConfig host content =>
      match checkedConfig toml host content with
      | .ok config => [.save config]
      | .error _ => []
  | .startService which => which.services.map fun service => .setEnabled service true
  | .stopService which => which.services.map fun service => .setEnabled service false
  | .saveLogConfig req => [.saveLog req]

def written (config : Config) (file : RawFile) : RawFile := (config.save toml writing file).2

/-- One step of a request. A saved configuration has yet to be swapped in, and a flag that
was set has yet to be written out; setting a flag to what it is saves nothing. -/
def act (_ : Nat) (_ : Unit) (copies : ConfigCopies) : Piece → List Piece → Option (ConfigCopies × List Piece)
  | .save config, rest =>
      match config.save toml writing copies.configToml with
      | (.ok (), file) => some ({ copies with configToml := file }, .swap config :: rest)
      | (.error _, file) => some ({ copies with configToml := file }, [])
  | .swap config, rest => some ({ copies with config := config }, rest)
  | .setEnabled service enabled, rest =>
      if copies.config.enabled service = enabled then some (copies, rest)
      else some ({ copies with config := copies.config.setEnabled service enabled }, .persist :: rest)
  | .persist, rest => some ({ copies with configToml := written toml copies.config copies.configToml }, rest)
  | .saveLog req, rest =>
      let config := req.applyTo copies.config
      some (⟨written toml config copies.configToml, config⟩, rest)

def step : Parties ConfigCopies Piece → Move ControlRequest Unit → Option (Parties ConfigCopies Piece) :=
  Parties.step (pieces toml) (act toml)

def TextOf (file : RawFile) (config : Config) : Prop := ∃ text, toml.serialise config = some text ∧ file = .text text

def Synced (copies : ConfigCopies) : Prop := TextOf toml copies.configToml copies.config

/-- A step to come makes the copies agree: the memory is to be written out, or to become
what was written. -/
def Repairs (copies : ConfigCopies) : Piece → Prop
  | .persist => True
  | .swap config => TextOf toml copies.configToml config
  | _ => False

/-- The copies agree, or some request is about to make them. -/
def Converging (parties : Parties ConfigCopies Piece) : Prop :=
  Synced toml parties.shared ∨ ∃ party piece, parties.At party piece ∧ Repairs toml parties.shared piece

/-- A swap finds its own text in the file or a repair still to come; what is written out has a text. -/
def Orderly (parties : Parties ConfigCopies Piece) : Move ControlRequest Unit → Prop
  | .arrive _ _ => True
  | .go party _ =>
      match (parties.todo party).head? with
      | some (.swap config) =>
          TextOf toml parties.shared.configToml config ∨
            ∃ other piece, other ≠ party ∧ parties.At other piece ∧ Repairs toml parties.shared piece
      | some .persist => (toml.serialise parties.shared.config).isSome = true
      | some (.saveLog req) => (toml.serialise (req.applyTo parties.shared.config)).isSome = true
      | _ => True

variable {toml}

theorem saved_writing (config : Config) : config.saved toml writing = toml.serialise config := rfl

theorem save_writing_some {config : Config} {text : Text} (serialised : toml.serialise config = some text)
    (file : RawFile) : config.save toml writing file = (.ok (), .text text) :=
  Config.save_some ((saved_writing config).trans serialised) file

theorem save_writing_none {config : Config} (unprintable : toml.serialise config = none) (file : RawFile) :
    ∃ why, config.save toml writing file = (.error why, file) :=
  Config.save_none ((saved_writing config).trans unprintable) file

theorem textOf_written {config : Config} (printable : (toml.serialise config).isSome = true) (file : RawFile) :
    TextOf toml (written toml config file) config := by
  obtain ⟨text, serialised⟩ := Option.isSome_iff_exists.mp printable
  exact ⟨text, serialised, by rw [written, save_writing_some serialised]⟩

theorem Repairs.of_file {copies after : ConfigCopies} {piece : Piece} (repairs : Repairs toml copies piece)
    (same : after.configToml = copies.configToml) : Repairs toml after piece := by
  cases piece with
  | persist => trivial
  | swap config => simpa only [Repairs, same] using repairs
  | save | setEnabled | saveLog => exact repairs.elim

/-- What a step of a request does: it makes the copies agree, leaves a repair to its own
request, swaps in another text than the file holds, or does nothing. -/
theorem act_cases {parties : Parties ConfigCopies Piece} {party : Nat} {after : ConfigCopies} {piece : Piece}
    {rest left : List Piece} (orderly : Orderly toml parties (.go party ())) (next : parties.todo party = piece :: rest)
    (acted : act toml party () parties.shared piece rest = some (after, left)) :
    Synced toml after ∨
      (∃ repair, left.head? = some repair ∧ Repairs toml after repair) ∨
      (after.configToml = parties.shared.configToml ∧
        ∃ other repair, other ≠ party ∧ parties.At other repair ∧ Repairs toml parties.shared repair) ∨
      (after = parties.shared ∧ ¬ Repairs toml parties.shared piece) := by
  simp only [Orderly, next, List.head?_cons] at orderly
  cases piece with
  | save config =>
      simp only [act] at acted
      cases serialised : toml.serialise config with
      | some text =>
          rw [save_writing_some serialised] at acted
          cases acted
          exact .inr (.inl ⟨.swap config, rfl, text, serialised, rfl⟩)
      | none =>
          obtain ⟨why, failed⟩ := save_writing_none serialised parties.shared.configToml
          rw [failed] at acted
          cases acted
          exact .inr (.inr (.inr ⟨rfl, id⟩))
  | swap config =>
      cases acted
      rcases orderly with own | repaired
      · exact .inl own
      · exact .inr (.inr (.inl ⟨rfl, repaired⟩))
  | setEnabled service enabled =>
      simp only [act] at acted
      split at acted
      · cases acted
        exact .inr (.inr (.inr ⟨rfl, id⟩))
      · cases acted
        exact .inr (.inl ⟨.persist, rfl, trivial⟩)
  | persist =>
      cases acted
      exact .inl (textOf_written orderly _)
  | saveLog req =>
      cases acted
      exact .inl (textOf_written orderly _)

/-- An orderly step makes the copies converge, or changes nothing. -/
theorem step_changes {parties next : Parties ConfigCopies Piece} {move : Move ControlRequest Unit}
    (orderly : Orderly toml parties move) (taken : step toml parties move = some next) :
    Converging toml next ∨ next.shared = parties.shared := by
  cases move with
  | arrive party request =>
      obtain ⟨-, rfl⟩ := Parties.step_arrive.mp taken
      exact .inr rfl
  | go party input =>
      obtain ⟨piece, rest, after, left, todo, acted, rfl⟩ := Parties.step_go.mp taken
      rcases act_cases orderly todo acted with
        synced | ⟨repair, first, repairs⟩ | ⟨same, other, repair, apart, waits, repairs⟩ | ⟨rfl, -⟩
      · exact .inl (.inl synced)
      · exact .inl (.inr ⟨party, repair, by simpa [Parties.At] using first, repairs⟩)
      · exact .inl (.inr ⟨other, repair, Parties.at_update apart waits, repairs.of_file same⟩)
      · exact .inr rfl

theorem step_converging (parties : Parties ConfigCopies Piece) (move : Move ControlRequest Unit)
    (next : Parties ConfigCopies Piece) (converging : Converging toml parties) (orderly : Orderly toml parties move)
    (taken : step toml parties move = some next) : Converging toml next := by
  cases move with
  | arrive party request =>
      obtain ⟨free, rfl⟩ := Parties.step_arrive.mp taken
      rcases converging with synced | ⟨other, piece, waits, repairs⟩
      · exact .inl synced
      · have apart : other ≠ party := by
          rintro rfl
          simp [Parties.At, free] at waits
        exact .inr ⟨other, piece, Parties.at_update apart waits, repairs⟩
  | go party input =>
      obtain ⟨piece, rest, after, left, todo, acted, rfl⟩ := Parties.step_go.mp taken
      rcases act_cases orderly todo acted with
        synced | ⟨repair, first, repairs⟩ | ⟨same, other, repair, apart, waits, repairs⟩ | ⟨rfl, idle⟩
      · exact .inl synced
      · exact .inr ⟨party, repair, by simpa [Parties.At] using first, repairs⟩
      · exact .inr ⟨other, repair, Parties.at_update apart waits, repairs.of_file same⟩
      · -- nothing changed, and whoever was to repair the copies still is
        rcases converging with synced | ⟨other, repair, waits, repairs⟩
        · exact .inl synced
        · have apart : other ≠ party := by
            rintro rfl
            rw [Parties.At, todo] at waits
            cases waits
            exact idle repairs
          exact .inr ⟨other, repair, Parties.at_update apart waits, repairs⟩

/-- After every orderly run, once all requests have been answered the file is the text of the memory. It is so
too where it was another text at the start, as one written by hand may be, unless the run has changed nothing. -/
theorem answered_synced (toml : Toml) (copies : ConfigCopies) (moves : List (Move ControlRequest Unit))
    (final : Parties ConfigCopies Piece) (orderly : Guarded (step toml) (Orderly toml) (.idle copies) moves)
    (reached : exec (step toml) (.idle copies) moves = some final) (answered : final.Answered)
    (synced : Synced toml copies ∨ final.shared ≠ copies) : Synced toml final.shared := by
  let invariant (parties : Parties ConfigCopies Piece) := Converging toml parties ∨ parties.shared = copies
  have keeps : ∀ parties move next, invariant parties → Orderly toml parties move → step toml parties move = some next →
      invariant next := by
    rintro parties move next (converging | rfl) orderly taken
    · exact .inl (step_converging parties move next converging orderly taken)
    · exact step_changes orderly taken
  have kept : invariant final := exec_invariant keeps (.inr rfl) orderly reached
  rcases kept with (agree | ⟨party, piece, waits, -⟩) | unchanged
  · exact agree
  · exact absurd waits (answered.not_at party piece)
  · rcases synced with synced | changed
    · rwa [unchanged]
    · exact absurd unchanged changed

section Alone
variable (host : Host)

/-- One of several requests, which may overlap with it. -/
def overlapping : ConfigRequest → ControlRequest
  | .saveConfig content => .saveConfig host content
  | .saveLogConfig req => .saveLogConfig req

theorem alone_saveConfig (toml : Toml) (content : Text) (copies : ConfigCopies) :
    ∃ steps, exec (step toml) (.idle copies) (.arrive 0 (.saveConfig host content) :: List.replicate steps (.go 0 ())) =
      some (.idle (saveConfig toml ⟨host, writing, none, none⟩ content copies).2) := by
  rcases saveConfig_cases toml ⟨host, writing, none, none⟩ content copies with
    ⟨why, ran, fails⟩ | ⟨config, text, checked, serialised, ran⟩
  · rw [ran]
    cases checked : checkedConfig toml host content with
    | error status =>
        have asks : pieces toml (.saveConfig host content) = [] := by simp only [pieces, checked]
        refine ⟨0, ?_⟩
        rw [step, Parties.exec_arrive rfl, asks]
        exact congrArg some (Parties.Answered.eq_idle fun party => by simp [Parties.idle, Function.update])
    | ok config =>
        have asks : pieces toml (.saveConfig host content) = [.save config] := by simp only [pieces, checked]
        obtain ⟨why', failed⟩ := save_writing_none (fails config checked) copies.configToml
        have stops : act toml 0 () copies (.save config) [] = some (copies, []) := by simp only [act, failed]
        refine ⟨1, ?_⟩
        rw [step, Parties.exec_arrive rfl, asks, List.replicate_one, Parties.exec_go rfl stops]
        exact congrArg some (Parties.Answered.eq_idle fun party => by simp [Parties.idle, Function.update])
  · have asks : pieces toml (.saveConfig host content) = [.save config] := by simp only [pieces, checked]
    have saves : act toml 0 () copies (.save config) [] =
        some ({ copies with configToml := .text text }, [.swap config]) := by
      simp only [act, save_writing_some serialised]
    rw [ran]
    refine ⟨2, ?_⟩
    rw [step, Parties.exec_arrive rfl, asks, List.replicate_succ, Parties.exec_go rfl saves, List.replicate_one,
      Parties.exec_go rfl rfl]
    refine congrArg some (Parties.Answered.eq_idle fun party => ?_)
    by_cases first : party = 0 <;> simp [Parties.idle, Function.update, first]

theorem alone_saveLogConfig (toml : Toml) (req : LogConfigRequest) (copies : ConfigCopies) :
    ∃ steps, exec (step toml) (.idle copies) (.arrive 0 (.saveLogConfig req) :: List.replicate steps (.go 0 ())) =
      some (.idle (saveLogConfig toml ⟨host, writing, none, none⟩ req copies).2) := by
  have left : (saveLogConfig toml ⟨host, writing, none, none⟩ req copies).2 =
      ⟨written toml (req.applyTo copies.config) copies.configToml, req.applyTo copies.config⟩ := by
    rcases saveLogConfig_cases toml ⟨host, writing, none, none⟩ req copies with
      ⟨why, ran, fails⟩ | ⟨text, serialised, ran⟩
    · obtain ⟨why', failed⟩ := save_writing_none fails copies.configToml
      simp only [ran, written, failed]
    · simp only [or_true, if_true] at ran
      obtain ⟨reply, ran⟩ := ran
      simp only [ran, written, save_writing_some serialised]
  rw [left]
  refine ⟨1, ?_⟩
  rw [step, Parties.exec_arrive rfl, List.replicate_one, Parties.exec_go rfl rfl]
  refine congrArg some (Parties.Answered.eq_idle fun party => ?_)
  by_cases first : party = 0 <;> simp [Parties.idle, Function.update, first]

/-- The steps of a request that runs alone end in what its handler leaves. -/
theorem alone (toml : Toml) (request : ConfigRequest) (copies : ConfigCopies) :
    ∃ steps, exec (step toml) (.idle copies) (.arrive 0 (overlapping host request) :: List.replicate steps (.go 0 ())) =
      some (.idle (request.handle toml ⟨host, writing, none, none⟩ copies).2) := by
  cases request with
  | saveConfig content => exact alone_saveConfig host toml content copies
  | saveLogConfig req => exact alone_saveLogConfig host toml req copies

end Alone

end Machine

section Sample

def blocking : Config := .letting false none ["0.0.0.0/0".toList] ["10.0.0.9".toList]

def stopped : Config := Config.sample.setEnabled .ftp false

def sampleConfigs : List Config := [.sample, blocking, stopped]

def sampleToml : Toml := .knowing sampleConfigs

theorem sampleToml_serialise (config : Config) (member : config ∈ sampleConfigs) :
    sampleToml.serialise config = some config.pretty := Toml.knowing_serialise member

theorem sampleToml_apart : (sampleConfigs.map Config.pretty).Nodup := by decide +kernel

theorem sampleToml_parse (config : Config) (member : config ∈ sampleConfigs) :
    sampleToml.parse config.pretty = .ok config := by
  rw [sampleToml]
  exact Toml.knowing_parse member sampleToml_apart

theorem checkedConfig_blocking : checkedConfig sampleToml workingEnv.host blocking.pretty = .ok blocking := by
  have read := sampleToml_parse blocking (by simp [sampleConfigs])
  have valid : blocking.validate workingEnv.host.os workingEnv.host.fs = .ok () := by decide +kernel
  rw [checkedConfig, read]
  simp only [valid]

theorem sampleCopies_synced : Synced sampleToml sampleCopies :=
  ⟨Config.sample.pretty, sampleToml_serialise .sample (by simp [sampleConfigs]), rfl⟩

/-- What is left of a run in which the configuration is saved, the service is stopped in
between, and the saved configuration is then swapped in. -/
theorem overtaken_run : exec (step sampleToml) (.idle sampleCopies)
    [.arrive 0 (.saveConfig workingEnv.host blocking.pretty), .go 0 (), .arrive 1 (.stopService .ftp), .go 1 (),
      .go 1 (), .go 0 ()] =
    some (.idle ⟨.text stopped.pretty, blocking⟩) := by
  have asks : pieces sampleToml (.saveConfig workingEnv.host blocking.pretty) = [.save blocking] := by
    simp only [pieces, checkedConfig_blocking]
  have saves : act sampleToml 0 () sampleCopies (.save blocking) [] =
      some (⟨.text blocking.pretty, .sample⟩, [.swap blocking]) := by
    simp only [act, save_writing_some (sampleToml_serialise blocking (by simp [sampleConfigs]))]
    rfl
  have persists : act sampleToml 1 () ⟨.text blocking.pretty, stopped⟩ .persist [] =
      some (⟨.text stopped.pretty, stopped⟩, []) := by
    simp only [act, written, save_writing_some (sampleToml_serialise stopped (by simp [sampleConfigs]))]
  have flags : act sampleToml 1 () ⟨.text blocking.pretty, .sample⟩ (.setEnabled .ftp false) [] =
      some (⟨.text blocking.pretty, stopped⟩, [.persist]) := rfl
  have swaps : act sampleToml 0 () ⟨.text stopped.pretty, stopped⟩ (.swap blocking) [] =
      some (⟨.text stopped.pretty, blocking⟩, []) := rfl
  rw [step, Parties.exec_arrive rfl, asks, Parties.exec_go rfl saves, Parties.exec_arrive rfl,
    Parties.exec_go rfl flags, Parties.exec_go rfl persists, Parties.exec_go rfl swaps, exec_nil]
  refine congrArg some (Parties.Answered.eq_idle fun party => ?_)
  by_cases first : party = 0 <;> by_cases second : party = 1 <;> simp [Parties.idle, Function.update, first, second]

theorem stop_run : exec (step sampleToml) (.idle sampleCopies)
    [.arrive 0 (.stopService .ftp), .go 0 (), .go 0 ()] = some (.idle ⟨.text stopped.pretty, stopped⟩) := by
  have flags : act sampleToml 0 () sampleCopies (.setEnabled .ftp false) [] =
      some (⟨sampleCopies.configToml, stopped⟩, [.persist]) := rfl
  have persists : act sampleToml 0 () ⟨sampleCopies.configToml, stopped⟩ .persist [] =
      some (⟨.text stopped.pretty, stopped⟩, []) := by
    simp only [act, written, save_writing_some (sampleToml_serialise stopped (by simp [sampleConfigs]))]
  rw [step, Parties.exec_arrive rfl, Parties.exec_go rfl flags, Parties.exec_go rfl persists, exec_nil]
  refine congrArg some (Parties.Answered.eq_idle fun party => ?_)
  by_cases first : party = 0 <;> simp [Parties.idle, Function.update, first]

theorem answered_synced_stopped : Synced sampleToml ⟨.text stopped.pretty, stopped⟩ := by
  refine answered_synced sampleToml sampleCopies [.arrive 0 (.stopService .ftp), .go 0 (), .go 0 ()]
    (.idle ⟨.text stopped.pretty, stopped⟩) ?_ stop_run (Parties.idle_answered _) (.inl sampleCopies_synced)
  refine .cons trivial (Parties.step_arrive.mpr ⟨rfl, rfl⟩) ?_
  refine .cons trivial (Parties.step_go.mpr ⟨.setEnabled .ftp false, [], _, _, rfl, rfl, rfl⟩) ?_
  refine ⟨?_, fun _ _ => trivial⟩
  have printed : sampleToml.serialise stopped = some stopped.pretty := sampleToml_serialise stopped (by simp [sampleConfigs])
  show (sampleToml.serialise stopped).isSome = true
  rw [printed]
  rfl

/-- A configuration that is saved and swapped in around a stop is in memory only: once all
is answered, `config.toml` is another one. -/
theorem overtaken_diverges : ¬ ∀ (toml : Toml) (copies : ConfigCopies) (moves : List (Move ControlRequest Unit))
    (final : Parties ConfigCopies Piece), Synced toml copies → exec (step toml) (.idle copies) moves = some final →
    final.Answered → Synced toml final.shared := by
  intro synced
  obtain ⟨text, serialised, file⟩ :=
    synced sampleToml sampleCopies _ _ sampleCopies_synced overtaken_run (Parties.idle_answered _)
  have same : stopped.pretty = text := RawFile.text.inj file
  have printed : sampleToml.serialise blocking = some blocking.pretty := sampleToml_serialise blocking (by simp [sampleConfigs])
  have texts : blocking.pretty = stopped.pretty := (Option.some.inj (printed.symm.trans serialised)).trans same.symm
  have configs : blocking = stopped :=
    List.inj_on_of_nodup_map sampleToml_apart (by simp [sampleConfigs]) (by simp [sampleConfigs]) texts
  revert configs
  decide

end Sample

end Convergence

end Wftpd.Daemon
