import Wftpd.Gui.Forms

/-! Saves of the GUI's forms while its service page starts and stops services.

The daemon checks what it is sent, writes it to `config.toml`, reads that back and then
swaps the configuration into its memory; a connection that is lost before the swap drops
it, and one that is lost after it drops the reply. What an overlapping request does to the file
shows in what the GUI takes over.
-/

set_option autoImplicit false

namespace Wftpd.Gui
open Wftpd.Posix Wftpd.Common Wftpd.Library Wftpd.Daemon

/-- `AppState` has a copy of its own. -/
structure State where
  backend : ConfigCopies
  gui : Config
  deriving DecidableEq

structure Save where
  form : Form
  env : ConfigEnv

inductive Request where
  | save (save : Save)
  | startService (which : Which) (calls : Service → SaveCalls)
  | stopService (which : Which) (calls : Service → SaveCalls)

inductive Piece where
  | click (save : Save)
  | check (save : Save) (content : Text)
  | write (save : Save) (config : Config)
  | readBack (save : Save) (config : Config)
  | swap (save : Save) (config : Config) (content : Text)
  | reply (content : Text)
  | setEnabled (service : Service) (enabled : Bool) (calls : SaveCalls)
  | persist (calls : SaveCalls)

/-- What reads back was printed, and nothing prints the empty text: every section of the
configuration is required. -/
structure Lossless (toml : Toml) : Prop where
  parse_serialise : ∀ config text parsed, toml.serialise config = some text → toml.parse text = .ok parsed →
    parsed = config
  parse_empty : ∀ parsed, toml.parse [] ≠ .ok parsed

section Machine
variable (toml : Toml) (networks : Networks)

def pieces : Request → List Piece
  | .save save => [.click save]
  | .startService which calls => which.services.map fun service => .setEnabled service true (calls service)
  | .stopService which calls => which.services.map fun service => .setEnabled service false (calls service)

/-- `to_string_pretty`, or else the empty text. -/
def sent (config : Config) : Text := (toml.serialise config).getD []

/-- The GUI takes over what the daemon read back, if it is a configuration. -/
def adopt (gui : Config) (content : Text) : Config :=
  match toml.parse content with
  | .ok config => config
  | .error _ => gui

def mainThread : Nat := 0

/-- One step of a request. The flag says whether the connection to the daemon is up; what the
daemon has begun to write it goes on writing without it. -/
def act (party : Nat) (connected : Bool) (state : State) : Piece → List Piece → Option (State × List Piece)
  | .click save, rest =>
      if party ≠ mainThread then none
      else if save.form.accepted networks save.env.host then
        let gui := save.form.applyTo state.gui
        some ({ state with gui := gui }, .check save (sent toml gui) :: rest)
      else some (state, rest)
  | .check save content, rest =>
      match connected, checkedConfig toml save.env.host content with
      | true, .ok config => some (state, .write save config :: rest)
      | _, _ => some (state, rest)
  | .write save config, rest =>
      match config.save toml save.env.calls state.backend.configToml with
      | (.ok (), file) => some ({ state with backend.configToml := file }, .readBack save config :: rest)
      | (.error _, file) => some ({ state with backend.configToml := file }, rest)
  | .readBack save config, rest =>
      match (readFile save.env state.backend).1 with
      | .ok content => some (state, .swap save config content :: rest)
      | .error _ => some (state, rest)
  | .swap _ config content, rest =>
      if connected then some ({ state with backend.config := config }, .reply content :: rest) else some (state, rest)
  | .reply content, rest => some (if connected then { state with gui := adopt toml state.gui content } else state, rest)
  | .setEnabled service enabled calls, rest =>
      if !connected then some (state, [])
      else if state.backend.config.enabled service = enabled then some (state, rest)
      else some ({ state with backend.config := state.backend.config.setEnabled service enabled }, .persist calls :: rest)
  | .persist calls, rest =>
      some ({ state with
        backend.configToml := (state.backend.config.save toml calls state.backend.configToml).2 }, rest)

def step : Parties State Piece → Move Request Bool → Option (Parties State Piece) :=
  Parties.step pieces (act toml networks)

def Accepted (env : ConfigEnv) (gui : Config) : Prop :=
  ∃ config, checkedConfig toml env.host (sent toml gui) = .ok config ∧
    (config.saved toml env.calls).isSome = true ∧ env.readError = none

/-- An accepted save starts from a copy that is the daemon's configuration outside the form, the
flags of the services apart, and swaps it in while the flags outside the form agree too. -/
def UpToDate (parties : Parties State Piece) : Move Request Bool → Prop
  | .arrive _ _ => True
  | .go party _ =>
      match (parties.todo party).head? with
      | some (.click save) =>
          save.form.accepted networks save.env.host = true →
            Accepted toml save.env (save.form.applyTo parties.shared.gui) →
            AgreesApart save.form.fields parties.shared.backend.config parties.shared.gui
      | some (.swap save _ _) =>
          ∀ service, save.form.fields.owns service = false →
            parties.shared.backend.config.enabled service = parties.shared.gui.enabled service
      | _ => True

/-- A save that is swapped in leaves the daemon's configuration as it was outside the form. -/
def KeepsOthers (parties : Parties State Piece) : Move Request Bool → Prop
  | .arrive _ _ => True
  | .go party connected =>
      ∀ save config content next, parties.At party (.swap save config content) →
        step toml networks parties (.go party connected) = some next →
        save.form.fields.region.SameOutside parties.shared.backend.config next.shared.backend.config

variable {toml networks}

theorem sent_checked (lossless : Lossless toml) {host : Host} {gui config : Config}
    (checked : checkedConfig toml host (sent toml gui) = .ok config) : config = gui := by
  have parsed : toml.parse (sent toml gui) = .ok config := by
    simp only [checkedConfig] at checked
    split at checked
    · cases checked
    · next other parsed =>
        split at checked
        · cases checked
        · cases checked
          exact parsed
  cases serialised : toml.serialise gui with
  | none =>
      rw [sent, serialised] at parsed
      exact absurd parsed (lossless.parse_empty config)
  | some text =>
      rw [sent, serialised] at parsed
      exact lossless.parse_serialise gui text config serialised parsed

/-- The service page: its requests change a flag, or write the memory out. -/
inductive OfService : Piece → Prop where
  | setEnabled (service : Service) (enabled : Bool) (calls : SaveCalls) : OfService (.setEnabled service enabled calls)
  | persist (calls : SaveCalls) : OfService (.persist calls)

/-- What a thread may have yet to do. A save under way is of the GUI's copy as it is, and where it is
to go through, that copy and the daemon's configuration agree outside the form, the flags apart. -/
inductive Fits (toml : Toml) (state : State) : Nat → List Piece → Prop where
  | service {party : Nat} {todo : List Piece} : (∀ piece ∈ todo, OfService piece) → Fits toml state party todo
  | click {party : Nat} (save : Save) : Fits toml state party [.click save]
  | check {save : Save} :
      (Accepted toml save.env state.gui → AgreesApart save.form.fields state.backend.config state.gui) →
      Fits toml state mainThread [.check save (sent toml state.gui)]
  | write {save : Save} :
      ((state.gui.saved toml save.env.calls).isSome = true → save.env.readError = none →
        AgreesApart save.form.fields state.backend.config state.gui) →
      Fits toml state mainThread [.write save state.gui]
  | readBack {save : Save} :
      (save.env.readError = none → AgreesApart save.form.fields state.backend.config state.gui) →
      Fits toml state mainThread [.readBack save state.gui]
  | swap {save : Save} {content : Text} : AgreesApart save.form.fields state.backend.config state.gui →
      Fits toml state mainThread [.swap save state.gui content]
  | reply (content : Text) : Fits toml state mainThread [.reply content]

theorem Fits.nil {state : State} {party : Nat} : Fits toml state party [] := .service (by simp)

/-- A step that leaves the GUI's copy and all but the flags of the daemon's alone. -/
theorem Fits.quiet {state after : State} {party : Nat} {todo : List Piece} (fits : Fits toml state party todo)
    (gui : after.gui = state.gui) (config : unflagged after.backend.config = unflagged state.backend.config) :
    Fits toml after party todo := by
  have agrees (fields : Fields) : AgreesApart fields state.backend.config state.gui →
      AgreesApart fields after.backend.config after.gui := by
    rw [AgreesApart, AgreesApart, config, gui]
    exact id
  cases fits with
  | service all => exact .service all
  | click save => exact .click save
  | check current =>
      rw [← gui] at current ⊢
      exact .check fun accepted => agrees _ (gui ▸ current accepted)
  | write current =>
      rw [← gui] at current ⊢
      exact .write fun saved readback => agrees _ (gui ▸ current saved readback)
  | readBack current =>
      rw [← gui]
      exact .readBack fun readback => agrees _ (current readback)
  | swap current =>
      rw [← gui]
      exact .swap (agrees _ current)
  | reply content => exact .reply content

/-- Another thread's work does not depend on the state at all. -/
theorem Fits.elsewhere {state after : State} {party : Nat} {todo : List Piece} (apart : party ≠ mainThread)
    (fits : Fits toml state party todo) : Fits toml after party todo := by
  cases fits with
  | service all => exact .service all
  | click save => exact .click save
  | check | write | readBack | swap | reply => exact absurd rfl apart

theorem pieces_fit (request : Request) (state : State) (party : Nat) : Fits toml state party (pieces request) := by
  cases request with
  | save save => exact .click save
  | startService which calls | stopService which calls =>
      refine .service fun piece member => ?_
      obtain ⟨service, -, rfl⟩ := List.mem_map.mp member
      exact .setEnabled ..

/-- A save either leaves its text in the file or leaves the file alone. -/
theorem save_cases (toml : Toml) (calls : SaveCalls) (config : Config) (file : RawFile) :
    (∃ text, config.saved toml calls = some text ∧ config.save toml calls file = (.ok (), .text text)) ∨
      ∃ why, config.saved toml calls = none ∧ config.save toml calls file = (.error why, file) := by
  cases saved : config.saved toml calls with
  | some text => exact .inl ⟨text, rfl, Config.save_some saved file⟩
  | none =>
      obtain ⟨why, failed⟩ := Config.save_none saved file
      exact .inr ⟨why, rfl, failed⟩

/-- A step of a thread keeps what all of them have yet to do fitting. -/
theorem act_fits (lossless : Lossless toml) {parties : Parties State Piece} {party : Nat} {connected : Bool}
    {piece : Piece} {rest left : List Piece} {after : State} (fits : Fits toml parties.shared party (piece :: rest))
    (todo : parties.todo party = piece :: rest) (upToDate : UpToDate toml networks parties (.go party connected))
    (acted : act toml networks party connected parties.shared piece rest = some (after, left)) :
    Fits toml after party left ∧
      (party = mainThread ∨
        after.gui = parties.shared.gui ∧
          unflagged after.backend.config = unflagged parties.shared.backend.config) := by
  simp only [UpToDate, todo, List.head?_cons] at upToDate
  cases fits with
  | service all =>
      have others : ∀ piece ∈ rest, OfService piece := fun other member => all other (List.mem_cons_of_mem _ member)
      cases all piece List.mem_cons_self with
      | setEnabled service enabled calls =>
          simp only [act] at acted
          split at acted
          · cases acted
            exact ⟨.nil, .inr ⟨rfl, rfl⟩⟩
          · split at acted
            · cases acted
              exact ⟨.service others, .inr ⟨rfl, rfl⟩⟩
            · cases acted
              refine ⟨.service ?_, .inr ⟨rfl, unflagged_setEnabled ..⟩⟩
              exact List.forall_mem_cons.mpr ⟨.persist calls, others⟩
      | persist calls =>
          cases acted
          exact ⟨.service others, .inr ⟨rfl, rfl⟩⟩
  | click save =>
      simp only [act] at acted
      split at acted
      · cases acted
      · next onMain =>
          obtain rfl : party = mainThread := not_not.mp onMain
          split at acted
          -- the click is where the front end's copy must be up to date: the pieces after it inherit that
          · next accepted =>
              cases acted
              exact ⟨.check fun goesThrough => (upToDate accepted goesThrough).applyTo, .inl rfl⟩
          · cases acted
            exact ⟨.nil, .inl rfl⟩
  | @check save current =>
      refine ⟨?_, .inl rfl⟩
      simp only [act] at acted
      split at acted
      · next config _ checked =>
          cases acted
          -- what the daemon reads is what was sent
          obtain rfl := sent_checked lossless checked
          exact .write fun saved readback => current ⟨_, checked, saved, readback⟩
      · cases acted
        exact .nil
  | @write save current =>
      refine ⟨?_, .inl rfl⟩
      simp only [act] at acted
      rcases save_cases toml save.env.calls parties.shared.gui parties.shared.backend.configToml with
        ⟨text, saved, ran⟩ | ⟨why, saved, ran⟩
      · rw [ran] at acted
        cases acted
        exact .readBack fun readback => current (by rw [saved]; rfl) readback
      · rw [ran] at acted
        cases acted
        exact .nil
  | @readBack save current =>
      refine ⟨?_, .inl rfl⟩
      simp only [act] at acted
      split at acted
      · next content ran =>
          cases acted
          refine .swap (current ?_)
          cases readback : save.env.readError with
          | none => rfl
          | some why => simp [readFile, readback] at ran
      · cases acted
        exact .nil
  | swap current =>
      refine ⟨?_, .inl rfl⟩
      simp only [act] at acted
      split at acted
      · cases acted
        exact .reply _
      · cases acted
        exact .nil
  | reply content =>
      cases acted
      exact ⟨.nil, .inl rfl⟩

theorem step_fits (lossless : Lossless toml) (parties : Parties State Piece) (move : Move Request Bool)
    (next : Parties State Piece) (fits : ∀ party, Fits toml parties.shared party (parties.todo party))
    (upToDate : UpToDate toml networks parties move) (taken : step toml networks parties move = some next) :
    ∀ party, Fits toml next.shared party (next.todo party) := by
  refine Parties.step_fits (fun party state todo => Fits toml state party todo)
    (fun parties party request _ => pieces_fit request parties.shared party) ?_ parties move next fits upToDate taken
  intro parties party connected piece rest after left fits todo upToDate acted
  obtain ⟨own, changes⟩ := act_fits lossless fits todo upToDate acted
  refine ⟨own, fun other todo apart fits => ?_⟩
  rcases changes with main | ⟨gui, config⟩
  · exact fits.elsewhere (main ▸ apart)
  · exact fits.quiet gui config

/-- Where all threads' work fits, the swap of an up-to-date save keeps the other fields. -/
theorem keepsOthers_of_fits {parties : Parties State Piece} {move : Move Request Bool}
    (fits : ∀ party, Fits toml parties.shared party (parties.todo party))
    (upToDate : UpToDate toml networks parties move) : KeepsOthers toml networks parties move := by
  cases move with
  | arrive party request => trivial
  | go party connected =>
      intro save config content next waits taken
      obtain ⟨piece, rest, after, left, todo, acted, rfl⟩ := Parties.step_go.mp taken
      rw [Parties.At, todo] at waits
      cases waits
      have own := fits party
      rw [todo] at own
      simp only [UpToDate, todo, List.head?_cons] at upToDate
      simp only [act] at acted
      cases connected with
      | false =>
          cases acted
          exact .refl _
      | true =>
          cases acted
          cases own with
          | service all => cases all _ List.mem_cons_self
          | swap agrees => exact agrees.sameOutside upToDate

/-- In every run of up-to-date saves, however they overlap with starts and stops of the
services, each save that is accepted changes only its own fields. -/
theorem saves_keep_others (toml : Toml) (networks : Networks) (lossless : Lossless toml) (initial : State)
    (moves : List (Move Request Bool))
    (upToDate : Guarded (step toml networks) (UpToDate toml networks) (.idle initial) moves) :
    Guarded (step toml networks) (KeepsOthers toml networks) (.idle initial) moves := by
  refine Guarded.of_invariant (step_fits lossless) (fun parties move fits upToDate => ?_) ?_ upToDate
  · exact keepsOthers_of_fits fits upToDate
  · exact fun party => .nil

section Alone
variable (toml networks)

/-- What the GUI makes of the answer to `write_config`. -/
def received (gui : Config) : Except Status ConfigReply × ConfigCopies → State
  | (.ok (.config content), backend) => ⟨backend, adopt toml gui content⟩
  | (_, backend) => ⟨backend, gui⟩

/-- `push_security_config`, and the save buttons of the other forms: what one save does when nothing
comes in between. -/
def pushConfig (save : Save) (state : State) : State :=
  if save.form.accepted networks save.env.host then
    let gui := save.form.applyTo state.gui
    received toml gui (saveConfig toml save.env (sent toml gui) state.backend)
  else state

variable {toml networks} {todo : Nat → List Piece} {rest : List Piece}

theorem check_runsTo (save : Save) (gui : Config) (backend : ConfigCopies) (content : Text) :
    Parties.RunsTo pieces (act toml networks) mainThread
      ⟨⟨backend, gui⟩, Function.update todo mainThread (.check save content :: rest)⟩
      ⟨received toml gui (saveConfig toml save.env content backend), Function.update todo mainThread rest⟩ := by
  rcases saveConfig_cases toml save.env content backend with
    ⟨why, ran, fails⟩ | ⟨config, text, checked, saved, ran⟩
  · rw [ran]
    cases checked : checkedConfig toml save.env.host content with
    | error status => exact .next true (by simp only [act, checked, received]) (.refl mainThread _)
    | ok config =>
        obtain ⟨why', failed⟩ := Config.save_none (fails config checked) backend.configToml
        refine .next true (by simp only [act, checked]; rfl) ?_
        exact .next true (by simp only [act, failed, received]) (.refl mainThread _)
  · rw [ran]
    refine .next true (by simp only [act, checked]; rfl) ?_
    refine .next true (by simp only [act, Config.save_some saved]; rfl) ?_
    cases readback : save.env.readError with
    | some why => exact .next true (by simp [act, readFile, readback, received]) (.refl mainThread _)
    | none =>
        have reads : (readFile save.env { backend with configToml := .text text }).1 = .ok text := by
          simp [readFile, readback, RawFile.readToString, Except.mapError]
        refine .next true (by simp only [act, reads]; rfl) ?_
        refine .next true (by simp only [act, if_true]; rfl) ?_
        exact .next true (by simp only [act, if_true, received]) (.refl mainThread _)

/-- The steps of a save that runs alone end in what it does on its own. -/
theorem save_runsTo (save : Save) (state : State) :
    Parties.RunsTo pieces (act toml networks) mainThread
      ⟨state, Function.update todo mainThread (.click save :: rest)⟩
      ⟨pushConfig toml networks save state, Function.update todo mainThread rest⟩ := by
  unfold pushConfig
  cases accepted : save.form.accepted networks save.env.host with
  | false => exact .next true (by simp [act, accepted]) (.refl mainThread _)
  | true =>
      refine .next true ?_ (check_runsTo save (save.form.applyTo state.gui) state.backend _)
      simp only [act, ne_eq, not_true_eq_false, if_false, accepted, if_true]

end Alone

end Machine

section Sample
open Convergence (blocking stopped sampleConfigs sampleToml sampleToml_serialise sampleToml_apart checkedConfig_blocking)

def block : Save := ⟨.blacklist (.add "10.0.0.9".toList), workingEnv⟩

def noNetworks : Networks := ⟨fun _ => none, fun _ => none⟩

theorem block_applyTo : block.form.applyTo .sample = blocking := by decide +kernel

theorem sampleToml_lossless : Lossless sampleToml := by
  have nonempty : ∀ config ∈ sampleConfigs, config.pretty ≠ [] := by decide +kernel
  constructor
  · intro config text parsed serialise parse
    have back := Toml.knowing_lossless sampleToml_apart config text serialise
    exact Except.ok.inj (parse.symm.trans back)
  · intro parsed parse
    obtain ⟨member, empty⟩ := Toml.knowing_read parse
    exact nonempty parsed member empty

def start : State := ⟨⟨.text Config.sample.pretty, .sample⟩, .sample⟩

theorem accepts_block : block.form.accepted noNetworks workingEnv.host = true := by decide +kernel

theorem sent_blocking : sent sampleToml blocking = blocking.pretty := by
  rw [sent, sampleToml_serialise blocking (by simp [sampleConfigs])]
  rfl

theorem saved_known (config : Config) (member : config ∈ sampleConfigs) :
    config.saved sampleToml workingEnv.calls = some config.pretty :=
  sampleToml_serialise config member

/-- The steps of the save up to its swap, from any configuration of the daemon. -/
theorem block_steps (configToml : RawFile) (config : Config) :
    act sampleToml noNetworks 0 true ⟨⟨configToml, config⟩, .sample⟩ (.click block) [] =
        some (⟨⟨configToml, config⟩, blocking⟩, [.check block blocking.pretty]) ∧
      act sampleToml noNetworks 0 true ⟨⟨configToml, config⟩, blocking⟩ (.check block blocking.pretty) [] =
        some (⟨⟨configToml, config⟩, blocking⟩, [.write block blocking]) ∧
      act sampleToml noNetworks 0 true ⟨⟨configToml, config⟩, blocking⟩ (.write block blocking) [] =
        some (⟨⟨.text blocking.pretty, config⟩, blocking⟩, [.readBack block blocking]) ∧
      act sampleToml noNetworks 0 true ⟨⟨.text blocking.pretty, config⟩, blocking⟩ (.readBack block blocking) [] =
        some (⟨⟨.text blocking.pretty, config⟩, blocking⟩, [.swap block blocking blocking.pretty]) := by
  refine ⟨?_, ?_, ?_, rfl⟩
  · have accepted : block.form.accepted noNetworks block.env.host = true := accepts_block
    simp only [act, mainThread, accepted, block_applyTo, sent_blocking, ne_eq, not_true_eq_false, if_false, if_true]
  · have checked : checkedConfig sampleToml block.env.host blocking.pretty = .ok blocking := checkedConfig_blocking
    simp only [act, checked]
  · have saves : blocking.save sampleToml block.env.calls configToml = (.ok (), .text blocking.pretty) :=
      Config.save_some (saved_known blocking (by simp [sampleConfigs])) configToml
    simp only [act, saves]

def blockMoves : List (Move Request Bool) := [.arrive 0 (.save block), .go 0 true, .go 0 true, .go 0 true, .go 0 true]

def stopMoves : List (Move Request Bool) :=
  [.arrive 1 (.stopService .ftp fun _ => workingEnv.calls), .go 1 true, .go 1 true]

/-- What the main thread is about to do after the steps of the save up to its swap. -/
theorem blockMoves_run (configToml : RawFile) (config : Config) :
    exec (step sampleToml noNetworks) (.idle ⟨⟨configToml, config⟩, .sample⟩) blockMoves =
      some ⟨⟨⟨.text blocking.pretty, config⟩, blocking⟩,
        Function.update (fun _ => []) 0 [.swap block blocking blocking.pretty]⟩ := by
  obtain ⟨clicked, checked, written, read⟩ := block_steps configToml config
  have asks : pieces (.save block) = [.click block] := rfl
  rw [blockMoves, step, Parties.exec_arrive rfl, asks]
  dsimp only [Parties.idle]
  rw [Parties.exec_next clicked, Parties.exec_next checked, Parties.exec_next written, Parties.exec_next read, exec_nil]

theorem saved_stopped : stopped.saved sampleToml workingEnv.calls = some stopped.pretty := saved_known stopped (by simp [sampleConfigs])

theorem stopMoves_run : exec (step sampleToml noNetworks) (.idle start) stopMoves =
    some (.idle ⟨⟨.text stopped.pretty, stopped⟩, .sample⟩) := by
  have flags : act sampleToml noNetworks 1 true start (.setEnabled .ftp false workingEnv.calls) [] =
      some (⟨⟨.text Config.sample.pretty, stopped⟩, .sample⟩, [.persist workingEnv.calls]) := rfl
  have persists : act sampleToml noNetworks 1 true ⟨⟨.text Config.sample.pretty, stopped⟩, .sample⟩
      (.persist workingEnv.calls) [] = some (⟨⟨.text stopped.pretty, stopped⟩, .sample⟩, []) := by
    simp only [act, Config.save_some saved_stopped]
  rw [stopMoves, step, Parties.exec_arrive rfl, Parties.exec_go rfl flags, Parties.exec_go rfl persists, exec_nil]
  simp only [Parties.idle, Function.update_idem]
  exact congrArg some (Parties.Answered.eq_idle fun party => by by_cases first : party = 1 <;> simp [first])

/-- The FTP service is stopped, and then an address is put on the black list: the flag of the
service is set again. -/
theorem save_undoes_stop : ¬ ∀ (toml : Toml) (networks : Networks), Lossless toml → ∀ (initial : State)
    (moves : List (Move Request Bool)),
    Guarded (step toml networks) (KeepsOthers toml networks) (.idle initial) moves := by
  intro keeps
  have everywhere := keeps sampleToml noNetworks sampleToml_lossless start (stopMoves ++ blockMoves ++ [.go 0 true])
  have reached := (exec_append _ stopMoves_run).trans (blockMoves_run (.text stopped.pretty) stopped)
  have swapped := everywhere.reached reached block blocking blocking.pretty _ rfl
    (Parties.step_go.mpr ⟨_, _, _, _, rfl, rfl, rfl⟩)
  have enabled : ¬ block.form.fields.region.SameOutside stopped blocking := by decide +kernel
  exact enabled swapped

theorem saves_keep_others_block :
    Guarded (step sampleToml noNetworks) (KeepsOthers sampleToml noNetworks) (.idle start)
      (blockMoves ++ [.go 0 true, .go 0 true]) := by
  refine saves_keep_others sampleToml noNetworks sampleToml_lossless start _ ?_
  obtain ⟨clicked, checked, written, read⟩ := block_steps (.text Config.sample.pretty) .sample
  refine .cons trivial (Parties.step_arrive.mpr ⟨rfl, rfl⟩) ?_
  refine .cons (fun _ _ => .refl _) (Parties.step_go.mpr ⟨_, _, _, _, rfl, clicked, rfl⟩) ?_
  refine .cons trivial (Parties.step_go.mpr ⟨_, _, _, _, rfl, checked, rfl⟩) ?_
  refine .cons trivial (Parties.step_go.mpr ⟨_, _, _, _, rfl, written, rfl⟩) ?_
  refine .cons trivial (Parties.step_go.mpr ⟨_, _, _, _, rfl, read, rfl⟩) ?_
  refine .cons (fun service _ => by cases service <;> rfl) (Parties.step_go.mpr ⟨_, _, _, _, rfl, rfl, rfl⟩) ?_
  exact ⟨trivial, fun _ _ => trivial⟩

end Sample

end Wftpd.Gui
