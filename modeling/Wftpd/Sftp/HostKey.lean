import Wftpd.Library.Action
import Wftpd.Library.Runs
import Wftpd.Posix.Path

/-! The host key of the SFTP server, which every start loads, or makes when it is not there.

The key library is a parameter, and so is what fails during a start. A start that fails may
leave a key behind, or a part of one. Starts come one after the other, and the places of the key
and of its public half are no links.
-/

set_option autoImplicit false

namespace Wftpd.Sftp.HostKey
open Wftpd.Posix Wftpd.Library

variable {PrivateKey : Type}

structure SshKeys (PrivateKey : Type) where
  fromOpenssh : Text → Except Text PrivateKey
  toOpenssh : PrivateKey → Except Text Text
  publicOpenssh : PrivateKey → Except Text Text

structure KeyFile where
  content : Text
  mode : Nat
  deriving DecidableEq, Repr

abbrev KeyFiles := PathBuf → Option KeyFile

inductive KeyCall where
  | read
  | stat
  | restrict
  | parent
  | createKey
  | writeKey
  | chmodKey
  | createPublic
  | writePublic
  | chmodPublic
  deriving DecidableEq, Repr

/-- What one start meets: whether `exists` sees a file that is there, which call fails, how much a failing write
has written, the mode of a new file and the random key. -/
structure StartEnv (PrivateKey : Type) where
  seen : Bool
  fault : KeyCall → Option Text
  written : Nat
  created : Nat
  random : Except Text PrivateKey

def fileStem (name : Name) : Name :=
  let before := ((name.reverse.dropWhile (· ≠ '.')).drop 1).reverse
  if before = [] then name else before

def withExtension (path : PathBuf) (extension : Text) : PathBuf :=
  match path.getLast? with
  | some (.normal name) => path.dropLast ++ [.normal (fileStem name ++ '.' :: extension)]
  | _ => path

def permissionBits (mode : Nat) : Nat := mode &&& 0o777

theorem permissionBits_private : permissionBits 0o600 = 0o600 := by decide

section Calls
variable (env : StartEnv PrivateKey)

def attempt (call : KeyCall) : Action KeyFiles Text Unit :=
  match env.fault call with
  | some why => Action.fail why
  | none => pure ()

def setMode (path : PathBuf) (mode : Nat) : Action KeyFiles Text Unit :=
  Action.modify fun files => Function.update files path ((files path).map fun file => { file with mode := mode })

/-- A file with this content. One that was there keeps its mode. -/
def put (path : PathBuf) (content : Text) : Action KeyFiles Text Unit :=
  Action.modify fun files =>
    Function.update files path (some ⟨content, ((files path).map KeyFile.mode).getD env.created⟩)

/-- `fs::write`: the file is made or emptied first, and a write that fails has written a part. -/
def writeFile (create write : KeyCall) (path : PathBuf) (content : Text) : Action KeyFiles Text Unit := do
  attempt env create
  match env.fault write with
  | some why =>
      put env path (content.take env.written)
      Action.fail why
  | none => put env path content

end Calls

section Start
variable (keys : SshKeys PrivateKey) (path : PathBuf) (env : StartEnv PrivateKey)

/-- The key of the file. Its mode is made strict where it is not. -/
def load (file : KeyFile) : Action KeyFiles Text PrivateKey := do
  attempt env .read
  let key ← Action.lift (keys.fromOpenssh file.content)
  attempt env .stat
  if permissionBits file.mode ≠ 0o600 then
    attempt env .restrict
    setMode path 0o600
  return key

/-- A new key, and its public half beside it. -/
def generate : Action KeyFiles Text PrivateKey := do
  (if path.parent.isSome then attempt env .parent else pure ())
  let key ← Action.lift env.random
  let openssh ← Action.lift (keys.toOpenssh key)
  writeFile env .createKey .writeKey path openssh
  attempt env .chmodKey
  setMode path 0o600
  let publicOpenssh ← Action.lift (keys.publicOpenssh key)
  writeFile env .createPublic .writePublic (withExtension path "pub".toList) publicOpenssh
  attempt env .chmodPublic
  setMode (withExtension path "pub".toList) 0o644
  return key

def loadOrGenerateHostKey : Action KeyFiles Text PrivateKey := do
  match ← Action.read fun files => if env.seen then files path else none with
  | some file => load keys path env file
  | none => generate keys path env

end Start

def step (keys : SshKeys PrivateKey) (path : PathBuf) (files : KeyFiles) (env : StartEnv PrivateKey) :
    Except Text PrivateKey × KeyFiles :=
  loadOrGenerateHostKey keys path env files

section Stable
variable {keys : SshKeys PrivateKey} {path : PathBuf} {files : KeyFiles}

def Holds (keys : SshKeys PrivateKey) (path : PathBuf) (key : PrivateKey) (files : KeyFiles) : Prop :=
  ∃ file, files path = some file ∧ keys.fromOpenssh file.content = .ok key ∧ permissionBits file.mode = 0o600

@[simp] theorem attempt_run (env : StartEnv PrivateKey) (call : KeyCall) (files : KeyFiles) :
    attempt env call files = (match env.fault call with | some why => .error why | none => .ok (), files) := by
  unfold attempt
  cases env.fault call <;> rfl

/-- A file that is there is loaded: its key does not change, and it is private once a start has succeeded. -/
theorem load_spec (keys : SshKeys PrivateKey) (env : StartEnv PrivateKey) {file : KeyFile}
    (there : files path = some file) :
    (∃ mode, (load keys path env file files).2 path = some ⟨file.content, mode⟩ ∧
      (mode = file.mode ∨ mode = 0o600)) ∧
    ∀ key, (load keys path env file files).1 = .ok key → Holds keys path key (load keys path env file files).2 ∧
      keys.fromOpenssh file.content = .ok key := by
  have unchanged : ∃ mode, files path = some ⟨file.content, mode⟩ ∧ (mode = file.mode ∨ mode = 0o600) :=
    ⟨file.mode, there, .inl rfl⟩
  simp only [load, Action.bind_run, attempt_run, Action.lift]
  -- only the last call changes anything, and that is the mode
  cases env.fault .read with
  | some why => exact ⟨unchanged, by simp⟩
  | none =>
      cases parsed : keys.fromOpenssh file.content with
      | error why => exact ⟨unchanged, by simp⟩
      | ok key =>
          cases env.fault .stat with
          | some why => exact ⟨unchanged, by simp⟩
          | none =>
              by_cases strict : permissionBits file.mode = 0o600
              · simp only [strict, ne_eq, not_true_eq_false, if_false]
                refine ⟨unchanged, ?_⟩
                rintro _ ⟨⟩
                exact ⟨⟨file, there, parsed, strict⟩, rfl⟩
              · simp only [ne_eq, strict, not_false_eq_true, if_true, Action.bind_run, attempt_run]
                cases env.fault .restrict with
                | some why => exact ⟨unchanged, by simp⟩
                | none =>
                    simp only [setMode, Action.modify_run, Action.pure_run, Function.update_self, there, Option.map_some]
                    refine ⟨⟨0o600, rfl, .inr rfl⟩, ?_⟩
                    rintro _ ⟨⟩
                    exact ⟨⟨⟨file.content, 0o600⟩, Function.update_self .., parsed, permissionBits_private⟩, rfl⟩

theorem attempt_ok {env : StartEnv PrivateKey} {call : KeyCall} {done : Unit} {after : KeyFiles}
    (ran : attempt env call files = (.ok done, after)) : after = files := by
  rw [attempt_run] at ran
  exact (congrArg Prod.snd ran).symm

theorem writeFile_ok {env : StartEnv PrivateKey} {create write : KeyCall} {place : PathBuf} {content : Text}
    {done : Unit} {after : KeyFiles} (ran : writeFile env create write place content files = (.ok done, after)) :
    ∃ mode, after = Function.update files place (some ⟨content, mode⟩) := by
  obtain ⟨_, between, created, ran⟩ := Action.bind_ok ran
  cases attempt_ok created
  cases fault : env.fault write with
  | some why =>
      rw [fault] at ran
      cases ran
  | none =>
      rw [fault] at ran
      exact ⟨_, (congrArg Prod.snd ran).symm⟩

theorem setMode_ok {place : PathBuf} {mode : Nat} {done : Unit} {after : KeyFiles}
    (ran : setMode place mode files = (.ok done, after)) :
    after = Function.update files place ((files place).map fun file => { file with mode := mode }) :=
  (congrArg Prod.snd ran).symm

theorem lift_ok {α : Type} {result : Except Text α} {value : α} {after : KeyFiles}
    (ran : Action.lift result files = (.ok value, after)) : result = .ok value ∧ after = files :=
  ⟨congrArg Prod.fst ran, (congrArg Prod.snd ran).symm⟩

/-- A start that makes a key leaves it in the file, and its public half in another. -/
theorem generate_spec (lossless : ∀ key text, keys.toOpenssh key = .ok text → keys.fromOpenssh text = .ok key)
    (apart : withExtension path "pub".toList ≠ path) (env : StartEnv PrivateKey) {key : PrivateKey} {after : KeyFiles}
    (made : generate keys path env files = (.ok key, after)) : Holds keys path key after := by
  obtain ⟨_, _, -, draws⟩ := Action.bind_ok made
  obtain ⟨random, _, -, prints⟩ := Action.bind_ok draws
  obtain ⟨openssh, _, lifted, writes⟩ := Action.bind_ok prints
  obtain ⟨printed, rfl⟩ := lift_ok lifted
  obtain ⟨_, _, written, asks⟩ := Action.bind_ok writes
  obtain ⟨mode, rfl⟩ := writeFile_ok written
  obtain ⟨_, _, asked, restricts⟩ := Action.bind_ok asks
  obtain rfl := attempt_ok asked
  obtain ⟨_, _, restricted, publishes⟩ := Action.bind_ok restricts
  obtain rfl := setMode_ok restricted
  -- what follows is about the other file
  obtain ⟨publicOpenssh, _, lifted', writes'⟩ := Action.bind_ok publishes
  obtain ⟨-, rfl⟩ := lift_ok lifted'
  obtain ⟨_, _, written', asks'⟩ := Action.bind_ok writes'
  obtain ⟨mode', rfl⟩ := writeFile_ok written'
  obtain ⟨_, _, asked', opens⟩ := Action.bind_ok asks'
  obtain rfl := attempt_ok asked'
  obtain ⟨_, _, opened, answers⟩ := Action.bind_ok opens
  obtain rfl := setMode_ok opened
  obtain ⟨answer, rfl⟩ := Prod.mk.inj answers
  cases answer
  refine ⟨⟨openssh, 0o600⟩, ?_, lossless _ openssh printed, permissionBits_private⟩
  rw [Function.update_of_ne apart.symm, Function.update_of_ne apart.symm, Function.update_self, Function.update_self]
  rfl

theorem step_ok (lossless : ∀ key text, keys.toOpenssh key = .ok text → keys.fromOpenssh text = .ok key)
    (apart : withExtension path "pub".toList ≠ path) {env : StartEnv PrivateKey} {key : PrivateKey}
    (started : (step keys path files env).1 = .ok key) : Holds keys path key (step keys path files env).2 := by
  simp only [step, loadOrGenerateHostKey, Action.bind_run, Action.read_run] at started ⊢
  cases found : (if env.seen then files path else none) with
  | some file =>
      have there : files path = some file := by
        split at found
        · exact found
        · cases found
      rw [found] at started
      exact ((load_spec keys env there).2 key started).1
  | none =>
      rw [found] at started
      exact generate_spec lossless apart env (Prod.ext started rfl)

theorem step_holds {env : StartEnv PrivateKey} {key : PrivateKey} (seen : env.seen = true)
    (holds : Holds keys path key files) :
    Holds keys path key (step keys path files env).2 ∧ ∀ other, (step keys path files env).1 = .ok other → other = key := by
  obtain ⟨file, there, parsed, strict⟩ := holds
  have loads : step keys path files env = load keys path env file files := by
    simp only [step, loadOrGenerateHostKey, Action.bind_run, Action.read_run, seen, if_true, there]
  obtain ⟨⟨mode, kept, modes⟩, answers⟩ := load_spec keys env there
  rw [loads]
  refine ⟨⟨⟨file.content, mode⟩, kept, parsed, ?_⟩, fun other answered => ?_⟩
  · rcases modes with rfl | rfl
    · exact strict
    · exact permissionBits_private
  · have same := (answers other answered).2
    rw [parsed] at same
    exact (Except.ok.inj same).symm

theorem run_holds {key : PrivateKey} {starts : List (StartEnv PrivateKey)} (seen : ∀ env ∈ starts, env.seen = true)
    (holds : Holds keys path key files) :
    Holds keys path key (run (step keys path) files starts).2 ∧
      ∀ other, .ok other ∈ (run (step keys path) files starts).1 → other = key := by
  induction starts generalizing files with
  | nil => exact ⟨holds, by simp⟩
  | cons env rest ih =>
      obtain ⟨kept, answers⟩ := step_holds (seen env List.mem_cons_self) holds
      obtain ⟨final, others⟩ := ih (fun env member => seen env (List.mem_cons_of_mem _ member)) kept
      refine ⟨final, fun other member => ?_⟩
      rcases List.mem_cons.mp member with now | later
      · exact answers other now.symm
      · exact others other later

/-- All starts that succeed answer with one key, which stays in a file that only its owner can read: whatever
was there at first, and whatever fails in between. -/
theorem starts_agree (keys : SshKeys PrivateKey)
    (lossless : ∀ key text, keys.toOpenssh key = .ok text → keys.fromOpenssh text = .ok key) (path : PathBuf)
    (apart : withExtension path "pub".toList ≠ path) (files : KeyFiles) (starts : List (StartEnv PrivateKey))
    (seen : ∀ env ∈ starts, env.seen = true) (key : PrivateKey)
    (started : .ok key ∈ (run (step keys path) files starts).1) :
    (∀ other, .ok other ∈ (run (step keys path) files starts).1 → other = key) ∧
      Holds keys path key (run (step keys path) files starts).2 := by
  induction starts generalizing files with
  | nil => simp at started
  | cons env rest ih =>
      have seenRest : ∀ env ∈ rest, env.seen = true := fun env member => seen env (List.mem_cons_of_mem _ member)
      cases answer : (step keys path files env).1 with
      | ok first =>
          -- from the first success on, the file has the key
          obtain ⟨final, others⟩ := run_holds seenRest (step_ok lossless apart answer)
          have all : ∀ other, .ok other ∈ (run (step keys path) files (env :: rest)).1 → other = first := by
            intro other member
            rcases List.mem_cons.mp member with now | later
            · exact Except.ok.inj (now.trans answer)
            · exact others other later
          cases all key started
          exact ⟨all, final⟩
      | error why =>
          rw [run_cons, answer] at started ⊢
          have later : .ok key ∈ (run (step keys path) (step keys path files env).2 rest).1 := by simpa using started
          obtain ⟨others, final⟩ := ih _ seenRest later
          exact ⟨fun other member => others other (by simpa using member), final⟩

end Stable

section Sample

def textKeys : SshKeys Text := ⟨.ok, .ok, fun key => .ok ("public ".toList ++ key)⟩

def draws (key : String) : StartEnv Text := ⟨true, fun _ => none, 0, 0o644, .ok key.toList⟩

/-- The public half cannot be written at first, and the second start would draw another key. -/
theorem starts_agree_second : .ok "b".toList ∉
    (run (step textKeys (components "/k".toList)) (fun _ => none)
      [{ draws "a" with fault := fun call => if call = .createPublic then some [] else none }, draws "b"]).1 := by
  intro second
  have loaded : .ok "a".toList ∈ (run (step textKeys (components "/k".toList)) (fun _ => none)
      [{ draws "a" with fault := fun call => if call = .createPublic then some [] else none }, draws "b"]).1 :=
    .tail _ (.head _)
  have same := (starts_agree textKeys (fun _ _ printed => printed.symm) (components "/k".toList) (by decide) (fun _ => none) _
    (by simp [draws]) "a".toList loaded).1 "b".toList second
  exact absurd same (by decide)

end Sample

end Wftpd.Sftp.HostKey
