import Mathlib.Logic.Function.Basic
import Wftpd.Daemon.SaveUsers
import Wftpd.Library.Runs
import Wftpd.Posix.Replace

/-! Requests that replace the user store while others do, all through one temporary file.

Each request opens the file, which empties one that is there, writes its content in pieces, loads
it back, renames it and swaps in what it loaded, with no lock in between. Which content is where is
kept as history.
-/

set_option autoImplicit false

namespace Wftpd.Daemon.SaveUsersRace
open Wftpd.Posix Wftpd.Common Wftpd.Library
open Replace (Disk installed)

inductive Phase where
  | idle
  | writing (file offset : Nat)
  | written
  | loaded (validated : UserManager)
  | renamed (validated : UserManager)
  | answered (reply : SaveReply)
  deriving DecidableEq

/-- The disk has `users.json` as its target. -/
structure Race (ι : Type) where
  disk : Disk ι
  manager : UserManager
  phase : ι → Phase
  /-- Loading a content ended the process. -/
  gone : Bool
  /-- The requests whose contents were renamed over `users.json`, the latest first. -/
  commits : List ι

inductive Label (ι : Type) where
  | create (request : ι) (works : Bool)
  | write (request : ι) (answer : Replace.Answer)
  | load (request : ι) (readable logsErrors : Bool)
  | rename (request : ι) (works : Bool)
  | swap (request : ι)

def Label.Refused {ι : Type} : Label ι → Prop
  | .create _ works | .rename _ works => works = false
  | .write _ answer => answer = .fails
  | .load _ readable _ => readable = false
  | .swap _ => False

def rawFile {ι : Type} (disk : Disk ι) : Option Nat → RawFile
  | none => .absent
  | some file =>
      match decodeUtf8 (disk.contents file) with
      | some text => .text text
      | none => .unreadable

def Race.usersJson {ι : Type} (race : Race ι) : RawFile := rawFile race.disk race.disk.target

/-- The request whose whole content the temporary file holds, with nothing of another since it was opened. -/
def Race.author {ι : Type} (race : Race ι) : Option ι := do
  let file ← race.disk.temp
  let opening ← race.disk.openings file
  if opening.undisturbed && opening.written == opening.payload.length then some opening.party else none

section Machine
variable {ι : Type} [DecidableEq ι] (parse : Text → Option UserManager) (content : ι → Text)

def Race.start (usersJson temp : Option (List UInt8)) (manager : UserManager) : Race ι :=
  ⟨installed usersJson temp, manager, fun _ => .idle, false, []⟩

def Race.enter (race : Race ι) (request : ι) (phase : Phase) : Race ι :=
  { race with phase := Function.update race.phase request phase }

/-- A request that has written so much. -/
def progress (request : ι) (file offset : Nat) : Phase :=
  if (encodeUtf8 (content request)).length ≤ offset then .written else .writing file offset

/-- One call of one request; none when it is not its turn. -/
def step (race : Race ι) (label : Label ι) : Option (Race ι) :=
  if race.gone then none
  else match label with
    | .create request works =>
        if race.phase request = .idle then
          if works then
            let file := race.disk.temp.getD race.disk.fresh
            some { race.enter request (progress content request file 0) with
              disk := race.disk.create request (encodeUtf8 (content request)) file }
          else some (race.enter request (.answered .internal))
        else none
    | .write request answer =>
        match race.phase request, answer with
        | .writing file offset, .works more =>
            some { race.enter request (progress content request file (offset + (more + 1))) with
              disk := race.disk.write request file (encodeUtf8 (content request)) offset (more + 1) }
        | .writing _ _, .fails => some (race.enter request (.answered .internal))
        | _, _ => none
    | .load request readable logsErrors =>
        if race.phase request = .written then
          match UserManager.load logsErrors
              ((if readable then rawFile race.disk race.disk.temp else .unreadable).decode parse) with
          | .done validated => some (race.enter request (.loaded validated))
          | .crashed => some { race with gone := true }
        else none
    | .rename request works =>
        match race.phase request with
        | .loaded validated =>
            match works, race.disk.temp with
            | true, some file =>
                some { race.enter request (.renamed validated) with
                  disk := { race.disk with target := some file, temp := none }
                  commits := race.author.toList ++ race.commits }
            | _, _ => some (race.enter request (.answered .internal))
        | _ => none
    | .swap request =>
        match race.phase request with
        | .renamed validated =>
            some { race.enter request (.answered (.users (content request))) with manager := validated }
        | _ => none

def Race.Answered (race : Race ι) : Prop := ∀ request, ∃ reply, race.phase request = .answered reply

def Race.Succeeded (race : Race ι) (request : ι) : Prop := race.phase request = .answered (.users (content request))

/-- The copies agree, on the content of a request that was answered successfully. -/
def Race.Agrees (race : Race ι) : Prop :=
  ∃ request, race.Succeeded content request ∧ race.usersJson = .text (content request) ∧
    race.usersJson.decode parse = .store race.manager

def Race.ErrorsUncommitted (race : Race ι) : Prop :=
  ∀ request, race.phase request = .answered .internal → request ∉ race.commits

/-- A request writes to no file that has become `users.json`, loads back its own content if it is there, renames
no other, and swaps what it loaded before the request whose content is in the file does. -/
def Careful (race : Race ι) : Label ι → Prop
  | .create _ _ => True
  | .write request answer => ∀ file offset, race.phase request = .writing file offset → answer ≠ .fails →
      race.disk.target ≠ some file
  | .load request readable _ => race.author = some request → readable = true
  | .rename request works => works = true → race.disk.temp ≠ none → race.author = some request
  | .swap request => ∀ latest, race.commits.head? = some latest →
      latest = request ∨ ∃ validated, race.phase latest = .renamed validated

section Invariant
variable (start : Race ι) (store : ι → UserManager)

/-- The two names are of two files, and a file that only its opener has written to holds what he has
written. -/
structure Filed (race : Race ι) : Prop where
  known : ∀ file, race.disk.temp = some file ∨ race.disk.target = some file → file < race.disk.fresh
  apart : ∀ file, race.disk.temp = some file → race.disk.target ≠ some file
  opened : ∀ file opening, race.disk.openings file = some opening →
    opening.payload = encodeUtf8 (content opening.party) ∧
      (opening.undisturbed = true → race.disk.contents file = opening.payload.take opening.written)
  writing : ∀ request file offset, race.phase request = .writing file offset →
    offset ≤ (encodeUtf8 (content request)).length ∧
      ∀ opening, race.disk.openings file = some opening → opening.party = request → opening.written = offset

/-- The author of the temporary file has not renamed it. -/
def Waits (race : Race ι) : Prop :=
  ∀ request, race.author = some request →
    race.phase request = .written ∨ race.phase request = .loaded (store request) ∨
      race.phase request = .answered .internal

/-- How far the requests have come whose contents were committed. -/
structure History (race : Race ι) : Prop where
  renamed : ∀ request validated, race.phase request = .renamed validated →
    validated = store request ∧ request ∈ race.commits
  answered : ∀ request text, race.phase request = .answered (.users text) → request ∈ race.commits
  committed : ∀ request ∈ race.commits,
    race.phase request = .renamed (store request) ∨ race.Succeeded content request
  latest : match race.commits.head? with
    | none => race.usersJson = start.usersJson ∧ race.manager = start.manager
    | some request => race.usersJson = .text (content request) ∧
        (race.phase request = .renamed (store request) ∨
          race.Succeeded content request ∧ race.manager = store request)

structure Orderly (race : Race ι) : Prop where
  filed : Filed content race
  waits : Waits store race
  history : History content start store race

variable {parse content start store}

section Files
omit [DecidableEq ι]

theorem author_eq_some {race : Race ι} {request : ι} : race.author = some request ↔
    ∃ file opening, race.disk.temp = some file ∧ race.disk.openings file = some opening ∧
      opening.undisturbed = true ∧ opening.written = opening.payload.length ∧ opening.party = request := by
  simp only [Race.author, bind, Option.bind_eq_some_iff, Option.ite_none_right_eq_some, Bool.and_eq_true, beq_iff_eq,
    Option.some.injEq]
  constructor
  · rintro ⟨file, isTemp, opening, noted, ⟨undisturbed, all⟩, own⟩
    exact ⟨file, opening, isTemp, noted, undisturbed, all, own⟩
  · rintro ⟨file, opening, isTemp, noted, undisturbed, all, own⟩
    exact ⟨file, isTemp, opening, noted, ⟨undisturbed, all⟩, own⟩

theorem rawFile_congr {disk after : Disk ι} {name : Option Nat}
    (same : ∀ file, name = some file → after.contents file = disk.contents file) : rawFile after name = rawFile disk name := by
  cases name with
  | none => rfl
  | some file =>
      unfold rawFile
      simp only [same file rfl]

theorem rawFile_text {disk : Disk ι} {file : Nat} {text : Text} (holds : disk.contents file = encodeUtf8 text) :
    rawFile disk (some file) = .text text := by
  simp only [rawFile, holds, decodeUtf8_encodeUtf8]

/-- What the author has written is in the temporary file. -/
theorem Filed.authored {race : Race ι} (filed : Filed content race) {request : ι} (author : race.author = some request) :
    ∃ file, race.disk.temp = some file ∧ race.disk.contents file = encodeUtf8 (content request) := by
  obtain ⟨file, opening, isTemp, noted, undisturbed, all, rfl⟩ := author_eq_some.mp author
  obtain ⟨payload, holds⟩ := filed.opened file opening noted
  exact ⟨file, isTemp, by rw [holds undisturbed, all, List.take_length, payload]⟩

theorem Filed.apart_create {race : Race ι} (filed : Filed content race) {file : Nat} (isTarget : race.disk.target = some file) :
    file ≠ race.disk.temp.getD race.disk.fresh := by
  rintro rfl
  cases isTemp : race.disk.temp with
  | none =>
      rw [isTemp] at isTarget
      exact absurd (filed.known _ (.inr isTarget)) (Nat.lt_irrefl _)
  | some other =>
      rw [isTemp] at isTarget
      exact filed.apart other isTemp isTarget

theorem start_orderly (usersJson temp : Option (List UInt8)) (manager : UserManager) :
    Orderly content (.start usersJson temp manager) store (.start usersJson temp manager : Race ι) := by
  have names : ∀ file, (temp.map fun _ => 1) = some file ∨ (usersJson.map fun _ => 0) = some file → file < 2 := by
    intro file named
    cases temp <;> cases usersJson <;> simp at named <;> omega
  refine ⟨⟨names, fun file isTemp isTarget => ?_, fun _ _ noted => (by cases noted), fun _ _ _ phase => (by cases phase)⟩,
    fun request author => ?_, fun _ _ phase => (by cases phase), fun _ _ phase => (by cases phase),
    fun _ member => (by cases member), rfl, rfl⟩
  · cases temp <;> cases usersJson <;> simp [Race.start, installed] at isTemp isTarget
    omega
  · obtain ⟨_, _, -, noted, -⟩ := author_eq_some.mp author
    cases noted

theorem History.uncommitted {race : Race ι} (history : History content start store race) {request : ι}
    (pending : ∀ validated text, race.phase request ≠ .renamed validated ∧ race.phase request ≠ .answered (.users text)) :
    request ∉ race.commits := by
  intro member
  rcases history.committed request member with renamed | succeeded
  · exact (pending (store request) (content request)).1 renamed
  · exact (pending (store request) (content request)).2 succeeded

theorem History.of_disk {race : Race ι} (history : History content start store race) {disk : Disk ι}
    (same : rawFile disk disk.target = race.usersJson) : History content start store { race with disk := disk } := by
  refine ⟨history.renamed, history.answered, history.committed, ?_⟩
  have latest := history.latest
  rw [← same] at latest
  exact latest

theorem progress_unanswered (request : ι) (file offset : Nat) :
    (∀ validated, progress content request file offset ≠ .renamed validated) ∧
      ∀ reply, progress content request file offset ≠ .answered reply := by
  unfold progress
  split <;> simp

end Files

theorem enter_self (race : Race ι) (request : ι) (phase : Phase) : (race.enter request phase).phase request = phase := by
  simp [Race.enter]

theorem enter_of_ne (race : Race ι) {request other : ι} (phase : Phase) (apart : other ≠ request) :
    (race.enter request phase).phase other = race.phase other := by
  simp [Race.enter, apart]

/-- A request none of whose content is committed goes on, or fails. -/
theorem History.enter {race : Race ι} (history : History content start store race) {request : ι}
    (uncommitted : request ∉ race.commits) {phase : Phase} (unrenamed : ∀ validated, phase ≠ .renamed validated)
    (unsuccessful : ∀ text, phase ≠ .answered (.users text)) : History content start store (race.enter request phase) := by
  have others : ∀ other ∈ race.commits, (race.enter request phase).phase other = race.phase other := by
    intro other member
    refine enter_of_ne race phase ?_
    rintro rfl
    exact uncommitted member
  refine ⟨fun other validated entered => ?_, fun other text entered => ?_, fun other member => ?_, ?_⟩
  · by_cases same : other = request
    · subst other
      exact absurd (enter_self race request phase ▸ entered) (unrenamed validated)
    · exact history.renamed other validated (enter_of_ne race phase same ▸ entered)
  · by_cases same : other = request
    · subst other
      exact absurd (enter_self race request phase ▸ entered) (unsuccessful text)
    · exact history.answered other text (enter_of_ne race phase same ▸ entered)
  · rw [Race.Succeeded, others other member]
    exact history.committed other member
  · have latest := history.latest
    show match race.commits.head? with | none => _ | some other => _
    cases first : race.commits.head? with
    | none =>
        simp only [first] at latest
        exact latest
    | some other =>
        simp only [first] at latest
        simp only [Race.Succeeded, others other (List.mem_of_head? first)]
        exact latest

/-- A request that does not go on writing leaves the files as they are. -/
theorem Filed.enter {race : Race ι} (filed : Filed content race) {request : ι} {phase : Phase}
    (done : ∀ file offset, phase ≠ .writing file offset) : Filed content (race.enter request phase) := by
  refine ⟨filed.known, filed.apart, filed.opened, fun other file offset entered => ?_⟩
  by_cases same : other = request
  · subst other
    exact absurd (enter_self race request phase ▸ entered) (done file offset)
  · exact filed.writing other file offset (enter_of_ne race phase same ▸ entered)

theorem Waits.enter {race : Race ι} (waits : Waits store race) {request : ι} {phase : Phase}
    (own : race.author = some request →
      phase = .written ∨ phase = .loaded (store request) ∨ phase = .answered .internal) :
    Waits store (race.enter request phase) := by
  intro other author
  by_cases same : other = request
  · subst other
    rw [enter_self]
    exact own author
  · rw [enter_of_ne race phase same]
    exact waits other author

/-- The file of an open is its opener's. -/
theorem Filed.create {race : Race ι} (filed : Filed content race) (request : ι) :
    Filed content { race.enter request (progress content request (race.disk.temp.getD race.disk.fresh) 0) with
      disk := race.disk.create request (encodeUtf8 (content request)) (race.disk.temp.getD race.disk.fresh) } := by
  refine ⟨fun file named => ?_, fun file isTemp isTarget => ?_, fun file opening noted => ?_,
    fun other file offset entered => ?_⟩
  · rcases named with isTemp | isTarget
    · cases isTemp
      simp only [Disk.create]
      omega
    · have old := filed.known file (.inr isTarget)
      simp only [Disk.create]
      omega
  · cases isTemp
    exact filed.apart_create isTarget rfl
  · by_cases same : file = race.disk.temp.getD race.disk.fresh
    · subst file
      simp only [Disk.create, Function.update_self, Option.some.injEq] at noted ⊢
      subst opening
      exact ⟨rfl, fun _ => rfl⟩
    · simp only [Disk.create, Function.update_of_ne same] at noted ⊢
      exact filed.opened file opening noted
  · by_cases same : other = request
    · subst other
      have entered := (enter_self race request _).symm.trans entered
      unfold progress at entered
      split at entered
      · cases entered
      · cases entered
        refine ⟨Nat.zero_le _, fun opening noted own => ?_⟩
        simp only [Disk.create, Function.update_self, Option.some.injEq] at noted
        subst opening
        rfl
    · obtain ⟨within, progressed⟩ := filed.writing other file offset ((enter_of_ne race _ same).symm.trans entered)
      refine ⟨within, fun opening noted own => ?_⟩
      by_cases emptied : file = race.disk.temp.getD race.disk.fresh
      · subst file
        simp only [Disk.create, Function.update_self, Option.some.injEq] at noted
        subst opening
        exact absurd own.symm same
      · simp only [Disk.create, Function.update_of_ne emptied] at noted
        exact progressed opening noted own

theorem create_orderly {race next : Race ι} {request : ι} {works : Bool} (orderly : Orderly content start store race)
    (taken : step parse content race (.create request works) = some next) : Orderly content start store next := by
  simp only [step] at taken
  split at taken
  · cases taken
  · split at taken
    · next idle =>
        have uncommitted : request ∉ race.commits := orderly.history.uncommitted (by simp [idle])
        cases works with
        | false =>
            cases taken
            exact ⟨orderly.filed.enter (by simp), orderly.waits.enter fun _ => .inr (.inr rfl),
              orderly.history.enter uncommitted (by simp) (by simp)⟩
        | true =>
            cases taken
            have unanswered := @progress_unanswered ι content request (race.disk.temp.getD race.disk.fresh) 0
            refine ⟨orderly.filed.create request, fun other author => ?_,
              (orderly.history.enter uncommitted unanswered.1 fun text => unanswered.2 _).of_disk ?_⟩
            · obtain ⟨file, opening, isTemp, noted, -, all, rfl⟩ := author_eq_some.mp author
              cases isTemp
              simp only [Disk.create, Function.update_self, Option.some.injEq] at noted
              subst opening
              -- nothing was to be written
              have empty : (encodeUtf8 (content request)).length ≤ 0 := Nat.le_of_eq all.symm
              refine .inl ((enter_self race request _).trans ?_)
              rw [progress, if_pos empty]
            · refine rawFile_congr fun file isTarget => ?_
              simp only [Disk.create, Function.update_of_ne (orderly.filed.apart_create isTarget)]
              rfl
    · cases taken

/-- A write adds to what its request has written before, or disturbs what another has. -/
theorem Filed.write {race : Race ι} (filed : Filed content race) {request : ι} {file offset : Nat}
    (writes : race.phase request = .writing file offset) (more : Nat) :
    Filed content { race.enter request (progress content request file (offset + (more + 1))) with
      disk := race.disk.write request file (encodeUtf8 (content request)) offset (more + 1) } := by
  obtain ⟨within, progressed⟩ := filed.writing request file offset writes
  refine ⟨filed.known, filed.apart, fun other opening noted => ?_, fun other place reached entered => ?_⟩
  · by_cases same : other = file
    · subst other
      simp only [Disk.write, Function.update_self] at noted ⊢
      obtain ⟨before, known, rfl⟩ := Option.map_eq_some_iff.mp noted
      obtain ⟨payload, holds⟩ := filed.opened file before known
      split
      · next own =>
          refine ⟨payload, fun undisturbed => ?_⟩
          have reached := progressed before known own
          subst own
          rw [holds undisturbed, reached, payload, Replace.overwrite_take within]
      · exact ⟨payload, fun undisturbed => absurd undisturbed (by simp)⟩
    · simp only [Disk.write, Function.update_of_ne same] at noted ⊢
      exact filed.opened other opening noted
  · by_cases same : other = request
    · subst other
      have entered := (enter_self race request _).symm.trans entered
      unfold progress at entered
      split at entered
      · cases entered
      · next unfinished =>
          cases entered
          refine ⟨by omega, fun opening noted own => ?_⟩
          simp only [Disk.write, Function.update_self] at noted
          obtain ⟨before, known, rfl⟩ := Option.map_eq_some_iff.mp noted
          split at own
          · next writer =>
              simp only [writer, if_true]
              omega
          · next writer => exact absurd own writer
    · obtain ⟨within, kept⟩ := filed.writing other place reached ((enter_of_ne race _ same).symm.trans entered)
      refine ⟨within, fun opening noted own => ?_⟩
      by_cases written : place = file
      · subst place
        simp only [Disk.write, Function.update_self] at noted
        obtain ⟨before, known, rfl⟩ := Option.map_eq_some_iff.mp noted
        split at own
        · next writer => exact absurd (own.symm.trans writer) same
        · next writer =>
            rw [if_neg writer]
            exact kept before known own
      · simp only [Disk.write, Function.update_of_ne written] at noted
        exact kept opening noted own

/-- Who has finished by this write waits, and who had finished another file still does. -/
theorem Waits.write {race : Race ι} (waits : Waits store race) (filed : Filed content race) {request : ι} {file offset : Nat}
    (writes : race.phase request = .writing file offset) (more : Nat) :
    Waits store { race.enter request (progress content request file (offset + (more + 1))) with
      disk := race.disk.write request file (encodeUtf8 (content request)) offset (more + 1) } := by
  intro other author
  obtain ⟨place, opening, isTemp, noted, undisturbed, all, rfl⟩ := author_eq_some.mp author
  by_cases same : place = file
  · subst place
    simp only [Disk.write, Function.update_self] at noted
    obtain ⟨before, known, rfl⟩ := Option.map_eq_some_iff.mp noted
    split at undisturbed
    · next own =>
        -- its own request has written the rest
        rw [if_pos own] at all ⊢
        have payload := (filed.opened file before known).1
        subst own
        rw [payload] at all
        refine .inl ((enter_self race before.party _).trans ?_)
        rw [progress, if_pos (by simp only at all; omega)]
    · cases undisturbed
  · simp only [Disk.write, Function.update_of_ne same] at noted
    have before := waits opening.party (author_eq_some.mpr ⟨place, opening, isTemp, noted, undisturbed, all, rfl⟩)
    by_cases same : opening.party = request
    · rw [same, writes] at before
      simp at before
    · rwa [← enter_of_ne race (progress content request file (offset + (more + 1))) same] at before

theorem write_orderly {race next : Race ι} {request : ι} {answer : Replace.Answer}
    (orderly : Orderly content start store race) (careful : Careful race (.write request answer))
    (taken : step parse content race (.write request answer) = some next) : Orderly content start store next := by
  simp only [step] at taken
  split at taken
  · cases taken
  · split at taken
    · next file offset more writes =>
        cases taken
        have uncommitted : request ∉ race.commits := orderly.history.uncommitted (by simp [writes])
        have apart := careful file offset writes (by simp)
        have unanswered := @progress_unanswered ι content request file (offset + (more + 1))
        refine ⟨orderly.filed.write writes more, orderly.waits.write orderly.filed writes more,
          (orderly.history.enter uncommitted unanswered.1 fun text => unanswered.2 _).of_disk
            (rawFile_congr fun other isTarget => ?_)⟩
        have unlike : other ≠ file := fun same => apart (same ▸ isTarget)
        simp only [Disk.write, Function.update_of_ne unlike]
        rfl
    · next file offset writes =>
        cases taken
        have uncommitted : request ∉ race.commits := orderly.history.uncommitted (by simp [writes])
        exact ⟨orderly.filed.enter (by simp), orderly.waits.enter fun _ => .inr (.inr rfl),
          orderly.history.enter uncommitted (by simp) (by simp)⟩
    · cases taken

theorem load_orderly (valid : ∀ request, (RawFile.text (content request)).decode parse = .store (store request))
    {race next : Race ι} {request : ι} {readable logsErrors : Bool} (orderly : Orderly content start store race)
    (careful : Careful race (.load request readable logsErrors))
    (taken : step parse content race (.load request readable logsErrors) = some next) :
    Orderly content start store next := by
  simp only [step] at taken
  split at taken
  · cases taken
  · split at taken
    · next written =>
        have uncommitted : request ∉ race.commits := orderly.history.uncommitted (by simp [written])
        split at taken
        · next validated loaded =>
            cases taken
            refine ⟨orderly.filed.enter (by simp), orderly.waits.enter fun author => ?_,
              orderly.history.enter uncommitted (by simp) (by simp)⟩
            -- the author finds its own content
            obtain ⟨file, isTemp, holds⟩ := orderly.filed.authored author
            rw [careful author, if_pos rfl, isTemp, rawFile_text holds, valid] at loaded
            cases loaded
            exact .inr (.inl rfl)
        · cases taken
          exact ⟨⟨orderly.filed.1, orderly.filed.2, orderly.filed.3, orderly.filed.4⟩, orderly.waits,
            orderly.history.1, orderly.history.2, orderly.history.3, orderly.history.4⟩
    · cases taken

/-- A request whose content is renamed over the file becomes the latest. -/
theorem History.commit {race : Race ι} (history : History content start store race) (request : ι) {disk : Disk ι}
    (holds : rawFile disk disk.target = .text (content request)) :
    History content start store
      { race.enter request (.renamed (store request)) with
        disk := disk
        commits := request :: race.commits } := by
  have own := enter_self race request (.renamed (store request))
  have others : ∀ other, other ≠ request →
      (race.enter request (.renamed (store request))).phase other = race.phase other :=
    fun other apart => enter_of_ne race _ apart
  refine ⟨fun other validated entered => ?_, fun other text entered => ?_, fun other member => ?_, holds, .inl own⟩
  · by_cases same : other = request
    · subst other
      exact ⟨(Phase.renamed.inj (own.symm.trans entered)).symm, List.mem_cons_self⟩
    · obtain ⟨rfl, member⟩ := history.renamed other validated (others other same ▸ entered)
      exact ⟨rfl, List.mem_cons_of_mem _ member⟩
  · by_cases same : other = request
    · subst other
      cases own.symm.trans entered
    · exact List.mem_cons_of_mem _ (history.answered other text (others other same ▸ entered))
  · by_cases same : other = request
    · subst other
      exact .inl own
    · have known := history.committed other ((List.mem_cons.mp member).resolve_left same)
      rw [← others other same] at known
      simpa only [Race.Succeeded, others other same] using known

theorem rename_orderly {race next : Race ι} {request : ι} {works : Bool} (orderly : Orderly content start store race)
    (careful : Careful race (.rename request works))
    (taken : step parse content race (.rename request works) = some next) : Orderly content start store next := by
  simp only [step] at taken
  split at taken
  · cases taken
  · split at taken
    · next validated loaded =>
        have uncommitted : request ∉ race.commits := orderly.history.uncommitted (by simp [loaded])
        have filed := orderly.filed
        split at taken
        · next file isTemp =>
            cases taken
            have own := careful rfl (by simp [isTemp])
            obtain ⟨other, isTemp', holds⟩ := filed.authored own
            cases isTemp.symm.trans isTemp'
            have same : validated = store request := by
              rcases orderly.waits request own with waits | waits | waits
              · cases loaded.symm.trans waits
              · exact Phase.loaded.inj (loaded.symm.trans waits)
              · cases loaded.symm.trans waits
            subst validated
            rw [own]
            refine ⟨⟨fun other named => ?_, fun other none => (by cases none), filed.opened, ?_⟩, fun other author => ?_,
              orderly.history.commit request (rawFile_text holds)⟩
            · rcases named with none | isTarget
              · cases none
              · cases isTarget
                exact filed.known file (.inl isTemp)
            · have kept : Filed content (race.enter request (.renamed (store request))) := filed.enter (by simp)
              exact kept.writing
            · obtain ⟨_, _, none, -⟩ := author_eq_some.mp author
              cases none
        · cases taken
          exact ⟨filed.enter (by simp), orderly.waits.enter fun _ => .inr (.inr rfl),
            orderly.history.enter uncommitted (by simp) (by simp)⟩
    · cases taken

/-- A request swaps in what it has loaded while the latest is itself or has yet to swap. -/
theorem History.swap {race : Race ι} (history : History content start store race) {request : ι} {manager : UserManager}
    (renamed : race.phase request = .renamed manager)
    (careful : ∀ latest, race.commits.head? = some latest →
      latest = request ∨ ∃ validated, race.phase latest = .renamed validated) :
    History content start store
      { race.enter request (.answered (.users (content request))) with manager := manager } := by
  obtain ⟨rfl, member⟩ := history.renamed request manager renamed
  have own := enter_self race request (.answered (.users (content request)))
  have others : ∀ other, other ≠ request →
      (race.enter request (.answered (.users (content request)))).phase other = race.phase other :=
    fun other apart => enter_of_ne race _ apart
  refine ⟨fun other validated entered => ?_, fun other text entered => ?_, fun other known => ?_, ?_⟩
  · by_cases same : other = request
    · subst other
      cases own.symm.trans entered
    · exact history.renamed other validated (others other same ▸ entered)
  · by_cases same : other = request
    · subst other
      exact member
    · exact history.answered other text (others other same ▸ entered)
  · by_cases same : other = request
    · subst other
      exact .inr own
    · simpa only [Race.Succeeded, others other same] using history.committed other known
  · have latest := history.latest
    show match race.commits.head? with | none => _ | some other => _
    cases first : race.commits.head? with
    | none =>
        rw [List.head?_eq_none_iff.mp first] at member
        cases member
    | some other =>
        simp only [first] at latest
        refine ⟨latest.1, ?_⟩
        by_cases same : other = request
        · subst other
          exact .inr ⟨own, rfl⟩
        · -- the latest content is still to be swapped in
          obtain ⟨validated, waits⟩ := (careful other first).resolve_left same
          obtain ⟨rfl, -⟩ := history.renamed other validated waits
          exact .inl ((others other same).trans waits)

theorem swap_orderly {race next : Race ι} {request : ι} (orderly : Orderly content start store race)
    (careful : Careful race (.swap request)) (taken : step parse content race (.swap request) = some next) :
    Orderly content start store next := by
  simp only [step] at taken
  split at taken
  · cases taken
  · split at taken
    · next validated renamed =>
        cases taken
        have filed : Filed content (race.enter request (.answered (.users (content request)))) :=
          orderly.filed.enter (by simp)
        have waits : Waits store (race.enter request (.answered (.users (content request)))) := by
          -- the author of the temporary file has not renamed it yet
          refine orderly.waits.enter fun author => ?_
          rcases orderly.waits request author with waits | waits | waits <;> cases renamed.symm.trans waits
        exact ⟨⟨filed.1, filed.2, filed.3, filed.4⟩, waits, orderly.history.swap renamed careful⟩
    · cases taken

theorem step_orderly (valid : ∀ request, (RawFile.text (content request)).decode parse = .store (store request))
    (race : Race ι) (label : Label ι) (next : Race ι) (orderly : Orderly content start store race)
    (careful : Careful race label) (taken : step parse content race label = some next) :
    Orderly content start store next := by
  cases label with
  | create request works => exact create_orderly orderly taken
  | write request answer => exact write_orderly orderly careful taken
  | load request readable logsErrors => exact load_orderly valid orderly careful taken
  | rename request works => exact rename_orderly orderly careful taken
  | swap request => exact swap_orderly orderly careful taken


/-- Until a content is committed nobody is answered, and who has opened the temporary file finds one. -/
def Unserved (race : Race ι) : Prop :=
  race.commits = [] → (∀ request reply, race.phase request ≠ .answered reply) ∧
    ∀ request, race.phase request ≠ .idle → race.disk.temp ≠ none

theorem Unserved.enter {race : Race ι} (unserved : Unserved race) {request : ι} (begun : race.phase request ≠ .idle)
    {phase : Phase} (unanswered : ∀ reply, phase ≠ .answered reply) : Unserved (race.enter request phase) := by
  intro none
  obtain ⟨waits, there⟩ := unserved none
  refine ⟨fun other reply => ?_, fun _ _ => there request begun⟩
  by_cases same : other = request
  · subst other
    rw [enter_self]
    exact unanswered reply
  · rw [enter_of_ne race phase same]
    exact waits other reply

/-- Where the file system refuses nothing, the first to rename commits its content. -/
theorem step_unserved {race next : Race ι} {label : Label ι} (orderly : Orderly content start store race)
    (unserved : Unserved race) (careful : Careful race label) (granted : ¬ label.Refused)
    (taken : step parse content race label = some next) : Unserved next := by
  simp only [step] at taken
  split at taken
  · cases taken
  · cases label with
    | create request works =>
        have works : works = true := by simpa [Label.Refused] using granted
        simp only [works, if_true] at taken
        split at taken
        · cases taken
          have unanswered := (@progress_unanswered ι content request (race.disk.temp.getD race.disk.fresh) 0).2
          intro none
          refine ⟨fun other reply => ?_, fun _ _ => by simp [Disk.create]⟩
          by_cases same : other = request
          · subst other
            exact fun entered => unanswered reply ((enter_self race request _).symm.trans entered)
          · exact fun entered => (unserved none).1 other reply ((enter_of_ne race _ same).symm.trans entered)
        · cases taken
    | write request answer =>
        simp only at taken
        split at taken
        · next file offset more writes =>
            cases taken
            have unanswered := (@progress_unanswered ι content request file (offset + (more + 1))).2
            have kept : Unserved (race.enter request (progress content request file (offset + (more + 1)))) :=
              unserved.enter (by simp [writes]) unanswered
            exact kept
        · exact absurd rfl granted
        · cases taken
    | load request readable logsErrors =>
        simp only at taken
        split at taken
        · next written =>
            split at taken
            · cases taken
              exact unserved.enter (by simp [written]) (by simp)
            · cases taken
              exact unserved
        · cases taken
    | rename request works =>
        have works : works = true := by simpa [Label.Refused] using granted
        subst works
        simp only at taken
        split at taken
        · next validated loaded =>
            -- a rename that finds the file commits, and one that does not has been overtaken by one that did
            cases isTemp : race.disk.temp with
            | some file =>
                simp only [isTemp, Option.some.injEq] at taken
                subst next
                intro none
                simp [careful rfl (by simp [isTemp])] at none
            | none =>
                simp only [isTemp, Option.some.injEq] at taken
                subst next
                intro none
                exact absurd isTemp ((unserved none).2 request (by simp [loaded]))
        · cases taken
    | swap request =>
        simp only at taken
        split at taken
        · next validated renamed =>
            cases taken
            intro none
            have member := (orderly.history.renamed request validated renamed).2
            rw [show race.commits = [] from none] at member
            cases member
        · cases taken

end Invariant

/-- When overlapping requests with valid contents are careful, once all are answered the two
copies agree on the content of a successful one, unless the file system refused some call and
nothing was committed; and no failed request was committed. -/
theorem answered_consistent [Nonempty ι] (store : ι → UserManager)
    (valid : ∀ request, (RawFile.text (content request)).decode parse = .store (store request))
    (usersJson temp : Option (List UInt8)) (manager : UserManager) (labels : List (Label ι)) (final : Race ι)
    (careful : Guarded (step parse content) Careful (.start usersJson temp manager) labels)
    (reached : exec (step parse content) (.start usersJson temp manager) labels = some final)
    (answered : final.Answered) :
    final.ErrorsUncommitted ∧ (final.Agrees parse content ∨
      (∃ label ∈ labels, label.Refused) ∧ (∀ request, ¬ final.Succeeded content request) ∧
        final.usersJson = (Race.start usersJson temp manager : Race ι).usersJson ∧ final.manager = manager) := by
  have orderly : Orderly content (.start usersJson temp manager) store final :=
    exec_invariant (step_orderly valid) (start_orderly usersJson temp manager) careful reached
  refine ⟨fun request failed member => ?_, ?_⟩
  · rcases orderly.history.committed request member with renamed | succeeded
    · cases failed.symm.trans renamed
    · cases failed.symm.trans succeeded
  · have latest := orderly.history.latest
    cases first : final.commits.head? with
    | some request =>
        simp only [first] at latest
        obtain ⟨file, renamed | ⟨succeeded, memory⟩⟩ := latest
        · obtain ⟨reply, done⟩ := answered request
          cases done.symm.trans renamed
        · exact .inl ⟨request, succeeded, file, by rw [file, valid, memory]⟩
    | none =>
        simp only [first] at latest
        have none : final.commits = [] := List.head?_eq_none_iff.mp first
        refine .inr ⟨?_, fun request succeeded => ?_, latest⟩
        · by_contra granted
          -- without a refusal somebody commits, so that nobody can have been answered
          have keeps : ∀ race label next, Orderly content (.start usersJson temp manager) store race ∧ Unserved race →
              Careful race label ∧ ¬ label.Refused → step parse content race label = some next →
              Orderly content (.start usersJson temp manager) store next ∧ Unserved next :=
            fun race label next both holds taken => ⟨step_orderly valid race label next both.1 holds.1 taken,
              step_unserved both.1 both.2 holds.1 holds.2 taken⟩
          have unserved := (exec_invariant keeps
            ⟨start_orderly usersJson temp manager, fun _ => ⟨fun _ _ => by simp [Race.start], fun _ begun => absurd rfl begun⟩⟩
            (careful.and (.of_forall fun label member refused => granted ⟨label, member, refused⟩)) reached).2
          obtain ⟨reply, done⟩ := answered (Classical.arbitrary ι)
          exact (unserved none).1 _ reply done
        · have member := orderly.history.answered request _ succeeded
          rw [none] at member
          cases member

section Calls

/-- The disk after a request has opened the temporary file and written its whole content in one piece. -/
def filled (disk : Disk ι) (request : ι) : Disk ι :=
  let file := disk.temp.getD disk.fresh
  let payload := encodeUtf8 (content request)
  (disk.create request payload file).write request file payload 0 (payload.length - 1 + 1)

def Race.wrote (race : Race ι) (request : ι) : Race ι :=
  { race.enter request .written with disk := filled content race.disk request }

def committed (disk : Disk ι) : Disk ι := { disk with target := disk.temp, temp := none }

def writes (request : ι) : List (Label ι) :=
  [.create request true, .write request (.works ((encodeUtf8 (content request)).length - 1))]

def calls (request : ι) (logsErrors : Bool) : List (Label ι) :=
  writes content request ++ [.load request true logsErrors, .rename request true, .swap request]

theorem contents_filled (disk : Disk ι) (request : ι) :
    (filled content disk request).contents (disk.temp.getD disk.fresh) = encodeUtf8 (content request) := by
  have whole := @Replace.overwrite_take (encodeUtf8 (content request)) 0
    ((encodeUtf8 (content request)).length - 1 + 1) (Nat.zero_le _)
  rw [List.take_zero] at whole
  simp only [filled, Disk.write, Disk.create, Function.update_self, whole]
  exact List.take_of_length_le (by omega)

theorem wrote_self (race : Race ι) (request : ι) : (race.wrote content request).phase request = .written :=
  enter_self race request _

theorem wrote_of_ne (race : Race ι) {request other : ι} (apart : other ≠ request) :
    (race.wrote content request).phase other = race.phase other :=
  enter_of_ne race _ apart

theorem author_wrote (race : Race ι) (request : ι) : (race.wrote content request).author = some request := by
  refine author_eq_some.mpr ⟨race.disk.temp.getD race.disk.fresh, ⟨request, encodeUtf8 (content request),
    (encodeUtf8 (content request)).length, true⟩, rfl, ?_, rfl, rfl, rfl⟩
  have all : min (0 + ((encodeUtf8 (content request)).length - 1 + 1)) (encodeUtf8 (content request)).length =
      (encodeUtf8 (content request)).length := by omega
  simp only [Race.wrote, filled, Disk.write, Disk.create, Function.update_self, Option.map_some, if_true, all]

variable {parse content} {store : ι → UserManager}

theorem step_create {race : Race ι} {request : ι} (running : race.gone = false) (idle : race.phase request = .idle)
    (some_bytes : 0 < (encodeUtf8 (content request)).length) :
    step parse content race (.create request true) = some
      { race.enter request (.writing (race.disk.temp.getD race.disk.fresh) 0) with
        disk := race.disk.create request (encodeUtf8 (content request)) (race.disk.temp.getD race.disk.fresh) } := by
  have begun : progress content request (race.disk.temp.getD race.disk.fresh) 0 =
      .writing (race.disk.temp.getD race.disk.fresh) 0 := by
    rw [progress, if_neg (by omega)]
  simp [step, running, idle, begun]

theorem step_write {race : Race ι} {request : ι} {file : Nat} (running : race.gone = false)
    (writing : race.phase request = .writing file 0) :
    step parse content race (.write request (.works ((encodeUtf8 (content request)).length - 1))) = some
      { race.enter request .written with
        disk := race.disk.write request file (encodeUtf8 (content request)) 0
          ((encodeUtf8 (content request)).length - 1 + 1) } := by
  have done : progress content request file ((encodeUtf8 (content request)).length - 1 + 1) = .written := by
    rw [progress, if_pos (by omega)]
  simp [step, running, writing, done]

theorem exec_writes {race : Race ι} {request : ι} (running : race.gone = false) (idle : race.phase request = .idle)
    (some_bytes : 0 < (encodeUtf8 (content request)).length) :
    exec (step parse content) race (writes content request) = some (race.wrote content request) := by
  refine (exec_cons _).mpr ⟨_, step_create running idle some_bytes, (exec_cons _).mpr
    ⟨_, step_write running (enter_self race request _), ?_⟩⟩
  simp [Race.wrote, Race.enter, filled]

theorem guarded_writes {race : Race ι} {request : ι} (running : race.gone = false) (idle : race.phase request = .idle)
    (some_bytes : 0 < (encodeUtf8 (content request)).length)
    (apart : race.disk.target ≠ some (race.disk.temp.getD race.disk.fresh)) :
    Guarded (step parse content) Careful race (writes content request) := by
  refine .cons trivial (step_create running idle some_bytes)
    (.cons (fun file offset writing _ => ?_) (step_write running (enter_self race request _)) trivial)
  cases (enter_self race request _).symm.trans writing
  exact apart

theorem step_load {race : Race ι} {request author : ι} {file : Nat} {logsErrors : Bool}
    (valid : ∀ request, (RawFile.text (content request)).decode parse = .store (store request))
    (running : race.gone = false) (written : race.phase request = .written) (isTemp : race.disk.temp = some file)
    (holds : race.disk.contents file = encodeUtf8 (content author)) :
    step parse content race (.load request true logsErrors) = some (race.enter request (.loaded (store author))) := by
  have loads : UserManager.load logsErrors ((RawFile.text (content author)).decode parse) = .done (store author) := by
    rw [valid]
    rfl
  simp [step, running, written, isTemp, rawFile_text holds, loads]

theorem step_rename {race : Race ι} {request author : ι} {file : Nat} {validated : UserManager}
    (running : race.gone = false) (loaded : race.phase request = .loaded validated) (isTemp : race.disk.temp = some file)
    (own : race.author = some author) :
    step parse content race (.rename request true) = some { race.enter request (.renamed validated) with
      disk := committed race.disk
      commits := author :: race.commits } := by
  simp [step, running, loaded, isTemp, own, committed]

theorem step_rename_missing {race : Race ι} {request : ι} {validated : UserManager} (running : race.gone = false)
    (loaded : race.phase request = .loaded validated) (missing : race.disk.temp = none) :
    step parse content race (.rename request true) = some (race.enter request (.answered .internal)) := by
  simp [step, running, loaded, missing]

theorem step_swap {race : Race ι} {request : ι} {validated : UserManager} (running : race.gone = false)
    (renamed : race.phase request = .renamed validated) :
    step parse content race (.swap request) =
      some { race.enter request (.answered (.users (content request))) with manager := validated } := by
  simp [step, running, renamed]

omit [DecidableEq ι] in
theorem encoded_pos (valid : ∀ request, (RawFile.text (content request)).decode parse = .store (store request))
    (request : ι) : 0 < (encodeUtf8 (content request)).length := by
  refine List.length_pos_iff.mpr fun empty => ?_
  have blank : content request = [] := by
    have decoded := decodeUtf8_encodeUtf8 (content request)
    rw [empty] at decoded
    exact Option.some.inj (decoded.symm.trans (decodeUtf8_encodeUtf8 []))
  have decoded := valid request
  rw [blank] at decoded
  cases decoded

theorem load_wrote (valid : ∀ request, (RawFile.text (content request)).decode parse = .store (store request))
    {race : Race ι} {request : ι} {logsErrors : Bool} (running : race.gone = false) :
    step parse content (race.wrote content request) (.load request true logsErrors) =
      some ((race.wrote content request).enter request (.loaded (store request))) :=
  step_load valid running (wrote_self content race request) rfl (contents_filled content race.disk request)

theorem rename_wrote {race : Race ι} {request : ι} {validated : UserManager} (running : race.gone = false) :
    step parse content ((race.wrote content request).enter request (.loaded validated)) (.rename request true) =
      some { ((race.wrote content request).enter request (.loaded validated)).enter request (.renamed validated) with
        disk := committed (filled content race.disk request)
        commits := request :: race.commits } :=
  step_rename running (enter_self _ request _) rfl (author_wrote content race request)

/-- From any moment on, a request that nobody overtakes publishes its own content. -/
theorem exec_calls (valid : ∀ request, (RawFile.text (content request)).decode parse = .store (store request))
    {race : Race ι} {request : ι} (running : race.gone = false) (idle : race.phase request = .idle) (logsErrors : Bool) :
    exec (step parse content) race (calls content request logsErrors) =
      some { race.enter request (.answered (.users (content request))) with
        disk := committed (filled content race.disk request)
        manager := store request
        commits := request :: race.commits } := by
  rw [calls, exec_append _ (exec_writes running idle (encoded_pos valid request))]
  refine (exec_cons _).mpr ⟨_, load_wrote valid running, (exec_cons _).mpr ⟨_, rename_wrote running, (exec_cons _).mpr
    ⟨_, step_swap running (enter_self _ request _), ?_⟩⟩⟩
  simp [Race.wrote, Race.enter]

theorem guarded_calls (valid : ∀ request, (RawFile.text (content request)).decode parse = .store (store request))
    {race : Race ι} {request : ι} (running : race.gone = false) (idle : race.phase request = .idle) (logsErrors : Bool)
    (apart : race.disk.target ≠ some (race.disk.temp.getD race.disk.fresh)) :
    Guarded (step parse content) Careful race (calls content request logsErrors) := by
  refine .append (guarded_writes running idle (encoded_pos valid request) apart)
    (exec_writes running idle (encoded_pos valid request)) ?_
  refine .cons (fun _ => rfl) (load_wrote valid running) (.cons (fun _ _ => author_wrote content race request)
    (rename_wrote running) (.cons (fun latest first => ?_) (step_swap running (enter_self _ request _)) trivial))
  exact .inl (Option.some.inj first).symm

def overtaking (request other : ι) (logsErrors : Bool) : List (Label ι) :=
  [.load request true logsErrors, .load other true logsErrors, .rename request true, .rename other true, .swap request]

/-- A request that loads and renames what another has written publishes it, and the other fails. -/
theorem exec_overtaken (valid : ∀ request, (RawFile.text (content request)).decode parse = .store (store request))
    {race : Race ι} {request other : ι} {file : Nat} (apart : other ≠ request) (running : race.gone = false)
    (written : race.phase request = .written) (waits : race.phase other = .written) (isTemp : race.disk.temp = some file)
    (holds : race.disk.contents file = encodeUtf8 (content other)) (author : race.author = some other)
    (logsErrors : Bool) :
    ∃ final, exec (step parse content) race (overtaking request other logsErrors) = some final ∧
      final.phase request = .answered (.users (content request)) ∧ final.phase other = .answered .internal ∧
      final.commits = other :: race.commits := by
  let loaded := (race.enter request (.loaded (store other))).enter other (.loaded (store other))
  let renamed : Race ι := { loaded.enter request (.renamed (store other)) with
    disk := committed race.disk
    commits := other :: race.commits }
  have loads : loaded.phase request = .loaded (store other) := (enter_of_ne _ _ apart.symm).trans (enter_self race request _)
  have missed : renamed.phase other = .loaded (store other) := (enter_of_ne loaded _ apart).trans (enter_self _ other _)
  have swaps : (renamed.enter other (.answered .internal)).phase request = .renamed (store other) :=
    (enter_of_ne renamed _ apart.symm).trans (enter_self loaded request _)
  refine ⟨{ (renamed.enter other (.answered .internal)).enter request (.answered (.users (content request))) with
    manager := store other }, ?_, enter_self _ request _, (enter_of_ne _ _ apart).trans (enter_self renamed other _), rfl⟩
  exact (exec_cons _).mpr ⟨_, step_load valid running written isTemp holds, (exec_cons _).mpr
    ⟨loaded, step_load valid running ((enter_of_ne race _ apart).trans waits) isTemp holds, (exec_cons _).mpr
      ⟨renamed, step_rename running loads isTemp author, (exec_cons _).mpr
        ⟨_, step_rename_missing running missed rfl, (exec_cons _).mpr ⟨_, step_swap running swaps, rfl⟩⟩⟩⟩⟩

/-- The calls of a request that runs alone, for a valid content, are its handler. -/
theorem alone (valid : ∀ request, (RawFile.text (content request)).decode parse = .store (store request))
    (usersJson temp : Option (List UInt8)) (manager : UserManager) (request : ι) (logsErrors : Bool) :
    ∃ final, exec (step parse content) (.start usersJson temp manager) (calls content request logsErrors) = some final ∧
      final.phase request = .answered (saveUsers parse ⟨true, .intact, true, logsErrors⟩ (content request)
        ⟨(Race.start usersJson temp manager : Race ι).usersJson, manager⟩).1 ∧
      (⟨final.usersJson, final.manager⟩ : DaemonState) =
        (saveUsers parse ⟨true, .intact, true, logsErrors⟩ (content request)
          ⟨(Race.start usersJson temp manager : Race ι).usersJson, manager⟩).2 := by
  have loads : UserManager.load logsErrors ((RawFile.text (content request)).decode parse) = .done (store request) := by
    rw [valid]
    rfl
  refine ⟨_, exec_calls valid rfl rfl logsErrors, ?_, ?_⟩
  · simp [saveUsers, Readback.file, loads, Race.enter]
  · have held := rawFile_text (contents_filled content (installed usersJson temp) request)
    simp only [saveUsers, Readback.file, loads]
    exact congrArg (fun file => (⟨file, store request⟩ : DaemonState)) held

end Calls

end Machine

section Runs

def annJson : Text :=
  "\x7b\"users\":\x7b\"ann\":\x7b\"username\":\"ann\",\"password_hash\":\"hash\",\"home_dir\":\"/home/ann\",\"permissions\":\x7b\"can_read\":false,\"can_write\":false,\"can_delete\":false,\"can_list\":false,\"can_mkdir\":false,\"can_rmdir\":false,\"can_rename\":false,\"can_append\":false,\"quota_mb\":null,\"speed_limit_kbps\":null\x7d,\"created_at\":\"1970-01-01T00:00:00Z\",\"last_login\":null,\"enabled\":true,\"is_admin\":false\x7d\x7d\x7d".toList

def emptyJson : Text := "\x7b\"users\":\x7b\x7d\x7d".toList

def annStore : UserManager :=
  ⟨AList.singleton "ann".toList ⟨"ann".toList, "hash".toList, "/home/ann".toList, .default, 0, none, true, false⟩⟩

def parseKnown (text : Text) : Option UserManager :=
  if text = annJson then some annStore else if text = emptyJson then some .new else none

def bothContents (first : Bool) : Text := if first then annJson else emptyJson

def bothStores (first : Bool) : UserManager := if first then annStore else .new

theorem annJson_nonblank : trim annJson ≠ [] := by
  unfold annJson
  rw [String.toList_ofList]
  decide +kernel

theorem emptyJson_nonblank : trim emptyJson ≠ [] := by
  unfold emptyJson
  rw [String.toList_ofList]
  decide +kernel

theorem emptyJson_ne_annJson : emptyJson ≠ annJson := by
  unfold emptyJson annJson
  rw [Ne, String.toList_inj]
  decide +kernel

theorem bothContents_valid (first : Bool) :
    (RawFile.text (bothContents first)).decode parseKnown = .store (bothStores first) := by
  unfold bothContents bothStores
  cases first with
  | true =>
      have parsed : parseKnown annJson = some annStore := by rw [parseKnown, if_pos rfl]
      rw [if_pos rfl, if_pos rfl]
      exact (decode_text_store parsed).mpr annJson_nonblank
  | false =>
      have parsed : parseKnown emptyJson = some .new := by rw [parseKnown, if_neg emptyJson_ne_annJson, if_pos rfl]
      rw [if_neg Bool.false_ne_true, if_neg Bool.false_ne_true]
      exact (decode_text_store parsed).mpr emptyJson_nonblank

def noUsers : Race Bool := .start none none .new

def inTurn (content : Bool → Text) : List (Label Bool) := calls content true true ++ calls content false true

section AnyContents
variable {parse : Text → Option UserManager} {content : Bool → Text} {store : Bool → UserManager}
  (valid : ∀ request, (RawFile.text (content request)).decode parse = .store (store request))
include valid

theorem inTurn_run : ∃ final, exec (step parse content) noUsers (inTurn content) = some final ∧ final.Answered := by
  refine ⟨_, (exec_append _ (exec_calls valid rfl rfl true)).trans (exec_calls valid rfl rfl true), fun request => ?_⟩
  cases request <;> exact ⟨_, rfl⟩

theorem inTurn_careful : Guarded (step parse content) Careful noUsers (inTurn content) := by
  refine .append (guarded_calls valid rfl rfl true (by simp [noUsers, Race.start, installed]))
    (exec_calls valid rfl rfl true) (guarded_calls valid rfl rfl true ?_)
  simp [noUsers, Race.start, installed, committed, filled, Disk.write, Disk.create]

/-- Both have written before either loads: the first publishes the content of the second and
is answered successfully, and the second is told that it failed. -/
theorem overlapped_run : ∃ labels final, exec (step parse content) noUsers labels = some final ∧
    final.Answered ∧ final.phase false = .answered .internal ∧ false ∈ final.commits := by
  let both : Race Bool := (noUsers.wrote content true).wrote content false
  have mine : both.phase true = .written := (wrote_of_ne content _ (by decide)).trans (wrote_self content noUsers true)
  have theirs : both.phase false = .written := wrote_self content (noUsers.wrote content true) false
  have holds : both.disk.contents 2 = encodeUtf8 (content false) :=
    contents_filled content (noUsers.wrote content true).disk false
  obtain ⟨final, reached, succeeded, failed, commits⟩ := exec_overtaken valid (by decide) rfl mine theirs rfl
    holds (author_wrote content (noUsers.wrote content true) false) true
  refine ⟨writes content true ++ (writes content false ++ overtaking true false true), final,
    (exec_append _ (exec_writes rfl rfl (encoded_pos valid true))).trans
      ((exec_append _ (exec_writes rfl rfl (encoded_pos valid false))).trans reached),
    fun request => ?_, failed, commits ▸ List.mem_cons_self⟩
  cases request with
  | true => exact ⟨_, succeeded⟩
  | false => exact ⟨_, failed⟩

end AnyContents

theorem answered_consistent_inTurn : ∃ final,
    exec (step parseKnown bothContents) noUsers (inTurn bothContents) = some final ∧ final.ErrorsUncommitted := by
  obtain ⟨final, reached, answered⟩ := inTurn_run bothContents_valid
  exact ⟨final, reached,
    (answered_consistent parseKnown bothContents bothStores bothContents_valid none none .new (inTurn bothContents) final
      (inTurn_careful bothContents_valid) reached answered).1⟩

theorem failed_commits : ¬ ∀ (parse : Text → Option UserManager) (content : Bool → Text) (store : Bool → UserManager)
    (usersJson temp : Option (List UInt8)) (manager : UserManager) (labels : List (Label Bool)) (final : Race Bool),
    (∀ request, (RawFile.text (content request)).decode parse = .store (store request)) →
    exec (step parse content) (.start usersJson temp manager) labels = some final → final.Answered →
    final.ErrorsUncommitted ∧ (final.Agrees parse content ∨
      (∃ label ∈ labels, label.Refused) ∧ (∀ request, ¬ final.Succeeded content request) ∧
        final.usersJson = (Race.start usersJson temp manager : Race Bool).usersJson ∧ final.manager = manager) := by
  intro consistent
  obtain ⟨labels, final, reached, answered, failed, committed⟩ := overlapped_run bothContents_valid
  exact (consistent parseKnown bothContents bothStores none none .new labels final bothContents_valid reached
    answered).1 false failed committed

end Runs

end Wftpd.Daemon.SaveUsersRace
