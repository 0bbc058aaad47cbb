import Wftpd.Library.Parties
import Wftpd.Posix.FileSystem

/-! Replacing a file by writing a temporary file and renaming it, when several writers use
the same temporary name.

A save opens the temporary file, which empties one that is there, writes its payload in
pieces and renames whatever then has the temporary name. Some of the saves hold a lock.
-/

set_option autoImplicit false

namespace Wftpd.Posix.Replace
open Wftpd.Library

/-- What a file was last opened for, and what was written to it since. -/
structure Opening (π : Type) where
  party : π
  payload : List UInt8
  written : Nat
  /-- No other save has written to it since. -/
  undisturbed : Bool
  deriving DecidableEq, Repr

/-- Files by number, and the two names. The openings are history, which no step reads. -/
structure Disk (π : Type) where
  contents : Nat → List UInt8
  fresh : Nat
  target : Option Nat
  temp : Option Nat
  locked : Bool
  openings : Nat → Option (Opening π)

inductive Piece where
  | lock (payload : List UInt8)
  | create (payload : List UInt8)
  | write (file : Nat) (payload : List UInt8) (offset : Nat)
  | rename
  | remove
  | unlock
  deriving DecidableEq, Repr

/-- How a call ends: it fails, or it works, a write on so many bytes and one more. -/
inductive Answer where
  | fails
  | works (more : Nat)
  deriving DecidableEq, Repr

structure Save where
  payload : List UInt8
  locks : Bool
  deriving DecidableEq, Repr

def pieces (save : Save) : List Piece := if save.locks then [.lock save.payload] else [.create save.payload]

section Names
variable {π : Type}

/-- The target and what was left behind under the temporary name, where they are there. -/
def installed (content leftover : Option (List UInt8)) : Disk π where
  contents := fun file => if file = 0 then content.getD [] else leftover.getD []
  fresh := 2
  target := content.map fun _ => 0
  temp := leftover.map fun _ => 1
  locked := false
  openings := fun _ => none

/-- `File::create` on the temporary name, by this party and for this payload. -/
def Disk.create (disk : Disk π) (party : π) (payload : List UInt8) (file : Nat) : Disk π :=
  { disk with
    contents := Function.update disk.contents file []
    fresh := max disk.fresh (file + 1)
    temp := some file
    openings := Function.update disk.openings file (some ⟨party, payload, 0, true⟩) }

/-- A write of so many bytes of the payload, noted in the file's last opening. -/
def Disk.write [DecidableEq π] (disk : Disk π) (party : π) (file : Nat) (payload : List UInt8) (offset count : Nat) :
    Disk π :=
  { disk with
    contents := Function.update disk.contents file
      (FileSystem.overwrite (disk.contents file) offset ((payload.drop offset).take count))
    openings := Function.update disk.openings file ((disk.openings file).map fun opening =>
      if opening.party = party then { opening with written := min (offset + count) payload.length }
      else { opening with undisturbed := false }) }

end Names

/-- One step of a save. A rename that fails is followed by removing the temporary file. -/
def act (party : Nat) (answer : Answer) (disk : Disk Nat) : Piece → List Piece →
    Option (Disk Nat × List Piece)
  | .lock payload, rest =>
      if disk.locked then none else some ({ disk with locked := true }, .create payload :: .unlock :: rest)
  | .create payload, rest =>
      match answer with
      | .fails => some (disk, rest)
      | .works _ =>
          let file := disk.temp.getD disk.fresh
          some (disk.create party payload file, .write file payload 0 :: rest)
  | .write file payload offset, rest =>
      if payload.length ≤ offset then some (disk, .rename :: rest)
      else match answer with
        | .fails => some (disk, rest)
        | .works more =>
            some (disk.write party file payload offset (more + 1),
              .write file payload (min (offset + (more + 1)) payload.length) :: rest)
  | .rename, rest =>
      match answer, disk.temp with
      | .works _, some file => some ({ disk with target := some file, temp := none }, rest)
      | _, _ => some (disk, .remove :: rest)
  | .remove, rest =>
      match answer with
      | .fails => some (disk, rest)
      | .works _ => some ({ disk with temp := none }, rest)
  | .unlock, rest => some ({ disk with locked := false }, rest)

section Runs
variable {ρ : Type} (program : ρ → List Piece)

def step : Parties (Disk Nat) Piece → Move ρ Answer → Option (Parties (Disk Nat) Piece) := Parties.step program act

/-- The file with this number was last opened by a save that has written all of its payload,
and no other save has written to it since. -/
def Disk.Finished (disk : Disk Nat) (file : Nat) : Prop :=
  ∃ opening, disk.openings file = some opening ∧ opening.undisturbed = true ∧
    opening.written = opening.payload.length

/-- A save renames only a finished file, and writes to none that was renamed. -/
def Careful (parties : Parties (Disk Nat) Piece) : Move ρ Answer → Prop
  | .arrive _ _ => True
  | .go party answer =>
      match answer, (parties.todo party).head? with
      | .works _, some .rename => ∀ file, parties.shared.temp = some file → parties.shared.Finished file
      | .works _, some (.write file payload offset) => offset < payload.length → parties.shared.target ≠ some file
      | _, _ => True

section Invariant
variable (whole : List UInt8 → Prop)

/-- The target is whole and apart from the temporary file, and a file no other save has
disturbed is the part of its payload that was written. -/
structure Disk.Sound (disk : Disk Nat) : Prop where
  target : ∃ file, disk.target = some file ∧ whole (disk.contents file) ∧ file < disk.fresh ∧ disk.temp ≠ some file
  temp : ∀ file, disk.temp = some file → file < disk.fresh
  openings : ∀ file opening, disk.openings file = some opening → whole opening.payload ∧
    (opening.undisturbed = true → disk.contents file = opening.payload.take opening.written)

/-- The next step of a save is about its own payload, and where it was the last to open its
file it goes on where the file was left. -/
def Ready (party : Nat) (disk : Disk Nat) : Piece → Prop
  | .lock payload | .create payload => whole payload
  | .write file payload offset => offset ≤ payload.length ∧
      ∀ opening, disk.openings file = some opening → opening.party = party →
        opening.payload = payload ∧ opening.written = offset
  | .rename | .remove | .unlock => True

/-- What a save has yet to do: its next step is ready, and only the lock is left after it. -/
def Fits (party : Nat) (disk : Disk Nat) (todo : List Piece) : Prop :=
  (∀ piece ∈ todo.head?, Ready whole party disk piece) ∧ ∀ piece ∈ todo.tail, piece = .unlock

variable {whole}

theorem overwrite_take {payload : List UInt8} {offset count : Nat} (within : offset ≤ payload.length) :
    FileSystem.overwrite (payload.take offset) offset ((payload.drop offset).take count) =
      payload.take (min (offset + count) payload.length) := by
  have length : (payload.take offset).length = offset := by simp [within]
  have past : (payload.take offset).drop (offset + ((payload.drop offset).take count).length) = [] := by
    apply List.drop_eq_nil_of_le
    omega
  have start : (payload.take offset).take offset = payload.take offset := by simp
  rw [FileSystem.overwrite, past, start, length, Nat.sub_self, List.replicate_zero, List.append_nil, List.append_nil,
    ← List.take_take, List.take_length, List.take_add]

theorem Disk.Sound.create {disk : Disk Nat} (sound : disk.Sound whole) (party : Nat) {payload : List UInt8}
    (good : whole payload) : (disk.create party payload (disk.temp.getD disk.fresh)).Sound whole := by
  obtain ⟨target, isTarget, isWhole, old, unlike⟩ := sound.target
  have apart : target ≠ disk.temp.getD disk.fresh := by
    cases temp : disk.temp with
    | none => exact Nat.ne_of_lt old
    | some other =>
        rintro rfl
        exact unlike temp
  refine ⟨⟨target, isTarget, ?_⟩, fun file isTemp => ?_, fun file opening noted => ?_⟩
  · simp only [Disk.create, Function.update_of_ne apart]
    exact ⟨isWhole, by omega, fun same => apart (Option.some.inj same).symm⟩
  · cases isTemp
    simp only [Disk.create]
    omega
  · by_cases same : file = disk.temp.getD disk.fresh
    · subst file
      simp only [Disk.create, Function.update_self, Option.some.injEq] at noted ⊢
      subst opening
      exact ⟨good, fun _ => by simp⟩
    · simp only [Disk.create, Function.update_of_ne same] at noted ⊢
      exact sound.openings file opening noted

theorem Disk.Sound.write {disk : Disk Nat} (sound : disk.Sound whole) {party file : Nat} {payload : List UInt8}
    {offset : Nat} (ready : Ready whole party disk (.write file payload offset)) (apart : disk.target ≠ some file)
    (count : Nat) : (disk.write party file payload offset count).Sound whole := by
  obtain ⟨target, isTarget, isWhole⟩ := sound.target
  refine ⟨⟨target, isTarget, ?_⟩, sound.temp, fun other opening noted => ?_⟩
  · have unlike : target ≠ file := by
      rintro rfl
      exact apart isTarget
    simpa only [Disk.write, Function.update_of_ne unlike] using isWhole
  · by_cases same : other = file
    · subst other
      simp only [Disk.write, Function.update_self] at noted ⊢
      obtain ⟨before, known, rfl⟩ := Option.map_eq_some_iff.mp noted
      obtain ⟨good, undisturbed⟩ := sound.openings file before known
      split
      · next own =>
          obtain ⟨rfl, rfl⟩ := ready.2 before known own
          refine ⟨good, fun alone => ?_⟩
          rw [undisturbed alone, overwrite_take ready.1]
      · exact ⟨good, fun alone => absurd alone (by simp)⟩
    · simp only [Disk.write, Function.update_of_ne same] at noted ⊢
      exact sound.openings other opening noted

theorem Disk.Sound.rename {disk : Disk Nat} (sound : disk.Sound whole) {file : Nat} (isTemp : disk.temp = some file)
    (finished : disk.Finished file) : ({ disk with target := some file, temp := none } : Disk Nat).Sound whole := by
  obtain ⟨opening, noted, undisturbed, all⟩ := finished
  obtain ⟨good, left⟩ := sound.openings file opening noted
  refine ⟨⟨file, rfl, ?_, sound.temp file isTemp, by simp⟩, fun other impossible => (by cases impossible), sound.openings⟩
  rw [left undisturbed, all, List.take_length]
  exact good

theorem Disk.Sound.of_removed {disk : Disk Nat} (sound : disk.Sound whole) :
    ({ disk with temp := none } : Disk Nat).Sound whole := by
  obtain ⟨target, isTarget, isWhole, old, -⟩ := sound.target
  exact ⟨⟨target, isTarget, isWhole, old, by simp⟩, fun file impossible => (by cases impossible), sound.openings⟩

theorem Disk.Sound.of_locked {disk : Disk Nat} (sound : disk.Sound whole) (locked : Bool) :
    ({ disk with locked := locked } : Disk Nat).Sound whole :=
  ⟨sound.target, sound.temp, sound.openings⟩

/-- What is ready stays ready as long as no opening by its own party changes its progress. -/
theorem Ready.of_openings {party : Nat} {disk after : Disk Nat} {piece : Piece} (ready : Ready whole party disk piece)
    (kept : ∀ file opening, after.openings file = some opening → opening.party = party →
      ∃ before, disk.openings file = some before ∧ before.party = party ∧ opening.payload = before.payload ∧
        opening.written = before.written) : Ready whole party after piece := by
  cases piece with
  | write file payload offset =>
      refine ⟨ready.1, fun opening noted own => ?_⟩
      obtain ⟨before, known, ownBefore, samePayload, sameWritten⟩ := kept file opening noted own
      obtain ⟨rfl, rfl⟩ := ready.2 before known ownBefore
      exact ⟨samePayload, sameWritten⟩
  | lock | create | rename | remove | unlock => exact ready

theorem openings_create {disk : Disk Nat} {party other file : Nat} {payload : List UInt8} (apart : other ≠ party)
    (number : Nat) (opening : Opening Nat) (noted : (disk.create party payload file).openings number = some opening)
    (own : opening.party = other) : ∃ before, disk.openings number = some before ∧ before.party = other ∧
      opening.payload = before.payload ∧ opening.written = before.written := by
  by_cases same : number = file
  · subst number
    simp only [Disk.create, Function.update_self, Option.some.injEq] at noted
    subst opening
    exact absurd own.symm apart
  · simp only [Disk.create, Function.update_of_ne same] at noted
    exact ⟨opening, noted, own, rfl, rfl⟩

theorem openings_write {disk : Disk Nat} {party other file offset count : Nat} {payload : List UInt8}
    (apart : other ≠ party) (number : Nat) (opening : Opening Nat)
    (noted : (disk.write party file payload offset count).openings number = some opening)
    (own : opening.party = other) : ∃ before, disk.openings number = some before ∧ before.party = other ∧
      opening.payload = before.payload ∧ opening.written = before.written := by
  by_cases same : number = file
  · subst number
    simp only [Disk.write, Function.update_self] at noted
    obtain ⟨before, known, rfl⟩ := Option.map_eq_some_iff.mp noted
    split at own
    · next writer => exact absurd (own.symm.trans writer) apart
    · next writer => exact ⟨before, known, own, by simp [writer], by simp [writer]⟩
  · simp only [Disk.write, Function.update_of_ne same] at noted
    exact ⟨opening, noted, own, rfl, rfl⟩

theorem Fits.next {party : Nat} {disk : Disk Nat} {piece : Piece} {rest : List Piece} (ready : Ready whole party disk piece)
    (unlocks : ∀ piece ∈ rest, piece = .unlock) : Fits whole party disk (piece :: rest) :=
  ⟨by simpa using ready, unlocks⟩

theorem Fits.done {party : Nat} {disk : Disk Nat} {rest : List Piece} (unlocks : ∀ piece ∈ rest, piece = .unlock) :
    Fits whole party disk rest := by
  cases rest with
  | nil => exact ⟨by simp, by simp⟩
  | cons piece rest =>
      obtain ⟨rfl, others⟩ := List.forall_mem_cons.mp unlocks
      exact .next trivial others

theorem Fits.of_openings {party : Nat} {disk after : Disk Nat} {todo : List Piece} (fits : Fits whole party disk todo)
    (kept : ∀ file opening, after.openings file = some opening → opening.party = party →
      ∃ before, disk.openings file = some before ∧ before.party = party ∧ opening.payload = before.payload ∧
        opening.written = before.written) : Fits whole party after todo :=
  ⟨fun piece first => (fits.1 piece first).of_openings kept, fits.2⟩

theorem Fits.of_same {party : Nat} {disk after : Disk Nat} {todo : List Piece} (fits : Fits whole party disk todo)
    (same : after.openings = disk.openings) : Fits whole party after todo :=
  fits.of_openings fun _ opening noted own => ⟨opening, same ▸ noted, own, rfl, rfl⟩

/-- A careful step keeps the disk sound and its own save and the others in order. -/
theorem act_outline (parties : Parties (Disk Nat) Piece) (party : Nat) (answer : Answer) (piece : Piece)
    (rest : List Piece) (after : Disk Nat) (left : List Piece) (sound : parties.shared.Sound whole)
    (fits : Fits whole party parties.shared (piece :: rest)) (todo : parties.todo party = piece :: rest)
    (careful : Careful parties (.go party answer : Move ρ Answer)) (acted : act party answer parties.shared piece rest = some (after, left)) :
    after.Sound whole ∧ Fits whole party after left ∧
      ∀ other pieces, other ≠ party → Fits whole other parties.shared pieces → Fits whole other after pieces := by
  obtain ⟨ready, unlocks⟩ := fits
  simp only [List.head?_cons, Option.mem_def, Option.some.injEq, forall_eq', List.tail_cons] at ready unlocks
  simp only [Careful, todo, List.head?_cons] at careful
  cases piece with
  | lock payload =>
      simp only [act] at acted
      split at acted
      · cases acted
      · cases acted
        exact ⟨sound.of_locked true, .next ready (by simpa using unlocks), fun other pieces _ fits => fits.of_same rfl⟩
  | create payload =>
      cases answer with
      | fails =>
          cases acted
          exact ⟨sound, .done unlocks, fun other pieces _ fits => fits⟩
      | works more =>
          cases acted
          refine ⟨sound.create party ready, .next ⟨Nat.zero_le _, fun opening noted _ => ?_⟩ unlocks,
            fun other pieces apart fits => fits.of_openings (openings_create apart)⟩
          simp only [Disk.create, Function.update_self, Option.some.injEq] at noted
          subst opening
          exact ⟨rfl, rfl⟩
  | write file payload offset =>
      simp only [act] at acted
      split at acted
      · cases acted
        exact ⟨sound, .next trivial unlocks, fun other pieces _ fits => fits⟩
      · next unfinished =>
          cases answer with
          | fails =>
              cases acted
              exact ⟨sound, .done unlocks, fun other pieces _ fits => fits⟩
          | works more =>
              cases acted
              -- nobody else's file is written to, and nothing that is in place
              have apart := careful (Nat.lt_of_not_le unfinished)
              refine ⟨sound.write ready apart (more + 1),
                .next ⟨Nat.min_le_right _ _, fun opening noted own => ?_⟩ unlocks,
                fun other pieces apart fits => fits.of_openings (openings_write apart)⟩
              simp only [Disk.write, Function.update_self] at noted
              obtain ⟨before, known, rfl⟩ := Option.map_eq_some_iff.mp noted
              split at own
              · next writer =>
                  obtain ⟨rfl, rfl⟩ := ready.2 before known writer
                  simp [writer]
              · next writer => exact absurd own writer
  | rename =>
      cases temp : parties.shared.temp with
      | none =>
          -- another save has taken the file away, so that the rename fails whatever the answer
          have same : some (parties.shared, Piece.remove :: rest) = some (after, left) := by
            rw [← acted, act]
            cases answer <;> simp [temp]
          cases same
          exact ⟨sound, .next trivial unlocks, fun other pieces _ fits => fits⟩
      | some file =>
          cases answer with
          | fails =>
              cases acted
              exact ⟨sound, .next trivial unlocks, fun other pieces _ fits => fits⟩
          | works more =>
              simp only [act, temp] at acted
              cases acted
              exact ⟨sound.rename temp (careful file temp), .done unlocks, fun other pieces _ fits => fits.of_same rfl⟩
  | remove =>
      cases answer with
      | fails =>
          cases acted
          exact ⟨sound, .done unlocks, fun other pieces _ fits => fits⟩
      | works more =>
          cases acted
          exact ⟨sound.of_removed, .done unlocks, fun other pieces _ fits => fits.of_same rfl⟩
  | unlock =>
      cases acted
      exact ⟨sound.of_locked false, .done unlocks, fun other pieces _ fits => fits.of_same rfl⟩

/-- However careful saves of whole payloads overlap and whatever fails, the target is whole. -/
theorem exec_whole {disk : Disk Nat} (sound : disk.Sound whole) {moves : List (Move ρ Answer)}
    {final : Parties (Disk Nat) Piece}
    (saves : ∀ party request, .arrive party request ∈ moves → program request = [] ∨
      ∃ save, program request = pieces save ∧ whole save.payload)
    (careful : Guarded (step program) Careful (.idle disk) moves)
    (reached : exec (step program) (.idle disk) moves = some final) : final.shared.Sound whole := by
  have wholeSaves : Guarded (step program) (fun _ move => ∀ party request, move = .arrive party request →
      program request = [] ∨ ∃ save, program request = pieces save ∧ whole save.payload) (.idle disk) moves :=
    .of_forall fun move member party request same => saves party request (same ▸ member)
  have outline : final.shared.Sound whole ∧ ∀ party, Fits whole party final.shared (final.todo party) := by
    refine exec_invariant (Parties.step_outline ?_ ?_) ⟨sound, fun party => ?_⟩ (careful.and wholeSaves) reached
    · rintro parties party request - ⟨-, good⟩
      rcases good party request rfl with nothing | ⟨save, asks, goodSave⟩
      · rw [nothing]
        exact .done (by simp)
      · rw [asks, pieces]
        split
        · exact .next goodSave (by simp)
        · exact .next goodSave (by simp)
    · rintro parties party answer piece rest after left sound fits todo ⟨careful, -⟩ acted
      exact act_outline parties party answer piece rest after left sound fits todo careful acted
    · exact .done (by simp [Parties.idle])
  exact outline.1

end Invariant

end Runs

end Wftpd.Posix.Replace
