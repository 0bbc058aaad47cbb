import Wftpd.Sftp.Frame

/-! A directory listed by repeated READDIR requests.

A batch that meets an error is dropped with the entries it has taken, so the listing is
complete exactly where every error meets an empty batch.
-/

set_option autoImplicit false

namespace Wftpd.Sftp
open Wftpd.Posix Wftpd.Common Wftpd.Library

/-- What a directory stream yields before its end: entries and transient errors. -/
abbrev Stream : Type := List (Except ErrorKind Name)

namespace Stream

def names (stream : Stream) : List Name := stream.filterMap Except.toOption

/-- The error that the stream yields in such a place. -/
def errorAt (stream : Stream) (place : Nat) : Option ErrorKind :=
  match stream[place]? with
  | some (.error why) => some why
  | _ => none

/-- The entries read for one batch, or the error that is met first. -/
def take : Nat → Stream → Except ErrorKind (List Name)
  | 0, _ => .ok []
  | _ + 1, [] => .ok []
  | _ + 1, .error why :: _ => .error why
  | more + 1, .ok name :: rest => (take more rest).map (name :: ·)

def advance : Nat → Stream → Stream
  | 0, stream => stream
  | _ + 1, [] => []
  | _ + 1, .error _ :: rest => rest
  | more + 1, .ok _ :: rest => advance more rest

/-- Since the last error, so many entries have been read; every error that comes meets an
empty batch. -/
def Aligned : Nat → Stream → Prop
  | _, [] => True
  | read, .error _ :: rest => batch ∣ read ∧ Aligned 0 rest
  | read, .ok _ :: rest => Aligned (read + 1) rest

instance : (read : Nat) → (stream : Stream) → Decidable (Aligned read stream)
  | _, [] => isTrue trivial
  | read, .error _ :: rest =>
      have := instDecidableAligned 0 rest
      inferInstanceAs (Decidable (batch ∣ read ∧ Aligned 0 rest))
  | read, .ok _ :: rest => instDecidableAligned (read + 1) rest

/-- What a client is sent of the stream, with this batch begun. -/
def delivered : List Name → Stream → List Name
  | begun, [] => begun
  | _, .error _ :: rest => delivered [] rest
  | begun, .ok name :: rest =>
      if begun.length + 1 = batch then begun ++ [name] ++ delivered [] rest else delivered (begun ++ [name]) rest

@[simp] theorem names_nil : names [] = [] := rfl

@[simp] theorem names_error (why : ErrorKind) (rest : Stream) : names (.error why :: rest) = names rest := rfl

@[simp] theorem names_ok (name : Name) (rest : Stream) : names (.ok name :: rest) = name :: names rest := rfl

theorem take_length {more : Nat} {stream : Stream} {entries : List Name} (taken : stream.take more = .ok entries) :
    entries.length ≤ more := by
  induction more generalizing stream entries with
  | zero =>
      cases taken
      exact Nat.le_refl 0
  | succ more ih =>
      match stream, taken with
      | [], taken =>
          cases taken
          exact Nat.zero_le _
      | .ok name :: rest, taken =>
          rw [take] at taken
          cases later : take more rest with
          | error why =>
              rw [later] at taken
              cases taken
          | ok others =>
              rw [later] at taken
              cases taken
              exact Nat.succ_le_succ (ih later)

theorem take_eq_nil {more : Nat} {stream : Stream} (taken : stream.take (more + 1) = .ok []) : stream = [] := by
  match stream, taken with
  | [], _ => rfl
  | .ok name :: rest, taken =>
      rw [take] at taken
      cases later : take more rest <;>
        · rw [later] at taken
          cases taken

theorem advance_length {more : Nat} {stream : Stream} (left : stream ≠ []) :
    (stream.advance (more + 1)).length < stream.length := by
  induction more generalizing stream with
  | zero =>
      match stream with
      | [] => exact absurd rfl left
      | .error _ :: rest => exact Nat.lt_succ_self _
      | .ok _ :: rest => exact Nat.lt_succ_self _
  | succ more ih =>
      match stream with
      | [] => exact absurd rfl left
      | .error _ :: rest => exact Nat.lt_succ_self _
      | .ok _ :: rest =>
          by_cases empty : rest = []
          · subst rest
            exact Nat.lt_succ_self _
          · exact Nat.lt_succ_of_lt (ih empty)

/-- The induction is on what is left to read for the batch. -/
theorem delivered_take {more : Nat} {begun : List Name} {stream : Stream} (positive : 0 < more)
    (room : begun.length + more = batch) :
    delivered begun stream =
      (match stream.take more with
        | .ok entries => begun ++ entries
        | .error _ => []) ++ delivered [] (stream.advance more) := by
  induction more generalizing begun stream with
  | zero => omega
  | succ more ih =>
      match stream with
      | [] => simp [take, advance, delivered]
      | .error why :: rest => simp [take, advance, delivered]
      | .ok name :: rest =>
          rw [delivered, take, advance]
          by_cases full : begun.length + 1 = batch
          · have last : more = 0 := by omega
            subst more
            rw [if_pos full]
            simp [take, advance, Except.map]
          · rw [if_neg full, ih (by omega) (by simp; omega)]
            cases take more rest <;> simp [Except.map]

theorem delivered_length (begun : List Name) (stream : Stream) :
    (delivered begun stream).length ≤ begun.length + stream.names.length := by
  fun_induction delivered begun stream with
  | case1 begun => simp
  | case2 begun why rest ih => simp at ih ⊢; omega
  | case3 begun name rest full ih => simp at ih ⊢; omega
  | case4 begun name rest more ih => simp at ih ⊢; omega

/-- Nothing is lost exactly when every error meets an empty batch. -/
theorem delivered_all_iff {begun : List Name} {read : Nat} (stream : Stream) (short : begun.length < batch)
    (counted : begun.length = read % batch) :
    delivered begun stream = begun ++ stream.names ↔ stream.Aligned read := by
  induction stream generalizing begun read with
  | nil => simp [delivered, Aligned]
  | cons item rest ih =>
      cases item with
      | error why =>
          rw [delivered, Aligned, names_error]
          by_cases empty : begun = []
          · subst begun
            have whole : batch ∣ read := Nat.dvd_of_mod_eq_zero counted.symm
            rw [List.nil_append, and_iff_right whole]
            exact ih short rfl
          · -- what the batch has taken is missing
            have some := List.length_pos_iff.mpr empty
            have partly : ¬ batch ∣ read := fun whole => by
              have := Nat.mod_eq_zero_of_dvd whole
              omega
            refine iff_of_false (fun same => ?_) fun both => partly both.1
            have bound := delivered_length [] rest
            rw [same, List.length_append, List.length_nil] at bound
            omega
      | ok name =>
          rw [delivered, Aligned, names_ok]
          have next : (read + 1) % batch = (begun.length + 1) % batch := by
            rw [counted, Nat.mod_add_mod]
          by_cases full : begun.length + 1 = batch
          · rw [if_pos full, List.append_assoc, List.append_cancel_left_eq, List.singleton_append, List.cons_inj_right]
            exact ih (by decide) (by rw [next, full, Nat.mod_self]; rfl)
          · have longer : (begun ++ [name]).length = begun.length + 1 := by simp
            have later := @ih (begun ++ [name]) (read + 1) (by omega) (by rw [longer, next, Nat.mod_eq_of_lt (by omega)])
            rw [if_neg full, ← later, List.append_assoc, List.singleton_append]

/-- The model's reader of a stream, on one that yields these errors. -/
theorem takeEntries_eq {errors : Nat → Option ErrorKind} {more taken : Nat} {stream : Stream}
    (same : ∀ place, errors (taken + place) = stream.errorAt place) :
    takeEntries errors more taken stream.names = (stream.take more, (stream.advance more).names) := by
  induction more generalizing taken stream with
  | zero => rfl
  | succ more ih =>
      have first := same 0
      rw [Nat.add_zero] at first
      match stream with
      | [] => simp [takeEntries, first, errorAt, take, advance]
      | .error why :: rest => simp [takeEntries, first, errorAt, take, advance]
      | .ok name :: rest =>
          have later : ∀ place, errors (taken + 1 + place) = errorAt rest place := by
            intro place
            have shifted := same (place + 1)
            rwa [← Nat.add_assoc, Nat.add_right_comm] at shifted
          simp [takeEntries, first, errorAt, take, advance, ih later]

end Stream

section Listing
variable {handle : Text} {ino : Nat}

def Holds (handle : Text) (ino : Nat) (stream : Stream) (session : Session) : Prop :=
  session.handles.lookup handle = some (.dir ⟨ino, stream.names⟩)

/-- One READDIR; what it meets of the stream comes from the stream. -/
def listStep (handle : Text) (state : Session × Stream) (input : RequestEnv × UInt32) :
    Except StatusCode Reply × Session × Stream :=
  let (answer, session) := readdir { input.1 with streamError := state.2.errorAt } input.2 handle state.1
  (answer, session, state.2.advance batch)

def listedNames : Except StatusCode Reply → List Name
  | .ok (.name _ files) => files.map File.filename
  | _ => []

/-- The answer to a READDIR that gets so far in the stream. -/
def listAnswer (env : RequestEnv) (id : UInt32) (ino : Nat) (fs : FileSystem) :
    Except ErrorKind (List Name) → Except StatusCode Reply
  | .error why => .error (ioStatus why)
  | .ok [] => .error .eof
  | .ok entries => .ok (.name id (entries.map (listEntry env fs ino)))

def Session.at (session : Session) (handle : Text) (ino : Nat) (stream : Stream) : Session :=
  { session with handles := session.handles.insert handle (.dir ⟨ino, stream.names⟩) }

theorem readdir_run {env : RequestEnv} (id : UInt32) {session : Session} {stream : Stream}
    (holds : Holds handle ino stream session) (errors : env.streamError = stream.errorAt) :
    readdir env id handle session =
      (listAnswer env id ino session.fs (stream.take batch), session.at handle ino (stream.advance batch)) := by
  have found : dirHandle handle session = (.ok ⟨ino, stream.names⟩, session) := by
    simp only [Holds] at holds
    simp [dirHandle, holds]
  have taken := @Stream.takeEntries_eq stream.errorAt batch 0 stream fun place => by rw [Nat.zero_add]
  rw [readdir, Action.bind_run_ok found]
  simp only [nextEntries, errors, taken]
  cases stream.take batch with
  | error why => rfl
  | ok entries => cases entries <;> rfl

theorem listStep_run {session : Session} {stream : Stream} (holds : Holds handle ino stream session)
    (input : RequestEnv × UInt32) :
    listStep handle (session, stream) input =
      (listAnswer { input.1 with streamError := stream.errorAt } input.2 ino session.fs (stream.take batch),
        session.at handle ino (stream.advance batch), stream.advance batch) := by
  have ran := @readdir_run handle ino { input.1 with streamError := stream.errorAt } input.2 session stream holds rfl
  rw [listStep, ran]

theorem holds_at (session : Session) (handle : Text) (ino : Nat) (stream : Stream) :
    Holds handle ino stream (session.at handle ino stream) := AList.lookup_insert _

theorem listedNames_answer (env : RequestEnv) (id : UInt32) (ino : Nat) (fs : FileSystem)
    (taken : Except ErrorKind (List Name)) :
    listedNames (listAnswer env id ino fs taken) =
      match taken with
      | .ok entries => entries
      | .error _ => [] := by
  cases taken with
  | error why => rfl
  | ok entries =>
      cases entries with
      | nil => rfl
      | cons first others => simp [listAnswer, listedNames, listEntry, Function.comp_def]

theorem listAnswer_eof {env : RequestEnv} {id : UInt32} {ino : Nat} {fs : FileSystem}
    {taken : Except ErrorKind (List Name)} (ended : listAnswer env id ino fs taken = .error .eof) : taken = .ok [] := by
  cases taken with
  | error why => cases why <;> cases ended
  | ok entries =>
      cases entries with
      | nil => rfl
      | cons first others => cases ended

/-- The answers up to the first Eof, which they end with. -/
def UpToEof (answers : List (Except StatusCode Reply)) : Prop :=
  ∃ front, answers = front ++ [.error .eof] ∧ .error .eof ∉ front

/-- However often and with whatever the requests meet: a client that asks until Eof gets every
entry once and in order, in batches that are not too large, and it gets there. -/
def LosesNothing (handle : Text) (session : Session) (stream : Stream) : Prop :=
  ∀ inputs, let answers := (run (listStep handle) (session, stream) inputs).1
    (UpToEof answers → answers.flatMap listedNames = stream.names) ∧
      (∀ answer ∈ answers, (listedNames answer).length ≤ batch) ∧
      (stream.length < inputs.length → .error .eof ∈ answers)

theorem listing_delivered {session : Session} {stream : Stream} (holds : Holds handle ino stream session)
    {inputs : List (RequestEnv × UInt32)} (ended : UpToEof (run (listStep handle) (session, stream) inputs).1) :
    (run (listStep handle) (session, stream) inputs).1.flatMap listedNames = Stream.delivered [] stream := by
  induction inputs generalizing session stream with
  | nil =>
      obtain ⟨front, shape, -⟩ := ended
      simp at shape
  | cons input rest ih =>
      obtain ⟨front, shape, notBefore⟩ := ended
      have step := @Stream.delivered_take batch [] stream (by decide) rfl
      simp only [List.nil_append] at step
      rw [run_cons, listStep_run holds] at shape ⊢
      rw [List.flatMap_cons, listedNames_answer, step]
      cases front with
      | nil =>
          -- this answer is the Eof, so nothing was left
          simp only [List.nil_append, List.cons.injEq] at shape
          have empty := listAnswer_eof shape.1
          have finished := Stream.take_eq_nil empty
          subst stream
          rw [shape.2]
          rfl
      | cons first before =>
          simp only [List.cons_append, List.cons.injEq] at shape
          have later := ih (holds_at session handle ino _)
            ⟨before, shape.2, fun member => notBefore (List.mem_cons_of_mem _ member)⟩
          rw [List.append_cancel_left_eq]
          exact later

theorem listing_batches {session : Session} {stream : Stream} (holds : Holds handle ino stream session)
    {inputs : List (RequestEnv × UInt32)} :
    ∀ answer ∈ (run (listStep handle) (session, stream) inputs).1, (listedNames answer).length ≤ batch := by
  induction inputs generalizing session stream with
  | nil => simp
  | cons input rest ih =>
      rw [run_cons, listStep_run holds, List.forall_mem_cons]
      refine ⟨?_, ih (holds_at session handle ino _)⟩
      rw [listedNames_answer]
      cases taken : stream.take batch with
      | error why => exact Nat.zero_le _
      | ok entries => exact Stream.take_length taken

/-- Every request that is not answered Eof takes something from the stream. -/
theorem listing_ends {session : Session} {stream : Stream} (holds : Holds handle ino stream session)
    {inputs : List (RequestEnv × UInt32)} (enough : stream.length < inputs.length) :
    .error .eof ∈ (run (listStep handle) (session, stream) inputs).1 := by
  induction inputs generalizing session stream with
  | nil => simp at enough
  | cons input rest ih =>
      rw [run_cons, listStep_run holds]
      by_cases empty : stream = []
      · subst stream
        exact List.mem_cons_self
      · have shorter : (stream.advance batch).length < stream.length := Stream.advance_length empty
        rw [List.length_cons] at enough
        exact List.mem_cons_of_mem _ (ih (holds_at session handle ino _) (by omega))

/-- The listing loses nothing exactly when every error of the stream meets an empty batch. -/
theorem readdir_losesNothing_iff {session : Session} {stream : Stream} (holds : Holds handle ino stream session) :
    LosesNothing handle session stream ↔ stream.Aligned 0 := by
  have delivers := @Stream.delivered_all_iff [] 0 stream (by decide) rfl
  rw [List.nil_append] at delivers
  rw [← delivers]
  constructor
  · intro whole
    -- a client that asks often enough, until its first Eof
    let inputs := List.replicate (stream.length + 1) (permissiveEnv .default, (1 : UInt32))
    have enough : stream.length < inputs.length := by simp [inputs]
    obtain ⟨front, rest, shape, notBefore⟩ := List.eq_append_cons_of_mem (listing_ends holds enough)
    have upTo : UpToEof (run (listStep handle) (session, stream) (inputs.take (front.length + 1))).1 := by
      refine ⟨front, ?_, notBefore⟩
      rw [run_take, shape, List.take_append]
      simp
    rw [← listing_delivered holds upTo]
    exact (whole _).1 upTo
  · intro whole inputs
    refine ⟨?_, listing_batches holds, listing_ends holds⟩
    intro ended
    rw [listing_delivered holds ended, whole]

def listing (stream : Stream) : Session := (sessionAt .empty).at "h1".toList 0 stream

theorem readdir_losesNothing_first :
    LosesNothing "h1".toList (listing [.error .other, .ok "a".toList]) [.error .other, .ok "a".toList] ↔
      Stream.Aligned 0 [.error .other, .ok "a".toList] :=
  readdir_losesNothing_iff (holds_at _ "h1".toList 0 _)

/-- An error after the first entry: the entry never comes. -/
theorem readdir_drops_entry : ¬ ∀ (handle : Text) (ino : Nat) (session : Session) (stream : Stream),
    Holds handle ino stream session → LosesNothing handle session stream := by
  intro complete
  let stream : Stream := [.ok "a".toList, .error .other]
  let request : RequestEnv × UInt32 := (permissiveEnv .default, 1)
  have whole := complete "h1".toList 0 (listing stream) stream (holds_at _ _ _ _) [request, request]
  have answers : (run (listStep "h1".toList) (listing stream, stream) [request, request]).1 =
      [.error .failure, .error .eof] := rfl
  rw [answers] at whole
  have all := whole.1 ⟨[.error .failure], rfl, by decide⟩
  exact absurd all (by decide)

end Listing

end Wftpd.Sftp
